import FoodFactory.Model.WellFormed
import FoodFactory.Controller.Steps

/-!
# What a step can do

`Move K` is the list of what a single step of a task can do to the database: nothing, or one
transaction of one of fourteen kinds, each with what that transaction has made sure of itself.
What a filter saw in an earlier step is not among it: others may have changed that since.

The parameter `K` are the changes that the step may make. A change is the kind of the
transaction and, where it is about a row that is there, the id of that row; of an item it is
the id of its order.

## What is proved

`Task.steps_program`: every step of every task, from every database, is a move, and makes no
change but those that the task names (`Task.changes`).
-/

namespace FoodFactory

open Store Ruby Program

/-- What a transaction changes. -/
inductive Change where
  | insertUser
  | changeUser (i : ℕ)
  | dropUser (i : ℕ)
  | insertHotel
  | changeHotel (i : ℕ)
  | dropHotel (i : ℕ)
  | insertMenu
  | changeMenu (i : ℕ)
  | dropMenu (i : ℕ)
  | insertOrder
  /-- An item is inserted, for the order. -/
  | insertItem (order : ℕ)
  | dropOrder (i : ℕ)
  | revoke
  /-- The tokens that have expired at the time are forgotten. -/
  | clearExpired (now : ℕ)

/-- **What a step can do to the database**, by the changes in `K`. -/
inductive Move (K : Set Change) (db : DB) : DB → Prop
  /-- It reads, or it is refused. -/
  | nothing : Move K db db
  /-- A sign-up: the user is valid, and the address is free. -/
  | insertUser {u : User} : u.WellFormed → emailTaken db none u.email = false → .insertUser ∈ K →
      Move K db { db with users := db.users.insert u }
  /-- An update of a user that is there: the address is the old one, or it is free. -/
  | changeUser {i : ℕ} {u v : User} : db.users.find i = some u → (u.WellFormed → v.WellFormed) →
      (v.email = u.email ∨ emailTaken db (some i) v.email = false) → .changeUser i ∈ K →
      Move K db { db with users := db.users.set i v }
  /-- A new hotel of a user who is there. -/
  | insertHotel {h : Hotel} : h.WellFormed → db.users.Has h.userId → .insertHotel ∈ K →
      Move K db { db with hotels := db.hotels.insert h }
  /-- An update of a hotel that is there: it stays its owner's. -/
  | changeHotel {i : ℕ} {h h' : Hotel} : db.hotels.find i = some h → (h.WellFormed → h'.WellFormed) →
      h'.userId = h.userId → .changeHotel i ∈ K → Move K db { db with hotels := db.hotels.set i h' }
  /-- A hotel goes, with its menus. -/
  | dropHotel (i : ℕ) : .dropHotel i ∈ K → Move K db (db.dropHotels fun j => j == i)
  /-- A new menu of a hotel that is there. -/
  | insertMenu {m : Menu} : m.WellFormed → db.hotels.Has m.hotelId → .insertMenu ∈ K →
      Move K db { db with menus := db.menus.insert m }
  /-- An update of a menu that is there: it stays its hotel's. -/
  | changeMenu {i : ℕ} {m m' : Menu} : db.menus.find i = some m → (m.WellFormed → m'.WellFormed) →
      m'.hotelId = m.hotelId → .changeMenu i ∈ K → Move K db { db with menus := db.menus.set i m' }
  /-- A menu goes, with the items that are of it. -/
  | dropMenu (i : ℕ) : .dropMenu i ∈ K → Move K db (db.dropMenus fun j => j == i)
  /-- A new order, of a user and a hotel that are there. -/
  | insertOrder {o : Order} : o.WellFormed → db.users.Has o.userId → db.hotels.Has o.hotelId → .insertOrder ∈ K →
      Move K db { db with orders := db.orders.insert o }
  /-- A new item, of an order and a menu that are there. -/
  | insertItem {x : OrderItem} : x.WellFormed → db.orders.Has x.orderId → db.menus.Has x.menuId →
      .insertItem x.orderId ∈ K → Move K db { db with orderItems := db.orderItems.insert x }
  /-- An order goes, with its items. -/
  | dropOrder (i : ℕ) : .dropOrder i ∈ K → Move K db (db.dropOrders fun j => j == i)
  /-- A user goes, with the hotels and the orders of the user. -/
  | dropUser (i : ℕ) : .dropUser i ∈ K → Move K db (db.dropUser i)
  /-- A token is revoked that was not. -/
  | revoke {r : JwtBlacklist} : r.WellFormed → JwtTokenService.blacklisted db (some r.jti) = false → .revoke ∈ K →
      Move K db { db with jwtBlacklists := db.jwtBlacklists.insert r }
  /-- The tokens that have expired are forgotten. -/
  | clearExpired (now : ℕ) : .clearExpired now ∈ K → Move K db (clearExpired now db)

variable {K : Set Change} {db : DB} {α : Type}

/-- A step that may make more changes. -/
theorem Move.mono {K' : Set Change} {db' : DB} (h : K ⊆ K') (hm : Move K db db') : Move K' db db' := by
  cases hm with
  | nothing => exact .nothing
  | insertUser hwf hfree hk => exact .insertUser hwf hfree (h hk)
  | changeUser hfind hwf hfree hk => exact .changeUser hfind hwf hfree (h hk)
  | insertHotel hwf hu hk => exact .insertHotel hwf hu (h hk)
  | changeHotel hfind hwf hsame hk => exact .changeHotel hfind hwf hsame (h hk)
  | dropHotel i hk => exact .dropHotel i (h hk)
  | insertMenu hwf hh hk => exact .insertMenu hwf hh (h hk)
  | changeMenu hfind hwf hsame hk => exact .changeMenu hfind hwf hsame (h hk)
  | dropMenu i hk => exact .dropMenu i (h hk)
  | insertOrder hwf hu hh hk => exact .insertOrder hwf hu hh (h hk)
  | insertItem hwf ho hmenu hk => exact .insertItem hwf ho hmenu (h hk)
  | dropOrder i hk => exact .dropOrder i (h hk)
  | dropUser i hk => exact .dropUser i (h hk)
  | revoke hwf hfree hk => exact .revoke hwf hfree (h hk)
  | clearExpired now hk => exact .clearExpired now (h hk)

theorem Move.of_eq {db' : DB} (h : db' = db) : Move K db db' := h ▸ .nothing

/-- What an action leaves, when it leaves what satisfies `P` or nothing new. -/
theorem Move.of_leaves {ε : Type} {m : Action DB ε α} {P : DB → Prop} (h : m.Leaves db P)
    (hP : ∀ db', P db' → Move K db db') : Move K db (m.run db).2 := by
  rcases h with h | ⟨-, h⟩
  · exact hP _ h
  · exact .of_eq h

theorem raising_state (m : Action DB Exn α) (db : DB) : ((raising m).run db).2 = (m.run db).2 := by
  rw [raising, Action.run_mapError]

theorem Move.raising {m : Action DB Exn α} (h : Move K db (m.run db).2) : Move K db ((raising m).run db).2 := by
  rwa [raising_state]

/-! ### Transactions -/

theorem User.move_save (hk : .insertUser ∈ K) (downcase : String → String) (p : UserParams) (role : Option Role)
    (confirmation : Option String) : Move K db ((User.save downcase p role confirmation).run db).2 := by
  refine .of_leaves (User.leaves_save downcase p role confirmation db) ?_
  rintro _ ⟨u, hv, rfl⟩
  obtain ⟨hwf, htaken⟩ := User.wellFormed_of_validateNew hv
  exact .insertUser hwf htaken hk

/-- A column after an update: what is true of what was there, and of a new value, is true of it. -/
theorem changed_of {β : Type} [DecidableEq β] {P : β → Prop} {old new kept : β} (hkept : P kept)
    (hnew : new ≠ old → P new) : P (changed old new kept) := by
  unfold changed
  split_ifs with h
  · exact hkept
  · exact hnew h

/-- Good columns on a well-formed row make a well-formed row. -/
theorem User.GoodColumns.wellFormed {i : ℕ} {old new kept : User} (h : User.GoodColumns db i old new)
    (hk : kept.WellFormed) : (User.merge old new kept).WellFormed where
  name := changed_of (P := fun n => blank n = false) hk.name fun _ => h.name
  role := changed_of (P := fun r : Option Role => r.isSome = true) hk.role fun _ => h.role
  email := changed_of (P := fun e => emailRegexp e = true) hk.email fun hne => (h.email hne).1
  password := h.password

/-- **An update of a user, on whatever is there now.** The address was checked against the users that are there now. -/
theorem User.updateChanged_state (downcase : String → String) (i : ℕ) (u : User) (p : UserParams) (db : DB) :
    ((User.updateChanged downcase i u p).run db).2 = db ∨ ∃ kept v, db.users.find i = some kept ∧
      (kept.WellFormed → v.WellFormed) ∧ (v.email = kept.email ∨ emailTaken db (some i) v.email = false) ∧
      ((User.updateChanged downcase i u p).run db).2 = { db with users := db.users.set i v } := by
  unfold User.updateChanged
  have hrole : (Action.read fun _ => p.roleFor u : Action DB Exn _).Filters db fun role => p.roleFor u = .ok role :=
    Action.Filters.read fun _ => Iff.rfl
  rcases hrole.run_cases with ⟨role, -, hrun⟩ | ⟨-, e, hrun⟩
  · rw [Action.run_bind_ok hrun, Action.run_get_bind]
    cases hv : User.validateUpdate downcase db i u p role with
    | error es => exact .inl rfl
    | ok u' =>
      have hgood := User.validateUpdate_columns hv
      dsimp only
      rcases usersT.run_modify_state db i (f := User.merge u u') fun _ => rfl with hm | ⟨kept, hfind, hm⟩
      · rw [Action.run_bind_ok hm]
        exact .inl rfl
      · rw [Action.run_bind_ok hm]
        refine .inr ⟨kept, User.merge u u' kept, hfind, hgood.wellFormed, ?_, rfl⟩
        exact changed_of (P := fun e => e = kept.email ∨ emailTaken db (some i) e = false) (.inl rfl)
          fun hne => .inr (hgood.email hne).2
  · rw [Action.run_bind_error hrun]
    exact .inl rfl

theorem User.move_updateChanged {i : ℕ} (hk : .changeUser i ∈ K) (downcase : String → String) (u : User) (p : UserParams) :
    Move K db ((User.updateChanged downcase i u p).run db).2 := by
  rcases User.updateChanged_state downcase i u p db with h | ⟨kept, v, hfind, hwf, hemail, h⟩
  · exact .of_eq h
  · exact h ▸ .changeUser hfind hwf hemail hk

theorem Hotel.move_save (hk : .insertHotel ∈ K) (name : Option String) (userId : ℕ) :
    Move K db ((Hotel.save name userId).run db).2 := by
  refine .of_leaves (Hotel.leaves_save name userId db) ?_
  rintro _ ⟨h, hv, hu, rfl⟩
  exact .insertHotel (Hotel.wellFormed_of_validate hv) (Hotel.validate_userId hv ▸ hu) hk

/-- **An update of a hotel, on whatever is there now.** -/
theorem Hotel.updateChanged_state (i : ℕ) (h : Hotel) (name : Option (Option String)) (db : DB) :
    ((Hotel.updateChanged i h name).run db).2 = db ∨ ∃ kept h', db.hotels.find i = some kept ∧
      (kept.WellFormed → h'.WellFormed) ∧ h'.userId = kept.userId ∧
      ((Hotel.updateChanged i h name).run db).2 = { db with hotels := db.hotels.set i h' } := by
  unfold Hotel.updateChanged
  cases hv : Hotel.validate (name.getD (some h.hotelName)) h.userId with
  | error es => exact .inl rfl
  | ok h' =>
    have hkeeps (kept : Hotel) : (Hotel.merge h h' kept).userId = kept.userId := if_pos (Hotel.validate_userId hv)
    dsimp only
    rcases hotelsT.run_modify_state db i (f := Hotel.merge h h') fun kept => by
      show [_] = [_]
      rw [hkeeps] with hm | ⟨kept, hfind, hm⟩
    · rw [Action.run_bind_ok hm]
      exact .inl rfl
    · rw [Action.run_bind_ok hm]
      refine .inr ⟨kept, Hotel.merge h h' kept, hfind, fun hk => ?_, hkeeps kept, rfl⟩
      exact changed_of (P := fun n => blank n = false) hk fun _ => Hotel.wellFormed_of_validate hv

theorem Hotel.move_updateChanged {i : ℕ} (hk : .changeHotel i ∈ K) (h : Hotel) (name : Option (Option String)) :
    Move K db ((Hotel.updateChanged i h name).run db).2 := by
  rcases Hotel.updateChanged_state i h name db with hs | ⟨kept, h', hfind, hwf, hsame, hs⟩
  · exact .of_eq hs
  · exact hs ▸ .changeHotel hfind hwf hsame hk

theorem Menu.move_save (hk : .insertMenu ∈ K) (p : MenuParams) (hotelId : ℕ) :
    Move K db ((Menu.save p hotelId).run db).2 := by
  refine .of_leaves (Menu.leaves_save p hotelId db) ?_
  rintro _ ⟨m, hv, hr, hh, rfl⟩
  exact .insertMenu (Menu.wellFormed_of_validate hv hr) (Menu.validate_hotelId hv ▸ hh) hk

/-- **An update of a menu, on whatever is there now.** -/
theorem Menu.updateChanged_state (i : ℕ) (m : Menu) (p : MenuParams) (db : DB) :
    ((Menu.updateChanged i m p).run db).2 = db ∨ ∃ kept m', db.menus.find i = some kept ∧
      (kept.WellFormed → m'.WellFormed) ∧ m'.hotelId = kept.hotelId ∧
      ((Menu.updateChanged i m p).run db).2 = { db with menus := db.menus.set i m' } := by
  unfold Menu.updateChanged
  cases hv : Menu.validateUpdate m p with
  | error es => exact .inl rfl
  | ok m' =>
    rcases (filters_checkRange m'.price db).run_cases with ⟨_, hr, hrun⟩ | ⟨-, e, hrun⟩
    · have hgood := Menu.wellFormed_of_validate hv hr
      have hkeeps (kept : Menu) : (Menu.merge m m' kept).hotelId = kept.hotelId := if_pos (Menu.validate_hotelId hv)
      dsimp only
      rw [Action.run_bind_ok hrun]
      rcases menusT.run_modify_state db i (f := Menu.merge m m') fun kept => by
        show [_] = [_]
        rw [hkeeps] with hm | ⟨kept, hfind, hm⟩
      · rw [Action.run_bind_ok hm]
        exact .inl rfl
      · rw [Action.run_bind_ok hm]
        refine .inr ⟨kept, Menu.merge m m' kept, hfind, fun hk => ⟨?_, ?_⟩, hkeeps kept, rfl⟩
        · exact changed_of (P := fun n => blank n = false) hk.name fun _ => hgood.name
        · exact changed_of (P := fun n => inRange n = true) hk.price fun _ => hgood.price
    · dsimp only
      rw [Action.run_bind_error hrun]
      exact .inl rfl

theorem Menu.move_updateChanged {i : ℕ} (hk : .changeMenu i ∈ K) (m : Menu) (p : MenuParams) :
    Move K db ((Menu.updateChanged i m p).run db).2 := by
  rcases Menu.updateChanged_state i m p db with hs | ⟨kept, m', hfind, hwf, hsame, hs⟩
  · exact .of_eq hs
  · exact hs ▸ .changeMenu hfind hwf hsame hk

/-- What saving an order does: it is stored when it is accepted, and otherwise nothing is. -/
theorem Order.save_cases (userId hotelId : ℕ) (p : OrderParams) (db : DB) :
    (∃ o, Order.accepted db userId hotelId p = some o ∧ (raising (Order.save userId hotelId p)).run db =
        (.ok (.ok (db.orders.next, o)), { db with orders := db.orders.insert o })) ∨
      (∃ es, (raising (Order.save userId hotelId p)).run db = (.ok (.error es), db)) ∨
      ∃ e, (raising (Order.save userId hotelId p)).run db = (.error e, db) := by
  simp only [raising, Action.run_mapError]
  cases ha : Order.accepted db userId hotelId p with
  | none =>
    rcases Order.run_save_refused ha with ⟨es, hrun⟩ | ⟨e, hrun⟩
    · exact .inr (.inl ⟨es, by rw [hrun]; rfl⟩)
    · exact .inr (.inr ⟨.raised e, by rw [hrun]; rfl⟩)
  | some o => exact .inl ⟨o, rfl, by rw [Order.run_save_ok ha]; rfl⟩

theorem Order.move_save (hk : .insertOrder ∈ K) (userId hotelId : ℕ) (p : OrderParams) :
    Move K db ((raising (Order.save userId hotelId p)).run db).2 := by
  rcases Order.save_cases userId hotelId p db with ⟨o, ha, hrun⟩ | ⟨es, hrun⟩ | ⟨e, hrun⟩
  · rw [hrun]
    obtain ⟨hv, -, hu⟩ := Order.accepted_eq_some.mp ha
    obtain ⟨-, -, hh, _, -, ho⟩ := Order.validate_eq_ok.mp hv
    exact .insertOrder (Order.wellFormed_of_accepted ha) (ho ▸ hu) (ho ▸ hh) hk
  · exact .of_eq (by rw [hrun])
  · exact .of_eq (by rw [hrun])

/-- An item is inserted for an order that is there. Where it is not, the foreign key stops the insertion. -/
theorem OrderItem.create_cases (i : ℕ) (p : ItemParams) (db : DB) :
    (db.orders.Has i ∧ OrderItem.acceptable db p = true ∧ (raising (OrderItem.create i p)).run db =
        (.ok (), { db with orderItems := db.orderItems.insert (p.row i) })) ∨
      ∃ e, (raising (OrderItem.create i p)).run db = (.error e, db) := by
  simp only [raising, Action.run_mapError]
  cases ha : OrderItem.acceptable db p with
  | false =>
    obtain ⟨e, hrun⟩ := OrderItem.run_create_refused (i := i) ha
    exact .inr ⟨.raised e, by rw [hrun]; rfl⟩
  | true =>
    by_cases ho : db.orders.Has i
    · exact .inl ⟨ho, rfl, by rw [OrderItem.run_create_ok ho ha]; rfl⟩
    · obtain ⟨e, hrun⟩ := OrderItem.run_create_gone ho ha
      exact .inr ⟨.raised e, by rw [hrun]; rfl⟩

theorem OrderItem.has_menu_of_acceptable {p : ItemParams} (h : OrderItem.acceptable db p = true) (i : ℕ) :
    db.menus.Has (p.row i).menuId := by
  rw [OrderItem.acceptable, Bool.and_eq_true] at h
  exact (menuExists_iff.mp h.1).2

theorem OrderItem.move_create {i : ℕ} (hk : .insertItem i ∈ K) (p : ItemParams) :
    Move K db ((raising (OrderItem.create i p)).run db).2 := by
  rcases OrderItem.create_cases i p db with ⟨ho, ha, hrun⟩ | ⟨e, hrun⟩
  · rw [hrun]
    exact .insertItem (ItemParams.wellFormed_row ha i) ho (OrderItem.has_menu_of_acceptable ha i) hk
  · exact .of_eq (by rw [hrun])

/-- `create!` refuses an identifier that is blank or in the table, whatever the logout saw before. -/
theorem JwtBlacklist.create_cases (jti : Option String) (exp : ℕ) (db : DB) :
    (∃ j, jti = some j ∧ blank j = false ∧ JwtTokenService.blacklisted db jti = false ∧
        (JwtBlacklist.create jti exp).run db =
          (.ok (), { db with jwtBlacklists := db.jwtBlacklists.insert ⟨j, exp⟩ })) ∨
      ∃ x, (JwtBlacklist.create jti exp).run db = (.error x, db) := by
  cases hj : present jti with
  | false =>
    refine .inr ⟨.recordInvalid (⟨.jti, .blank⟩ :: if JwtTokenService.blacklisted db jti then [⟨.jti, .taken⟩] else []), ?_⟩
    simp only [Action.run, JwtBlacklist.create, presence, hj]
    rfl
  | true =>
    cases hb : JwtTokenService.blacklisted db jti with
    | true =>
      rw [JwtTokenService.blacklisted] at hb
      refine .inr ⟨.recordInvalid [⟨.jti, .taken⟩], ?_⟩
      simp only [Action.run, JwtBlacklist.create, presence, hj, hb]
      rfl
    | false =>
      obtain ⟨j, rfl⟩ : ∃ j, jti = some j := by
        cases jti with
        | none => cases hj
        | some j => exact ⟨j, rfl⟩
      have hblank : blank j = false := blank_of_present hj
      exact .inl ⟨j, rfl, hblank, rfl, JwtBlacklist.run_create_ok hblank hb exp⟩

theorem JwtBlacklist.move_create (hk : .revoke ∈ K) (jti : Option String) (exp : ℕ) :
    Move K db ((JwtBlacklist.create jti exp).run db).2 := by
  rcases JwtBlacklist.create_cases jti exp db with ⟨j, rfl, hblank, hnew, hrun⟩ | ⟨x, hrun⟩
  · rw [hrun]
    exact .revoke hblank hnew hk
  · exact .of_eq (by rw [hrun])

theorem SessionsController.move_revoke (hk : .revoke ∈ K) (p : Payload) : Move K db ((revoke p).run db).2 := by
  unfold revoke
  cases p.exp with
  | none => exact .nothing
  | some e => exact JwtBlacklist.move_create hk p.jti (timeAt e)

/-! ### Steps of tasks -/

instance : Std.Refl (Move K) := ⟨fun _ => .nothing⟩

section Reading

variable {G : DB → DB → Prop} [Std.Refl G]

/-- A step that only reads. -/
theorem steps_read {ε : Type} {m : Action DB ε α} (h : ∀ db, (m.run db).2 = db) : (lift m).Steps G :=
  Steps.lift fun db => by
    rw [h db]
    exact Std.Refl.refl db

theorem steps_authenticate {env : Env} {ctx : Ctx} : (lift (authenticateUser env ctx)).Steps G := steps_read fun _ => rfl

theorem steps_permitted (key : String) (b : Required α) : (lift (permitted key b)).Steps G :=
  steps_read fun _ => (filters_permitted key b).1

omit [Std.Refl G] in
theorem steps_needUser (u : Option (ℕ × User)) : (needUser u).Steps G := by
  cases u <;> trivial

/-- What is reported of an order, row by row. -/
theorem CreateOrderService.steps_created (i : ℕ) (o : Order) : (createdSteps i o).Steps G := by
  refine (steps_read fun _ => rfl).bind fun rows =>
    (Steps.collect (fun x => steps_read fun db => ?_) rows).bind fun _ => trivial
  rw [raising_state]
  rfl

/-- The request is one that only reads. -/
def Req.Reads : Req → Prop
  | .usersIndex | .usersShow _ | .hotelsIndex _ | .hotelsShow _ _ | .menusIndex _ _ | .menusShow _ _ _
  | .ordersIndex _ _ | .ordersShow _ _ _ | .orderItemsIndex _ _ _ | .undefinedAction => True
  | _ => False

/-- No step of it does anything. -/
theorem Req.steps_reads {env : Env} {ctx : Ctx} (req : Req) (h : req.Reads) : (req.steps env ctx).Steps G := by
  cases req with
  | usersIndex =>
    exact steps_authenticate.bind fun _ => (steps_read fun _ => rfl).bind fun loaded =>
      (steps_needUser loaded).bind fun _ => steps_read fun _ => rfl
  | usersShow id =>
    exact steps_authenticate.bind fun _ => (steps_read fun _ => rfl).bind fun _ =>
      (steps_read fun _ => rfl).bind fun _ => trivial
  | hotelsIndex userId =>
    exact steps_authenticate.bind fun _ => (steps_read fun _ => rfl).bind fun _ =>
      (steps_read fun _ => rfl).bind fun _ => steps_read fun _ => rfl
  | hotelsShow userId id =>
    exact steps_authenticate.bind fun _ => (steps_read fun _ => rfl).bind fun _ =>
      (steps_read fun _ => rfl).bind fun _ => trivial
  | menusIndex userId hotelId =>
    exact steps_authenticate.bind fun _ => (steps_read fun _ => rfl).bind fun _ => (steps_read fun _ => rfl).bind fun _ =>
      (steps_read fun _ => rfl).bind fun _ => steps_read fun _ => rfl
  | menusShow userId hotelId id =>
    exact steps_authenticate.bind fun _ => (steps_read fun _ => rfl).bind fun _ =>
      (steps_read fun _ => rfl).bind fun _ => trivial
  | ordersIndex userId hotelId =>
    exact steps_authenticate.bind fun _ => (steps_read fun _ => rfl).bind fun _ => (steps_read fun _ => rfl).bind fun _ =>
      (steps_read fun _ => rfl).bind fun _ => steps_read fun _ => rfl
  | ordersShow userId hotelId id =>
    exact steps_authenticate.bind fun _ => (steps_read fun _ => rfl).bind fun _ =>
      (steps_read fun _ => rfl).bind fun _ => trivial
  | orderItemsIndex userId hotelId orderId => exact steps_authenticate.bind fun _ => steps_read fun _ => rfl
  | undefinedAction => trivial
  | _ => exact h.elim

end Reading

/-- The id that a path gives. -/
def named (param : String) : ℕ := (toI param).toNat

theorem named_of_findParam {ρ : Type} {t : Table ρ} {param : String} {r : ℕ × ρ} (h : findParam t param = some r) :
    named param = r.1 := by
  rw [named, (findParam_eq_some.mp h).2.1]
  rfl

/-- The changes that a request may make. -/
def Req.changes : Req → Set Change
  | .usersUpdate id _ => {.changeUser (named id)}
  | .hotelsCreate _ _ => {.insertHotel}
  | .hotelsUpdate _ id _ => {.changeHotel (named id)}
  | .hotelsDestroy _ id => {.dropHotel (named id)}
  | .menusCreate _ _ _ => {.insertMenu}
  | .menusUpdate _ _ id _ => {.changeMenu (named id)}
  | .menusDestroy _ _ id => {.dropMenu (named id)}
  | .ordersCreate _ _ _ _ => insert .insertOrder (Set.range .insertItem)
  | .ordersDestroy _ _ id => {.dropOrder (named id)}
  | _ => ∅

/-- The changes that a task may make. -/
def Task.changes : Task → Set Change
  | .request _ req => req.changes
  | .signUp _ => {.insertUser}
  | .logout _ _ => {.revoke}
  | .clearExpired now => {.clearExpired now}
  | .destroyUser id => {.dropUser id}

/-- The record that a filter loads is the one that the path names. -/
theorem steps_load {G : DB → DB → Prop} [Std.Refl G] {β ρ : Type} {t : DB → Table ρ} {param : String}
    {m : Action DB Stop (ℕ × ρ)} (hm : ∀ db, m.Filters db fun r => findParam (t db) param = some r)
    {f : ℕ × ρ → Program DB Stop β} (hf : ∀ r, named param = r.1 → (f r).Steps G) : (lift m >>= f).Steps G := by
  refine .first (fun db => ?_) fun db r hr => hf r (named_of_findParam (((hm db).2 r).mp hr))
  rw [(hm db).1]
  exact Std.Refl.refl db

/-- A transaction of a model. -/
theorem steps_raising {m : Action DB Exn α} (h : ∀ db, Move K db (m.run db).2) : (lift (raising m)).Steps (Move K) :=
  Steps.lift fun db => (h db).raising

variable {env : Env} {ctx : Ctx}

theorem UsersController.steps_update (id : String) (body : Required UserParams) :
    (updateSteps env ctx id body).Steps (Move {.changeUser (named id)}) := by
  refine steps_authenticate.bind fun _ => steps_load (fun _ => filters_setUser id) fun user hid =>
    (steps_read fun _ => rfl).bind fun loaded => (steps_needUser loaded).bind fun current => ?_
  rw [hid]
  split_ifs
  · refine (steps_permitted "user" body).bind fun p =>
      (steps_raising fun _ => User.move_updateChanged (Set.mem_singleton _) env.downcase user.2 p).bind fun r => ?_
    cases r <;> trivial
  · trivial

theorem HotelsController.steps_create (userId : String) (body : Required HotelParams) :
    (createSteps env ctx userId body).Steps (Move {.insertHotel}) := by
  refine steps_authenticate.bind fun _ => (steps_read fun _ => rfl).bind fun user =>
    (steps_permitted "hotel" body).bind fun p => (steps_read fun _ => rfl).bind fun _ =>
      (steps_raising fun _ => Hotel.move_save (Set.mem_singleton _) p.join user.1).bind fun r => ?_
  cases r <;> trivial

theorem HotelsController.steps_update (id : String) (body : Required HotelParams) :
    (updateSteps env ctx id body).Steps (Move {.changeHotel (named id)}) := by
  refine steps_authenticate.bind fun _ => steps_load (fun _ => filters_setHotel id) fun hotel hid => ?_
  rw [hid]
  refine (steps_read fun _ => rfl).bind fun _ => (steps_permitted "hotel" body).bind fun p =>
    (steps_raising fun _ => Hotel.move_updateChanged (Set.mem_singleton _) hotel.2 p).bind fun r => ?_
  cases r <;> trivial

theorem HotelsController.steps_destroy (id : String) :
    (destroySteps env ctx id).Steps (Move {.dropHotel (named id)}) := by
  refine steps_authenticate.bind fun _ => steps_load (fun _ => filters_setHotel id) fun hotel hid =>
    (steps_read fun _ => rfl).bind fun _ => (steps_raising fun db => ?_).bind fun _ => trivial
  rw [destroyHotel_run, hid]
  exact .dropHotel hotel.1 rfl

theorem MenusController.steps_create (hotelId : String) (body : Required MenuParams) :
    (createSteps env ctx hotelId body).Steps (Move {.insertMenu}) := by
  refine steps_authenticate.bind fun _ => (steps_read fun _ => rfl).bind fun hotel =>
    (steps_permitted "menu" body).bind fun p => (steps_read fun _ => rfl).bind fun _ =>
      (steps_raising fun _ => Menu.move_save (Set.mem_singleton _) p hotel.1).bind fun r => ?_
  cases r <;> trivial

theorem MenusController.steps_update (id : String) (body : Required MenuParams) :
    (updateSteps env ctx id body).Steps (Move {.changeMenu (named id)}) := by
  refine steps_authenticate.bind fun _ => steps_load (fun _ => filters_setMenu id) fun menu hid => ?_
  rw [hid]
  refine (steps_read fun _ => rfl).bind fun _ => (steps_permitted "menu" body).bind fun p =>
    (steps_raising fun _ => Menu.move_updateChanged (Set.mem_singleton _) menu.2 p).bind fun r => ?_
  cases r <;> trivial

theorem MenusController.steps_destroy (id : String) :
    (destroySteps env ctx id).Steps (Move {.dropMenu (named id)}) := by
  refine steps_authenticate.bind fun _ => steps_load (fun _ => filters_setMenu id) fun menu hid =>
    (steps_read fun _ => rfl).bind fun _ => (steps_raising fun db => ?_).bind fun _ => trivial
  rw [destroyMenu_run, hid]
  exact .dropMenu menu.1 rfl

theorem OrdersController.steps_destroy (userId id : String) :
    (destroySteps env ctx userId id).Steps (Move {.dropOrder (named id)}) := by
  refine steps_authenticate.bind fun _ => steps_load (fun _ => filters_setOrder id) fun order hid =>
    (steps_read fun _ => rfl).bind fun user => (steps_read fun _ => rfl).bind fun _ =>
      (steps_read fun _ => rfl).bind fun owner => ?_
  split_ifs
  · refine (steps_raising fun db => ?_).bind fun _ => trivial
    rw [destroyOrder_run, hid]
    exact .dropOrder order.1 rfl
  · trivial

/-- The service inserts an order, and items. -/
theorem CreateOrderService.steps_call (userId hotelId : ℕ) (p : OrderParams) (items : List ItemParams) :
    (callSteps userId hotelId p items).Steps (Move (insert .insertOrder (Set.range .insertItem))) := by
  refine (Steps.lift fun _ => Order.move_save (.inl rfl) userId hotelId p).bind fun saved => ?_
  match saved with
  | .error es => trivial
  | .ok (i, order) =>
    exact (Steps.each (fun x => Steps.lift fun _ => OrderItem.move_create (.inr ⟨i, rfl⟩) x) items).bind fun _ =>
      steps_created i order

theorem OrdersController.steps_create (hotelId : String) (order : Required OrderBody) (orderItems : ItemsBody) :
    (createSteps env ctx hotelId order orderItems).Steps (Move (insert .insertOrder (Set.range .insertItem))) := by
  refine steps_authenticate.bind fun _ => (steps_read fun _ => rfl).bind fun hotel =>
    (steps_read fun _ => filters_orderParams.1).bind fun params => (steps_read fun _ => rfl).bind fun loaded =>
      (steps_read fun _ => filters_orderItemsParams.1).bind fun items => (steps_needUser loaded).bind fun current =>
        (CreateOrderService.steps_call current.1 hotel.1 params items).bind fun _ => trivial

/-- Every step of a request is a move, by the changes that the request names. -/
theorem Req.steps_changes (req : Req) : (req.steps env ctx).Steps (Move req.changes) := by
  cases req with
  | usersUpdate id body => exact UsersController.steps_update id body
  | hotelsCreate userId body => exact HotelsController.steps_create userId body
  | hotelsUpdate userId id body => exact HotelsController.steps_update id body
  | hotelsDestroy userId id => exact HotelsController.steps_destroy id
  | menusCreate userId hotelId body => exact MenusController.steps_create hotelId body
  | menusUpdate userId hotelId id body => exact MenusController.steps_update id body
  | menusDestroy userId hotelId id => exact MenusController.steps_destroy id
  | ordersCreate userId hotelId order orderItems => exact OrdersController.steps_create hotelId order orderItems
  | ordersDestroy userId hotelId id => exact OrdersController.steps_destroy userId id
  | _ => exact steps_reads _ trivial

theorem RegistrationsController.steps_create (body : Required SignUpParams) :
    (createSteps env body).Steps (Move {.insertUser}) := by
  refine (steps_read fun _ => filters_validateRole.1).bind fun _ => (steps_permitted "user" body).bind fun p =>
    (Steps.lift fun db => ?_).bind fun _ => trivial
  unfold buildAndSave
  rw [Action.run_bind, Action.run_read]
  cases (castRole (p.role.getD .nil)).mapError Stop.raised with
  | error e => exact .nothing
  | ok role =>
    exact (User.move_save (Set.mem_singleton _) env.downcase p.toUserParams role p.passwordConfirmation.join).raising

theorem SessionsController.steps_destroy (now : ℕ) (authorization : Option String) :
    (destroySteps env now authorization).Steps (Move {.revoke}) := by
  unfold destroySteps
  split_ifs
  · refine (steps_read fun _ => rfl).bind fun decoded => ?_
    cases decoded with
    | none => trivial
    | some p => exact (steps_raising fun _ => move_revoke (Set.mem_singleton _) p).bind fun _ => trivial
  · trivial

/-- **Every step of every task is a move**, by the changes that the task names. -/
theorem Task.steps_program (t : Task) : (t.program env).Steps (Move t.changes) := by
  cases t with
  | request ctx req => exact req.steps_changes.bind fun _ => trivial
  | signUp body => exact (RegistrationsController.steps_create body).bind fun _ => trivial
  | logout now authorization => exact (SessionsController.steps_destroy now authorization).bind fun _ => trivial
  | clearExpired now => exact Steps.lift fun _ => .clearExpired now rfl
  | destroyUser id =>
    refine (steps_raising fun db => ?_).bind fun _ => trivial
    rw [destroyUser_run]
    exact .dropUser id rfl

end FoodFactory
