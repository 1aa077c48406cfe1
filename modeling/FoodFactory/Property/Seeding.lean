import FoodFactory.Job.Seeds
import FoodFactory.Property.Interleaving

/-!
# What seeding does

An order of the seeds is created without a status, which the model requires. So the seeds raise
when they come to the first order, and they come to it as soon as there is a client, which they
have created themselves.

## What is proved

* `seeds_raise`: the seeds raise, whatever they draw and whatever database they are run on. They
  keep the database sound, no user and no order is changed or deleted, and no order is created.
* `seeds_twice`: on a database that was seeded, the seeds do nothing.
* `seeds_run`: what exactly they leave, once their users are created: three hotels more for each
  owner, five menus more for each hotel, no order, and which exception.
* `createOrderItems_run`: what `create_order_items`, which the seeds never come to, does for an
  order that has a status, at a hotel that is there and whose prices are not negative and not
  huge: up to three items of different menus of the hotel, and a total that is the sum of their
  prices.
-/

namespace FoodFactory

open Store Seeds

variable {db db' db'' : DB} {downcase : String → String} {d : Draws}

/-- From a database to one that was seeded since. -/
structure Seeded (db db' : DB) : Prop where
  sound : db.Sound → db'.Sound
  users : ∀ i u, db.users.find i = some u → db'.users.find i = some u
  orders : db'.orders = db.orders
  orderItems : db'.orderItems = db.orderItems
  jwtBlacklists : db'.jwtBlacklists = db.jwtBlacklists

theorem Seeded.refl (db : DB) : Seeded db db := ⟨fun h => h, fun _ _ h => h, rfl, rfl, rfl⟩

theorem Seeded.trans (h : Seeded db db') (h' : Seeded db' db'') : Seeded db db'' where
  sound := fun hs => h'.sound (h.sound hs)
  users := fun i u hu => h'.users i u (h.users i u hu)
  orders := h'.orders.trans h.orders
  orderItems := h'.orderItems.trans h.orderItems
  jwtBlacklists := h'.jwtBlacklists.trans h.jwtBlacklists

/-- A move that touches neither a user that is there nor an order. -/
theorem Seeded.of_move {K : Set Change} (hm : Move K db db')
    (husers : ∀ i u, db.users.find i = some u → db'.users.find i = some u) (horders : db'.orders = db.orders)
    (hitems : db'.orderItems = db.orderItems) (htokens : db'.jwtBlacklists = db.jwtBlacklists) : Seeded db db' :=
  ⟨fun h => h.move hm, husers, horders, hitems, htokens⟩

/-! ### Each record -/

theorem orRaise_state {α : Type} (m : Action DB Exn (Except (List ModelError) α)) (db : DB) :
    ((orRaise m).run db).2 = (m.run db).2 := by
  refine Action.run_bind_state (fun r s => ?_) db
  cases r <;> rfl

theorem run_orRaise_ok {α : Type} {m : Action DB Exn (Except (List ModelError) α)} {a : α}
    (h : m.run db = (.ok (.ok a), db')) : (orRaise m).run db = (.ok a, db') :=
  Action.run_bind_ok h

theorem run_orRaise_error {α : Type} {m : Action DB Exn (Except (List ModelError) α)} {es : List ModelError}
    (h : m.run db = (.ok (.error es), db')) : (orRaise m).run db = (.error (.recordInvalid es), db') :=
  Action.run_bind_ok h

/-- The user that `create!` is to create. -/
def seedUser (downcase : String → String) (db : DB) (name email : String) (role : Role) : Except (List ModelError) User :=
  User.validateNew downcase db ⟨some (some name), some (some email), some (some "password"), none⟩ (some role)
    (some "password")

theorem run_createUser_ok {name email : String} {role : Role} {u : User}
    (h : seedUser downcase db name email role = .ok u) :
    (createUser downcase name email role).run db =
      (.ok (db.users.next, u), { db with users := db.users.insert u }) :=
  run_orRaise_ok (User.run_save_ok h)

theorem run_createUser_error {name email : String} {role : Role} {es : List ModelError}
    (h : seedUser downcase db name email role = .error es) :
    (createUser downcase name email role).run db = (.error (.recordInvalid es), db) :=
  run_orRaise_error (User.run_save_error h)

theorem moves_createUser (name email : String) (role : Role) :
    (createUser downcase name email role).Moves Seeded := by
  intro db
  cases h : seedUser downcase db name email role with
  | error es =>
    rw [run_createUser_error h]
    exact .refl db
  | ok u =>
    rw [run_createUser_ok h]
    obtain ⟨hwf, htaken⟩ := User.wellFormed_of_validateNew h
    exact .of_move (K := {.insertUser}) (.insertUser hwf htaken rfl) (fun i v hv => Table.find_insert_of_find hv u)
      rfl rfl rfl

theorem moves_createClient (i : ℕ) : (createClient downcase d i).Moves Seeded :=
  .bind (fun _ _ _ => .trans) (moves_createUser _ _ _) fun _ => .refl

theorem moves_seedUsers : (seedUsers downcase d).Moves Seeded :=
  .bind (fun _ _ _ => .trans) (moves_createUser _ _ _) fun _ =>
    .bind (fun _ _ _ => .trans) (moves_createUser _ _ _) fun _ =>
      .each .refl (fun _ _ _ => .trans) moves_createClient _

theorem moves_createHotel (owner j : ℕ) : (createHotel d owner j).Moves Seeded := by
  refine .bind (fun _ _ _ => .trans) (fun db => ?_) fun _ => .refl
  rw [orRaise_state]
  rcases Hotel.leaves_save (some (d.restaurant owner j)) owner db with ⟨h, hv, hu, hs⟩ | ⟨-, hs⟩
  · rw [hs]
    exact .of_move (K := {.insertHotel}) (.insertHotel (Hotel.wellFormed_of_validate hv) (Hotel.validate_userId hv ▸ hu) rfl)
      (fun _ _ hi => hi) rfl rfl rfl
  · rw [hs]
    exact .refl db

theorem moves_seedHotels : (seedHotels d).Moves Seeded :=
  .bind (fun _ _ _ => .trans) .refl fun _ =>
    .each .refl (fun _ _ _ => .trans) (fun _ => .each .refl (fun _ _ _ => .trans) (moves_createHotel _) _) _

theorem moves_createMenu (hotel j : ℕ) : (createMenu d hotel j).Moves Seeded := by
  refine .bind (fun _ _ _ => .trans) (fun db => ?_) fun _ => .refl
  rw [orRaise_state]
  rcases Menu.leaves_save _ hotel db with ⟨m, hv, hr, hh, hs⟩ | ⟨-, hs⟩
  · rw [hs]
    exact .of_move (K := {.insertMenu}) (.insertMenu (Menu.wellFormed_of_validate hv hr) (Menu.validate_hotelId hv ▸ hh) rfl)
      (fun _ _ hi => hi) rfl rfl rfl
  · rw [hs]
    exact .refl db

theorem moves_seedMenus : (seedMenus d).Moves Seeded :=
  .bind (fun _ _ _ => .trans) .refl fun _ =>
    .each .refl (fun _ _ _ => .trans) (fun _ => .each .refl (fun _ _ _ => .trans) (moves_createMenu _) _) _

/-! ### Orders -/

/-- An order without a status is refused. -/
theorem run_createOrder (client : ℕ) (hotel : Option (ℕ × Hotel)) (totalPrice : ℤ) (db : DB) :
    ∃ es, (createOrder client hotel totalPrice none).run db = (.error (.recordInvalid es), db) ∧
      (hotel.isSome → 0 ≤ totalPrice → es = [⟨.status, .blank⟩]) := by
  cases hv : validateOrder client hotel totalPrice none with
  | ok o =>
    obtain ⟨hnil, -⟩ := validated_eq_ok.mp hv
    simp [presence, present] at hnil
  | error es =>
    refine ⟨es, run_orRaise_error (by rw [hv]; rfl), fun hsome hle => ?_⟩
    rw [validateOrder, hsome, if_pos hle] at hv
    exact (Except.error.inj hv).symm

/-- There is a user with the role. -/
def HasRole (role : Role) (db : DB) : Prop := ∃ i u, db.users.find i = some u ∧ u.role = some role

theorem HasRole.seeded {role : Role} (h : HasRole role db) (hs : Seeded db db') : HasRole role db' := by
  obtain ⟨i, u, hu, hr⟩ := h
  exact ⟨i, u, hs.users i u hu, hr⟩

/-- A user that was created is there. -/
theorem hasRole_of_createUser {name email : String} {role : Role} {x : ℕ × User}
    (h : ((createUser downcase name email role).run db).1 = .ok x) :
    HasRole role ((createUser downcase name email role).run db).2 := by
  cases hv : seedUser downcase db name email role with
  | error es =>
    rw [run_createUser_error hv] at h
    cases h
  | ok u =>
    rw [run_createUser_ok hv]
    exact ⟨db.users.next, u, Table.find_insert_next db.users u, User.validateNew_role hv⟩

/-- The loop over the clients creates one. -/
theorem hasRole_of_createClients {i : ℕ} {l : List ℕ}
    (h : ((Action.each (createClient downcase d) (i :: l)).run db).1 = .ok ()) :
    HasRole .client ((Action.each (createClient downcase d) (i :: l)).run db).2 := by
  have hrest : (Action.each (createClient downcase d) l).Moves Seeded :=
    .each .refl (fun _ _ _ => .trans) moves_createClient l
  refine Action.holds_of_first h (fun _ hfirst => ?_) fun _ s hs => hs.seeded (hrest s)
  exact Action.holds_of_first hfirst (fun _ => hasRole_of_createUser) fun _ _ hs => hs

/-- When the users are created, there is an owner and a client. -/
theorem hasRole_of_seedUsers (h : ((seedUsers downcase d).run db).1 = .ok ()) :
    HasRole .hotelOwner ((seedUsers downcase d).run db).2 ∧ HasRole .client ((seedUsers downcase d).run db).2 := by
  have hclients : (Action.each (createClient downcase d) (List.range 10)).Moves Seeded :=
    .each .refl (fun _ _ _ => .trans) moves_createClient _
  constructor
  · refine Action.holds_of_second h fun _ _ h => ?_
    exact Action.holds_of_first h (fun _ => hasRole_of_createUser) fun _ s hs => hs.seeded (hclients s)
  · refine Action.holds_of_second h fun _ _ h => Action.holds_of_second h fun _ _ h => ?_
    exact hasRole_of_createClients h

/-- Where there is a client, the seeds raise when they come to the orders. -/
theorem run_seedOrders (h : HasRole .client db) : ∃ es, (seedOrders d).run db = (.error (.recordInvalid es), db) ∧
    (db.hotels.rows ≠ [] → es = [⟨.status, .blank⟩]) := by
  obtain ⟨i, u, hu, hr⟩ := h
  have hmem : (i, u) ∈ db.users.select fun u => u.role == some .client := Table.mem_select.mpr ⟨hu, by simp [hr]⟩
  unfold seedOrders
  rw [Action.run_get_bind, Action.run_get_bind]
  cases hc : db.users.select fun u => u.role == some .client with
  | nil =>
    rw [hc] at hmem
    cases hmem
  | cons client clients =>
    obtain ⟨es, hrun, hes⟩ := run_createOrder client.1 ((d.hotel client.1 0).pick db.hotels.rows) 0 db
    have hfirst : (Action.each (seedOrder d db.hotels.rows client.1) (List.range 3)).run db =
        (.error (.recordInvalid es), db) := by
      rw [show List.range 3 = 0 :: [1, 2] from rfl, Action.run_each_cons]
      exact Action.run_bind_error (Action.run_bind_error hrun)
    refine ⟨es, ?_, fun hne => hes ((d.hotel client.1 0).isSome _ hne) le_rfl⟩
    rw [Action.run_each_cons]
    exact Action.run_bind_error hfirst

theorem moves_seedOrders : (seedOrders d).Moves Seeded := by
  refine .bind (fun _ _ _ => .trans) .refl fun clients => .bind (fun _ _ _ => .trans) .refl fun hotels =>
    .each .refl (fun _ _ _ => .trans) (fun client => .each .refl (fun _ _ _ => .trans) (fun j db => ?_) _) _
  obtain ⟨es, hrun, -⟩ := run_createOrder client.1 ((d.hotel client.1 j).pick hotels) 0 db
  have hfirst : (seedOrder d hotels client.1 j).run db = (.error (.recordInvalid es), db) := Action.run_bind_error hrun
  rw [hfirst]
  exact .refl db

/-! ### All together -/

/-- What comes after the users. -/
theorem moves_afterUsers : (do seedHotels d; seedMenus d; seedOrders d : Action DB Exn Unit).Moves Seeded :=
  .bind (fun _ _ _ => .trans) moves_seedHotels fun _ =>
    .bind (fun _ _ _ => .trans) moves_seedMenus fun _ => moves_seedOrders

/-- **The seeds raise**, from every database and with all draws, and no order comes of them. -/
theorem seeds_raise (downcase : String → String) (d : Draws) (db : DB) :
    (∃ e, ((callForCreate downcase d).run db).1 = .error e) ∧ Seeded db ((callForCreate downcase d).run db).2 := by
  have hmoves : (callForCreate downcase d).Moves Seeded :=
    .bind (fun _ _ _ => .trans) moves_seedUsers fun _ => moves_afterUsers
  refine ⟨?_, hmoves db⟩
  cases h : ((callForCreate downcase d).run db).1 with
  | error e => exact ⟨e, rfl⟩
  | ok _ =>
    -- with its users, hotels and menus created, it would have to create an order for a client
    obtain ⟨_, husers, hrun⟩ := Action.ok_of_bind h
    have hclient := (hasRole_of_seedUsers husers).2
    rw [callForCreate, hrun] at h
    obtain ⟨_, -, hrun'⟩ := Action.ok_of_bind h
    have hclient' := hclient.seeded (moves_seedHotels (d := d) _)
    rw [hrun'] at h
    obtain ⟨_, -, hrun''⟩ := Action.ok_of_bind h
    obtain ⟨es, horders, -⟩ := run_seedOrders (d := d) (hclient'.seeded (moves_seedMenus (d := d) _))
    rw [hrun'', horders] at h
    cases h

/-- A user cannot be created again while it is there. -/
theorem User.validateNew_again {p : UserParams} {role : Option Role} {confirmation : Option String} {u : User}
    (h : User.validateNew downcase db p role confirmation = .ok u) {i : ℕ} (hi : db'.users.find i = some u) :
    ∃ es, User.validateNew downcase db' p role confirmation = .error es := by
  cases hv : User.validateNew downcase db' p role confirmation with
  | error es => exact ⟨es, rfl⟩
  | ok u' =>
    obtain ⟨-, htaken⟩ := User.wellFormed_of_validateNew hv
    have hsame : u.email = u'.email := by
      obtain ⟨-, rfl⟩ := validated_eq_ok.mp h
      obtain ⟨-, rfl⟩ := validated_eq_ok.mp hv
      rfl
    exact absurd hsame (emailTaken_eq_false.mp htaken i u hi (by simp))

theorem run_callForCreate_refused (d : Draws) {es : List ModelError}
    (h : seedUser downcase db "Admin" "admin@example.com" .admin = .error es) :
    (callForCreate downcase d).run db = (.error (.recordInvalid es), db) := by
  have husers : (seedUsers downcase d).run db = (.error (.recordInvalid es), db) :=
    Action.run_bind_error (run_createUser_error h)
  exact Action.run_bind_error husers

/-- The users of the seeds after the first. -/
def otherUsers (downcase : String → String) (d : Draws) : Action DB Exn Unit := do
  let _ ← createUser downcase "Hotel owner" "hotelowner@example.com" .hotelOwner
  Action.each (createClient downcase d) (List.range 10)

/-- What the seeds do after the first user. -/
theorem seeded_callForCreate (d : Draws) {u : User}
    (h : seedUser downcase db "Admin" "admin@example.com" .admin = .ok u) :
    Seeded { db with users := db.users.insert u } ((callForCreate downcase d).run db).2 := by
  have husers : (seedUsers downcase d).run db = (otherUsers downcase d).run { db with users := db.users.insert u } :=
    Action.run_bind_ok (run_createUser_ok h)
  have hothers : (otherUsers downcase d).Moves Seeded :=
    .bind (fun _ _ _ => .trans) (moves_createUser _ _ _) fun _ => .each .refl (fun _ _ _ => .trans) moves_createClient _
  have hrest : (do otherUsers downcase d; seedHotels d; seedMenus d; seedOrders d : Action DB Exn Unit).Moves Seeded :=
    .bind (fun _ _ _ => .trans) hothers fun _ => moves_afterUsers
  rw [callForCreate, Action.run_bind, husers, ← Action.run_bind]
  exact hrest _

/-- **The seeds do nothing a second time**, whatever they draw. -/
theorem seeds_twice (downcase : String → String) (d d' : Draws) (db : DB) :
    ((callForCreate downcase d').run ((callForCreate downcase d).run db).2).2 =
      ((callForCreate downcase d).run db).2 := by
  cases hv : seedUser downcase db "Admin" "admin@example.com" .admin with
  | error es =>
    rw [run_callForCreate_refused d hv, run_callForCreate_refused d' hv]
  | ok u =>
    have hthere := (seeded_callForCreate d hv).users _ u (Table.find_insert_next db.users u)
    obtain ⟨es, hes⟩ := User.validateNew_again hv hthere
    rw [run_callForCreate_refused d' hes]

/-! ### What is left -/

/-- What is drawn for names is not blank. -/
structure Draws.Named (d : Draws) : Prop where
  restaurant : ∀ i j, Ruby.blank (d.restaurant i j) = false
  dish : ∀ i j, Ruby.blank (d.dish i j) = false

/-- The hotels of one owner. -/
def hotelsFor (d : Draws) (owner : ℕ) : List Hotel := (List.range 3).map fun j => ⟨d.restaurant owner j, owner⟩

/-- The menus of one hotel. -/
def menusFor (d : Draws) (hotel : ℕ) : List Menu :=
  (List.range 5).map fun j => ⟨d.dish hotel j, hotel, some (d.description hotel j), d.price hotel j⟩

/-- The hotels, with three more for each owner. -/
def seededHotels (d : Draws) (db : DB) : Table Hotel :=
  db.hotels.insertAll ((db.users.select fun u => u.role == some .hotelOwner).flatMap fun owner => hotelsFor d owner.1)

/-- The menus, with five more for each hotel. -/
def seededMenus (d : Draws) (db : DB) : Table Menu :=
  db.menus.insertAll (db.hotels.rows.flatMap fun hotel => menusFor d hotel.1)

theorem run_createHotel (hd : d.Named) {owner : ℕ} (hu : db.users.Has owner) (j : ℕ) :
    (createHotel d owner j).run db =
      (.ok (), { db with hotels := db.hotels.insert ⟨d.restaurant owner j, owner⟩ }) := by
  have hv : Hotel.validate (some (d.restaurant owner j)) owner = .ok ⟨d.restaurant owner j, owner⟩ := by
    simp [Hotel.validate, present, hd.restaurant]
  have hp : hotelsT.parents db ⟨d.restaurant owner j, owner⟩ = true := decide_eq_true hu
  have hsave : (Hotel.save (some (d.restaurant owner j)) owner).run db =
      (.ok (.ok (db.hotels.next, ⟨d.restaurant owner j, owner⟩)),
        { db with hotels := db.hotels.insert ⟨d.restaurant owner j, owner⟩ }) := by
    rw [Hotel.save, hv]
    exact Action.run_bind_ok (hotelsT.run_insert_ok hp)
  exact Action.run_bind_ok (run_orRaise_ok hsave)

theorem run_createMenu (hd : d.Named) {hotel : ℕ} (hh : db.hotels.Has hotel) (j : ℕ) :
    (createMenu d hotel j).run db = (.ok (), { db with
      menus := db.menus.insert ⟨d.dish hotel j, hotel, some (d.description hotel j), d.price hotel j⟩ }) := by
  have hv : Menu.validate (some (d.dish hotel j)) hotel (some (d.description hotel j)) (some (d.price hotel j)) =
      .ok ⟨d.dish hotel j, hotel, some (d.description hotel j), d.price hotel j⟩ := by
    simp [Menu.validate, present, hd.dish]
  have hrange : inRange (d.price hotel j) = true := by
    obtain ⟨n, hlow, hhigh⟩ := d.price hotel j
    simp only [inRange, Bool.and_eq_true, decide_eq_true_eq]
    omega
  have hp : menusT.parents db ⟨d.dish hotel j, hotel, some (d.description hotel j), d.price hotel j⟩ = true :=
    decide_eq_true hh
  have hcheck : (checkRange (d.price hotel j)).run db = (.ok (), db) := by
    rw [checkRange, Action.run_read, if_pos hrange]
  have hsave : (Menu.save ⟨some (some (d.dish hotel j)), some (some (d.description hotel j)),
      some (.int (d.price hotel j))⟩ hotel).run db =
      (.ok (.ok (db.menus.next, ⟨d.dish hotel j, hotel, some (d.description hotel j), d.price hotel j⟩)), { db with
        menus := db.menus.insert ⟨d.dish hotel j, hotel, some (d.description hotel j), d.price hotel j⟩ }) := by
    unfold Menu.save
    simp only [Option.join_some, Option.bind_some, Ruby.Scalar.castInteger]
    rw [hv]
    exact (Action.run_bind_ok hcheck).trans (Action.run_bind_ok (menusT.run_insert_ok hp))
  exact Action.run_bind_ok (run_orRaise_ok hsave)

/-- Each owner gets three hotels. -/
theorem run_seedHotels (hd : d.Named) (db : DB) :
    (seedHotels d).run db = (.ok (), { db with hotels := seededHotels d db }) := by
  unfold seedHotels
  rw [Action.run_get_bind]
  refine hotelsT.each_insertAll (I := fun s => s.users = db.users) (fun _ _ hs => hs) _ (fun owner howner s hs => ?_) db rfl
  have hhas : s.users.Has owner.1 := by
    rw [hs]
    exact .of_find (Table.mem_select.mp howner).1
  rw [hotelsFor, List.map_eq_flatMap]
  exact hotelsT.each_insertAll (I := fun s => s.users.Has owner.1) (fun _ _ hs => hs) _
    (fun j _ s hs => run_createHotel hd hs j) s hhas

/-- Each hotel gets five menus. -/
theorem run_seedMenus (hd : d.Named) (db : DB) :
    (seedMenus d).run db = (.ok (), { db with menus := seededMenus d db }) := by
  unfold seedMenus
  rw [Action.run_get_bind]
  refine menusT.each_insertAll (I := fun s => s.hotels = db.hotels) (fun _ _ hs => hs) _ (fun hotel hhotel s hs => ?_) db rfl
  have hhas : s.hotels.Has hotel.1 := by
    rw [hs]
    exact .of_find (Table.find_eq_some.mpr hhotel)
  rw [menusFor, List.map_eq_flatMap]
  exact menusT.each_insertAll (I := fun s => s.hotels.Has hotel.1) (fun _ _ hs => hs) _
    (fun j _ s hs => run_createMenu hd hs j) s hhas

/-- Where there is an owner, there are hotels. -/
theorem seededHotels_ne_nil (h : HasRole .hotelOwner db) : (seededHotels d db).rows ≠ [] := by
  obtain ⟨i, u, hu, hr⟩ := h
  have howner : (i, u) ∈ db.users.select fun u => u.role == some .hotelOwner := Table.mem_select.mpr ⟨hu, by simp [hr]⟩
  have hmem : (⟨d.restaurant i 0, i⟩ : Hotel) ∈
      (db.users.select fun u => u.role == some .hotelOwner).flatMap fun owner => hotelsFor d owner.1 :=
    List.mem_flatMap.mpr ⟨(i, u), howner, List.mem_map.mpr ⟨0, by simp, rfl⟩⟩
  obtain ⟨j, hj⟩ := Table.exists_find_insertAll db.hotels hmem
  exact List.ne_nil_of_mem (Table.find_eq_some.mp hj)

/-- **What the seeds leave**, once their users are created: three hotels more for each owner, then five menus more for each
hotel, and no order. -/
theorem seeds_run (hd : d.Named) {db₁ : DB} (husers : (seedUsers downcase d).run db = (.ok (), db₁)) :
    let db₂ : DB := { db₁ with hotels := seededHotels d db₁ }
    (callForCreate downcase d).run db =
      (.error (.recordInvalid [⟨.status, .blank⟩]), { db₂ with menus := seededMenus d db₂ }) := by
  intro db₂
  have hok : ((seedUsers downcase d).run db).1 = .ok () := by rw [husers]
  have hroles := hasRole_of_seedUsers hok
  rw [husers] at hroles
  have hclient : HasRole .client ({ db₂ with menus := seededMenus d db₂ } : DB) := hroles.2
  obtain ⟨es, hrun, hes⟩ := run_seedOrders (d := d) hclient
  rw [hes (seededHotels_ne_nil hroles.1)] at hrun
  rw [callForCreate, Action.run_bind_ok husers, Action.run_bind_ok (run_seedHotels hd db₁),
    Action.run_bind_ok (run_seedMenus hd db₂), hrun]

/-- Draws for a test: the first of what there is, and the same names for all. -/
def plainDraws : Draws where
  name := fun _ => "Client"
  email := fun i => String.ofList (List.replicate (i + 1) 'c') ++ "@mail.com"
  restaurant := fun _ _ => "Hotel"
  dish := fun _ _ => "Menu"
  description := fun _ _ => "Description"
  price := fun _ _ => ⟨100, by decide, by decide⟩
  hotel := fun _ _ => ⟨List.head?, fun _ _ => List.mem_of_head?, fun l hl => by simpa using hl⟩
  menus := fun _ => ⟨List.take 3, fun l => (List.take_sublist 3 l).subperm, fun _ => List.length_take⟩
  quantity := fun _ _ => ⟨2, by decide, by decide⟩

theorem plainDraws_named : plainDraws.Named where
  restaurant := fun _ _ => show Ruby.blank "Hotel" = false by decide
  dish := fun _ _ => show Ruby.blank "Menu" = false by decide

/-- On an empty database: twelve users, three hotels, fifteen menus. -/
theorem seeds_run_empty :
    let db₁ := ((seedUsers id plainDraws).run DB.empty).2
    let db₂ : DB := { db₁ with hotels := seededHotels plainDraws db₁ }
    (callForCreate id plainDraws).run DB.empty =
        (.error (.recordInvalid [⟨.status, .blank⟩]), { db₂ with menus := seededMenus plainDraws db₂ }) ∧
      db₁.users.rows.length = 12 ∧ db₂.hotels.rows.length = 3 ∧ (seededMenus plainDraws db₂).rows.length = 15 := by
  intro db₁ db₂
  have hruns : ((seedUsers id plainDraws).run DB.empty).1 = .ok () ∧ db₁.users.rows.length = 12 ∧
      db₂.hotels.rows.length = 3 ∧ (seededMenus plainDraws db₂).rows.length = 15 := by decide +kernel
  have husers : (seedUsers id plainDraws).run DB.empty = (.ok (), db₁) := by rw [← hruns.1]
  exact ⟨seeds_run plainDraws_named husers, hruns.2⟩

/-! ### Items for an order -/

/-- The rows that the loop over the menus inserts. -/
def itemsFrom (d : Draws) (order : ℕ) : ℕ → List (ℕ × Menu) → List OrderItem
  | _, [] => []
  | j, menu :: l => itemRow order menu (d.quantity order j) :: itemsFrom d order (j + 1) l

/-- A price that leaves room in the column for the total of nine. -/
def Affordable (price : ℤ) : Prop := 0 ≤ price ∧ price ≤ 2 ^ 59

theorem Affordable.mul_quantity {price : ℤ} (h : Affordable price) (q : {n : ℤ // 1 ≤ n ∧ n ≤ 3}) :
    0 ≤ price * q ∧ price * q ≤ 3 * 2 ^ 59 := by
  obtain ⟨hlow, hhigh⟩ := h
  obtain ⟨q, hq, hq'⟩ := q
  show 0 ≤ price * q ∧ price * q ≤ 3 * 2 ^ 59
  constructor
  · exact Int.mul_nonneg hlow (by omega)
  · calc price * q ≤ 2 ^ 59 * 3 := Int.mul_le_mul hhigh hq' (by omega) (by omega)
      _ = 3 * 2 ^ 59 := Int.mul_comm ..

theorem run_checkRange {n : ℤ} (h : inRange n = true) (db : DB) : (checkRange n).run db = (.ok (), db) := by
  rw [checkRange, Action.run_read, if_pos h]

theorem inRange_of_le {n : ℤ} (h : 0 ≤ n ∧ n ≤ 9 * 2 ^ 59) : inRange n = true := by
  simp only [inRange, Bool.and_eq_true, decide_eq_true_eq]
  omega

theorem run_createItem {order : ℕ} {menu : ℕ × Menu} (ho : db.orders.Has order) (hm : db.menus.Has menu.1)
    (hp : Affordable menu.2.price) (q : {n : ℤ // 1 ≤ n ∧ n ≤ 3}) :
    (createItem order menu q).run db =
      (.ok (), { db with orderItems := db.orderItems.insert (itemRow order menu q) }) := by
  obtain ⟨hlow, hhigh⟩ := hp.mul_quantity q
  have hrange : inRange (itemRow order menu q).price = true := inRange_of_le ⟨hlow, by
    show menu.2.price * q ≤ _
    omega⟩
  have hparents : orderItemsT.parents db (itemRow order menu q) = true := by
    show (decide (db.orders.Has order) && decide (db.menus.Has menu.1)) = true
    simp [ho, hm]
  exact (Action.run_bind_ok (run_checkRange hrange db)).trans
    (Action.run_bind_ok (orderItemsT.run_insert_ok hparents))

/-- The loop inserts its rows, and adds up their prices. -/
theorem run_createItems {order : ℕ} (l : List (ℕ × Menu)) (j : ℕ) (total : ℤ) (db : DB) (ho : db.orders.Has order)
    (hl : ∀ menu ∈ l, db.menus.Has menu.1 ∧ Affordable menu.2.price) :
    (createItems d order j total l).run db =
      (.ok (total + ((itemsFrom d order j l).map OrderItem.price).sum),
        { db with orderItems := db.orderItems.insertAll (itemsFrom d order j l) }) := by
  induction l generalizing j total db with
  | nil => simp [createItems, itemsFrom]
  | cons menu l ih =>
    obtain ⟨hm, hp⟩ := hl menu (List.mem_cons_self ..)
    have hrest := ih (j + 1) (total + menu.2.price * (d.quantity order j : ℤ))
      { db with orderItems := db.orderItems.insert (itemRow order menu (d.quantity order j)) } ho
      fun menu' hm' => hl menu' (List.mem_cons_of_mem _ hm')
    rw [createItems, Action.run_bind_ok (run_createItem ho hm hp _), hrest]
    simp only [itemsFrom, List.map_cons, List.sum_cons, Table.insertAll_cons, itemRow, Int.add_assoc]

theorem length_itemsFrom (order j : ℕ) (l : List (ℕ × Menu)) : (itemsFrom d order j l).length = l.length := by
  induction l generalizing j with
  | nil => rfl
  | cons menu l ih => simp [itemsFrom, ih]

theorem map_menuId_itemsFrom (order j : ℕ) (l : List (ℕ × Menu)) :
    (itemsFrom d order j l).map OrderItem.menuId = l.map (·.1) := by
  induction l generalizing j with
  | nil => rfl
  | cons menu l ih => simp [itemsFrom, itemRow, ih]

theorem mem_itemsFrom {order j : ℕ} {l : List (ℕ × Menu)} {x : OrderItem} (h : x ∈ itemsFrom d order j l) :
    ∃ menu ∈ l, ∃ q : {n : ℤ // 1 ≤ n ∧ n ≤ 3}, x = itemRow order menu q := by
  induction l generalizing j with
  | nil => cases h
  | cons menu l ih =>
    rcases List.mem_cons.mp h with rfl | h
    · exact ⟨menu, List.mem_cons_self .., _, rfl⟩
    · obtain ⟨menu', hmem, q, hx⟩ := ih h
      exact ⟨menu', List.mem_cons_of_mem _ hmem, q, hx⟩

theorem sum_itemsFrom (order j : ℕ) (l : List (ℕ × Menu)) (hl : ∀ menu ∈ l, Affordable menu.2.price) :
    0 ≤ ((itemsFrom d order j l).map OrderItem.price).sum ∧
      ((itemsFrom d order j l).map OrderItem.price).sum ≤ l.length * (3 * 2 ^ 59) := by
  induction l generalizing j with
  | nil => simp [itemsFrom]
  | cons menu l ih =>
    obtain ⟨hlow, hhigh⟩ := ih (j + 1) fun menu' hm' => hl menu' (List.mem_cons_of_mem _ hm')
    obtain ⟨hlow', hhigh'⟩ := (hl menu (List.mem_cons_self ..)).mul_quantity (d.quantity order j)
    simp only [itemsFrom, List.map_cons, List.sum_cons, itemRow, List.length_cons]
    constructor
    · omega
    · push_cast
      omega

theorem run_updateTotal {i : ℕ} {o : Order} (ho : db.orders.find i = some o) (hstatus : Ruby.blank o.status = false)
    {total : ℤ} (hlow : 0 ≤ total) (hrange : inRange total = true) :
    (updateTotal (i, o) total).run db =
      (.ok (), { db with orders := db.orders.set i { o with totalPrice := total } }) := by
  have hv : validated (presence .status (present (some o.status)) ++
      (if 0 ≤ total then [] else [⟨.totalPrice, .greaterThanOrEqualToZero⟩])) { o with totalPrice := total } =
      .ok { o with totalPrice := total } := by
    simp [present, hstatus, hlow]
  unfold updateTotal
  rw [hv]
  exact (Action.run_bind_ok (run_checkRange hrange db)).trans (ordersT.run_update_ok ho rfl)

/-- The items that the seeds give to an order at a hotel. -/
structure SeedItems (db : DB) (order hotel : ℕ) (items : List OrderItem) : Prop where
  length : items.length = min 3 (db.menus.select fun m => m.hotelId == hotel).length
  /-- No menu is ordered twice. -/
  nodup : (items.map OrderItem.menuId).Nodup
  /-- Each is of a menu of the hotel, one to three times, at the price of so many. -/
  row : ∀ x ∈ items, x.orderId = order ∧ ∃ m q, db.menus.find x.menuId = some m ∧ m.hotelId = hotel ∧
    1 ≤ q ∧ q ≤ 3 ∧ x.quantity = toString q ∧ x.price = m.price * q

/-- **Items for an order**: they are stored, and the order's total becomes the sum of their prices. -/
theorem createOrderItems_run (d : Draws) {i : ℕ} {o : Order} (ho : db.orders.find i = some o)
    (hh : db.hotels.Has o.hotelId) (hstatus : Ruby.blank o.status = false)
    (hprice : ∀ j m, db.menus.find j = some m → m.hotelId = o.hotelId → Affordable m.price) :
    ∃ items, SeedItems db i o.hotelId items ∧ (createOrderItems d (i, o)).run db = (.ok (), { db with
      orderItems := db.orderItems.insertAll items
      orders := db.orders.set i { o with totalPrice := (items.map OrderItem.price).sum } }) := by
  have hsub := (d.menus i).subperm (db.menus.select fun m => m.hotelId == o.hotelId)
  have hlength := (d.menus i).length (db.menus.select fun m => m.hotelId == o.hotelId)
  generalize hl : (d.menus i).pick (db.menus.select fun m => m.hotelId == o.hotelId) = l at hsub hlength
  have hmenu : ∀ menu ∈ l, db.menus.find menu.1 = some menu.2 ∧ menu.2.hotelId = o.hotelId := by
    intro menu hmenu
    obtain ⟨hfind, hhotel⟩ := Table.mem_select.mp (hsub.subset hmenu)
    exact ⟨hfind, by simpa using hhotel⟩
  have haffordable : ∀ menu ∈ l, db.menus.Has menu.1 ∧ Affordable menu.2.price := fun menu hm =>
    ⟨.of_find (hmenu menu hm).1, hprice menu.1 menu.2 (hmenu menu hm).1 (hmenu menu hm).2⟩
  refine ⟨itemsFrom d i 0 l, ⟨?_, ?_, fun x hx => ?_⟩, ?_⟩
  · rw [length_itemsFrom, hlength]
  · obtain ⟨l', hperm, hsublist⟩ := hsub
    rw [map_menuId_itemsFrom, ← (hperm.map _).nodup_iff]
    exact db.menus.nodup_ids.sublist ((hsublist.trans List.filter_sublist).map _)
  · obtain ⟨menu, hmem, q, rfl⟩ := mem_itemsFrom hx
    exact ⟨rfl, menu.2, q, (hmenu menu hmem).1, (hmenu menu hmem).2, q.2.1, q.2.2, rfl, rfl⟩
  · have hmenus : (menusOf o).run db = (.ok (db.menus.select fun m => m.hotelId == o.hotelId), db) := by
      rw [menusOf, Action.run_read, if_pos hh]
    obtain ⟨hlow, hhigh⟩ := sum_itemsFrom (d := d) i 0 l fun menu hm => (haffordable menu hm).2
    have hrange : inRange ((itemsFrom d i 0 l).map OrderItem.price).sum = true := inRange_of_le ⟨hlow, by omega⟩
    have ho' : ({ db with orderItems := db.orderItems.insertAll (itemsFrom d i 0 l) } : DB).orders.find i = some o := ho
    rw [createOrderItems, Action.run_bind_ok hmenus, hl,
      Action.run_bind_ok (run_createItems l 0 0 db (.of_find ho) haffordable), Int.zero_add]
    exact run_updateTotal ho' hstatus hlow hrange

/-- The hotel of `DB.ordered` has four menus. -/
def DB.fourMenus : DB :=
  { DB.ordered with
    menus := ((DB.ordered.menus.insert ⟨"Soup", 1, none, 150⟩).insert ⟨"Curry", 1, none, 200⟩).insert
      ⟨"Feast", 1, none, 300⟩ }

/-- The order of `DB.ordered` gets three items more, and the total of the new ones. -/
theorem createOrderItems_run_ordered :
    DB.fourMenus.orders.find 1 = some ⟨1, 1, 200, "pending"⟩ ∧
      ∃ items, items.length = 3 ∧ SeedItems DB.fourMenus 1 1 items ∧
        (createOrderItems plainDraws (1, ⟨1, 1, 200, "pending"⟩)).run DB.fourMenus = (.ok (), { DB.fourMenus with
          orderItems := DB.fourMenus.orderItems.insertAll items
          orders := DB.fourMenus.orders.set 1 ⟨1, 1, (items.map OrderItem.price).sum, "pending"⟩ }) := by
  have hrows : ∀ x ∈ DB.fourMenus.menus.rows, 0 ≤ x.2.price ∧ x.2.price ≤ 2 ^ 59 := by decide
  have hprice : ∀ j m, DB.fourMenus.menus.find j = some m → m.hotelId = 1 → Affordable m.price :=
    fun j m hm _ => hrows (j, m) (Table.find_eq_some.mp hm)
  have horder : DB.fourMenus.orders.find 1 = some ⟨1, 1, 200, "pending"⟩ := by decide
  have hhotel : DB.fourMenus.hotels.Has 1 := by decide
  have hstatus : Ruby.blank "pending" = false := by decide
  obtain ⟨items, hitems, hrun⟩ := createOrderItems_run plainDraws horder hhotel hstatus hprice
  exact ⟨horder, items, hitems.length, hitems, hrun⟩

end FoodFactory
