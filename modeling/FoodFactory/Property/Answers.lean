import FoodFactory.Store.Seen
import FoodFactory.Property.Interleaving

/-!
# What answers tell

A response is made of what its request has read in its steps, some of it long before, while
others write.

## What is proved

* `answers_true_interleaved`: what a response tells of an order, of an item, of the owner of a
  hotel and of the hotel of a menu was true in one of the states that its request has seen.
* `answers_agree_interleaved`: any two responses of an interleaving agree on all of that, however
  far apart in time they are: a client who was told the total of an order is never told another
  one, nor is anyone else.

Names, descriptions and prices of menus are not among it. They change, and a request that
updates one of them renders the others as it has loaded them.
-/

namespace FoodFactory

open Store Program HotelsController

/-- What a response tells. -/
inductive Fact where
  /-- The total and the status of an order. -/
  | total (order : ℕ) (totalPrice : ℤ) (status : String)
  /-- Who has placed an order, and at which hotel. -/
  | placed (order user hotel : ℕ)
  | item (id : ℕ) (x : OrderItem)
  | owner (hotel user : ℕ)
  | hotelOf (menu hotel : ℕ)
  deriving DecidableEq

/-- What a fact is about. -/
inductive Thing where
  | total (order : ℕ)
  | placed (order : ℕ)
  | item (id : ℕ)
  | owner (hotel : ℕ)
  | hotelOf (menu : ℕ)
  deriving DecidableEq

namespace Fact

def thing : Fact → Thing
  | total i _ _ => .total i
  | placed i _ _ => .placed i
  | item i _ => .item i
  | owner i _ => .owner i
  | hotelOf i _ => .hotelOf i

/-- The fact is true of the database. -/
def Holds (db : DB) : Fact → Prop
  | total i n s => ∃ o, db.orders.find i = some o ∧ o.totalPrice = n ∧ o.status = s
  | placed i u h => ∃ o, db.orders.find i = some o ∧ o.userId = u ∧ o.hotelId = h
  | item i x => db.orderItems.find i = some x
  | owner i u => ∃ h, db.hotels.find i = some h ∧ h.userId = u
  | hotelOf i h => ∃ m, db.menus.find i = some m ∧ m.hotelId = h

/-- Facts about one thing, at one time and later, are the same. -/
theorem eq_of_later {db db' : DB} (h : db.Later db') {f f' : Fact} (hf : f.Holds db) (hf' : f'.Holds db')
    (hthing : f.thing = f'.thing) : f = f' := by
  cases f with
  | total i n s =>
    cases f' with
    | total j n' s' =>
      cases hthing
      obtain ⟨o, ho, rfl, rfl⟩ := hf
      obtain ⟨o', ho', rfl, rfl⟩ := hf'
      obtain rfl : o' = o := h.orders.eq_of_find ho ho'
      rfl
    | _ => cases hthing
  | placed i u x =>
    cases f' with
    | placed j u' x' =>
      cases hthing
      obtain ⟨o, ho, rfl, rfl⟩ := hf
      obtain ⟨o', ho', rfl, rfl⟩ := hf'
      obtain rfl : o' = o := h.orders.eq_of_find ho ho'
      rfl
    | _ => cases hthing
  | item i x =>
    cases f' with
    | item j x' =>
      cases hthing
      obtain rfl : x' = x := h.orderItems.eq_of_find hf hf'
      rfl
    | _ => cases hthing
  | owner i u =>
    cases f' with
    | owner j u' =>
      cases hthing
      obtain ⟨x, hx, rfl⟩ := hf
      obtain ⟨x', hx', rfl⟩ := hf'
      rw [h.hotels.eq_of_find hx hx']
    | _ => cases hthing
  | hotelOf i x =>
    cases f' with
    | hotelOf j x' =>
      cases hthing
      obtain ⟨m, hm, rfl⟩ := hf
      obtain ⟨m', hm', rfl⟩ := hf'
      rw [h.menus.eq_of_find hm hm']
    | _ => cases hthing

end Fact

/-- What an order tells. -/
def Order.facts (i : ℕ) (o : Order) : List Fact := [.total i o.totalPrice o.status, .placed i o.userId o.hotelId]

/-- What a body tells. -/
def Body.facts : Body → List Fact
  | .hotel i h => [.owner i h.userId]
  | .hotels l => l.map fun x => .owner x.id x.userId
  | .menu i m => [.hotelOf i m.hotelId]
  | .menus l => l.map fun x => .hotelOf x.menuId x.hotelId
  | .order i o => o.facts i
  | .orders l => l.flatMap fun x => x.2.facts x.1
  | .createdOrder i status totalPrice _ => [.total i totalPrice status]
  | .orderItems l => l.map fun x => .item x.1 x.2
  | _ => []

/-- What the response tells was true in states that were seen. -/
def Warranted (past : Set DB) (r : Response) : Prop := ∀ f ∈ r.body.facts, ∃ s ∈ past, f.Holds s

variable {env : Env} {ctx : Ctx} {past : Set DB} {db : DB}

/-- A response that tells what is true of one state that was seen. -/
theorem Warranted.of_mem {r : Response} (hs : db ∈ past) (h : ∀ f ∈ r.body.facts, f.Holds db) : Warranted past r :=
  fun f hf => ⟨db, hs, h f hf⟩

/-- It is enough that it was seen by the time of the response. -/
theorem answers_pure {r : Response} (s : DB) (hs : s ∈ past) (h : ∀ f ∈ r.body.facts, f.Holds s) :
    (pure r : Program DB Stop Response).Answers Warranted past :=
  fun _ hp => .of_mem (hp hs) h

/-- A response that tells nothing. -/
theorem answers_nothing {r : Response} (h : r.body.facts = []) :
    (pure r : Program DB Stop Response).Answers Warranted past := by
  intro past' _ f hf
  rw [h] at hf
  cases hf

/-- A response that is rendered from what is there. -/
theorem answers_read {f : DB → Except Stop Response} (h : ∀ db r, f db = .ok r → ∀ x ∈ r.body.facts, x.Holds db) :
    (lift (Action.read f)).Answers Warranted past := by
  intro s r hr past' hp
  exact .of_mem (hp (.inr (.inl rfl))) (h s r hr)

theorem Order.facts_hold {i : ℕ} {o : Order} (h : db.orders.find i = some o) : ∀ f ∈ o.facts i, f.Holds db := by
  intro f hf
  simp only [facts, List.mem_cons, List.not_mem_nil, or_false] at hf
  rcases hf with rfl | rfl
  · exact ⟨o, h, rfl, rfl⟩
  · exact ⟨o, h, rfl, rfl⟩

theorem Hotel.facts_hold {i : ℕ} {h : Hotel} (hh : db.hotels.find i = some h) (st : Status) :
    ∀ f ∈ (⟨st, .hotel i h⟩ : Response).body.facts, f.Holds db := by
  intro f hf
  rw [List.mem_singleton.mp hf]
  exact ⟨h, hh, rfl⟩

theorem Menu.facts_hold {i : ℕ} {m : Menu} (hm : db.menus.find i = some m) (st : Status) :
    ∀ f ∈ (⟨st, .menu i m⟩ : Response).body.facts, f.Holds db := by
  intro f hf
  rw [List.mem_singleton.mp hf]
  exact ⟨m, hm, rfl⟩

/-! ### Rows that were saved -/

theorem ok_of_raising {α : Type} {m : Action DB Exn α} {a : α} (h : ((raising m).run db).1 = .ok a) :
    (m.run db).1 = .ok a := by
  rw [raising, Action.run_mapError] at h
  cases hm : (m.run db).1 with
  | error e =>
    rw [hm] at h
    cases h
  | ok b =>
    rw [hm] at h
    cases h
    rfl

theorem Hotel.find_of_save {name : Option String} {userId i : ℕ} {h : Hotel}
    (hr : ((raising (Hotel.save name userId)).run db).1 = .ok (.ok (i, h))) :
    ((raising (Hotel.save name userId)).run db).2.hotels.find i = some h := by
  rw [raising_state]
  replace hr := ok_of_raising hr
  unfold Hotel.save at hr ⊢
  cases hv : Hotel.validate name userId with
  | error es =>
    rw [hv] at hr
    cases hr
  | ok x =>
    rw [hv] at hr
    obtain ⟨j, hj, hrun⟩ := Action.ok_of_bind hr
    dsimp only at hr ⊢
    rw [hrun] at hr ⊢
    cases hr
    exact hotelsT.find_of_insert hj

theorem Menu.find_of_save {p : MenuParams} {hotelId i : ℕ} {m : Menu}
    (hr : ((raising (Menu.save p hotelId)).run db).1 = .ok (.ok (i, m))) :
    ((raising (Menu.save p hotelId)).run db).2.menus.find i = some m := by
  rw [raising_state]
  replace hr := ok_of_raising hr
  unfold Menu.save at hr ⊢
  cases hv : Menu.validate p.menuName.join hotelId p.description.join (p.price.bind Ruby.Scalar.castInteger) with
  | error es =>
    rw [hv] at hr
    cases hr
  | ok x =>
    rw [hv] at hr
    obtain ⟨_, -, hrun⟩ := Action.ok_of_bind hr
    dsimp only at hr ⊢
    rw [hrun] at hr ⊢
    obtain ⟨j, hj, hrun'⟩ := Action.ok_of_bind hr
    rw [hrun'] at hr ⊢
    cases hr
    exact menusT.find_of_insert hj

/-- An update of a hotel renders the owner that was loaded. -/
theorem Hotel.userId_of_updateChanged {i : ℕ} {h h' : Hotel} {name : Option (Option String)}
    (hr : ((raising (Hotel.updateChanged i h name)).run db).1 = .ok (.ok h')) : h'.userId = h.userId := by
  replace hr := ok_of_raising hr
  unfold Hotel.updateChanged at hr
  cases hv : Hotel.validate (name.getD (some h.hotelName)) h.userId with
  | error es =>
    rw [hv] at hr
    cases hr
  | ok x =>
    rw [hv] at hr
    obtain ⟨_, -, hrun⟩ := Action.ok_of_bind hr
    dsimp only at hr
    rw [hrun] at hr
    cases hr
    exact Hotel.validate_userId hv

/-- An update of a menu renders the hotel that was loaded. -/
theorem Menu.hotelId_of_updateChanged {i : ℕ} {m m' : Menu} {p : MenuParams}
    (hr : ((raising (Menu.updateChanged i m p)).run db).1 = .ok (.ok m')) : m'.hotelId = m.hotelId := by
  replace hr := ok_of_raising hr
  unfold Menu.updateChanged at hr
  cases hv : Menu.validateUpdate m p with
  | error es =>
    rw [hv] at hr
    cases hr
  | ok x =>
    rw [hv] at hr
    obtain ⟨_, -, hrun⟩ := Action.ok_of_bind hr
    dsimp only at hr
    rw [hrun] at hr
    obtain ⟨_, -, hrun'⟩ := Action.ok_of_bind hr
    rw [hrun'] at hr
    cases hr
    exact Menu.validate_hotelId hv

/-! ### Requests -/

namespace HotelsController

theorem answers_index (userId : String) : (indexSteps env ctx userId).Answers Warranted past := by
  refine .filter (fun _ => filters_authenticateUser) fun _ _ _ => .filter (fun _ => filters_setUser userId) fun _ user _ =>
    .filter (fun _ => filters_authorize .index (.cls .hotel)) fun _ _ _ => answers_read fun db r hr f hf => ?_
  cases hr
  obtain ⟨x, hx, rfl⟩ := List.mem_map.mp hf
  obtain ⟨y, hy, rfl⟩ := List.mem_map.mp hx
  have hrow : y ∈ db.hotels.rows := by
    split_ifs at hy
    · exact hy
    · exact List.mem_of_mem_filter hy
  exact ⟨y.2, Table.find_eq_some.mpr hrow, rfl⟩

theorem answers_show (id : String) : (showSteps env ctx id).Answers Warranted past := by
  refine .filter (fun _ => filters_authenticateUser) fun _ _ _ => .filter (fun _ => filters_setHotel id) fun s hotel hpath =>
    .filter (fun _ => filters_authorize .show (.record .hotel (some hotel.2.userId))) fun _ _ _ => ?_
  exact answers_pure s (by simp) (Hotel.facts_hold (findParam_find hpath) .ok)

theorem answers_create (userId : String) (body : Required HotelParams) :
    (createSteps env ctx userId body).Answers Warranted past := by
  refine .filter (fun _ => filters_authenticateUser) fun _ _ _ => .filter (fun _ => filters_setUser userId) fun _ user _ =>
    .filter (fun _ => filters_permitted "hotel" body) fun _ p _ =>
      .filter (fun _ => filters_authorizeBuilt .create .hotel) fun _ _ _ => .step fun s r hr => ?_
  match r with
  | .error es => exact answers_nothing rfl
  | .ok (i, h) => exact answers_pure _ (.inr (.inr rfl)) (Hotel.facts_hold (Hotel.find_of_save hr) .created)

theorem answers_update (id : String) (body : Required HotelParams) :
    (updateSteps env ctx id body).Answers Warranted past := by
  refine .filter (fun _ => filters_authenticateUser) fun _ _ _ => .filter (fun _ => filters_setHotel id) fun s hotel hpath =>
    .filter (fun _ => filters_authorize .update (.record .hotel (some hotel.2.userId))) fun _ _ _ =>
      .filter (fun _ => filters_permitted "hotel" body) fun _ p _ => .step fun s' r hr => ?_
  match r with
  | .error es => exact answers_nothing rfl
  | .ok h =>
    refine answers_pure s (.inl (by simp)) fun f hf => ?_
    rw [List.mem_singleton.mp hf, Hotel.userId_of_updateChanged hr]
    exact ⟨hotel.2, findParam_find hpath, rfl⟩

theorem answers_destroy (id : String) : (destroySteps env ctx id).Answers Warranted past := by
  refine .filter (fun _ => filters_authenticateUser) fun _ _ _ => .filter (fun _ => filters_setHotel id) fun _ hotel _ =>
    .filter (fun _ => filters_authorize .destroy (.record .hotel (some hotel.2.userId))) fun _ _ _ => .step fun _ _ _ => ?_
  exact answers_nothing rfl

end HotelsController

namespace MenusController

theorem answers_index (userId hotelId : String) : (indexSteps env ctx userId hotelId).Answers Warranted past := by
  refine .filter (fun _ => filters_authenticateUser) fun _ _ _ => .filter (fun _ => filters_setHotel hotelId) fun _ hotel _ =>
    .filter (fun _ => filters_setUser userId) fun _ user _ =>
      .filter (fun _ => filters_authorize .index (.cls .menu)) fun _ _ _ => answers_read fun db r hr f hf => ?_
  cases hr
  obtain ⟨x, hx, rfl⟩ := List.mem_map.mp hf
  obtain ⟨y, hy, rfl⟩ := List.mem_map.mp hx
  have hrow : y ∈ db.menus.rows := by
    split_ifs at hy
    · exact List.mem_of_mem_filter hy
    · exact hy
  exact ⟨y.2, Table.find_eq_some.mpr hrow, rfl⟩

theorem answers_show (id : String) : (showSteps env ctx id).Answers Warranted past := by
  refine .filter (fun _ => filters_authenticateUser) fun _ _ _ => .filter (fun _ => filters_setMenu id) fun s menu hpath =>
    .filter (fun _ => filters_authorize .show (.record .menu none)) fun _ _ _ => ?_
  exact answers_pure s (by simp) (Menu.facts_hold (findParam_find hpath) .ok)

theorem answers_create (hotelId : String) (body : Required MenuParams) :
    (createSteps env ctx hotelId body).Answers Warranted past := by
  refine .filter (fun _ => filters_authenticateUser) fun _ _ _ => .filter (fun _ => filters_setHotel hotelId) fun _ hotel _ =>
    .filter (fun _ => filters_permitted "menu" body) fun _ p _ =>
      .filter (fun _ => filters_authorizeBuilt .create .menu) fun _ _ _ => .step fun s r hr => ?_
  match r with
  | .error es => exact answers_nothing rfl
  | .ok (i, m) => exact answers_pure _ (.inr (.inr rfl)) (Menu.facts_hold (Menu.find_of_save hr) .created)

theorem answers_update (id : String) (body : Required MenuParams) :
    (updateSteps env ctx id body).Answers Warranted past := by
  refine .filter (fun _ => filters_authenticateUser) fun _ _ _ => .filter (fun _ => filters_setMenu id) fun s menu hpath =>
    .filter (fun _ => filters_authorize .update (.record .menu none)) fun _ _ _ =>
      .filter (fun _ => filters_permitted "menu" body) fun _ p _ => .step fun s' r hr => ?_
  match r with
  | .error es => exact answers_nothing rfl
  | .ok m =>
    refine answers_pure s (.inl (by simp)) fun f hf => ?_
    rw [List.mem_singleton.mp hf, Menu.hotelId_of_updateChanged hr]
    exact ⟨menu.2, findParam_find hpath, rfl⟩

theorem answers_destroy (id : String) : (destroySteps env ctx id).Answers Warranted past := by
  refine .filter (fun _ => filters_authenticateUser) fun _ _ _ => .filter (fun _ => filters_setMenu id) fun _ menu _ =>
    .filter (fun _ => filters_authorize .destroy (.record .menu none)) fun _ _ _ => .step fun _ _ _ => ?_
  exact answers_nothing rfl

end MenusController

namespace OrdersController

theorem answers_index (userId hotelId : String) : (indexSteps env ctx userId hotelId).Answers Warranted past := by
  refine .filter (fun _ => filters_authenticateUser) fun _ _ _ => .filter (fun _ => filters_setUser userId) fun _ user _ =>
    .filter (fun _ => filters_setHotel hotelId) fun _ hotel _ =>
      .filter (fun _ => filters_authorize .index (.cls .order)) fun _ _ _ => answers_read fun db r hr f hf => ?_
  cases hr
  obtain ⟨x, hx, hfx⟩ := List.mem_flatMap.mp hf
  have hrow : x ∈ db.orders.rows := by
    unfold ordersFor at hx
    split at hx
    · exact hx
    · exact List.mem_of_mem_filter hx
    · exact List.mem_of_mem_filter hx
  exact Order.facts_hold (Table.find_eq_some.mpr hrow) f hfx

theorem answers_show (id : String) : (showSteps env ctx id).Answers Warranted past := by
  refine .filter (fun _ => filters_authenticateUser) fun _ _ _ => .filter (fun _ => filters_setOrder id) fun s order hpath =>
    .filter (fun _ => filters_authorize .show (.record .order (some order.2.userId))) fun _ _ _ => ?_
  exact answers_pure s (by simp) (Order.facts_hold (findParam_find hpath))

/-- The service answers with the order that it has saved. -/
theorem answers_call (userId hotelId : ℕ) (p : OrderParams) (items : List ItemParams) :
    (CreateOrderService.callSteps userId hotelId p items).Answers
      (fun past res => ∀ i o l, res = .created i o l → ∃ s ∈ past, s.orders.find i = some o) past := by
  refine .step fun s saved hsaved => ?_
  match saved with
  | .error es => exact fun _ _ _ _ _ h => by cases h
  | .ok (i, order) =>
    have hpost : ((raising (Order.save userId hotelId p)).run s).2.orders.find i = some order := by
      rcases Order.save_cases userId hotelId p s with ⟨o, -, hrun⟩ | ⟨es, hrun⟩ | ⟨e, hrun⟩
      · rw [hrun] at hsaved ⊢
        cases hsaved
        exact Table.find_insert_next s.orders order
      · rw [hrun] at hsaved
        cases hsaved
      · rw [hrun] at hsaved
        cases hsaved
    refine .bind (.any _) fun past' _ hp _ => .bind (.any _) fun past'' rows hp' _ =>
      .bind (.any _) fun past₃ items hp'' _ => ?_
    intro past₄ hp₃ j o l heq
    cases heq
    exact ⟨_, hp₃ (hp'' (hp' (hp (.inr (.inr rfl))))), hpost⟩

theorem answers_create (hotelId : String) (order : Required OrderBody) (orderItems : ItemsBody) :
    (createSteps env ctx hotelId order orderItems).Answers Warranted past := by
  refine .filter (fun _ => filters_authenticateUser) fun _ _ _ => .filter (fun _ => filters_setHotel hotelId) fun _ hotel _ =>
    .filter (fun _ => filters_orderParams) fun _ p _ => .filter (fun _ => filters_authorizingBuilt .create .order)
      fun _ loaded _ => .filter (fun _ => filters_orderItemsParams) fun _ items _ => ?_
  cases loaded with
  | none => trivial
  | some current =>
    show Answers _ _ (CreateOrderService.callSteps current.1 hotel.1 p items >>= _)
    refine .bind (answers_call current.1 hotel.1 p items) fun past' res _ hres => ?_
    match res with
    | .unprocessableEntity es => exact answers_nothing rfl
    | .created i o l =>
      obtain ⟨s, hs, ho⟩ := hres i o l rfl
      refine answers_pure s hs fun f hf => ?_
      rw [List.mem_singleton.mp hf]
      exact ⟨o, ho, rfl, rfl⟩

theorem answers_destroy (userId id : String) : (destroySteps env ctx userId id).Answers Warranted past := by
  refine .filter (fun _ => filters_authenticateUser) fun _ _ _ => .filter (fun _ => filters_setOrder id) fun _ order _ =>
    .filter (fun _ => filters_setUser userId) fun _ user _ =>
      .filter (fun _ => filters_authorize .destroy (.record .order (some order.2.userId))) fun _ _ _ =>
        .filter (fun _ => filters_orderUser order.2) fun _ owner _ => ?_
  split_ifs
  · exact .step fun _ _ _ => answers_nothing rfl
  · exact answers_nothing rfl

end OrdersController

namespace UsersController

theorem answers_index : (indexSteps env ctx).Answers Warranted past := by
  refine .filter (fun _ => filters_authenticateUser) fun _ _ _ => .filter (fun _ => filters_authorizing .index (.cls .user))
    fun _ loaded _ => ?_
  cases loaded with
  | none => trivial
  | some current =>
    refine answers_read fun db r hr f hf => ?_
    split_ifs at hr <;> cases hr <;> cases hf

theorem answers_show (id : String) : (showSteps env ctx id).Answers Warranted past := by
  refine .filter (fun _ => filters_authenticateUser) fun _ _ _ => .filter (fun _ => filters_setUser id) fun _ user _ =>
    .filter (fun _ => filters_authorize .show (.record .user none)) fun _ _ _ => ?_
  exact answers_nothing rfl

theorem answers_update (id : String) (body : Required UserParams) :
    (updateSteps env ctx id body).Answers Warranted past := by
  refine .filter (fun _ => filters_authenticateUser) fun _ _ _ => .filter (fun _ => filters_setUser id) fun _ user _ =>
    .filter (fun _ => filters_authorizing .update (.record .user none)) fun _ loaded _ => ?_
  cases loaded with
  | none => trivial
  | some current =>
    show Answers _ _ (if user.1 = current.1 then updateProfileSteps env user body else _)
    split_ifs
    · refine .filter (fun _ => filters_permitted "user" body) fun _ p _ => .step fun _ r _ => ?_
      cases r <;> exact answers_nothing rfl
    · exact answers_nothing rfl

end UsersController

theorem OrderItemsController.answers_index : (indexSteps env ctx).Answers Warranted past := by
  refine .filter (fun _ => filters_authenticateUser) fun _ _ _ => answers_read fun db r hr f hf => ?_
  cases hr
  obtain ⟨x, hx, rfl⟩ := List.mem_map.mp hf
  exact Table.find_eq_some.mpr hx

/-- What the answer to a request tells was true in states that the request has seen. -/
theorem Req.answers_steps (req : Req) : (req.steps env ctx).Answers Warranted past := by
  cases req with
  | usersIndex => exact UsersController.answers_index
  | usersShow id => exact UsersController.answers_show id
  | usersUpdate id body => exact UsersController.answers_update id body
  | hotelsIndex userId => exact HotelsController.answers_index userId
  | hotelsShow userId id => exact HotelsController.answers_show id
  | hotelsCreate userId body => exact HotelsController.answers_create userId body
  | hotelsUpdate userId id body => exact HotelsController.answers_update id body
  | hotelsDestroy userId id => exact HotelsController.answers_destroy id
  | menusIndex userId hotelId => exact MenusController.answers_index userId hotelId
  | menusShow userId hotelId id => exact MenusController.answers_show id
  | menusCreate userId hotelId body => exact MenusController.answers_create hotelId body
  | menusUpdate userId hotelId id body => exact MenusController.answers_update id body
  | menusDestroy userId hotelId id => exact MenusController.answers_destroy id
  | ordersIndex userId hotelId => exact OrdersController.answers_index userId hotelId
  | ordersShow userId hotelId id => exact OrdersController.answers_show id
  | ordersCreate userId hotelId order orderItems => exact OrdersController.answers_create hotelId order orderItems
  | ordersDestroy userId hotelId id => exact OrdersController.answers_destroy userId id
  | orderItemsIndex userId hotelId orderId => exact OrderItemsController.answers_index
  | undefinedAction => trivial

theorem RegistrationsController.answers_create (body : Required SignUpParams) :
    (createSteps env body).Answers Warranted past := by
  refine .filter (fun _ => filters_validateRole) fun _ _ _ => .filter (fun _ => filters_permitted "user" body) fun _ p _ =>
    .step fun _ saved _ => answers_nothing ?_
  cases saved with
  | ok u => rfl
  | error es =>
    unfold respondWith
    dsimp only
    split_ifs <;> rfl

theorem SessionsController.answers_destroy (now : ℕ) (authorization : Option String) :
    (destroySteps env now authorization).Answers Warranted past := by
  unfold destroySteps
  split_ifs
  · refine .step fun _ decoded _ => ?_
    cases decoded with
    | none => exact answers_nothing rfl
    | some p => exact .step fun _ _ _ => answers_nothing rfl
  · exact answers_nothing rfl

/-- What a task answers, if it does. -/
theorem Task.answers_program (t : Task) :
    (t.program env).Answers (fun past r => ∀ x, r = some x → Warranted past x) past := by
  have hsome {p : Program DB Stop Response} (hp : p.Answers Warranted past) :
      (p >>= fun r => pure (some r)).Answers (fun past r => ∀ x, r = some x → Warranted past x) past := by
    refine .bind hp fun past' r _ hr past'' hp' x hx => ?_
    cases hx
    exact fun f hf => (hr f hf).imp fun s hs => ⟨hp' hs.1, hs.2⟩
  have hnone (p : Program DB Stop Unit) :
      (p >>= fun _ => pure none).Answers (fun past (r : Option Response) => ∀ x, r = some x → Warranted past x) past :=
    .bind (.any p) fun _ _ _ _ _ _ _ hx => by cases hx
  cases t with
  | request ctx req => exact hsome req.answers_steps
  | signUp body => exact hsome (RegistrationsController.answers_create body)
  | logout now authorization => exact hsome (SessionsController.answers_destroy now authorization)
  | clearExpired now =>
    intro s r hr past' _ x hx
    cases hr
    cases hx
  | destroyUser id => exact hnone _

/-! ### Interleavings -/

variable {ι : Type} [DecidableEq ι]

/-- **What answers tell was true**, in one of the states that the thread has seen. -/
theorem answers_true_interleaved (env : Env) (db : DB) (task : ι → Task) (ks : List ι) (k : ι) {r : Response}
    (hr : (((serve env db task).run ks).thread k).result = some (.ok (some r))) {f : Fact} (hf : f ∈ r.body.facts) :
    ∃ s ∈ (serve env db task).seen ks k, f.Holds s :=
  Pool.run_answers (task k).answers_program ks hr r rfl f hf

/-- A client places an order, and looks at it. -/
def orderAndShow (k : Bool) : Task :=
  .request (sampleCtx 1) (if k then .ordersShow "1" "1" "2" else
    .ordersCreate "1" "1" (.hash ⟨.int 200, some "pending"⟩) (.list [some ⟨.int 1, .int 2, .int 100⟩]))

/-- The order is looked at before its items are written. -/
def lookEarly : List Bool := List.replicate 6 false ++ List.replicate 3 true ++ List.replicate 3 false

/-- What the client sees is true of a state that was seen. -/
theorem answers_true_interleaved_early :
    ∃ s ∈ (serve Plain.env DB.ordered orderAndShow).seen lookEarly true, (Fact.total 2 200 "pending").Holds s := by
  have hshow : (((serve Plain.env DB.ordered orderAndShow).run lookEarly).thread true).result =
      some (.ok (some ⟨.ok, .order 2 ⟨1, 1, 200, "pending"⟩⟩)) := by decide +kernel
  exact answers_true_interleaved Plain.env DB.ordered orderAndShow lookEarly true hshow (by decide)

/-- **Answers agree**: what two responses tell of one thing is the same. -/
theorem answers_agree_interleaved (env : Env) (db : DB) (task : ι → Task) (ks : List ι) (k k' : ι) {r r' : Response}
    (hr : (((serve env db task).run ks).thread k).result = some (.ok (some r)))
    (hr' : (((serve env db task).run ks).thread k').result = some (.ok (some r'))) {f f' : Fact}
    (hf : f ∈ r.body.facts) (hf' : f' ∈ r'.body.facts) (hthing : f.thing = f'.thing) : f = f' := by
  obtain ⟨s, hs, hfs⟩ := Pool.run_answers (task k).answers_program ks hr r rfl f hf
  obtain ⟨s', hs', hfs'⟩ := Pool.run_answers (task k').answers_program ks hr' r' rfl f' hf'
  have hlater := Pool.run_rel DB.Later.refl (fun _ _ _ => DB.Later.trans) (fun _ _ => Move.later) (steps_serve env db task)
  rcases Pool.rel_or_rel hlater hs hs' with h | h
  · exact Fact.eq_of_later h hfs hfs' hthing
  · exact (Fact.eq_of_later h hfs' hfs hthing.symm).symm

/-- What the client is told in the end. -/
def toldLate : Response := ⟨.created, .createdOrder 2 "pending" 200 [⟨1, "Menu", "2", 100⟩]⟩

/-- What the client sees early. -/
def seenEarly : Response := ⟨.ok, .order 2 ⟨1, 1, 200, "pending"⟩⟩

/-- The two tell of one thing, and of every such thing they tell the same. -/
theorem answers_agree_interleaved_early :
    (((serve Plain.env DB.ordered orderAndShow).run lookEarly).thread false).result = some (.ok (some toldLate)) ∧
      (((serve Plain.env DB.ordered orderAndShow).run lookEarly).thread true).result = some (.ok (some seenEarly)) ∧
      (∃ f ∈ toldLate.body.facts, ∃ f' ∈ seenEarly.body.facts, f.thing = f'.thing) ∧
      ∀ f ∈ toldLate.body.facts, ∀ f' ∈ seenEarly.body.facts, f.thing = f'.thing → f = f' := by
  have htold : (((serve Plain.env DB.ordered orderAndShow).run lookEarly).thread false).result =
      some (.ok (some toldLate)) := by decide +kernel
  have hseen : (((serve Plain.env DB.ordered orderAndShow).run lookEarly).thread true).result =
      some (.ok (some seenEarly)) := by decide +kernel
  refine ⟨htold, hseen, ⟨.total 2 200 "pending", by decide, .total 2 200 "pending", by decide, rfl⟩, ?_⟩
  exact fun f hf f' hf' =>
    answers_agree_interleaved Plain.env DB.ordered orderAndShow lookEarly false true htold hseen hf hf'

end FoodFactory
