import FoodFactory.Store.Seen
import FoodFactory.Property.Interleaving

/-!
# Who writes what, while others work

A request looks at its token, loads the records that its path names, asks the ability, and
then writes, each in a step of its own. By the time it writes, its token may have been revoked,
its user may have another role, and the records may have changed.

## What is proved

`authority_interleaved`: even so, in every interleaving, a request writes only what the ability
granted it in one of its own earlier steps, after its token was accepted in one. What the
ability looked at is still true of what is written: the row was loaded under the id of the
path, and it has the owner that it had then, as owners do not change and ids are not given
twice (`DB.Later`). A row that is gone is not written, and a request for it changes nothing.
-/

namespace FoodFactory

open Store Ruby Program HotelsController

variable {env : Env} {ctx : Ctx} {past : Set DB} {db db' : DB}

/-- **What a request writes**, and which of the states that it has seen granted it. -/
inductive Writes (ctx : Ctx) (past : Set DB) (db : DB) : Req → DB → Prop
  /-- The row of the user who is logged in. -/
  | updateUser {id : String} {body : Required UserParams} {s₁ s₂ : DB} {i : ℕ} {u₁ u₂ v : User} :
      s₁ ∈ past → findParam s₁.users id = some (i, u₁) →
      s₂ ∈ past → currentUser ctx s₂ = some (i, u₂) → can (some (i, u₂)) .update (.record .user none) = true →
      Writes ctx past db (.usersUpdate id body) { db with users := db.users.set i v }
  /-- A new hotel, of the user that the path names. -/
  | createHotel {userId : String} {body : Required HotelParams} {s₁ s₂ : DB} {u : User} {h : Hotel} :
      s₁ ∈ past → findParam s₁.users userId = some (h.userId, u) →
      s₂ ∈ past → can (currentUser ctx s₂) .create
        (.record .hotel (attributesFor (currentUser ctx s₂) .create .hotel)) = true →
      Writes ctx past db (.hotelsCreate userId body) { db with hotels := db.hotels.insert h }
  /-- The hotel that the path names, which keeps its owner. -/
  | updateHotel {userId id : String} {body : Required HotelParams} {s₁ s₂ : DB} {i : ℕ} {h₁ h h' : Hotel} :
      s₁ ∈ past → findParam s₁.hotels id = some (i, h₁) → db.hotels.find i = some h →
      s₂ ∈ past → can (currentUser ctx s₂) .update (.record .hotel (some h.userId)) = true → h'.userId = h.userId →
      Writes ctx past db (.hotelsUpdate userId id body) { db with hotels := db.hotels.set i h' }
  /-- The hotel that the path names, with its menus. -/
  | destroyHotel {userId id : String} {s₁ s₂ : DB} {i : ℕ} {h₁ h : Hotel} :
      s₁ ∈ past → findParam s₁.hotels id = some (i, h₁) → db.hotels.find i = some h →
      s₂ ∈ past → can (currentUser ctx s₂) .destroy (.record .hotel (some h.userId)) = true →
      Writes ctx past db (.hotelsDestroy userId id) (db.dropHotels fun j => j == i)
  /-- A new menu, of the hotel that the path names. -/
  | createMenu {userId hotelId : String} {body : Required MenuParams} {s₁ s₂ : DB} {h : Hotel} {m : Menu} :
      s₁ ∈ past → findParam s₁.hotels hotelId = some (m.hotelId, h) →
      s₂ ∈ past → can (currentUser ctx s₂) .create
        (.record .menu (attributesFor (currentUser ctx s₂) .create .menu)) = true →
      Writes ctx past db (.menusCreate userId hotelId body) { db with menus := db.menus.insert m }
  /-- The menu that the path names, which keeps its hotel. -/
  | updateMenu {userId hotelId id : String} {body : Required MenuParams} {s₁ s₂ : DB} {i : ℕ} {m₁ m m' : Menu} :
      s₁ ∈ past → findParam s₁.menus id = some (i, m₁) → db.menus.find i = some m →
      s₂ ∈ past → can (currentUser ctx s₂) .update (.record .menu none) = true → m'.hotelId = m.hotelId →
      Writes ctx past db (.menusUpdate userId hotelId id body) { db with menus := db.menus.set i m' }
  /-- The menu that the path names, with the items ordered of it. -/
  | destroyMenu {userId hotelId id : String} {s₁ s₂ : DB} {i : ℕ} {m₁ m : Menu} :
      s₁ ∈ past → findParam s₁.menus id = some (i, m₁) → db.menus.find i = some m →
      s₂ ∈ past → can (currentUser ctx s₂) .destroy (.record .menu none) = true →
      Writes ctx past db (.menusDestroy userId hotelId id) (db.dropMenus fun j => j == i)
  /-- A new order of the user who is logged in, at the hotel that the path names. -/
  | createOrder {userId hotelId : String} {order : Required OrderBody} {orderItems : ItemsBody} {s₁ s₂ : DB}
      {h : Hotel} {u : User} {o : Order} :
      s₁ ∈ past → findParam s₁.hotels hotelId = some (o.hotelId, h) →
      s₂ ∈ past → currentUser ctx s₂ = some (o.userId, u) → can (currentUser ctx s₂) .create
        (.record .order (attributesFor (currentUser ctx s₂) .create .order)) = true →
      Writes ctx past db (.ordersCreate userId hotelId order orderItems) { db with orders := db.orders.insert o }
  /-- An item of an order of the user who is logged in. -/
  | createItem {userId hotelId : String} {order : Required OrderBody} {orderItems : ItemsBody} {s₂ : DB}
      {u : User} {o : Order} {x : OrderItem} :
      db.orders.find x.orderId = some o →
      s₂ ∈ past → currentUser ctx s₂ = some (o.userId, u) → can (currentUser ctx s₂) .create
        (.record .order (attributesFor (currentUser ctx s₂) .create .order)) = true →
      Writes ctx past db (.ordersCreate userId hotelId order orderItems)
        { db with orderItems := db.orderItems.insert x }
  /-- The order that the path names, of the user that the path names. -/
  | destroyOrder {userId hotelId id : String} {s₁ s₂ s₃ : DB} {i : ℕ} {o₁ o : Order} {u : User} :
      s₁ ∈ past → findParam s₁.orders id = some (i, o₁) → db.orders.find i = some o →
      s₃ ∈ past → findParam s₃.users userId = some (o.userId, u) →
      s₂ ∈ past → can (currentUser ctx s₂) .destroy (.record .order (some o.userId)) = true →
      Writes ctx past db (.ordersDestroy userId hotelId id) (db.dropOrders fun j => j == i)

/-- What a request does: nothing, or a write that was granted after its token was accepted. -/
def Granted (env : Env) (ctx : Ctx) (req : Req) (past : Set DB) (db db' : DB) : Prop :=
  db' = db ∨ (∃ s ∈ past, Authenticated env ctx s) ∧ Writes ctx past db req db'

/-- What is true of a state that a thread has seen, and a later one. -/
def DB.Since (db db' : DB) : Prop := db.Later db' ∧ ForeignKeys db'

theorem Granted.nothing {req : Req} (db : DB) : Granted env ctx req past db db := .inl rfl

/-! ### Rows that are gone -/

namespace ForeignKeys

/-- Nothing depends on a menu that is gone. -/
theorem dropMenus_of_gone (h : ForeignKeys db) {i : ℕ} (hi : db.menus.find i = none) :
    (db.dropMenus fun j => j == i) = db := by
  have hmenus (j : ℕ) (m : Menu) (hj : db.menus.find j = some m) : (!(j == i)) = true := by
    rw [Bool.not_eq_true', beq_eq_false_iff_ne]
    rintro rfl
    rw [hi] at hj
    cases hj
  have hitems (j : ℕ) (x : OrderItem) (hj : db.orderItems.find j = some x) : (!(x.menuId == i)) = true := by
    obtain ⟨m, hm⟩ := Table.has_iff.mp (h.itemMenu j x hj)
    exact hmenus _ m hm
  rw [DB.dropMenus, Table.filter_true hmenus, Table.filter_true hitems]

/-- Nothing depends on an order that is gone. -/
theorem dropOrders_of_gone (h : ForeignKeys db) {i : ℕ} (hi : db.orders.find i = none) :
    (db.dropOrders fun j => j == i) = db := by
  have horders (j : ℕ) (o : Order) (hj : db.orders.find j = some o) : (!(j == i)) = true := by
    rw [Bool.not_eq_true', beq_eq_false_iff_ne]
    rintro rfl
    rw [hi] at hj
    cases hj
  have hitems (j : ℕ) (x : OrderItem) (hj : db.orderItems.find j = some x) : (!(x.orderId == i)) = true := by
    obtain ⟨o, ho⟩ := Table.has_iff.mp (h.itemOrder j x hj)
    exact horders _ o ho
  rw [DB.dropOrders, Table.filter_true horders, Table.filter_true hitems]

/-- Nothing depends on a hotel that is gone. -/
theorem dropHotels_of_gone (h : ForeignKeys db) {i : ℕ} (hi : db.hotels.find i = none) :
    (db.dropHotels fun j => j == i) = db := by
  have hhotels (j : ℕ) (x : Hotel) (hj : db.hotels.find j = some x) : (!(j == i)) = true := by
    rw [Bool.not_eq_true', beq_eq_false_iff_ne]
    rintro rfl
    rw [hi] at hj
    cases hj
  have hnone : db.menuOf (fun j => j == i) = fun _ => false := by
    funext j
    rw [← Bool.not_eq_true, DB.menuOf_eq_true]
    rintro ⟨m, hm, hmi⟩
    obtain ⟨x, hx⟩ := Table.has_iff.mp (h.menuHotel j m hm)
    simpa [hmi] using hhotels _ x hx
  rw [DB.dropHotels, hnone, DB.dropMenus_false, Table.filter_true hhotels]

end ForeignKeys

/-! ### Requests -/

/-- A write that was granted, in a step of a model. -/
theorem Granted.raising {α : Type} {req : Req} {m : Action DB Exn α} {s₀ : DB} (hs₀ : s₀ ∈ past)
    (hauth : Authenticated env ctx s₀) (h : (m.run db).2 = db ∨ Writes ctx past db req (m.run db).2) :
    Granted env ctx req past db ((raising m).run db).2 := by
  rw [raising_state]
  exact h.imp_right fun hw => ⟨⟨s₀, hs₀, hauth⟩, hw⟩

theorem UsersController.granted_update (id : String) (body : Required UserParams) :
    (updateSteps env ctx id body).StepsAfter DB.Since (Granted env ctx (.usersUpdate id body)) ∅ := by
  refine .filter (fun _ => filters_authenticateUser) .nothing fun s₀ _ hauth =>
    .filter (fun _ => filters_setUser id) .nothing fun s₁ user hpath =>
      .filter (fun _ => filters_authorizing .update (.record .user none)) .nothing fun s₂ loaded hcan => ?_
  obtain ⟨hcan, rfl⟩ := hcan
  cases hcur : currentUser ctx s₂ with
  | none => trivial
  | some current =>
    rw [hcur] at hcan
    show StepsAfter _ _ _ (if user.1 = current.1 then updateProfileSteps env user body else _)
    split_ifs with hown
    · refine .filter (fun _ => filters_permitted "user" body) .nothing fun s₃ p _ =>
        .step (fun s hs => .raising (by simp) hauth ?_) fun s r _ _ => by cases r <;> trivial
      rcases User.updateChanged_state env.downcase user.1 user.2 p s with h | ⟨kept, v, -, -, -, h⟩
      · exact .inl h
      · rw [h, hown]
        have hself : findParam s₁.users id = some (current.1, user.2) := by rw [hpath, ← hown]
        exact .inr (.updateUser (by simp) hself (by simp) hcur hcan)
    · trivial

theorem HotelsController.granted_create (userId : String) (body : Required HotelParams) :
    (createSteps env ctx userId body).StepsAfter DB.Since (Granted env ctx (.hotelsCreate userId body)) ∅ := by
  refine .filter (fun _ => filters_authenticateUser) .nothing fun s₀ _ hauth =>
    .filter (fun _ => filters_setUser userId) .nothing fun s₁ user hpath =>
      .filter (fun _ => filters_permitted "hotel" body) .nothing fun s₂ p _ =>
        .filter (fun _ => filters_authorizeBuilt .create .hotel) .nothing fun s₃ _ hcan =>
          .step (fun s _ => .raising (by simp) hauth ?_) fun s r _ _ => by cases r <;> trivial
  rcases Hotel.leaves_save p.join user.1 s with ⟨h, hv, -, hs⟩ | ⟨-, hs⟩
  · rw [hs]
    have hfound : findParam s₁.users userId = some (h.userId, user.2) := by rw [hpath, Hotel.validate_userId hv]
    exact .inr (.createHotel (by simp) hfound (by simp) hcan)
  · exact .inl hs

theorem HotelsController.granted_update (userId id : String) (body : Required HotelParams) :
    (updateSteps env ctx id body).StepsAfter DB.Since (Granted env ctx (.hotelsUpdate userId id body)) ∅ := by
  refine .filter (fun _ => filters_authenticateUser) .nothing fun s₀ _ hauth =>
    .filter (fun _ => filters_setHotel id) .nothing fun s₁ hotel hpath =>
      .filter (fun _ => filters_authorize .update (.record .hotel (some hotel.2.userId))) .nothing fun s₂ _ hcan =>
        .filter (fun _ => filters_permitted "hotel" body) .nothing fun s₃ p _ =>
          .step (fun s hs => .raising (by simp) hauth ?_) fun s r _ _ => by cases r <;> trivial
  rcases Hotel.updateChanged_state hotel.1 hotel.2 p s with h | ⟨kept, h', hfind, -, hsame, h⟩
  · exact .inl h
  · rw [h]
    -- the owner is the one that the ability was asked about
    have howner : kept.userId = hotel.2.userId := (hs s₁ (by simp)).1.hotels.eq_of_find (findParam_find hpath) hfind
    rw [← howner] at hcan
    exact .inr (.updateHotel (by simp) hpath hfind (by simp) hcan hsame)

theorem HotelsController.granted_destroy (userId id : String) :
    (destroySteps env ctx id).StepsAfter DB.Since (Granted env ctx (.hotelsDestroy userId id)) ∅ := by
  refine .filter (fun _ => filters_authenticateUser) .nothing fun s₀ _ hauth =>
    .filter (fun _ => filters_setHotel id) .nothing fun s₁ hotel hpath =>
      .filter (fun _ => filters_authorize .destroy (.record .hotel (some hotel.2.userId))) .nothing fun s₂ _ hcan =>
        .step (fun s hs => .raising (by simp) hauth ?_) fun s _ _ _ => trivial
  obtain ⟨hlater, hkeys⟩ := hs s₁ (by simp)
  rw [destroyHotel_run]
  cases hfind : s.hotels.find hotel.1 with
  | none => exact .inl (hkeys.dropHotels_of_gone hfind)
  | some h =>
    have howner : h.userId = hotel.2.userId := hlater.hotels.eq_of_find (findParam_find hpath) hfind
    rw [← howner] at hcan
    exact .inr (.destroyHotel (by simp) hpath hfind (by simp) hcan)

theorem MenusController.granted_create (userId hotelId : String) (body : Required MenuParams) :
    (createSteps env ctx hotelId body).StepsAfter DB.Since (Granted env ctx (.menusCreate userId hotelId body)) ∅ := by
  refine .filter (fun _ => filters_authenticateUser) .nothing fun s₀ _ hauth =>
    .filter (fun _ => filters_setHotel hotelId) .nothing fun s₁ hotel hpath =>
      .filter (fun _ => filters_permitted "menu" body) .nothing fun s₂ p _ =>
        .filter (fun _ => filters_authorizeBuilt .create .menu) .nothing fun s₃ _ hcan =>
          .step (fun s _ => .raising (by simp) hauth ?_) fun s r _ _ => by cases r <;> trivial
  rcases Menu.leaves_save p hotel.1 s with ⟨m, hv, -, -, hs⟩ | ⟨-, hs⟩
  · rw [hs]
    have hfound : findParam s₁.hotels hotelId = some (m.hotelId, hotel.2) := by rw [hpath, Menu.validate_hotelId hv]
    exact .inr (.createMenu (by simp) hfound (by simp) hcan)
  · exact .inl hs

theorem MenusController.granted_update (userId hotelId id : String) (body : Required MenuParams) :
    (updateSteps env ctx id body).StepsAfter DB.Since (Granted env ctx (.menusUpdate userId hotelId id body)) ∅ := by
  refine .filter (fun _ => filters_authenticateUser) .nothing fun s₀ _ hauth =>
    .filter (fun _ => filters_setMenu id) .nothing fun s₁ menu hpath =>
      .filter (fun _ => filters_authorize .update (.record .menu none)) .nothing fun s₂ _ hcan =>
        .filter (fun _ => filters_permitted "menu" body) .nothing fun s₃ p _ =>
          .step (fun s hs => .raising (by simp) hauth ?_) fun s r _ _ => by cases r <;> trivial
  rcases Menu.updateChanged_state menu.1 menu.2 p s with h | ⟨kept, m', hfind, -, hsame, h⟩
  · exact .inl h
  · rw [h]
    exact .inr (.updateMenu (by simp) hpath hfind (by simp) hcan hsame)

theorem MenusController.granted_destroy (userId hotelId id : String) :
    (destroySteps env ctx id).StepsAfter DB.Since (Granted env ctx (.menusDestroy userId hotelId id)) ∅ := by
  refine .filter (fun _ => filters_authenticateUser) .nothing fun s₀ _ hauth =>
    .filter (fun _ => filters_setMenu id) .nothing fun s₁ menu hpath =>
      .filter (fun _ => filters_authorize .destroy (.record .menu none)) .nothing fun s₂ _ hcan =>
        .step (fun s hs => .raising (by simp) hauth ?_) fun s _ _ _ => trivial
  rw [destroyMenu_run]
  cases hfind : s.menus.find menu.1 with
  | none => exact .inl ((hs s₁ (by simp)).2.dropMenus_of_gone hfind)
  | some m => exact .inr (.destroyMenu (by simp) hpath hfind (by simp) hcan)

theorem OrdersController.granted_destroy (userId hotelId id : String) :
    (destroySteps env ctx userId id).StepsAfter DB.Since (Granted env ctx (.ordersDestroy userId hotelId id)) ∅ := by
  refine .filter (fun _ => filters_authenticateUser) .nothing fun s₀ _ hauth =>
    .filter (fun _ => filters_setOrder id) .nothing fun s₁ order hpath =>
      .filter (fun _ => filters_setUser userId) .nothing fun s₂ user huser =>
        .filter (fun _ => filters_authorize .destroy (.record .order (some order.2.userId))) .nothing fun s₃ _ hcan =>
          .filter (fun _ => filters_orderUser order.2) .nothing fun s₄ owner howner => ?_
  obtain ⟨-, rfl⟩ := howner
  split_ifs with hsame
  · refine .step (fun s hs => .raising (by simp) hauth ?_) fun s _ _ _ => trivial
    obtain ⟨hlater, hkeys⟩ := hs s₁ (by simp)
    rw [destroyOrder_run]
    cases hfind : s.orders.find order.1 with
    | none => exact .inl (hkeys.dropOrders_of_gone hfind)
    | some o =>
      have ho : o = order.2 := hlater.orders.eq_of_find (findParam_find hpath) hfind
      rw [← ho] at hcan hsame
      have hfound : findParam s₂.users userId = some (o.userId, user.2) := by rw [huser, hsame]
      exact .inr (.destroyOrder (by simp) hpath hfind (by simp) hfound (by simp) hcan)
  · trivial

/-- The service, for a user who was granted to create orders: the order is that user's, and each item is for it. -/
theorem CreateOrderService.granted_call {userId hotelId : String} {order : Required OrderBody} {orderItems : ItemsBody}
    {s₀ s₁ s₂ : DB} {current : ℕ × User} {hotel : ℕ × Hotel} (hs₀ : s₀ ∈ past) (hauth : Authenticated env ctx s₀)
    (hs₁ : s₁ ∈ past) (hpath : findParam s₁.hotels hotelId = some hotel) (hs₂ : s₂ ∈ past)
    (hcur : currentUser ctx s₂ = some current)
    (hcan : can (currentUser ctx s₂) .create (.record .order (attributesFor (currentUser ctx s₂) .create .order)) = true)
    (params : OrderParams) (items : List ItemParams) :
    (callSteps current.1 hotel.1 params items).StepsAfter DB.Since
      (Granted env ctx (.ordersCreate userId hotelId order orderItems)) past := by
  refine .step (fun s _ => ?_) fun s saved _ hsaved => ?_
  · rcases Order.save_cases current.1 hotel.1 params s with ⟨o, ha, hrun⟩ | ⟨es, hrun⟩ | ⟨e, hrun⟩
    · obtain ⟨-, -, -, _, -, ho⟩ := Order.validate_eq_ok.mp (Order.accepted_eq_some.mp ha).1
      rw [hrun]
      refine .inr ⟨⟨s₀, hs₀, hauth⟩, .createOrder (u := current.2) (h := hotel.2) hs₁ ?_ hs₂ ?_ hcan⟩
      · rw [hpath, ho]
      · rw [hcur, ho]
    · exact .inl (by rw [hrun])
    · exact .inl (by rw [hrun])
  · rcases Order.save_cases current.1 hotel.1 params s with ⟨o, ha, hrun⟩ | ⟨es, hrun⟩ | ⟨e, hrun⟩
    · rw [hrun] at hsaved ⊢
      cases hsaved
      obtain ⟨-, -, -, _, -, ho⟩ := Order.validate_eq_ok.mp (Order.accepted_eq_some.mp ha).1
      refine .bind (.each (fun past' hp x s' hs' => ?_) subset_rfl items) fun _ past' _ =>
        .of_steps (steps_created _ o) fun _ _ _ (h : Eq _ _) => .inl h.symm
      rcases OrderItem.create_cases s.orders.next x s' with ⟨hi, -, hrun'⟩ | ⟨e, hrun'⟩
      · rw [hrun']
        obtain ⟨o', ho'⟩ := Table.has_iff.mp hi
        -- the order that is there now is the one that was saved
        have hsame : o' = o := (hs' _ (hp (.inr (.inr rfl)))).1.orders.eq_of_find (Table.find_insert_next s.orders o) ho'
        refine .inr ⟨⟨s₀, hp (.inl hs₀), hauth⟩, .createItem (o := o') (u := current.2) ho' (hp (.inl hs₂)) ?_ hcan⟩
        rw [hcur, hsame, ho]
      · exact .inl (by rw [hrun'])
    · rw [hrun] at hsaved
      cases hsaved
      trivial
    · rw [hrun] at hsaved
      cases hsaved

theorem OrdersController.granted_create (userId hotelId : String) (order : Required OrderBody) (orderItems : ItemsBody) :
    (createSteps env ctx hotelId order orderItems).StepsAfter DB.Since
      (Granted env ctx (.ordersCreate userId hotelId order orderItems)) ∅ := by
  refine .filter (fun _ => filters_authenticateUser) .nothing fun s₀ _ hauth =>
    .filter (fun _ => filters_setHotel hotelId) .nothing fun s₁ hotel hpath =>
      .filter (fun _ => filters_orderParams) .nothing fun s₂ params _ =>
        .filter (fun _ => filters_authorizingBuilt .create .order) .nothing fun s₃ loaded hcan =>
          .filter (fun _ => filters_orderItemsParams) .nothing fun s₄ items _ => ?_
  obtain ⟨hcan, rfl⟩ := hcan
  cases hcur : currentUser ctx s₃ with
  | none => trivial
  | some current =>
    show StepsAfter _ _ _ (CreateOrderService.callSteps current.1 hotel.1 params items >>= _)
    exact .bind (CreateOrderService.granted_call (by simp) hauth (by simp) hpath (by simp)
      hcur hcan params items) fun _ _ _ => trivial

/-- Every step of a request is granted. -/
theorem Req.granted_steps (req : Req) : (req.steps env ctx).StepsAfter DB.Since (Granted env ctx req) ∅ := by
  cases req with
  | usersUpdate id body => exact UsersController.granted_update id body
  | hotelsCreate userId body => exact HotelsController.granted_create userId body
  | hotelsUpdate userId id body => exact HotelsController.granted_update userId id body
  | hotelsDestroy userId id => exact HotelsController.granted_destroy userId id
  | menusCreate userId hotelId body => exact MenusController.granted_create userId hotelId body
  | menusUpdate userId hotelId id body => exact MenusController.granted_update userId hotelId id body
  | menusDestroy userId hotelId id => exact MenusController.granted_destroy userId hotelId id
  | ordersCreate userId hotelId order orderItems => exact OrdersController.granted_create userId hotelId order orderItems
  | ordersDestroy userId hotelId id => exact OrdersController.granted_destroy userId hotelId id
  | _ => exact .of_steps (H := Eq) (steps_reads _ trivial) fun _ _ _ h => .inl h.symm

/-- What a task does, given what its thread has seen. -/
def Task.Allowed (env : Env) : Task → Set DB → DB → DB → Prop
  | .request ctx req => Granted env ctx req
  | _ => fun _ _ _ => True

theorem Task.allowed_program (t : Task) : (t.program env).StepsAfter DB.Since (t.Allowed env) ∅ := by
  cases t with
  | request ctx req => exact .bind req.granted_steps fun _ _ _ => trivial
  | _ => exact .of_steps (H := fun _ _ => True) ((steps_program _).mono fun _ _ _ => trivial) fun _ _ _ _ => trivial

/-- The owner of a hotel changes its name and logs out, at the same time. -/
def renameAndLogout (k : Bool) : Task :=
  if k then .logout 0 (sampleCtx 2).authorization
  else .request (sampleCtx 2) (.hotelsUpdate "2" "1" (.hash (some (some "New name"))))

end FoodFactory
