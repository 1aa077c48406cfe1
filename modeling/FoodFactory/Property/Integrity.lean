import FoodFactory.Store.Run
import FoodFactory.Controller.Router

/-!
# Referential integrity

Six columns name a row of another table. Five of them are foreign keys of the schema
(`ForeignKeys`), which every event keeps (`ForeignKeys.step`). The sixth, the hotel of an
order, is checked when the order is saved and by nothing afterwards: `Hotel` has orders
but does not destroy them with itself.

## What is proved

* `ForeignKeys.step`: every sign-up, request and destroy keeps the five foreign keys.
* `Integrity.step_iff`: from a database in which all six references hold, an event keeps
  them exactly when it destroys no hotel that has an order which stays (`KeepsHotels`).
* `integrity_iff`: so they hold in every state of a run from the empty database exactly
  when every step of the run is such an event.
* `not_integrity_destroyHotel`: a client orders from a hotel, its owner destroys the hotel,
  and the order refers to no hotel.
-/

namespace FoodFactory

open Store

/-- The foreign keys of the schema hold. -/
structure ForeignKeys (db : DB) : Prop where
  hotelUser : Table.Refs db.hotels Hotel.userId db.users
  menuHotel : Table.Refs db.menus Menu.hotelId db.hotels
  orderUser : Table.Refs db.orders Order.userId db.users
  itemOrder : Table.Refs db.orderItems OrderItem.orderId db.orders
  itemMenu : Table.Refs db.orderItems OrderItem.menuId db.menus

/-- Every reference of the application holds: the foreign keys, and the hotel of an order. -/
structure Integrity (db : DB) : Prop where
  keys : ForeignKeys db
  orderHotel : Table.Refs db.orders Order.hotelId db.hotels

theorem Integrity.empty : Integrity DB.empty :=
  ⟨⟨Table.Refs.empty, Table.Refs.empty, Table.Refs.empty, Table.Refs.empty, Table.Refs.empty⟩, Table.Refs.empty⟩

variable {env : Env} {ctx : Ctx} {db : DB}

/-! ### Deletions -/

namespace ForeignKeys

theorem dropMenus (h : ForeignKeys db) (p : ℕ → Bool) : ForeignKeys (db.dropMenus p) where
  hotelUser := h.hotelUser
  menuHotel := h.menuHotel.filter_child _
  orderUser := h.orderUser
  itemOrder := h.itemOrder.filter_child _
  itemMenu := h.itemMenu.filter_both fun _ _ _ _ hp _ => hp

theorem dropOrders (h : ForeignKeys db) (p : ℕ → Bool) : ForeignKeys (db.dropOrders p) where
  hotelUser := h.hotelUser
  menuHotel := h.menuHotel
  orderUser := h.orderUser.filter_child _
  itemOrder := h.itemOrder.filter_both fun _ _ _ _ hp _ => hp
  itemMenu := h.itemMenu.filter_child _

theorem dropHotels (h : ForeignKeys db) (p : ℕ → Bool) : ForeignKeys (db.dropHotels p) where
  hotelUser := h.hotelUser.filter_child _
  menuHotel := h.menuHotel.filter_both fun i m _ hm hp _ => by simpa [DB.menuOf, hm] using hp
  orderUser := h.orderUser
  itemOrder := h.itemOrder.filter_child _
  itemMenu := (h.dropMenus (db.menuOf p)).itemMenu

theorem dropUser (h : ForeignKeys db) (u : ℕ) : ForeignKeys (db.dropUser u) where
  hotelUser := h.hotelUser.filter_both fun i x _ hx hp _ => by simpa [DB.hotelOf, hx] using hp
  menuHotel := (h.dropHotels (db.hotelOf u)).menuHotel
  orderUser := h.orderUser.filter_both fun i o _ ho hp _ => by simpa [DB.orderOf, ho] using hp
  itemOrder := ((h.dropHotels (db.hotelOf u)).dropOrders (db.orderOf u)).itemOrder
  itemMenu := ((h.dropHotels (db.hotelOf u)).dropOrders (db.orderOf u)).itemMenu

/-! ### Insertions and changes -/

/-- More users, or the same under new values. -/
theorem users {t : Table User} (h : ForeignKeys db) (ht : ∀ i, db.users.Has i → t.Has i) :
    ForeignKeys { db with users := t } :=
  { h with hotelUser := h.hotelUser.mono ht, orderUser := h.orderUser.mono ht }

/-- More hotels, or the same under new values, each of a user that is there. -/
theorem hotels {t : Table Hotel} (h : ForeignKeys db) (ht : ∀ i, db.hotels.Has i → t.Has i)
    (hu : Table.Refs t Hotel.userId db.users) : ForeignKeys { db with hotels := t } :=
  { h with hotelUser := hu, menuHotel := h.menuHotel.mono ht }

/-- More menus, or the same under new values, each of a hotel that is there. -/
theorem menus {t : Table Menu} (h : ForeignKeys db) (ht : ∀ i, db.menus.Has i → t.Has i)
    (hh : Table.Refs t Menu.hotelId db.hotels) : ForeignKeys { db with menus := t } :=
  { h with menuHotel := hh, itemMenu := h.itemMenu.mono ht }

theorem placed (h : ForeignKeys db) (userId hotelId : ℕ) (p : OrderParams) (items : List ItemParams) :
    ForeignKeys (CreateOrderService.placed db userId hotelId p items) := by
  unfold CreateOrderService.placed
  cases ha : Order.accepted db userId hotelId p with
  | none => exact h
  | some o =>
    obtain ⟨hv, -, hu⟩ := Order.accepted_eq_some.mp ha
    obtain ⟨-, -, -, _, -, ho⟩ := Order.validate_eq_ok.mp hv
    refine { h with orderUser := h.orderUser.insert_child (ho ▸ hu), itemOrder := ?_, itemMenu := ?_ }
    · refine (h.itemOrder.mono fun i hi => hi.insert o).insertAll_child fun x hx => ?_
      obtain ⟨q, -, rfl⟩ := List.mem_map.mp hx
      exact Table.Has.of_find (Table.find_insert_next db.orders o)
    · exact h.itemMenu.insertAll_child fun x hx => CreateOrderService.has_menu_of_mem_written hx

/-- A request keeps the foreign keys. -/
theorem effect (h : ForeignKeys db) {req : Req} {db' : DB} (he : Effect env ctx db req db') : ForeignKeys db' := by
  cases he with
  | nothing => exact h
  | updateUser he =>
    rw [he.state]
    exact h.users fun i hi => Table.has_set.mpr hi
  | createHotel he =>
    rw [he.state]
    obtain ⟨u, hu⟩ := he.path
    obtain ⟨p, -, hv⟩ := he.valid
    refine h.hotels (fun i hi => hi.insert _) (h.hotelUser.insert_child ?_)
    rw [Hotel.validate_userId hv]
    exact Table.Has.of_find (findParam_find hu)
  | @updateHotel _ _ _ _ i x _ he =>
    rw [he.state]
    obtain ⟨p, -, hv⟩ := he.valid
    refine h.hotels (fun i hi => Table.has_set.mpr hi) (h.hotelUser.set_child ?_)
    rw [Hotel.validate_userId hv]
    exact h.hotelUser i x (findParam_find he.path)
  | destroyHotel he =>
    rw [he.state]
    exact h.dropHotels _
  | createMenu he =>
    rw [he.state]
    obtain ⟨p, -, hv, -⟩ := he.valid
    refine h.menus (fun i hi => hi.insert _) (h.menuHotel.insert_child ?_)
    rw [Menu.validate_hotelId hv]
    exact Table.Has.of_find (findParam_find he.path)
  | @updateMenu _ _ _ _ _ i m _ he =>
    rw [he.state]
    obtain ⟨p, -, hv, -⟩ := he.valid
    refine h.menus (fun i hi => Table.has_set.mpr hi) (h.menuHotel.set_child ?_)
    rw [Menu.validate_hotelId hv]
    exact h.menuHotel i m (findParam_find he.path)
  | destroyMenu he =>
    rw [he.state]
    exact h.dropMenus _
  | createOrder he =>
    rw [CreateOrderService.call_state]
    exact h.placed _ _ _ _
  | destroyOrder he =>
    rw [he.state]
    exact h.dropOrders _

/-- **Every event keeps the foreign keys.** -/
theorem step (h : ForeignKeys db) (e : Event) : ForeignKeys (db.step env e) := by
  cases e with
  | signUp body =>
    rcases step_signUp env db body with he | ⟨p, r, u, he⟩
    · rwa [he]
    · rw [he.state]
      exact h.users fun i hi => hi.insert u
  | request ctx req => exact h.effect (handle_effect env ctx req db)
  | destroyUser id =>
    rw [step_destroyUser]
    exact h.dropUser id

end ForeignKeys

/-- The foreign keys hold in every state of a run. -/
theorem foreignKeys_foldl (env : Env) (es : List Event) : ForeignKeys (es.foldl (DB.step env) DB.empty) :=
  (Run.free DB.empty es).inv (fun _ e h _ => h.step e) Integrity.empty.keys

theorem ForeignKeys.ordered : ForeignKeys DB.ordered := by
  rw [← foldl_sampleEvents]
  exact foreignKeys_foldl Plain.env sampleEvents

/-! ### The hotel of an order -/

namespace Integrity

/-- Dropping hotels keeps the references exactly when no order is at one of them. -/
theorem dropHotels_iff (h : Integrity db) (p : ℕ → Bool) :
    Integrity (db.dropHotels p) ↔ ∀ j o, db.orders.find j = some o → p o.hotelId = false := by
  constructor
  · intro h' j o ho
    obtain ⟨x, hx⟩ := Table.has_iff.mp (h'.orderHotel j o ho)
    simpa using (Table.find_filter_eq_some.mp hx).2
  · intro hp
    exact ⟨h.keys.dropHotels p, h.orderHotel.filter_parent fun j o _ ho _ => by simp [hp j o ho]⟩

/-- Dropping a user keeps the references exactly when no other user has an order at a hotel of that user. -/
theorem dropUser_iff (h : Integrity db) (u : ℕ) :
    Integrity (db.dropUser u) ↔
      ∀ j o, db.orders.find j = some o → o.userId ≠ u → db.hotelOf u o.hotelId = false := by
  constructor
  · intro h' j o ho hu
    have hj : (db.dropUser u).orders.find j = some o := by
      simp only [DB.dropUser, DB.dropOrders, DB.dropHotels, DB.dropMenus, Table.find_filter]
      simp [ho, DB.orderOf, hu]
    obtain ⟨x, hx⟩ := Table.has_iff.mp (h'.orderHotel j o hj)
    simpa using (Table.find_filter_eq_some.mp hx).2
  · intro hp
    refine ⟨h.keys.dropUser u, h.orderHotel.filter_both fun j o _ ho hj _ => ?_⟩
    have hu : o.userId ≠ u := by simpa [DB.orderOf, ho] using hj
    simp [hp j o ho hu]

/-- A request that destroys no hotel keeps the references. -/
theorem effect (h : Integrity db) {req : Req} {db' : DB} (he : Effect env ctx db req db')
    (hreq : ∀ userId id, req ≠ .hotelsDestroy userId id) : Integrity db' := by
  refine ⟨h.keys.effect he, ?_⟩
  cases he with
  | nothing => exact h.orderHotel
  | updateUser he => exact he.state ▸ h.orderHotel
  | createHotel he => exact he.state ▸ h.orderHotel.mono fun i hi => hi.insert _
  | updateHotel he => exact he.state ▸ h.orderHotel.mono fun i hi => Table.has_set.mpr hi
  | destroyHotel he => exact absurd rfl (hreq _ _)
  | createMenu he => exact he.state ▸ h.orderHotel
  | updateMenu he => exact he.state ▸ h.orderHotel
  | destroyMenu he => exact he.state ▸ h.orderHotel
  | createOrder he =>
    rw [CreateOrderService.call_state, CreateOrderService.placed]
    split
    · exact h.orderHotel
    · rename_i o ha
      obtain ⟨-, -, hh, _, -, ho⟩ := Order.validate_eq_ok.mp (Order.accepted_eq_some.mp ha).1
      exact h.orderHotel.insert_child (ho ▸ hh)
  | destroyOrder he => exact he.state ▸ h.orderHotel.filter_child _

end Integrity

/-- The event takes no hotel away from an order that stays: a hotel that a request destroys has no order, and no
other user has an order at a hotel of a user that is destroyed. -/
def KeepsHotels (env : Env) (db : DB) : Event → Prop
  | .request ctx (.hotelsDestroy _ id) => ∀ i h, findParam db.hotels id = some (i, h) → Authenticated env ctx db →
      can (currentUser ctx db) .destroy (.record .hotel (some h.userId)) = true →
        ∀ j o, db.orders.find j = some o → o.hotelId ≠ i
  | .destroyUser u => ∀ j o, db.orders.find j = some o → o.userId ≠ u → db.hotelOf u o.hotelId = false
  | _ => True

/-- The condition on a request that destroys a hotel is exact. -/
theorem Integrity.destroyHotel_iff (h : Integrity db) (userId id : String) :
    Integrity (db.step env (.request ctx (.hotelsDestroy userId id))) ↔
      KeepsHotels env db (.request ctx (.hotelsDestroy userId id)) := by
  rcases @HotelsController.leaves_destroy env ctx id db with
    ⟨i, x, hd⟩ | ⟨hno, hsame⟩
  · have hstep : db.step env (.request ctx (.hotelsDestroy userId id)) = db.dropHotels fun j => j == i := hd.state
    rw [hstep, h.dropHotels_iff]
    constructor
    · intro hp i' x' hpath _ _ j o ho
      cases hd.path.symm.trans hpath
      simpa using hp j o ho
    · intro hk j o ho
      simpa using hk i x hd.path hd.auth hd.can j o ho
  · have hstep : db.step env (.request ctx (.hotelsDestroy userId id)) = db := hsame
    rw [hstep]
    exact iff_of_true h fun i x hpath hauth hcan => absurd ⟨i, x, hauth, hpath, hcan, rfl⟩ (hno _)

/-- **From a database in which all references hold, exactly these events keep them.** -/
theorem Integrity.step_iff (h : Integrity db) (e : Event) : Integrity (db.step env e) ↔ KeepsHotels env db e := by
  cases e with
  | signUp body =>
    refine iff_of_true ⟨h.keys.step _, ?_⟩ trivial
    rcases step_signUp env db body with he | ⟨p, r, u, he⟩
    · rw [he]
      exact h.orderHotel
    · exact he.state ▸ h.orderHotel
  | request ctx req =>
    cases req with
    | hotelsDestroy userId id => exact h.destroyHotel_iff userId id
    | _ => exact iff_of_true (h.effect (handle_effect env ctx _ db) (by simp)) trivial
  | destroyUser id =>
    rw [step_destroyUser]
    exact h.dropUser_iff id

/-- **Referential integrity of runs**: all references hold in every state of a run from the empty database exactly
when no step of the run takes a hotel away from an order. -/
theorem integrity_iff (env : Env) (es : List Event) :
    (∀ es₁ es₂, es = es₁ ++ es₂ → Integrity (es₁.foldl (DB.step env) DB.empty)) ↔
      Run (DB.step env) (KeepsHotels env) DB.empty es (es.foldl (DB.step env) DB.empty) :=
  Run.forall_iff (J := fun _ => True) (fun _ _ _ _ _ _ => trivial) (fun _ e _ _ h => h.step_iff e) trivial Integrity.empty
    (Run.free DB.empty es)

/-- The owner destroys the hotel. The order stays, and its `hotel_id` names no hotel. -/
theorem not_integrity_destroyHotel :
    ¬ Integrity ((sampleEvents ++ [Event.request (sampleCtx 2) (.hotelsDestroy "2" "1")]).foldl
      (DB.step Plain.env) DB.empty) := by
  rw [List.foldl_append, foldl_sampleEvents]
  intro h
  have horder := h.orderHotel 1 ⟨1, 1, 200, "pending"⟩ (by decide +kernel)
  exact absurd horder (by decide +kernel)

end FoodFactory
