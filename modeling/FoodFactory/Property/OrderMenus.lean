import FoodFactory.Property.Totals

/-!
# The dishes of an order

An order names its hotel, and each of its items names a menu, which names its hotel. The
hotel of the order comes from the path of the request, and the menus from its body.

## What is proved

* `itemsAtHotel_of_rows`: deleting rows, adding menus and changing menus in place keep the
  menu of every item at the hotel of its order: neither hotel is ever changed.
* `itemsAtHotel_placed_iff`: placing an order keeps it exactly when the items that are
  written are of menus of the order's hotel.
* `itemsAtHotel_iff`: so it holds in every state of a run from the empty database exactly
  when every order placed in the run lists menus of its own hotel.
* `not_itemsAtHotel_sample`: a client orders, at a hotel without menus, the menu of another.
-/

namespace FoodFactory

open Store

/-- The menu of every order item is of the hotel of its order. -/
def ItemsAtHotel (db : DB) : Prop :=
  ∀ i x, db.orderItems.find i = some x →
    ∃ o m, db.orders.find x.orderId = some o ∧ db.menus.find x.menuId = some m ∧ m.hotelId = o.hotelId

variable {env : Env} {ctx : Ctx} {db db' : DB}

theorem ItemsAtHotel.empty : ItemsAtHotel DB.empty := by
  intro i x hx
  cases hx

/-- The hotels agree, whatever rows the item's ids lead to. -/
theorem ItemsAtHotel.hotelId_eq (h : ItemsAtHotel db) {i : ℕ} {x : OrderItem} {o : Order} {m : Menu}
    (hx : db.orderItems.find i = some x) (ho : db.orders.find x.orderId = some o)
    (hm : db.menus.find x.menuId = some m) : m.hotelId = o.hotelId := by
  obtain ⟨o', m', ho', hm', heq⟩ := h i x hx
  cases ho.symm.trans ho'
  cases hm.symm.trans hm'
  exact heq

/-- No item is new, no order is new, and a menu that an item names is still of the same hotel. -/
theorem itemsAtHotel_of_rows (hfk' : ForeignKeys db') (h : ItemsAtHotel db)
    (hitems : ∀ i x, db'.orderItems.find i = some x → db.orderItems.find i = some x)
    (horders : ∀ i o, db'.orders.find i = some o → db.orders.find i = some o)
    (hmenus : ∀ i m m', db.menus.find i = some m → db'.menus.find i = some m' → m'.hotelId = m.hotelId) :
    ItemsAtHotel db' := by
  intro i x hx
  obtain ⟨o, ho⟩ := Table.has_iff.mp (hfk'.itemOrder i x hx)
  obtain ⟨m', hm'⟩ := Table.has_iff.mp (hfk'.itemMenu i x hx)
  obtain ⟨_, m, -, hm, -⟩ := h i x (hitems i x hx)
  refine ⟨o, m', ho, hm', ?_⟩
  rw [hmenus _ m m' hm hm']
  exact h.hotelId_eq (hitems i x hx) (horders _ o ho) hm

/-- Deleting rows keeps the dishes, when it keeps the foreign keys. -/
theorem ItemsAtHotel.subset (h : ItemsAtHotel db) (hfk' : ForeignKeys db')
    (hitems : ∀ i x, db'.orderItems.find i = some x → db.orderItems.find i = some x)
    (horders : ∀ i o, db'.orders.find i = some o → db.orders.find i = some o)
    (hmenus : ∀ i m, db'.menus.find i = some m → db.menus.find i = some m) : ItemsAtHotel db' :=
  itemsAtHotel_of_rows hfk' h hitems horders fun i m m' hm hm' => by
    rw [Option.some.inj ((hmenus i m' hm').symm.trans hm)]

/-- A request that places no order keeps the dishes. -/
theorem ItemsAtHotel.effect (h : ItemsAtHotel db) (hfk : ForeignKeys db) {req : Req} (he : Effect env ctx db req db')
    (hreq : ∀ userId hotelId order orderItems, req ≠ .ordersCreate userId hotelId order orderItems) :
    ItemsAtHotel db' := by
  have hfk' := hfk.effect he
  cases he with
  | nothing => exact h
  | updateUser he => exact he.state ▸ h
  | createHotel he => exact he.state ▸ h
  | updateHotel he => exact he.state ▸ h
  | destroyHotel he =>
    rw [he.state] at hfk' ⊢
    exact h.subset hfk' (fun _ _ => Table.find_of_find_filter) (fun _ _ ho => ho) fun _ _ => Table.find_of_find_filter
  | @createMenu _ _ _ _ _ x _ he =>
    rw [he.state] at hfk' ⊢
    refine itemsAtHotel_of_rows hfk' h (fun _ _ hx => hx) (fun _ _ ho => ho) fun i m m' hm hm' => ?_
    rw [Option.some.inj (hm'.symm.trans (Table.find_insert_of_find hm _))]
  | @updateMenu _ _ _ _ _ j x _ he =>
    rw [he.state] at hfk' ⊢
    obtain ⟨p, -, hv, -⟩ := he.valid
    refine itemsAtHotel_of_rows hfk' h (fun _ _ hx => hx) (fun _ _ ho => ho) fun i m m' hm hm' => ?_
    rw [Table.find_set] at hm'
    split_ifs at hm' with hi
    · -- the row that is changed is of the hotel it was of
      obtain ⟨_, -, rfl⟩ := Option.map_eq_some_iff.mp hm'
      subst hi
      rw [Menu.validate_hotelId hv, Option.some.inj (hm.symm.trans (findParam_find he.path))]
    · rw [Option.some.inj (hm'.symm.trans hm)]
  | destroyMenu he =>
    rw [he.state] at hfk' ⊢
    exact h.subset hfk' (fun _ _ => Table.find_of_find_filter) (fun _ _ ho => ho) fun _ _ => Table.find_of_find_filter
  | createOrder he => exact absurd rfl (hreq _ _ _ _)
  | destroyOrder he =>
    rw [he.state] at hfk' ⊢
    exact h.subset hfk' (fun _ _ => Table.find_of_find_filter) (fun _ _ => Table.find_of_find_filter) fun _ _ hm => hm

/-! ### Placing an order -/

/-- Placing an order keeps the dishes exactly when the items that are written are of menus of the order's hotel. -/
theorem itemsAtHotel_placed_iff (h : ItemsAtHotel db) {userId hotelId : ℕ} {p : OrderParams}
    {o : Order} (ha : Order.accepted db userId hotelId p = some o) (items : List ItemParams) :
    ItemsAtHotel (CreateOrderService.placed db userId hotelId p items) ↔
      ∀ q ∈ items.takeWhile (OrderItem.acceptable db), ∀ m, db.menus.find q.menuId.toNat = some m →
        m.hotelId = hotelId := by
  have hhotel : o.hotelId = hotelId := by
    obtain ⟨-, -, -, _, -, rfl⟩ := Order.validate_eq_ok.mp (Order.accepted_eq_some.mp ha).1
    rfl
  have hnew : (db.orders.insert o).find db.orders.next = some o := Table.find_insert_next ..
  unfold CreateOrderService.placed
  rw [ha]
  constructor
  · intro h' q hq m hm
    obtain ⟨i, hi⟩ := Table.exists_find_insertAll db.orderItems
      (List.mem_map_of_mem (f := fun q : ItemParams => q.row db.orders.next) hq)
    rw [← hhotel]
    exact h'.hotelId_eq hi hnew hm
  · intro hq i x hx
    rcases Table.mem_of_find_insertAll hx with hold | hwritten
    · obtain ⟨o', m, ho, hm, heq⟩ := h i x hold
      exact ⟨o', m, Table.find_insert_of_find ho o, hm, heq⟩
    · obtain ⟨m, hm⟩ := Table.has_iff.mp (CreateOrderService.has_menu_of_mem_written hwritten)
      obtain ⟨q, hmem, rfl⟩ := List.mem_map.mp hwritten
      exact ⟨o, m, hnew, hm, (hq q hmem m hm).trans hhotel.symm⟩

/-- The event, if it places an order, lists before the first item that is refused only menus of the order's hotel. -/
def ListsOwnMenus (env : Env) (db : DB) : Event → Prop
  | .request ctx (.ordersCreate _ hotelId order orderItems) => ∀ user hotel p items,
      OrdersController.Calls env ctx hotelId order orderItems db user hotel p items →
      (Order.accepted db user hotel p).isSome →
        ∀ q ∈ items.takeWhile (OrderItem.acceptable db), ∀ m, db.menus.find q.menuId.toNat = some m → m.hotelId = hotel
  | _ => True

/-- The condition on a request that places an order is exact. -/
theorem itemsAtHotel_ordersCreate_iff (h : ItemsAtHotel db) (userId hotelId : String)
    (order : Required OrderBody) (orderItems : ItemsBody) :
    ItemsAtHotel (db.step env (.request ctx (.ordersCreate userId hotelId order orderItems))) ↔
      ListsOwnMenus env db (.request ctx (.ordersCreate userId hotelId order orderItems)) := by
  rcases after_ordersCreate env ctx userId hotelId order orderItems db with ⟨user, hotel, p, items, hc, hs⟩ | ⟨hno, hs⟩
  · rw [DB.step, hs]
    cases ha : Order.accepted db user hotel p with
    | none =>
      have hsame : CreateOrderService.placed db user hotel p items = db := by rw [CreateOrderService.placed, ha]
      rw [hsame]
      refine iff_of_true h fun user' hotel' p' items' hc' ha' => ?_
      obtain ⟨rfl, rfl, rfl, rfl⟩ := hc.unique hc'
      rw [ha] at ha'
      cases ha'
    | some o =>
      rw [itemsAtHotel_placed_iff h ha]
      constructor
      · intro hq user' hotel' p' items' hc' _
        obtain ⟨rfl, rfl, rfl, rfl⟩ := hc.unique hc'
        exact hq
      · exact fun hq => hq user hotel p items hc (by rw [ha]; rfl)
  · rw [DB.step, hs]
    exact iff_of_true h fun user hotel p items hc => absurd hc (hno user hotel p items)

/-! ### Runs -/

/-- **From a database whose orders are of dishes of their hotel, exactly these events keep them so.** -/
theorem itemsAtHotel_step_iff (hfk : ForeignKeys db) (h : ItemsAtHotel db) (e : Event) :
    ItemsAtHotel (db.step env e) ↔ ListsOwnMenus env db e := by
  cases e with
  | signUp body =>
    refine iff_of_true ?_ trivial
    rcases step_signUp env db body with he | ⟨p, r, u, he⟩
    · rwa [he]
    · exact he.state ▸ h
  | request ctx req =>
    cases req with
    | ordersCreate userId hotelId order orderItems =>
      exact itemsAtHotel_ordersCreate_iff h userId hotelId order orderItems
    | _ => exact iff_of_true (h.effect hfk (handle_effect env ctx _ db) (by simp)) trivial
  | destroyUser u =>
    rw [step_destroyUser]
    -- the items of the user's hotels go first, then those of the user's orders
    have hitems : ∀ i x, (db.dropUser u).orderItems.find i = some x → db.orderItems.find i = some x := fun _ _ hx =>
      Table.find_of_find_filter (Table.find_of_find_filter (t := (db.dropHotels (db.hotelOf u)).orderItems) hx)
    exact iff_of_true (h.subset (hfk.dropUser u) hitems (fun _ _ => Table.find_of_find_filter)
      fun _ _ => Table.find_of_find_filter) trivial

/-- **The dishes of orders**: every order item is of a menu of its order's hotel, in every state of a run from the
empty database, exactly when every order that is placed in the run lists menus of its own hotel. -/
theorem itemsAtHotel_iff (env : Env) (es : List Event) :
    (∀ es₁ es₂, es = es₁ ++ es₂ → ItemsAtHotel (es₁.foldl (DB.step env) DB.empty)) ↔
      Run (DB.step env) (ListsOwnMenus env) DB.empty es (es.foldl (DB.step env) DB.empty) :=
  Run.forall_iff (J := ForeignKeys) (fun _ e h _ _ _ => h.step e) (fun _ e hfk _ h => itemsAtHotel_step_iff hfk h e)
    Integrity.empty.keys ItemsAtHotel.empty (Run.free DB.empty es)

/-- The owner adds a second hotel, which has no menus, and the client orders the first hotel's menu from it. -/
def ordersElsewhere : List Event :=
  [.request (sampleCtx 2) (.hotelsCreate "2" (.hash (some (some "Second")))),
    .request (sampleCtx 1) (.ordersCreate "1" "2" (.hash ⟨.int 100, some "pending"⟩)
      (.list [some ⟨.int 1, .int 1, .int 100⟩]))]

theorem not_itemsAtHotel_sample :
    ¬ ItemsAtHotel ((sampleEvents ++ ordersElsewhere).foldl (DB.step Plain.env) DB.empty) := by
  rw [List.foldl_append, foldl_sampleEvents]
  intro h
  have heq := h.hotelId_eq (i := 2) (x := ⟨2, 1, "1", 100⟩) (o := ⟨1, 2, 100, "pending"⟩) (m := ⟨"Menu", 1, none, 100⟩)
    (by decide +kernel) (by decide +kernel) (by decide +kernel)
  exact absurd heq (by decide)

end FoodFactory
