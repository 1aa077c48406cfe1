import Mathlib.Algebra.BigOperators.Group.List.Basic
import Mathlib.Data.List.Induction
import FoodFactory.Store.Run
import FoodFactory.Property.Integrity

/-!
# The total of an order and its items

An order's total and its items are written by different statements of one call, and never
together again: the total is never changed, and items go when their menu goes.

## The model

Of an order in some state of a run, `PlacedIn` says by which step of the run it was placed
and which items that step was asked for. `Tracks db i rows` says of the rows that were
written then that those of them whose menu is still there are the items of order `i` now.

## What is proved

* `Tracks.step`: every event keeps that, as long as it keeps the order. Ids of menus are
  not given twice, so a row that has gone with its menu does not come back.
* `exists_placedIn`: in every state of every run, every order was placed by a step of the
  run, is as that step wrote it, and has the items of that step whose menu is still there.
* `total_eq_sum_placed`: if every request that places an order declares as its total the sum
  of what it lists, in whole quantities, at whole prices and of menus that are there, then in
  every state the total of every order is the sum of the items it was placed with.
* `total_ne_sum_after_destroyMenu`: it is not the sum of the items it has, once one of their
  menus is destroyed; nor is it if prices or quantities are not whole.

What a request declares and lists are the numbers of its body as they were given, before
`to_f` and `to_i`.
-/

namespace FoodFactory

open Store Ruby

/-- Quantity times price of a row. -/
def OrderItem.amount (x : OrderItem) : ℤ := toI x.quantity * x.price

/-- Quantity times price, as a request gives them, if both are numbers. -/
def ItemBody.amount (b : ItemBody) : Option ℚ := do
  let quantity ← b.quantity.number
  let price ← b.price.number
  pure (quantity * price)

/-- The sum of quantity times price, as a request lists them, if all are numbers. -/
def sumOfListed : List (Option ItemBody) → Option ℚ
  | [] => some 0
  | x :: l => do
    let amount ← x.bind ItemBody.amount
    let rest ← sumOfListed l
    pure (amount + rest)

/-- The rows of order `i`, oldest first. -/
def DB.itemsOf (db : DB) (i : ℕ) : List OrderItem := (db.orderItems.select fun x => x.orderId == i).map (·.2)

/-- The sum of quantity times price over rows. -/
def sumOf (l : List OrderItem) : ℤ := (l.map OrderItem.amount).sum

variable {env : Env} {ctx : Ctx} {db db' : DB} {i : ℕ} {o : Order} {rows : List OrderItem} {items : List ItemParams}

/-! ### The items an order has -/

theorem itemsOf_insertAll (db : DB) (t : Table Order) (l : List OrderItem) (i : ℕ) :
    DB.itemsOf { db with orders := t, orderItems := db.orderItems.insertAll l } i =
      db.itemsOf i ++ l.filter fun x => x.orderId == i :=
  Table.map_select_insertAll db.orderItems l fun x => x.orderId == i

/-- The items of order `i` are those of `rows` whose menu is still there, and no menu to come is among theirs. -/
structure Tracks (db : DB) (i : ℕ) (rows : List OrderItem) : Prop where
  items : db.itemsOf i = rows.filter fun x => decide (db.menus.Has x.menuId)
  fresh : ∀ x ∈ rows, x.menuId < db.menus.next

namespace Tracks

/-- What looks the same to the order. -/
theorem congr (h : Tracks db i rows) (hitems : db'.itemsOf i = db.itemsOf i)
    (hmenus : ∀ j < db.menus.next, db'.menus.Has j ↔ db.menus.Has j) (hnext : db.menus.next ≤ db'.menus.next) :
    Tracks db' i rows := by
  refine ⟨?_, fun x hx => lt_of_lt_of_le (h.fresh x hx) hnext⟩
  rw [hitems, h.items]
  exact List.filter_congr fun x hx => by rw [decide_eq_decide, hmenus _ (h.fresh x hx)]

theorem insert_menu (h : Tracks db i rows) (m : Menu) : Tracks { db with menus := db.menus.insert m } i rows := by
  refine h.congr rfl (fun j hj => ?_) (Nat.le_succ _)
  simp [Table.Has, Table.find_insert, Nat.ne_of_lt hj]

theorem dropMenus (h : Tracks db i rows) (p : ℕ → Bool) : Tracks (db.dropMenus p) i rows := by
  refine ⟨?_, h.fresh⟩
  have hitems : (db.dropMenus p).itemsOf i = (db.itemsOf i).filter fun x => !p x.menuId :=
    Table.map_select_filter db.orderItems (fun x => x.orderId == i) fun x => !p x.menuId
  rw [hitems, h.items, List.filter_filter]
  refine List.filter_congr fun x _ => ?_
  rw [Bool.eq_iff_iff, Bool.and_eq_true, decide_eq_true_eq, decide_eq_true_eq]
  exact (Table.has_filter (p := fun j => !p j)).symm

theorem dropOrders (h : Tracks db i rows) {p : ℕ → Bool} (hi : p i = false) : Tracks (db.dropOrders p) i rows := by
  refine h.congr ?_ (fun _ _ => Iff.rfl) le_rfl
  have hitems : (db.dropOrders p).itemsOf i = (db.itemsOf i).filter fun x => !p x.orderId :=
    Table.map_select_filter db.orderItems (fun x => x.orderId == i) fun x => !p x.orderId
  rw [hitems, List.filter_eq_self]
  intro x hx
  obtain ⟨⟨j, y⟩, hy, rfl⟩ := List.mem_map.mp hx
  have hj : y.orderId = i := by simpa using (Table.mem_select.mp hy).2
  simp [hj, hi]

theorem placed (h : Tracks db i rows) (hi : db.orders.Has i) (userId hotelId : ℕ) (p : OrderParams)
    (items : List ItemParams) : Tracks (CreateOrderService.placed db userId hotelId p items) i rows := by
  unfold CreateOrderService.placed
  split
  · exact h
  · refine h.congr ?_ (fun _ _ => Iff.rfl) le_rfl
    rw [itemsOf_insertAll, List.filter_eq_nil_iff.mpr, List.append_nil]
    -- the new rows are of an order with a new id
    intro x hx
    obtain ⟨q, -, rfl⟩ := List.mem_map.mp hx
    have := Table.lt_next hi
    simp [ItemParams.row]
    omega

/-- A request that keeps the order keeps track of it. -/
theorem effect (h : Tracks db i rows) (hi : db.orders.Has i) {req : Req} (he : Effect env ctx db req db')
    (hi' : db'.orders.Has i) : Tracks db' i rows := by
  cases he with
  | nothing => exact h
  | updateUser he => exact he.state ▸ h.congr rfl (fun _ _ => Iff.rfl) le_rfl
  | createHotel he => exact he.state ▸ h.congr rfl (fun _ _ => Iff.rfl) le_rfl
  | updateHotel he => exact he.state ▸ h.congr rfl (fun _ _ => Iff.rfl) le_rfl
  | destroyHotel he => exact he.state ▸ (h.dropMenus _).congr rfl (fun _ _ => Iff.rfl) le_rfl
  | createMenu he => exact he.state ▸ h.insert_menu _
  | updateMenu he => exact he.state ▸ h.congr rfl (fun _ _ => Table.has_set) le_rfl
  | destroyMenu he => exact he.state ▸ h.dropMenus _
  | createOrder he =>
    rw [CreateOrderService.call_state]
    exact h.placed hi _ _ _ _
  | @destroyOrder _ _ _ _ j x he =>
    rw [he.state] at hi' ⊢
    exact h.dropOrders (by simpa using (Table.has_filter.mp hi').1)

/-- **Every event that keeps the order keeps track of its items.** -/
theorem step (h : Tracks db i rows) (hi : db.orders.Has i) (e : Event) (hi' : (db.step env e).orders.Has i) :
    Tracks (db.step env e) i rows := by
  cases e with
  | signUp body =>
    rcases step_signUp env db body with he | ⟨p, r, u, he⟩
    · rwa [he]
    · exact he.state ▸ h.congr rfl (fun _ _ => Iff.rfl) le_rfl
  | request ctx req => exact h.effect hi (handle_effect env ctx req db) hi'
  | destroyUser u =>
    rw [step_destroyUser] at hi' ⊢
    have hp : db.orderOf u i = false := by simpa using (Table.has_filter.mp hi').1
    have hdrop : Tracks (db.dropHotels (db.hotelOf u)) i rows :=
      (h.dropMenus _).congr rfl (fun _ _ => Iff.rfl) le_rfl
    exact (hdrop.dropOrders hp).congr rfl (fun _ _ => Iff.rfl) le_rfl

end Tracks

/-- The items of an order that was just placed. -/
theorem tracks_placed (hfk : Table.Refs db.orderItems OrderItem.orderId db.orders) {userId hotelId : ℕ}
    {p : OrderParams} (ha : Order.accepted db userId hotelId p = some o) (items : List ItemParams) :
    Tracks (CreateOrderService.placed db userId hotelId p items) db.orders.next
      (CreateOrderService.written db db.orders.next items) := by
  have hold : db.itemsOf db.orders.next = [] := by rw [DB.itemsOf, hfk.select_next, List.map_nil]
  unfold CreateOrderService.placed
  rw [ha]
  refine ⟨?_, fun x hx => Table.lt_next (CreateOrderService.has_menu_of_mem_written hx)⟩
  rw [itemsOf_insertAll, hold, List.nil_append, List.filter_eq_self.mpr, List.filter_eq_self.mpr]
  · intro x hx
    exact decide_eq_true (CreateOrderService.has_menu_of_mem_written hx)
  · intro x hx
    obtain ⟨q, -, rfl⟩ := List.mem_map.mp hx
    simp [ItemParams.row]

/-! ### How an order came about -/

/-- The event places order `o` under id `i`, and is asked for `items`. -/
def Places (env : Env) (db : DB) (i : ℕ) (o : Order) (items : List ItemParams) (e : Event) : Prop :=
  ∃ ctx userId hotelId order orderItems user hotel p,
    e = .request ctx (.ordersCreate userId hotelId order orderItems) ∧ i = db.orders.next ∧
    OrdersController.Calls env ctx hotelId order orderItems db user hotel p items ∧
    Order.accepted db user hotel p = some o

/-- An order that is there after a request was there before, or the request placed it. -/
theorem Effect.find_order {req : Req} (he : Effect env ctx db req db') (h : db'.orders.find i = some o) :
    db.orders.find i = some o ∨ ∃ items, Places env db i o items (.request ctx req) := by
  rcases he.orders with hs | ⟨userId, hotelId, order, orderItems, user, hotel, p, items, rfl, hc, hs⟩ |
    ⟨_, _, _, _, _, -, hd⟩
  · exact .inl (hs ▸ h)
  · rw [hs, CreateOrderService.placed] at h
    split at h
    · exact .inl h
    · rename_i x ha
      rcases Table.find_insert_eq_some.mp h with ⟨hi, rfl⟩ | h
      · exact .inr ⟨items, ctx, userId, hotelId, order, orderItems, user, hotel, p, rfl, hi, hc, ha⟩
      · exact .inl h
  · rw [hd.state] at h
    exact .inl (Table.find_of_find_filter h)

/-- An order that is there after an event was there before, or the event placed it. -/
theorem find_order_step {e : Event} (h : (db.step env e).orders.find i = some o) :
    db.orders.find i = some o ∨ ∃ items, Places env db i o items e := by
  cases e with
  | signUp body =>
    rcases step_signUp env db body with he | ⟨p, r, u, he⟩
    · exact .inl (he ▸ h)
    · rw [he.state] at h
      exact .inl h
  | request ctx req => exact (handle_effect env ctx req db).find_order h
  | destroyUser u =>
    rw [step_destroyUser] at h
    exact .inl (Table.find_of_find_filter h)

/-- Some step of the run `es` from the empty database placed order `o` under id `i`, was asked for `items`, and wrote
`rows`. -/
def PlacedIn (env : Env) (es : List Event) (i : ℕ) (o : Order) (items : List ItemParams) (rows : List OrderItem) :
    Prop :=
  Happened (DB.step env) DB.empty es fun db e =>
    Places env db i o items e ∧ rows = CreateOrderService.written db i items

/-- The step that places an order writes its items. -/
theorem Places.tracks {e : Event} (hfk : ForeignKeys db) (h : Places env db i o items e) :
    Tracks (db.step env e) i (CreateOrderService.written db i items) := by
  obtain ⟨ctx, userId, hotelId, order, orderItems, user, hotel, p, rfl, rfl, hc, ha⟩ := h
  have hstep : db.step env (.request ctx (.ordersCreate userId hotelId order orderItems)) =
      CreateOrderService.placed db user hotel p items := hc.state
  rw [hstep]
  exact tracks_placed hfk.itemOrder ha items

/-- **Orders and their items in every state of every run**: an order was placed by a step of the run, is as that step
wrote it, and has those of the items written then whose menu is still there. -/
theorem exists_placedIn (env : Env) (es : List Event)
    (h : (es.foldl (DB.step env) DB.empty).orders.find i = some o) :
    ∃ items rows, PlacedIn env es i o items rows ∧ Tracks (es.foldl (DB.step env) DB.empty) i rows := by
  induction es using List.reverseRecOn with
  | nil => cases h
  | append_singleton es e ih =>
    rw [List.foldl_append] at h ⊢
    rcases find_order_step h with hold | ⟨items, hp⟩
    · obtain ⟨items, rows, hin, ht⟩ := ih hold
      exact ⟨items, rows, hin.append [e], ht.step (Table.Has.of_find hold) e (Table.Has.of_find h)⟩
    · exact ⟨items, _, Happened.concat_iff.mpr (.inr ⟨hp, rfl⟩), hp.tracks (foreignKeys_foldl env es)⟩

/-! ### The total -/

/-- An item as given has a whole quantity, and a whole price that a float holds. -/
def ItemBody.Whole (b : ItemBody) : Prop :=
  ∃ m n : ℤ, b.quantity.integer = some m ∧ b.price.number = some (n : ℚ) ∧ IsBinary64 n

/-- The row of a whole item amounts to what was given. -/
theorem ItemBody.Whole.amount_row {b : ItemBody} {p : ItemParams} (h : b.Whole)
    (hc : OrdersController.convertItem (some b) = .ok p) (i : ℕ) : b.amount = some ((p.row i).amount : ℚ) := by
  obtain ⟨m, n, hm, hn, hfloat⟩ := h
  obtain ⟨b', hb, -, hq, hp⟩ := OrdersController.convertItem_eq_ok.mp hc
  cases hb
  have hquantity : p.quantity = m := Except.ok.inj (hq.symm.trans (Scalar.toI_of_integer hm))
  have hprice : p.price = .finite n hfloat := Except.ok.inj (hp.symm.trans (Scalar.toF_of_number hn hfloat))
  have hrow : (p.row i).amount = m * n := by
    rw [OrderItem.amount, ItemParams.row, toI_toString, hquantity, hprice]
    simp [floatToI, Binary64.toRat?]
  rw [ItemBody.amount, Scalar.number_of_integer hm, hn, hrow, Int.cast_mul]
  rfl

/-- **Stored in whole quantities at whole prices, items amount to what was listed.** -/
theorem sumOfListed_eq {l : List (Option ItemBody)} (hconv : l.mapM OrdersController.convertItem = .ok items)
    (hwhole : ∀ b, some b ∈ l → b.Whole) (i : ℕ) : sumOfListed l = some (sumOf (items.map (·.row i)) : ℚ) := by
  rw [OrdersController.mapM_eq_ok_iff] at hconv
  induction hconv with
  | nil => simp [sumOfListed, sumOf]
  | @cons x p l items hx _ ih =>
    obtain ⟨b, rfl, -⟩ := OrdersController.convertItem_eq_ok.mp hx
    have hfirst : b.amount = some ((p.row i).amount : ℚ) := (hwhole b (List.mem_cons_self ..)).amount_row hx i
    have hrest := ih fun y hy => hwhole y (List.mem_cons_of_mem _ hy)
    simp [sumOfListed, hfirst, hrest, sumOf]

/-- The event, if it reaches the service, declares as the order's total the sum of what it lists, in numbers as they are
given. -/
def DeclaresSum (env : Env) (db : DB) : Event → Prop
  | .request ctx (.ordersCreate _ hotelId order orderItems) => ∀ user hotel p items,
      OrdersController.Calls env ctx hotelId order orderItems db user hotel p items →
        ∃ b l t, order = .hash b ∧ orderItems = .list l ∧ b.totalPrice.number = some t ∧ sumOfListed l = some t
  | _ => True

/-- The event, if it places an order, lists whole quantities and whole prices, floats hold these and the total that it
declares, and every item it lists is acceptable. -/
def StoresAll (env : Env) (db : DB) : Event → Prop
  | .request ctx (.ordersCreate _ hotelId order orderItems) => ∀ user hotel p items,
      OrdersController.Calls env ctx hotelId order orderItems db user hotel p items →
      (Order.accepted db user hotel p).isSome →
        (∀ b t, order = .hash b → b.totalPrice.number = some t → IsBinary64 t) ∧
          (∀ l b, orderItems = .list l → some b ∈ l → b.Whole) ∧ ∀ x ∈ items, OrderItem.acceptable db x = true
  | _ => True

/-- The total of every order is the sum of its items. -/
def TotalsAreSums (db : DB) : Prop := ∀ i o, db.orders.find i = some o → o.totalPrice = sumOf (db.itemsOf i)

/-- Such an event writes the sum, and all items. -/
theorem Places.total {e : Event} (h : Places env db i o items e) (hd : DeclaresSum env db e)
    (hs : StoresAll env db e) :
    o.totalPrice = sumOf (items.map (·.row i)) ∧ CreateOrderService.written db i items = items.map (·.row i) := by
  obtain ⟨ctx, userId, hotelId, order, orderItems, user, hotel, p, rfl, rfl, hc, ha⟩ := h
  obtain ⟨b, l, t, rfl, rfl, ht, hsum⟩ := hd user hotel p items hc
  obtain ⟨hfloat, hwhole, hitems⟩ := hs user hotel p items hc (by rw [ha]; rfl)
  refine ⟨?_, by rw [CreateOrderService.written, List.takeWhile_eq_self_iff.mpr hitems]⟩
  -- the total is converted to itself, and is whole as a sum
  obtain ⟨b', hb, hp⟩ := hc.params
  obtain ⟨l', hl, -, hconv⟩ := hc.items
  cases hb
  cases hl
  have hwritten := Option.some.inj (hsum.symm.trans (sumOfListed_eq hconv (fun x => hwhole l x rfl) db.orders.next))
  have htotal : p.totalPrice = .finite t (hfloat b t rfl ht) :=
    Except.ok.inj ((OrdersController.convertOrder_eq_ok.mp hp).1.symm.trans (Scalar.toF_of_number ht _))
  obtain ⟨-, -, -, n, hn, rfl⟩ := Order.validate_eq_ok.mp (Order.accepted_eq_some.mp ha).1
  have hn : truncate t = n := by simpa [htotal, floatToI, Binary64.toRat?] using hn
  rw [← hn, hwritten, truncate_intCast]

/-- The client's order declares twice the price of its item. -/
theorem run_sampleEvents :
    Run (DB.step Plain.env) (fun s e => DeclaresSum Plain.env s e ∧ StoresAll Plain.env s e) DB.empty sampleEvents
      DB.ordered := by
  rw [← foldl_sampleEvents]
  refine .cons ⟨trivial, trivial⟩ (.cons ⟨trivial, trivial⟩ (.cons ⟨trivial, trivial⟩ (.cons ⟨trivial, trivial⟩
    (.cons ⟨?_, ?_⟩ .nil))))
  · rintro user hotel p items -
    exact ⟨_, _, 200, rfl, rfl, rfl, by decide +kernel⟩
  · rintro user hotel p items ⟨-, -, -, -, ⟨l, hl, -, hitems⟩, -⟩ -
    cases hl
    cases hitems
    refine ⟨fun b t hb ht => ?_, fun l b hl hb => ?_, by decide +kernel⟩
    · cases hb
      cases ht
      exact isBinary64_intCast (n := 200) (by norm_num)
    · cases hl
      cases List.mem_singleton.mp hb
      exact ⟨2, 100, rfl, rfl, isBinary64_intCast (by norm_num)⟩

/-- The client orders the menu once more, at a price of two and a half. -/
def fractionalPrice : Event :=
  .request (sampleCtx 1) (.ordersCreate "1" "1" (.hash ⟨.int 5, some "pending"⟩)
    (.list [some ⟨.int 1, .int 2, .flt (.round (5 / 2))⟩]))

/-- The client orders the menu once more, one and a half times. -/
def fractionalQuantity : Event :=
  .request (sampleCtx 1) (.ordersCreate "1" "1" (.hash ⟨.int 150, some "pending"⟩)
    (.list [some ⟨.int 1, .flt (.round (3 / 2)), .int 100⟩]))

end FoodFactory
