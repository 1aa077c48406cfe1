import Mathlib.Data.List.TakeWhile
import FoodFactory.Model.Records

/-!
# Creating an order

`app/services/create_order_service.rb`. The order is saved first, by a statement of
its own. Then the items are created one after the other, each by a statement of its
own, up to the first that is refused, which raises. Nothing surrounds the two with a
transaction.

## What is proved

* `call_state`: what a call leaves, for every database and all parameters. When the order
  is refused, it leaves the database as it was. Otherwise it leaves the order with the
  items that come before the first that is refused (`placed`).
* `acceptable_of_created`, `call_created`: a call whose order is accepted returns `:created`
  exactly when every item is acceptable.
* `call_stores_and_reports`: such a call stores the order and one row for every item, and
  reports the items one by one.
* `allOrNothing_iff`: a call is all or nothing exactly when the order is refused or
  every item is acceptable. A call whose order is accepted and which fails at an item
  leaves the order with some of its items (`not_allOrNothing_missingMenu`).
-/

namespace FoodFactory

open Store Ruby

/-- One entry of the list of items that the service reports. -/
structure ReportedItem where
  menuId : ℕ
  menuName : String
  quantity : String
  price : ℤ
  deriving DecidableEq

/-- What the service returns: `status: :created` with the order and its items, or the errors
with `status: :unprocessable_entity`. -/
inductive ServiceResult where
  | created (id : ℕ) (order : Order) (orderItems : List ReportedItem)
  | unprocessableEntity (errors : List String)
  deriving DecidableEq

namespace CreateOrderService

/-- The entry for one item, with its menu's name from `Menu.find`. -/
def report (x : ℕ × OrderItem) : Action DB Exn ReportedItem := Action.read fun db =>
  match db.menus.find x.2.menuId with
  | none => .error .recordNotFound
  | some m => .ok ⟨x.2.menuId, m.menuName, x.2.quantity, x.2.price⟩

/-- What is returned once the order and its items are written. -/
def created (i : ℕ) (order : Order) : Action DB Exn ServiceResult := do
  let rows ← Action.read fun db => .ok (db.orderItems.select fun x => x.orderId == i)
  let items ← Action.collect report rows
  pure (.created i order items)

/-- `CreateOrderService#call`. -/
def call (userId hotelId : ℕ) (orderParams : OrderParams) (orderItems : List ItemParams) :
    Action DB Exn ServiceResult := do
  let saved ← Order.save userId hotelId orderParams
  match saved with
  | .error es => pure (.unprocessableEntity (es.map ModelError.fullMessage))
  | .ok (i, order) => do
    Action.each (OrderItem.create i) orderItems
    created i order

/-! ### What a call leaves -/

/-- The items before the first that is refused, as rows of order `i`. -/
def written (db : DB) (i : ℕ) (items : List ItemParams) : List OrderItem :=
  (items.takeWhile (OrderItem.acceptable db)).map (·.row i)

/-- The database with the order, if it is accepted, and the items before the first that is refused. -/
def placed (db : DB) (userId hotelId : ℕ) (p : OrderParams) (items : List ItemParams) : DB :=
  match Order.accepted db userId hotelId p with
  | none => db
  | some o => { db with orders := db.orders.insert o
                        orderItems := db.orderItems.insertAll (written db db.orders.next items) }

variable {db : DB} {userId hotelId : ℕ} {p : OrderParams} {o : Order} {items : List ItemParams} {i : ℕ}

/-- Inserting items does not change what the loop asks of the database. -/
theorem foldl_insert_row (l : List ItemParams) (db : DB) (i : ℕ) :
    l.foldl (fun (db : DB) p => { db with orderItems := db.orderItems.insert (p.row i) }) db =
      { db with orderItems := db.orderItems.insertAll (l.map (·.row i)) } := by
  induction l generalizing db with
  | nil => rfl
  | cons p l ih => rw [List.foldl_cons, ih, List.map_cons, Table.insertAll_cons]

/-- The loop over the items: it writes those before the first that is refused, and it ends
without an exception when none is. -/
theorem run_each_create (hi : db.orders.Has i) (items : List ItemParams) :
    ((Action.each (OrderItem.create i) items).run db).2 =
        { db with orderItems := db.orderItems.insertAll (written db i items) } ∧
      (((Action.each (OrderItem.create i) items).run db).1 = .ok () ↔
        ∀ x ∈ items, OrderItem.acceptable db x = true) := by
  -- the invariant of the loop: orders and menus, on which acceptance depends, are those of the start
  have h := @Action.run_each_takeWhile _ _ _ (OrderItem.create i) (OrderItem.acceptable db)
    (fun (s : DB) x => { s with orderItems := s.orderItems.insert (x.row i) })
    (fun s => s.orders = db.orders ∧ s.menus = db.menus)
    (fun s x hs hx => ⟨OrderItem.run_create_ok (hs.1 ▸ hi) (by
      rw [← hx]
      simp [OrderItem.acceptable, menuExists, hs.2]), hs⟩)
    (fun s x hs hx => OrderItem.run_create_refused (by
      rw [← hx]
      simp [OrderItem.acceptable, menuExists, hs.2])) items db ⟨rfl, rfl⟩
  rw [foldl_insert_row] at h
  exact h

/-- What follows the loop only reads. -/
theorem created_state (i : ℕ) (o : Order) (db : DB) : ((created i o).run db).2 = db := by
  rw [created, Action.run_get_bind, Action.run_bind_state fun _ _ => rfl]
  exact Action.collect_state (fun _ _ => rfl) _ db

/-- What is reported for a row: its menu, under its current name, its quantity and its price. -/
def ReportsRow (db : DB) (x : OrderItem) (r : ReportedItem) : Prop :=
  ∃ m, db.menus.find x.menuId = some m ∧ r = ⟨x.menuId, m.menuName, x.quantity, x.price⟩

/-- The menu of every row of the order is found, so the rows are reported, in their order. -/
theorem run_created {i : ℕ} (o : Order) {db : DB}
    (h : ∀ x ∈ db.orderItems.select fun x => x.orderId == i, db.menus.Has x.2.menuId) :
    ∃ l, (created i o).run db = (.ok (.created i o l), db) ∧
      List.Forall₂ (ReportsRow db) ((db.orderItems.select fun x => x.orderId == i).map (·.2)) l := by
  obtain ⟨l, hl, hrows⟩ := Action.run_collect (f := report) (s := db) (R := fun x r => ReportsRow db x.2 r)
    (db.orderItems.select fun x => x.orderId == i) (by
      intro x hx
      obtain ⟨m, hm⟩ := Table.has_iff.mp (h x hx)
      exact ⟨_, by rw [report, Action.run_read, hm], m, hm, rfl⟩)
  refine ⟨l, ?_, List.forall₂_map_left_iff.mpr hrows⟩
  rw [created, Action.run_get_bind, Action.run_bind_ok hl, Action.run_pure]

/-- The loop over the items of an order that was just inserted. -/
theorem run_each_inserted (db : DB) (o : Order) (items : List ItemParams) :
    ((Action.each (OrderItem.create db.orders.next) items).run { db with orders := db.orders.insert o }).2 =
        { db with orders := db.orders.insert o
                  orderItems := db.orderItems.insertAll (written db db.orders.next items) } ∧
      (((Action.each (OrderItem.create db.orders.next) items).run { db with orders := db.orders.insert o }).1 = .ok () ↔
        ∀ x ∈ items, OrderItem.acceptable db x = true) :=
  @run_each_create { db with orders := db.orders.insert o } _
    (Table.Has.of_find (Table.find_insert_next db.orders o)) items

/-- **What a call leaves.** -/
theorem call_state (db : DB) (userId hotelId : ℕ) (p : OrderParams) (items : List ItemParams) :
    ((call userId hotelId p items).run db).2 = placed db userId hotelId p items := by
  unfold placed call
  cases ha : Order.accepted db userId hotelId p with
  | none =>
    rcases Order.run_save_refused ha with ⟨es, hs⟩ | ⟨e, hs⟩
    · rw [Action.run_bind_ok hs]
      rfl
    · rw [Action.run_bind_error hs]
  | some o =>
    rw [Action.run_bind_ok (Order.run_save_ok ha)]
    dsimp only
    rw [Action.run_bind_state fun _ => created_state _ _, (run_each_inserted db o items).1]

/-- A call whose order is refused does not return `:created`. -/
theorem not_created_of_refused (ha : Order.accepted db userId hotelId p = none) (i : ℕ) (o : Order)
    (l : List ReportedItem) : ((call userId hotelId p items).run db).1 ≠ .ok (.created i o l) := by
  unfold call
  rcases Order.run_save_refused ha with ⟨es, hs⟩ | ⟨e, hs⟩
  · rw [Action.run_bind_ok hs]
    simp
  · rw [Action.run_bind_error hs]
    simp

/-- A call that returns `:created` has written every item. -/
theorem acceptable_of_created (ha : Order.accepted db userId hotelId p = some o) {i : ℕ} {o' : Order}
    {l : List ReportedItem} (h : ((call userId hotelId p items).run db).1 = .ok (.created i o' l)) :
    ∀ x ∈ items, OrderItem.acceptable db x = true := by
  refine (run_each_inserted db o items).2.mp ?_
  unfold call at h
  rw [Action.run_bind_ok (Order.run_save_ok ha)] at h
  dsimp only at h
  rw [Action.run_bind] at h
  rcases hr : (Action.each (OrderItem.create db.orders.next) items).run { db with orders := db.orders.insert o } with
    ⟨e | _, s⟩
  · rw [hr] at h
    cases h
  · rfl

/-- The rows of a new order are the ones just written: no row referred to it before. -/
theorem select_written (hfk : Table.Refs db.orderItems OrderItem.orderId db.orders) (items : List ItemParams) :
    ((db.orderItems.insertAll (written db db.orders.next items)).select fun x => x.orderId == db.orders.next).map (·.2) =
      written db db.orders.next items := by
  rw [Table.map_select_insertAll, hfk.select_next, List.map_nil, List.nil_append, List.filter_eq_self]
  intro x hx
  obtain ⟨q, -, rfl⟩ := List.mem_map.mp hx
  exact beq_self_eq_true _

/-- The menu of every row that is written is there. -/
theorem has_menu_of_mem_written {x : OrderItem} (hx : x ∈ written db i items) : db.menus.Has x.menuId := by
  obtain ⟨q, hq, rfl⟩ := List.mem_map.mp hx
  have hq := List.mem_takeWhile_imp hq
  rw [OrderItem.acceptable, Bool.and_eq_true, menuExists_iff] at hq
  exact hq.1.2

/-- A call whose order is accepted and whose items are all acceptable returns `:created`, with a report of the rows
it wrote. -/
theorem call_created (hfk : Table.Refs db.orderItems OrderItem.orderId db.orders)
    (ha : Order.accepted db userId hotelId p = some o) (hitems : ∀ x ∈ items, OrderItem.acceptable db x = true) :
    ∃ l, ((call userId hotelId p items).run db).1 = .ok (.created db.orders.next o l) ∧
      List.Forall₂ (ReportsRow db) (written db db.orders.next items) l := by
  obtain ⟨hstate, hok⟩ := run_each_inserted db o items
  have hrows := select_written hfk items
  obtain ⟨l, hl, hreport⟩ := @run_created db.orders.next o { db with
      orders := db.orders.insert o, orderItems := db.orderItems.insertAll (written db db.orders.next items) } (by
    intro x hx
    refine @has_menu_of_mem_written db items db.orders.next x.2 ?_
    rw [← hrows]
    exact List.mem_map_of_mem hx)
  refine ⟨l, ?_, hrows ▸ hreport⟩
  unfold call
  rw [Action.run_bind_ok (Order.run_save_ok ha)]
  dsimp only
  rw [Action.run_bind_ok (Prod.ext (hok.mpr hitems) hstate), hl]

/-! ### What is stored and reported -/

/-- What is reported for an item of the request: the menu it names, under its current name, the quantity in decimal,
and the price truncated. -/
structure Reports (db : DB) (q : ItemParams) (r : ReportedItem) : Prop where
  menuId : (r.menuId : ℤ) = q.menuId
  menuName : ∃ m, db.menus.find r.menuId = some m ∧ r.menuName = m.menuName
  quantity : r.quantity = toString q.quantity
  price : floatToI q.price = some r.price

/-- A report of the row of an item is a report of the item. -/
theorem ReportsRow.reports {q : ItemParams} {r : ReportedItem} (h : ReportsRow db (q.row i) r)
    (hq : OrderItem.acceptable db q = true) : Reports db q r := by
  obtain ⟨m, hm, rfl⟩ := h
  obtain ⟨hmenu, hprice, -⟩ := OrderItem.of_acceptable hq i
  exact ⟨Int.toNat_of_nonneg (menuExists_iff.mp hmenu).1, ⟨m, hm, rfl⟩, rfl, hprice⟩

/-- **What a call stores and reports**: when the order is valid, its user is there, every listed menu is there, and
the total and the prices fit their columns, the call returns `:created`, adds the order and one row for every listed
item, and reports the items one by one. -/
theorem call_stores_and_reports (hfk : Table.Refs db.orderItems OrderItem.orderId db.orders)
    (hvalid : Order.validate db userId hotelId p = .ok o) (huser : db.users.Has userId)
    (htotal : inRange o.totalPrice = true)
    (hitems : ∀ q ∈ items, menuExists db q.menuId = true ∧ fits q.price = true) :
    ∃ l, (call userId hotelId p items).run db = (.ok (.created db.orders.next o l), { db with
        orders := db.orders.insert o
        orderItems := db.orderItems.insertAll (items.map (·.row db.orders.next)) }) ∧
      o.userId = userId ∧ o.hotelId = hotelId ∧ List.Forall₂ (Reports db) items l := by
  have ha : Order.accepted db userId hotelId p = some o := Order.accepted_eq_some.mpr ⟨hvalid, htotal, huser⟩
  have hacc : ∀ q ∈ items, OrderItem.acceptable db q = true := by
    intro q hq
    rw [OrderItem.acceptable, Bool.and_eq_true]
    exact hitems q hq
  -- no item is refused, so all of them are written
  have hwritten : written db db.orders.next items = items.map (·.row db.orders.next) := by
    rw [written, List.takeWhile_eq_self_iff.mpr hacc]
  obtain ⟨l, hl, hrows⟩ := call_created hfk ha hacc
  refine ⟨l, Prod.ext hl ?_, ?_⟩
  · rw [call_state, placed, ha, ← hwritten]
  · obtain ⟨-, -, -, n, -, rfl⟩ := Order.validate_eq_ok.mp hvalid
    refine ⟨rfl, rfl, ?_⟩
    rw [hwritten, List.forall₂_map_left_iff] at hrows
    have hboth := (List.forall₂_and_left items l).mpr ⟨hacc, hrows⟩
    exact hboth.imp fun q r h => h.2.reports h.1

/-- The client orders the menu of the sample twice, the second time at a price of two and a half. -/
theorem call_stores_and_reports_sample :
    ∃ l, (call 1 1 ⟨205, some "pending"⟩ [⟨1, 2, 100⟩, ⟨1, 2, .round (5 / 2)⟩]).run DB.sample =
        (.ok (.created 1 ⟨1, 1, 205, "pending"⟩ l), { DB.sample with
          orders := Table.empty.insert ⟨1, 1, 205, "pending"⟩
          orderItems := (Table.empty.insert ⟨1, 1, "2", 100⟩).insert ⟨1, 1, "2", 2⟩ }) ∧
      List.Forall₂ (Reports DB.sample) [⟨1, 2, 100⟩, ⟨1, 2, .round (5 / 2)⟩] l := by
  obtain ⟨l, hl, -, -, hreports⟩ := @call_stores_and_reports DB.sample 1 1 ⟨205, some "pending"⟩
    ⟨1, 1, 205, "pending"⟩ [⟨1, 2, 100⟩, ⟨1, 2, .round (5 / 2)⟩] Table.Refs.empty (by decide +kernel) (by decide +kernel)
    (by decide +kernel) (by decide +kernel)
  have hrows : [ItemParams.mk 1 2 100, ⟨1, 2, .round (5 / 2)⟩].map (·.row 1) = [⟨1, 1, "2", 100⟩, ⟨1, 1, "2", 2⟩] := by
    decide +kernel
  exact ⟨l, hl.trans (by rw [show DB.sample.orders.next = 1 from rfl, hrows]; rfl), hreports⟩

/-! ### All or nothing -/

/-- A call is all or nothing: it returns `:created`, with one new order and one new row for every listed item, or
it does not return `:created` and the two tables are as they were. -/
def AllOrNothing (db : DB) (userId hotelId : ℕ) (p : OrderParams) (items : List ItemParams) : Prop :=
  let out := (call userId hotelId p items).run db
  (∃ i o l, out.1 = .ok (.created i o l) ∧ i = db.orders.next ∧ out.2.orders = db.orders.insert o ∧
      out.2.orderItems = db.orderItems.insertAll (items.map (·.row i))) ∨
    ((∀ i o l, out.1 ≠ .ok (.created i o l)) ∧ out.2.orders = db.orders ∧ out.2.orderItems = db.orderItems)

/-- **When a call is all or nothing**: exactly when the order is refused, or every item is acceptable. -/
theorem allOrNothing_iff (db : DB) (hfk : Table.Refs db.orderItems OrderItem.orderId db.orders) (userId hotelId : ℕ)
    (p : OrderParams) (items : List ItemParams) :
    AllOrNothing db userId hotelId p items ↔
      Order.accepted db userId hotelId p = none ∨ ∀ x ∈ items, OrderItem.acceptable db x = true := by
  unfold AllOrNothing
  dsimp only
  rw [call_state]
  cases ha : Order.accepted db userId hotelId p with
  | none =>
    refine iff_of_true (.inr ⟨not_created_of_refused ha, ?_⟩) (.inl rfl)
    simp [placed, ha]
  | some o =>
    have hplaced : placed db userId hotelId p items = { db with
        orders := db.orders.insert o, orderItems := db.orderItems.insertAll (written db db.orders.next items) } := by
      simp [placed, ha]
    rw [hplaced]
    constructor
    · rintro (⟨i, o', l, hout, -⟩ | ⟨-, horders, -⟩)
      · exact .inr (acceptable_of_created ha hout)
      · -- the order is there whatever becomes of its items
        have hnext : db.orders.next + 1 = db.orders.next := congrArg Table.next horders
        omega
    · rintro (h | h)
      · cases h
      · obtain ⟨l, hl, -⟩ := call_created hfk ha h
        refine .inl ⟨db.orders.next, o, l, hl, rfl, rfl, ?_⟩
        show db.orderItems.insertAll _ = _
        rw [written, List.takeWhile_eq_self_iff.mpr h]

/-- The client, who has an order, orders the menu three times more. -/
theorem allOrNothing_sample :
    Table.Refs DB.ordered.orderItems OrderItem.orderId DB.ordered.orders ∧
      AllOrNothing DB.ordered 1 1 ⟨305, some "pending"⟩ [⟨1, 2, 100⟩, ⟨1, 1, 100⟩, ⟨1, 2, .round (5 / 2)⟩] := by
  have hfk : Table.Refs DB.ordered.orderItems OrderItem.orderId DB.ordered.orders :=
    Table.Refs.empty.insert_child (by decide)
  exact ⟨hfk, (allOrNothing_iff DB.ordered hfk 1 1 _ _).mpr (.inr (by decide +kernel))⟩

/-- The second item names a menu that is not there: the call raises, and leaves the order with the first item. -/
theorem not_allOrNothing_missingMenu :
    ¬ AllOrNothing DB.sample 1 1 ⟨300, some "pending"⟩ [⟨1, 2, 100⟩, ⟨9, 1, 100⟩] ∧
      (call 1 1 ⟨300, some "pending"⟩ [⟨1, 2, 100⟩, ⟨9, 1, 100⟩]).run DB.sample =
        (.error (.recordInvalid [⟨.menu, .required⟩]), { DB.sample with
          orders := Table.empty.insert ⟨1, 1, 300, "pending"⟩
          orderItems := Table.empty.insert ⟨1, 1, "2", 100⟩ }) := by
  have hrun : (call 1 1 ⟨300, some "pending"⟩ [⟨1, 2, 100⟩, ⟨9, 1, 100⟩]).run DB.sample =
      (.error (.recordInvalid [⟨.menu, .required⟩]), { DB.sample with
        orders := Table.empty.insert ⟨1, 1, 300, "pending"⟩
        orderItems := Table.empty.insert ⟨1, 1, "2", 100⟩ }) := by decide +kernel
  refine ⟨?_, hrun⟩
  unfold AllOrNothing
  rw [hrun]
  rintro (⟨i, o, l, h, -⟩ | ⟨-, h, -⟩)
  · cases h
  · exact absurd h (by decide +kernel)

end CreateOrderService

end FoodFactory
