import FoodFactory.Store.Discipline
import FoodFactory.Property.Interleaving

/-!
# Orders that are placed at the same time

The service saves the order and each of its items by a transaction of its own, and then reads
the items back to report them. In between, other requests place orders, destroy orders, menus
and hotels, and change what they may.

## The model

A thread owns the orders that it has saved, and relies on the others for one thing
(`Kept`): as long as the order is there, its rows are those that were written and whose
menus are still there, in the order in which they were written. The others guarantee that they
insert no items for it (`Move`).

## What is proved

* `Kept.move`: whatever a step of another thread does, it keeps that.
* `placed_interleaved`: so a creation that has answered with `created` has stored one row for
  every item, in every interleaving, and no others. Some may be gone by now with their menus,
  or all of them with the order. What it reported are rows of its own, in their order, and all of
  them when the order and all the menus are still there.
* `distinct_interleaved`: no two creations answer with one order.
-/

namespace FoodFactory

open Store Program CreateOrderService OrdersController

/-- The rows of order `i`. -/
def DB.rowsOf (db : DB) (i : ℕ) : List (ℕ × OrderItem) := db.orderItems.select fun x => x.orderId == i

/-- Order `i` is `o` and the rows `w` were written for it. It has those of them whose menus are still there, or it is
gone. -/
structure Kept (i : ℕ) (o : Order) (w : List (ℕ × OrderItem)) (db : DB) : Prop where
  given : i < db.orders.next
  menus : ∀ x ∈ w, x.2.menuId < db.menus.next
  rows : (db.orders.find i = some o ∧ db.rowsOf i = w.filter fun x => decide (db.menus.Has x.2.menuId)) ∨
    (db.orders.find i = none ∧ db.rowsOf i = [])

/-- The changes that insert no items but for the orders in `A`. -/
def itemsWithin (A : Set ℕ) : Set Change := {c | ∀ i, c = .insertItem i → i ∈ A}

theorem insertOrder_mem_itemsWithin (A : Set ℕ) : .insertOrder ∈ itemsWithin A := fun _ h => by cases h

theorem insertItem_mem_itemsWithin {A : Set ℕ} {i : ℕ} : .insertItem i ∈ itemsWithin A ↔ i ∈ A := by
  simp [itemsWithin]

namespace Kept

variable {A : Set ℕ} {i : ℕ} {o : Order} {w : List (ℕ × OrderItem)} {db db' : DB}

/-- What touches neither orders nor items, and keeps the menus that are there. -/
theorem congr (h : Kept i o w db) (ho : db'.orders = db.orders) (hx : db'.orderItems = db.orderItems)
    (hn : db.menus.next ≤ db'.menus.next) (hm : ∀ j, j < db.menus.next → (db'.menus.Has j ↔ db.menus.Has j)) :
    Kept i o w db' := by
  refine ⟨ho ▸ h.given, fun x hx => lt_of_lt_of_le (h.menus x hx) hn, ?_⟩
  rw [ho, DB.rowsOf, hx]
  refine h.rows.imp_left fun hrows => ⟨hrows.1, hrows.2.trans ?_⟩
  refine List.filter_congr fun x hxw => ?_
  rw [decide_eq_decide, hm _ (h.menus x hxw)]

theorem dropMenus (h : Kept i o w db) (p : ℕ → Bool) : Kept i o w (db.dropMenus p) := by
  have hrows : (db.dropMenus p).rowsOf i = (db.rowsOf i).filter fun x => !p x.2.menuId := by
    simp only [DB.rowsOf, DB.dropMenus, Table.select, Table.filter, List.filter_filter]
    exact List.filter_congr fun x _ => Bool.and_comm ..
  refine ⟨h.given, h.menus, ?_⟩
  rw [hrows]
  rcases h.rows with ⟨ho, hw⟩ | ⟨ho, hw⟩
  · refine .inl ⟨ho, ?_⟩
    rw [hw, List.filter_filter]
    refine List.filter_congr fun x _ => ?_
    rw [Bool.eq_iff_iff, Bool.and_eq_true, decide_eq_true_iff, decide_eq_true_iff]
    exact (Table.has_filter (p := fun j => !p j)).symm
  · exact .inr ⟨ho, by rw [hw, List.filter_nil]⟩

theorem dropOrders (h : Kept i o w db) (p : ℕ → Bool) : Kept i o w (db.dropOrders p) := by
  have hrows : (db.dropOrders p).rowsOf i = if p i then [] else db.rowsOf i := by
    simp only [DB.rowsOf, DB.dropOrders, Table.select, Table.filter, List.filter_filter]
    split_ifs with hp
    · refine List.filter_eq_nil_iff.mpr fun x _ hx => ?_
      rw [Bool.and_eq_true, beq_iff_eq] at hx
      rw [hx.1, hp] at hx
      cases hx.2
    · refine List.filter_congr fun x _ => ?_
      rw [Bool.not_eq_true] at hp
      by_cases hx : x.2.orderId = i <;> simp [hx, hp]
  have hfind : (db.dropOrders p).orders.find i = if p i then none else db.orders.find i := by
    simp only [DB.dropOrders, Table.find_filter]
    cases p i <;> cases db.orders.find i <;> rfl
  refine ⟨h.given, h.menus, ?_⟩
  rw [hrows, hfind]
  split_ifs with hp
  · exact .inr ⟨rfl, rfl⟩
  · exact h.rows

theorem insertOrder (h : Kept i o w db) (o' : Order) : Kept i o w { db with orders := db.orders.insert o' } := by
  refine ⟨Nat.lt_succ_of_lt h.given, h.menus, ?_⟩
  have hfind : (db.orders.insert o').find i = db.orders.find i := by
    rw [Table.find_insert, if_neg (Nat.ne_of_lt h.given)]
  show ((db.orders.insert o').find i = _ ∧ _) ∨ ((db.orders.insert o').find i = _ ∧ _)
  rw [hfind]
  exact h.rows

theorem insertItem (h : Kept i o w db) {x : OrderItem} (hx : x.orderId ≠ i) :
    Kept i o w { db with orderItems := db.orderItems.insert x } := by
  refine ⟨h.given, h.menus, ?_⟩
  have hrows : ({ db with orderItems := db.orderItems.insert x } : DB).rowsOf i = db.rowsOf i := by
    rw [DB.rowsOf, Table.select_insert, beq_eq_false_iff_ne.mpr hx]
    simp [DB.rowsOf]
  rw [hrows]
  exact h.rows

/-- **A step of another thread keeps the rows of an order**: it inserts no items for it. -/
theorem move (h : Kept i o w db) (hi : i ∉ A) (hm : Move (itemsWithin A) db db') : Kept i o w db' := by
  cases hm with
  | insertMenu _ _ =>
    refine h.congr rfl rfl (Nat.le_succ _) fun j hj => ?_
    rw [Table.Has, Table.Has, Table.find_insert, if_neg (Nat.ne_of_lt hj)]
  | changeMenu _ _ _ => exact h.congr rfl rfl le_rfl fun j _ => Table.has_set
  | dropMenu j => exact h.dropMenus _
  | dropHotel j => exact (h.dropMenus _).congr rfl rfl le_rfl fun _ _ => Iff.rfl
  | insertOrder _ _ _ => exact h.insertOrder _
  | insertItem _ _ _ hx =>
    refine h.insertItem ?_
    rintro rfl
    exact hi (insertItem_mem_itemsWithin.mp hx)
  | dropOrder j => exact h.dropOrders _
  | dropUser j =>
    have hhotels : Kept i o w (db.dropHotels (db.hotelOf j)) :=
      (h.dropMenus _).congr rfl rfl le_rfl fun _ _ => Iff.rfl
    exact (hhotels.dropOrders (db.orderOf j)).congr rfl rfl le_rfl fun _ _ => Iff.rfl
  | _ => exact h.congr rfl rfl le_rfl fun _ _ => Iff.rfl

/-- An item that is written for the order is its last row. -/
theorem write (h : Kept i o w db) (hi : db.orders.Has i) {x : OrderItem} (hx : x.orderId = i)
    (hm : db.menus.Has x.menuId) :
    Kept i o (w ++ [(db.orderItems.next, x)]) { db with orderItems := db.orderItems.insert x } := by
  refine ⟨h.given, fun y hy => ?_, ?_⟩
  · rcases List.mem_append.mp hy with hy | hy
    · exact h.menus y hy
    · rw [List.mem_singleton.mp hy]
      exact Table.lt_next hm
  · rcases h.rows with ⟨ho, hw⟩ | ⟨ho, -⟩
    · refine .inl ⟨ho, ?_⟩
      rw [DB.rowsOf, Table.select_insert, List.filter_append]
      rw [DB.rowsOf] at hw
      simp [hw, hx, hm]
    · rw [Table.Has, ho] at hi
      cases hi

/-- An order that was just saved has no rows. -/
theorem saved (hkeys : ForeignKeys db) (o : Order) : Kept db.orders.next o [] { db with orders := db.orders.insert o } := by
  refine ⟨Nat.lt_succ_self _, fun x hx => absurd hx (List.not_mem_nil), .inl ⟨Table.find_insert_next db.orders o, ?_⟩⟩
  exact hkeys.itemOrder.select_next

end Kept

/-! ### Owners of orders -/

/-- A thread owns the orders that it has saved. It relies on what `Kept` says of them, and inserts items for no others. -/
def ordersOwned : Discipline DB ℕ where
  used db := {i | i < db.orders.next}
  rely A db db' := db.Later db' ∧ (ForeignKeys db → ForeignKeys db') ∧ ∀ i ∈ A, ∀ o w, Kept i o w db → Kept i o w db'
  guar A db db' := Move (itemsWithin A) db db'
  refl _ db := ⟨.refl db, id, fun _ _ _ _ h => h⟩
  trans _ _ _ _ h h' := ⟨h.1.trans h'.1, h'.2.1 ∘ h.2.1, fun i hi o w hk => h'.2.2 i hi o w (h.2.2 i hi o w hk)⟩
  used_mono _ _ _ hm := fun _ hi => lt_of_lt_of_le hi hm.later.orders.next_le
  compat _ _ _ _ _ hdisjoint hm :=
    ⟨hm.later, hm.foreignKeys, fun _ hi _ _ hk => hk.move (Set.disjoint_left.mp hdisjoint hi) hm⟩

/-- What a thread owns after it has saved an order. -/
theorem ordersOwned_saved (db : DB) (o : Order) :
    (∅ : Set ℕ) ∪ ordersOwned.used { db with orders := db.orders.insert o } \ ordersOwned.used db = {db.orders.next} := by
  ext i
  show i ∈ ∅ ∪ {i | i < db.orders.next + 1} \ {i | i < db.orders.next} ↔ i = db.orders.next
  simp only [Set.mem_union, Set.mem_empty_iff_false, Set.mem_sdiff, Set.mem_ofPred_eq, false_or]
  omega

variable {i : ℕ} {o : Order} {A : Set ℕ}

theorem stable_kept (i : ℕ) (o : Order) (w : List (ℕ × OrderItem)) : ordersOwned.Stable {i} (Kept i o w) :=
  fun _ _ hk hr => hr.2.2 i rfl o w hk

/-- What is left of an order whose items were written, up to the first failure. -/
def Began (i : ℕ) (o : Order) (items : List ItemParams) (db : DB) : Prop :=
  ∃ w, Kept i o w db ∧ w.map (·.2) <+: items.map (·.row i)

/-- What is left of an order whose items were all written. -/
def Wrote (i : ℕ) (o : Order) (items : List ItemParams) (db : DB) : Prop :=
  ∃ w, Kept i o w db ∧ w.map (·.2) = items.map (·.row i)

theorem Wrote.began {items : List ItemParams} {db : DB} (h : Wrote i o items db) (items' : List ItemParams) :
    Began i o (items ++ items') db := by
  obtain ⟨w, hk, hw⟩ := h
  refine ⟨w, hk, ?_⟩
  rw [hw, List.map_append]
  exact List.prefix_append _ _

theorem stable_wrote (i : ℕ) (o : Order) (items : List ItemParams) : ordersOwned.Stable {i} (Wrote i o items) := by
  rintro s s' ⟨w, hk, hw⟩ hr
  exact ⟨w, stable_kept i o w s s' hk hr, hw⟩

/-- The items, one transaction after the other. -/
theorem safe_each (i : ℕ) (o : Order) (done todo : List ItemParams) {db : DB} (h : Wrote i o done db) :
    ordersOwned.Safe (fun A r db => A = {i} ∧ Began i o (done ++ todo) db ∧ (r = .ok () → Wrote i o (done ++ todo) db))
      {i} (each (fun x => lift (raising (OrderItem.create i x))) todo) db := by
  induction todo generalizing done db with
  | nil =>
    intro s hr
    have hs := stable_wrote i o done db s h hr
    exact ⟨rfl, hs.began [], fun _ => by rwa [List.append_nil]⟩
  | cons x todo ih =>
    intro s hr
    have hs := stable_wrote i o done db s h hr
    rcases OrderItem.create_cases i x s with ⟨hi, ha, hrun⟩ | ⟨e, hrun⟩
    · -- the new row comes after those that were written
      obtain ⟨w, hk, hw⟩ := hs
      have hwrote : Wrote i o (done ++ [x]) { s with orderItems := s.orderItems.insert (x.row i) } :=
        ⟨_, hk.write hi rfl (OrderItem.has_menu_of_acceptable ha i), by simp [hw]⟩
      have hmove : Move (itemsWithin {i}) s ((raising (OrderItem.create i x)).run s).2 :=
        OrderItem.move_create (insertItem_mem_itemsWithin.mpr (Set.mem_singleton i)) x
      have hsame : ({i} : Set ℕ) ∪ ordersOwned.used { s with orderItems := s.orderItems.insert (x.row i) } \
          ordersOwned.used s = {i} := by
        show {i} ∪ ordersOwned.used s \ ordersOwned.used s = {i}
        rw [Set.sdiff_self, Set.union_empty]
      rw [hrun] at hmove ⊢
      refine ⟨hmove, ?_⟩
      dsimp only
      rw [hsame]
      have := ih (done ++ [x]) hwrote
      rwa [List.append_assoc, List.singleton_append] at this
    · rw [hrun]
      refine ⟨.nothing, ?_⟩
      dsimp only
      rw [Set.sdiff_self, Set.union_empty]
      intro s' hr'
      exact ⟨rfl, (stable_wrote i o done s s' hs hr').began (x :: todo), fun h => by cases h⟩

/-! ### The report -/

/-- The row that an entry of the report speaks of. -/
def ReportedItem.row (r : ReportedItem) (i : ℕ) : OrderItem := ⟨i, r.menuId, r.quantity, r.price⟩

/-- The rows that were read are some of those that were written, and all of them if the order and all the menus are
still there. -/
structure Saw (i : ℕ) (o : Order) (items : List ItemParams) (rows : List (ℕ × OrderItem)) (db : DB) : Prop where
  wrote : Wrote i o items db
  sub : (rows.map (·.2)).Sublist (items.map (·.row i))
  all : db.orders.Has i → (∀ x ∈ items, db.menus.Has (x.row i).menuId) → rows.map (·.2) = items.map (·.row i)

theorem Wrote.saw {items : List ItemParams} {db : DB} (h : Wrote i o items db) : Saw i o items (db.rowsOf i) db := by
  obtain ⟨w, hk, hw⟩ := h
  refine ⟨⟨w, hk, hw⟩, ?_, fun hi hmenus => ?_⟩
  · rcases hk.rows with ⟨-, hrows⟩ | ⟨-, hrows⟩
    · rw [hrows, ← hw]
      exact List.filter_sublist.map _
    · rw [hrows]
      exact List.nil_sublist _
  · rcases hk.rows with ⟨-, hrows⟩ | ⟨hnone, -⟩
    · rw [hrows, List.filter_eq_self.mpr, hw]
      intro x hx
      have hmem : x.2 ∈ items.map (·.row i) := hw ▸ List.mem_map_of_mem hx
      obtain ⟨y, hy, hxy⟩ := List.mem_map.mp hmem
      rw [decide_eq_true_iff, ← hxy]
      exact hmenus y hy
    · rw [Table.Has, hnone] at hi
      cases hi

/-- What was there at a later time was there before. -/
theorem stable_saw (i : ℕ) (o : Order) (items : List ItemParams) (rows : List (ℕ × OrderItem)) :
    ordersOwned.Stable {i} (Saw i o items rows) := by
  intro s s' h hr
  obtain ⟨w, hk, hw⟩ := h.wrote
  refine ⟨stable_wrote i o items s s' h.wrote hr, h.sub, fun hi hmenus => h.all ?_ fun x hx => ?_⟩
  · by_contra hno
    rw [Table.Has, Option.not_isSome_iff_eq_none] at hno
    rw [Table.Has, hr.1.orders.find_eq_none hk.given hno] at hi
    cases hi
  · by_contra hno
    have hx' : x.row i ∈ w.map (·.2) := hw ▸ List.mem_map_of_mem hx
    obtain ⟨y, hy, hyx⟩ := List.mem_map.mp hx'
    have hlt := hk.menus y hy
    rw [hyx] at hlt
    rw [Table.Has, Option.not_isSome_iff_eq_none] at hno
    have hgone := hmenus x hx
    rw [Table.Has, hr.1.menus.find_eq_none hlt hno] at hgone
    cases hgone

theorem filters_report (x : ℕ × OrderItem) (db : DB) :
    (raising (report x)).Filters db fun r => ReportsRow db x.2 r := by
  constructor
  · rw [raising_state]
    rfl
  · intro r
    rw [raising, Action.run_mapError, report, Action.run_read]
    unfold ReportsRow
    cases db.menus.find x.2.menuId with
    | none => simp [Except.mapError]
    | some m => simp [Except.mapError, eq_comm]

/-- **What a creation has done** when it answers with `created`. -/
structure Placed (i : ℕ) (o : Order) (items : List ItemParams) (reported : List ReportedItem) (db : DB) : Prop where
  /-- One row was stored for every item, and the order has those whose menus are still there. -/
  wrote : Wrote i o items db
  /-- What was reported are rows of the order, -/
  sub : (reported.map (·.row i)).Sublist (items.map (·.row i))
  /-- and all of them, if the order and the menus are still there. -/
  all : db.orders.Has i → (∀ x ∈ items, db.menus.Has (x.row i).menuId) →
    reported.map (·.row i) = items.map (·.row i)

/-- What is reported, row by row. -/
theorem map_row_eq {rows : List (ℕ × OrderItem)} {reported : List ReportedItem} (hrows : ∀ x ∈ rows, x.2.orderId = i)
    (h : List.Forall₂ (fun x r => r.row x.2.orderId = x.2) rows reported) :
    reported.map (·.row i) = rows.map (·.2) := by
  induction h with
  | nil => rfl
  | cons hx _ ih =>
    rw [hrows _ (.head _)] at hx
    rw [List.map_cons, List.map_cons, ih fun y hy => hrows y (.tail _ hy), hx]

theorem safe_created {items : List ItemParams} {db : DB} (h : Wrote i o items db) :
    ordersOwned.Safe (fun A r db => A = {i} ∧ Wrote i o items db ∧
        ∀ res, r = .ok res → ∃ reported, res = .created i o reported ∧ Placed i o items reported db)
      {i} (createdSteps i o) db := by
  refine Discipline.Safe.filter (P := fun s rows => s.rowsOf i = rows) (stable_wrote i o items)
    (fun s => Action.Filters.read fun rows => by rw [Except.ok.injEq]; rfl) (fun _ => .nothing)
    (fun e s hs => ⟨rfl, hs, fun _ h => by cases h⟩) (fun s rows hs hrows => ?_) h
  subst hrows
  refine (Discipline.Safe.collect (R := fun x r => r.row x.2.orderId = x.2) (stable_saw i o items (s.rowsOf i))
    filters_report (fun x s r hr => ?_) (fun _ => .nothing) (s.rowsOf i) hs.saw).bind (fun A' reported s' h' s'' hr => ?_)
    fun A' e s' h' => ⟨h'.1, h'.2.1.wrote, fun _ h => by cases h⟩
  · obtain ⟨m, -, rfl⟩ := hr
    rfl
  · obtain ⟨rfl, hsaw, hreported⟩ := h'
    have hsaw'' := stable_saw i o items (s.rowsOf i) s' s'' hsaw hr
    have hmap : reported.map (·.row i) = (s.rowsOf i).map (·.2) :=
      map_row_eq (fun x hx => by simpa using (Table.mem_select.mp hx).2) (hreported reported rfl)
    refine ⟨rfl, hsaw''.wrote, fun res hres => ⟨reported, ?_, hsaw''.wrote, hmap ▸ hsaw''.sub, ?_⟩⟩
    · cases hres
      rfl
    · rw [hmap]
      exact hsaw''.all

/-! ### Creations -/

/-- What a call of the service has done when it has ended. -/
structure CallPost (userId hotelId : ℕ) (p : OrderParams) (items : List ItemParams) (A : Set ℕ)
    (r : Except Stop ServiceResult) (db : DB) : Prop where
  began : ∀ i ∈ A, ∃ o, Began i o items db
  placed : ∀ i o reported, r = .ok (.created i o reported) → i ∈ A ∧
    (∃ n, Ruby.floatToI p.totalPrice = some n ∧ o = ⟨userId, hotelId, n, p.status.getD ""⟩) ∧ Placed i o items reported db

theorem safe_call (userId hotelId : ℕ) (p : OrderParams) (items : List ItemParams) {db : DB} (hkeys : ForeignKeys db) :
    ordersOwned.Safe (CallPost userId hotelId p items) ∅ (callSteps userId hotelId p items) db := by
  intro s hr
  have hmove : Move (itemsWithin ∅) s ((raising (Order.save userId hotelId p)).run s).2 :=
    Order.move_save (insertOrder_mem_itemsWithin ∅) userId hotelId p
  rcases Order.save_cases userId hotelId p s with ⟨o, ha, hrun⟩ | ⟨es, hrun⟩ | ⟨e, hrun⟩
  · rw [hrun] at hmove ⊢
    refine ⟨hmove, ?_⟩
    dsimp only
    rw [ordersOwned_saved]
    have hwrote : Wrote s.orders.next o [] { s with orders := s.orders.insert o } := ⟨[], Kept.saved (hr.2.1 hkeys) o, rfl⟩
    show ordersOwned.Safe _ _ (each (fun x => lift (raising (OrderItem.create s.orders.next x))) items >>= _) _
    refine Discipline.Safe.bind (safe_each s.orders.next o [] items hwrote) (fun A _ s' h' => ?_) fun A e s' h' => ?_
    · obtain ⟨rfl, -, hall⟩ := h'
      refine (safe_created (hall rfl)).mono fun A r s'' h'' => ?_
      obtain ⟨rfl, hwrote', hplaced⟩ := h''
      refine ⟨fun i hi => ⟨o, ?_⟩, fun i o' reported hres => ?_⟩
      · rw [Set.mem_singleton_iff.mp hi, ← List.append_nil items]
        exact hwrote'.began []
      · obtain ⟨reported', heq, hp⟩ := hplaced _ hres
        cases heq
        exact ⟨rfl, (Order.validate_eq_ok.mp (Order.accepted_eq_some.mp ha).1).2.2.2, hp⟩
    · obtain ⟨rfl, hbegan, -⟩ := h'
      refine ⟨fun i hi => ⟨o, ?_⟩, fun _ _ _ h => by cases h⟩
      rw [Set.mem_singleton_iff.mp hi]
      exact hbegan
  · rw [hrun] at hmove ⊢
    refine ⟨hmove, ?_⟩
    dsimp only
    rw [Set.sdiff_self, Set.union_empty]
    exact fun _ _ => ⟨fun i hi => absurd hi (Set.notMem_empty i), fun _ _ _ h => by cases h⟩
  · rw [hrun] at hmove ⊢
    refine ⟨hmove, ?_⟩
    dsimp only
    rw [Set.sdiff_self, Set.union_empty]
    exact fun _ _ => ⟨fun i hi => absurd hi (Set.notMem_empty i), fun _ _ _ h => by cases h⟩

/-- What a request that creates an order has done when it has ended. -/
structure OrderPost (order : Required OrderBody) (orderItems : ItemsBody) (A : Set ℕ) (r : Except Stop (Option Response))
    (db : DB) : Prop where
  /-- Whether it has succeeded or not, an order that it has saved has the items up to the first failure. -/
  began : ∀ i ∈ A, ∃ o items, ConvertsTo orderItems items ∧ Began i o items db
  /-- If it has answered with `created`, the order is as requested, with all the items. -/
  placed : ∀ i status totalPrice reported, r = .ok (some ⟨.created, .createdOrder i status totalPrice reported⟩) →
    i ∈ A ∧ ∃ user hotel b p items, order = .hash b ∧ convertOrder b = .ok p ∧ ConvertsTo orderItems items ∧
      Ruby.floatToI p.totalPrice = some totalPrice ∧ status = p.status.getD "" ∧
      Placed i ⟨user, hotel, totalPrice, status⟩ items reported db

theorem OrderPost.stopped {order : Required OrderBody} {orderItems : ItemsBody} {e : Stop} {db : DB} :
    OrderPost order orderItems ∅ (.error e) db :=
  ⟨fun i hi => absurd hi (Set.notMem_empty i), fun _ _ _ _ h => by cases h⟩

variable {env : Env} {ctx : Ctx}

theorem safe_create (userId hotelId : String) (order : Required OrderBody) (orderItems : ItemsBody) {db : DB}
    (hkeys : ForeignKeys db) :
    ordersOwned.Safe (OrderPost order orderItems) ∅
      ((Task.request ctx (.ordersCreate userId hotelId order orderItems)).program env) db := by
  have hstable : ordersOwned.Stable ∅ ForeignKeys := fun _ _ h hr => hr.2.1 h
  have hquiet (db : DB) : ordersOwned.guar ∅ db db := .nothing
  refine Discipline.Safe.map (T := fun A r db => OrderPost order orderItems A (r.map some) db) ?_ fun _ _ _ h => h
  refine .filter hstable (fun _ => filters_authenticateUser) hquiet (fun _ _ _ => .stopped) (fun _ _ h _ => ?_) hkeys
  refine .filter hstable (fun _ => filters_setHotel hotelId) hquiet (fun _ _ _ => .stopped) (fun _ hotel h _ => ?_) h
  refine .filter hstable (fun _ => filters_orderParams) hquiet (fun _ _ _ => .stopped) (fun _ p h hp => ?_) h
  refine .filter hstable (fun _ => filters_authorizingBuilt .create .order) hquiet (fun _ _ _ => .stopped)
    (fun _ loaded h _ => ?_) h
  refine .filter hstable (fun _ => filters_orderItemsParams) hquiet (fun _ _ _ => .stopped) (fun s items h hitems => ?_) h
  obtain ⟨b, hb, hp⟩ := hp
  cases loaded with
  | none => exact fun _ _ => .stopped
  | some current =>
    refine Discipline.Safe.map (p := callSteps current.1 hotel.1 p items) (safe_call current.1 hotel.1 p items h)
      fun A r s' h' => ?_
    refine ⟨fun i hi => ?_, fun i status totalPrice reported hres => ?_⟩
    · obtain ⟨o, ho⟩ := h'.began i hi
      exact ⟨o, items, hitems, ho⟩
    · match r with
      | .error e => cases hres
      | .ok (.unprocessableEntity es) => cases hres
      | .ok (.created j o l) =>
        cases hres
        obtain ⟨hi, ⟨n, hn, rfl⟩, hplaced⟩ := h'.placed i o reported rfl
        exact ⟨hi, current.1, hotel.1, b, p, items, hb, hp, hitems, hn, rfl, hplaced⟩

/-- What a task has done for the orders it owns, when it has ended. -/
def Task.OrderPost : Task → Set ℕ → Except Stop (Option Response) → DB → Prop
  | .request _ (.ordersCreate _ _ order orderItems) => FoodFactory.OrderPost order orderItems
  | _ => fun _ _ _ => True

/-- The task creates an order. -/
def Task.CreatesOrder : Task → Prop
  | .request _ (.ordersCreate ..) => True
  | _ => False

theorem Task.CreatesOrder.eq_request {t : Task} (h : t.CreatesOrder) :
    ∃ ctx userId hotelId order orderItems, t = .request ctx (.ordersCreate userId hotelId order orderItems) := by
  cases t with
  | request ctx req =>
    cases req with
    | ordersCreate userId hotelId order orderItems => exact ⟨ctx, userId, hotelId, order, orderItems, rfl⟩
    | _ => exact h.elim
  | _ => exact h.elim

/-- A task that creates no order inserts no items. -/
theorem Task.changes_itemsWithin (t : Task) (h : ¬ t.CreatesOrder) (A : Set ℕ) : t.changes ⊆ itemsWithin A := by
  rintro _ hc i rfl
  cases t with
  | request ctx req =>
    cases req with
    | ordersCreate userId hotelId order orderItems => exact absurd trivial h
    | _ => cases hc
  | _ => cases hc

theorem Task.safe_program (t : Task) {db : DB} (hkeys : ForeignKeys db) :
    ordersOwned.Safe t.OrderPost ∅ (t.program env) db := by
  by_cases h : t.CreatesOrder
  · obtain ⟨ctx, userId, hotelId, order, orderItems, rfl⟩ := h.eq_request
    exact safe_create userId hotelId order orderItems hkeys
  · have hsteps (A : Set ℕ) : (t.program env).Steps (ordersOwned.guar A) :=
      t.steps_program.mono fun _ _ => Move.mono (t.changes_itemsWithin h A)
    apply Discipline.Safe.mono (Discipline.Safe.of_steps hsteps ∅ db)
    intro A r s _
    unfold OrderPost
    split
    · exact absurd trivial h
    · trivial

variable {ι : Type} [DecidableEq ι]

theorem shared_serve (env : Env) {db : DB} (hkeys : ForeignKeys db) (task : ι → Task) (ks : List ι) :
    ordersOwned.Shared (fun k => (task k).OrderPost) (ordersOwned.own (serve env db task) ks)
      ((serve env db task).run ks) := by
  have hstart : ordersOwned.Shared (fun k => (task k).OrderPost) (fun _ => ∅) (serve env db task) :=
    ⟨fun _ _ _ => Set.disjoint_empty _, fun _ => Set.empty_subset _, fun k => (task k).safe_program hkeys⟩
  have hrun := hstart.run ks
  have hown : (fun k => ∅ ∪ ordersOwned.own (serve env db task) ks k) = ordersOwned.own (serve env db task) ks :=
    funext fun k => Set.empty_union _
  rwa [hown] at hrun

/-- Two clients' orders at the same time: one item, and two items. -/
def twoOrders (k : Bool) : Task :=
  .request (sampleCtx 1) (.ordersCreate "1" "1" (.hash ⟨.int 200, some "pending"⟩)
    (.list (if k then [some ⟨.int 1, .int 1, .int 100⟩, some ⟨.int 1, .int 3, .int 100⟩]
      else [some ⟨.int 1, .int 2, .int 100⟩])))

/-- They take turns. -/
def turns : List Bool := (List.replicate 12 [false, true]).flatten

/-- **No two creations answer with one order.** -/
theorem distinct_interleaved (env : Env) {db : DB} (hkeys : ForeignKeys db) (task : ι → Task) (k k' : ι) (hne : k ≠ k')
    {ctx ctx' : Ctx} {user user' hotel hotel' : String} {order order' : Required OrderBody} {items items' : ItemsBody}
    (hk : task k = .request ctx (.ordersCreate user hotel order items))
    (hk' : task k' = .request ctx' (.ordersCreate user' hotel' order' items')) (ks : List ι)
    {i i' : ℕ} {status status' : String} {total total' : ℤ} {l l' : List ReportedItem}
    (hr : (((serve env db task).run ks).thread k).result = some (.ok (some ⟨.created, .createdOrder i status total l⟩)))
    (hr' : (((serve env db task).run ks).thread k').result =
      some (.ok (some ⟨.created, .createdOrder i' status' total' l'⟩))) :
    i ≠ i' := by
  have hshared := shared_serve env hkeys task ks
  have hsafe := hshared.safe k
  have hsafe' := hshared.safe k'
  rw [result_eq_some.mp hr, hk] at hsafe
  rw [result_eq_some.mp hr', hk'] at hsafe'
  obtain ⟨hi, -⟩ := hsafe.post.placed i status total l rfl
  obtain ⟨hi', -⟩ := hsafe'.post.placed i' status' total' l' rfl
  rintro rfl
  exact Set.disjoint_left.mp (hshared.disjoint k k' hne) hi hi'

/-- Two clients take turns, and the orders that they are told of are two. -/
theorem distinct_interleaved_turns :
    ∃ i i' : ℕ,
      (((serve Plain.env DB.ordered twoOrders).run turns).thread false).result =
        some (.ok (some ⟨.created, .createdOrder i "pending" 200 [⟨1, "Menu", "2", 100⟩]⟩)) ∧
      (((serve Plain.env DB.ordered twoOrders).run turns).thread true).result =
        some (.ok (some ⟨.created, .createdOrder i' "pending" 200 [⟨1, "Menu", "1", 100⟩, ⟨1, "Menu", "3", 100⟩]⟩)) ∧
      i ≠ i' := by
  have hfirst : (((serve Plain.env DB.ordered twoOrders).run turns).thread false).result =
      some (.ok (some ⟨.created, .createdOrder 2 "pending" 200 [⟨1, "Menu", "2", 100⟩]⟩)) := by decide +kernel
  have hsecond : (((serve Plain.env DB.ordered twoOrders).run turns).thread true).result =
      some (.ok (some ⟨.created, .createdOrder 3 "pending" 200 [⟨1, "Menu", "1", 100⟩, ⟨1, "Menu", "3", 100⟩]⟩)) := by
    decide +kernel
  exact ⟨2, 3, hfirst, hsecond,
    distinct_interleaved Plain.env ForeignKeys.ordered twoOrders false true (by decide) rfl rfl turns hfirst hsecond⟩

end FoodFactory
