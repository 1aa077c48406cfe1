import FoodFactory.Model.Records

/-!
# Destroying records

`record.destroy` of `app/models`: in one transaction, the records of each
`has_many … dependent: :destroy` association are destroyed, in the order in which
the associations are declared, and then the row itself is deleted. Every single
deletion is checked against the foreign keys.

    User   has_many :hotels, dependent: :destroy      Menu   has_many :order_items, dependent: :destroy
           has_many :orders, dependent: :destroy      Order  has_many :order_items, dependent: :destroy
    Hotel  has_many :menus, dependent: :destroy
           has_many :orders

`Hotel` does not destroy its orders.

## What is proved

`destroyMenu_run`, `destroyOrder_run`, `destroyHotel_run` and `destroyUser_run`: from every
database, a destroy ends without an error, and what it leaves is the database
without the record and the records that depend on it. No deletion on the way
breaks a foreign key, because the rows that refer to a row are gone by the time
it is deleted.
-/

namespace FoodFactory

open Store

/-- `has_many …, dependent: :destroy`: destroy the records the association finds. -/
def dependentDestroy (ids : DB → List ℕ) (destroy : ℕ → Action DB Exn Unit) : Action DB Exn Unit := do
  let l ← Action.read fun db => .ok (ids db)
  Action.each destroy l

/-- `OrderItem#destroy`. -/
def destroyOrderItem (i : ℕ) : Action DB Exn Unit := orderItemsT.delete i

/-- `Menu#destroy`. -/
def destroyMenu (m : ℕ) : Action DB Exn Unit := Action.transaction do
  dependentDestroy (fun db => db.orderItems.idsWhere fun x => x.menuId == m) destroyOrderItem
  menusT.delete m

/-- `Order#destroy`. -/
def destroyOrder (o : ℕ) : Action DB Exn Unit := Action.transaction do
  dependentDestroy (fun db => db.orderItems.idsWhere fun x => x.orderId == o) destroyOrderItem
  ordersT.delete o

/-- `Hotel#destroy`. -/
def destroyHotel (h : ℕ) : Action DB Exn Unit := Action.transaction do
  dependentDestroy (fun db => db.menus.idsWhere fun m => m.hotelId == h) destroyMenu
  hotelsT.delete h

/-- `User#destroy`. -/
def destroyUser (u : ℕ) : Action DB Exn Unit := Action.transaction do
  dependentDestroy (fun db => db.hotels.idsWhere fun h => h.userId == u) destroyHotel
  dependentDestroy (fun db => db.orders.idsWhere fun o => o.userId == u) destroyOrder
  usersT.delete u

/-! ### What is left -/

namespace DB

/-- Without the menus picked by `p`, and their order items. -/
def dropMenus (db : DB) (p : ℕ → Bool) : DB :=
  { db with menus := db.menus.filter fun i _ => !p i
            orderItems := db.orderItems.filter fun _ x => !p x.menuId }

/-- Without the orders picked by `p`, and their order items. -/
def dropOrders (db : DB) (p : ℕ → Bool) : DB :=
  { db with orders := db.orders.filter fun i _ => !p i
            orderItems := db.orderItems.filter fun _ x => !p x.orderId }

/-- Menu `i` is there and belongs to a hotel picked by `p`. -/
def menuOf (db : DB) (p : ℕ → Bool) (i : ℕ) : Bool := (db.menus.find i).any fun m => p m.hotelId

/-- Without the hotels picked by `p`, their menus, and the order items of these. -/
def dropHotels (db : DB) (p : ℕ → Bool) : DB :=
  { db.dropMenus (db.menuOf p) with hotels := db.hotels.filter fun i _ => !p i }

/-- Hotel `i` is there and belongs to user `u`. -/
def hotelOf (db : DB) (u i : ℕ) : Bool := (db.hotels.find i).any fun h => h.userId == u

/-- Order `i` is there and belongs to user `u`. -/
def orderOf (db : DB) (u i : ℕ) : Bool := (db.orders.find i).any fun o => o.userId == u

/-- Without user `u`, the user's hotels with what depends on them, and the user's orders
with their items. -/
def dropUser (db : DB) (u : ℕ) : DB :=
  { (db.dropHotels (db.hotelOf u)).dropOrders (db.orderOf u) with users := db.users.erase u }

theorem menuOf_eq_true {db : DB} {p : ℕ → Bool} {i : ℕ} :
    db.menuOf p i = true ↔ ∃ m, db.menus.find i = some m ∧ p m.hotelId = true := by
  rw [menuOf, Option.any_eq_true]

theorem hotelOf_eq_true {db : DB} {u i : ℕ} :
    db.hotelOf u i = true ↔ ∃ h, db.hotels.find i = some h ∧ h.userId = u := by
  simp only [hotelOf, Option.any_eq_true, beq_iff_eq]

theorem orderOf_eq_true {db : DB} {u i : ℕ} :
    db.orderOf u i = true ↔ ∃ o, db.orders.find i = some o ∧ o.userId = u := by
  simp only [orderOf, Option.any_eq_true, beq_iff_eq]

theorem dropMenus_dropMenus (db : DB) (p q : ℕ → Bool) :
    (db.dropMenus p).dropMenus q = db.dropMenus fun i => p i || q i := by
  simp [dropMenus, Table.filter_filter]

theorem dropOrders_dropOrders (db : DB) (p q : ℕ → Bool) :
    (db.dropOrders p).dropOrders q = db.dropOrders fun i => p i || q i := by
  simp [dropOrders, Table.filter_filter]

@[simp] theorem dropMenus_false (db : DB) : db.dropMenus (fun _ => false) = db := by
  simp [dropMenus, Table.filter_true]

@[simp] theorem dropOrders_false (db : DB) : db.dropOrders (fun _ => false) = db := by
  simp [dropOrders, Table.filter_true]

@[simp] theorem menuOf_false (db : DB) : db.menuOf (fun _ => false) = fun _ => false := by
  funext i
  cases h : db.menus.find i <;> simp [menuOf, h]

@[simp] theorem dropHotels_false (db : DB) : db.dropHotels (fun _ => false) = db := by
  simp [dropHotels, Table.filter_true]

/-- After the menus of some hotels are gone, the menus of others are those that were there before. -/
theorem menuOf_or (db : DB) (p q : ℕ → Bool) (i : ℕ) :
    (db.menuOf p i || (db.dropHotels p).menuOf q i) = db.menuOf (fun h => p h || q h) i := by
  simp only [menuOf, dropHotels, dropMenus, Table.find_filter]
  cases h : db.menus.find i with
  | none => simp
  | some m => cases hp : p m.hotelId <;> simp [hp]

theorem dropHotels_dropHotels (db : DB) (p q : ℕ → Bool) :
    (db.dropHotels p).dropHotels q = db.dropHotels fun i => p i || q i := by
  have h := db.menuOf_or p q
  ext1 <;> simp [dropHotels, dropMenus, Table.filter_filter]
  · simpa [dropHotels, dropMenus] using congrArg (fun f => db.menus.filter fun i _ => !f i) (funext h)
  · simpa [dropHotels, dropMenus] using congrArg (fun f => db.orderItems.filter fun _ x => !f x.menuId) (funext h)

end DB

/-! ### Destroying leaves that -/

/-- Destroying all records an association finds, none of which anything refers to. -/
theorem run_dependentDestroy_items (p : OrderItem → Bool) (db : DB) :
    (dependentDestroy (fun db => db.orderItems.idsWhere p) destroyOrderItem).run db =
      (.ok (), { db with orderItems := db.orderItems.filter fun _ x => !p x }) := by
  show (Action.each orderItemsT.delete (db.orderItems.idsWhere p)).run db = _
  rw [orderItemsT.each_delete _ _ fun _ _ => rfl]
  show (_, { db with orderItems := _ }) = _
  rw [show orderItemsT.get db = db.orderItems from rfl, Table.filter_not_mem_idsWhere]

theorem destroyMenu_run (m : ℕ) (db : DB) :
    (destroyMenu m).run db = (.ok (), db.dropMenus fun i => i == m) := by
  refine Action.run_transaction_ok ?_
  rw [Action.run_bind_ok (run_dependentDestroy_items _ db), menusT.run_delete_ok]
  · rfl
  · -- no order item refers to the menu any more
    simp [menusT, Table.filter]

theorem destroyOrder_run (o : ℕ) (db : DB) :
    (destroyOrder o).run db = (.ok (), db.dropOrders fun i => i == o) := by
  refine Action.run_transaction_ok ?_
  rw [Action.run_bind_ok (run_dependentDestroy_items _ db), ordersT.run_delete_ok]
  · rfl
  · simp [ordersT, Table.filter]

theorem each_destroyMenu (l : List ℕ) (db : DB) :
    (Action.each destroyMenu l).run db = (.ok (), db.dropMenus fun i => decide (i ∈ l)) := by
  induction l generalizing db with
  | nil => simp
  | cons m l ih =>
    rw [Action.run_each_cons, Action.run_bind_ok (destroyMenu_run m db), ih, DB.dropMenus_dropMenus]
    congr 2
    funext i
    by_cases h : i = m <;> simp [h]

theorem each_destroyOrder (l : List ℕ) (db : DB) :
    (Action.each destroyOrder l).run db = (.ok (), db.dropOrders fun i => decide (i ∈ l)) := by
  induction l generalizing db with
  | nil => simp
  | cons o l ih =>
    rw [Action.run_each_cons, Action.run_bind_ok (destroyOrder_run o db), ih, DB.dropOrders_dropOrders]
    congr 2
    funext i
    by_cases h : i = o <;> simp [h]

/-- The menus of hotel `h` are the ones its association finds. -/
theorem decide_mem_menus (db : DB) (h : ℕ) :
    (fun i => decide (i ∈ db.menus.idsWhere fun m => m.hotelId == h)) = db.menuOf fun i => i == h := by
  funext i
  rw [Bool.eq_iff_iff, decide_eq_true_iff, Table.mem_idsWhere, DB.menuOf, Option.any_eq_true]

theorem destroyHotel_run (h : ℕ) (db : DB) :
    (destroyHotel h).run db = (.ok (), db.dropHotels fun i => i == h) := by
  have hm : (dependentDestroy (fun db => db.menus.idsWhere fun m => m.hotelId == h) destroyMenu).run db =
      (.ok (), db.dropMenus (db.menuOf fun i => i == h)) := by
    rw [← decide_mem_menus]
    exact each_destroyMenu _ db
  refine Action.run_transaction_ok ?_
  rw [Action.run_bind_ok hm, hotelsT.run_delete_ok]
  · rfl
  · -- no menu refers to the hotel any more
    simp only [hotelsT, DB.dropMenus, Table.filter, List.any_eq_false, List.mem_filter, beq_iff_eq]
    rintro ⟨i, m⟩ ⟨hi, hp⟩ rfl
    simp [DB.menuOf, Table.find_eq_some.mpr hi] at hp

theorem each_destroyHotel (l : List ℕ) (db : DB) :
    (Action.each destroyHotel l).run db = (.ok (), db.dropHotels fun i => decide (i ∈ l)) := by
  induction l generalizing db with
  | nil => simp
  | cons h l ih =>
    rw [Action.run_each_cons, Action.run_bind_ok (destroyHotel_run h db), ih, DB.dropHotels_dropHotels]
    congr 2
    funext i
    by_cases hi : i = h <;> simp [hi]

theorem destroyUser_run (u : ℕ) (db : DB) : (destroyUser u).run db = (.ok (), db.dropUser u) := by
  have hh : (dependentDestroy (fun db => db.hotels.idsWhere fun h => h.userId == u) destroyHotel).run db =
      (.ok (), db.dropHotels (db.hotelOf u)) := by
    have : (fun i => decide (i ∈ db.hotels.idsWhere fun h => h.userId == u)) = db.hotelOf u := by
      funext i
      rw [Bool.eq_iff_iff, decide_eq_true_iff, Table.mem_idsWhere, DB.hotelOf, Option.any_eq_true]
    rw [← this]
    exact each_destroyHotel _ db
  have ho : ∀ db' : DB, db'.orders = db.orders →
      (dependentDestroy (fun db => db.orders.idsWhere fun o => o.userId == u) destroyOrder).run db' =
      (.ok (), db'.dropOrders (db.orderOf u)) := by
    intro db' hdb
    have : (fun i => decide (i ∈ db'.orders.idsWhere fun o => o.userId == u)) = db.orderOf u := by
      funext i
      rw [Bool.eq_iff_iff, decide_eq_true_iff, Table.mem_idsWhere, DB.orderOf, Option.any_eq_true, hdb]
    rw [← this]
    exact each_destroyOrder _ db'
  refine Action.run_transaction_ok ?_
  rw [Action.run_bind_ok hh, Action.run_bind_ok (ho (db.dropHotels (db.hotelOf u)) rfl), usersT.run_delete_ok]
  · rfl
  · -- neither a hotel nor an order refers to the user any more
    simp only [usersT, DB.dropHotels, DB.dropOrders, DB.dropMenus, Table.filter, Bool.or_eq_false_iff,
      List.any_eq_false, List.mem_filter, beq_iff_eq]
    constructor
    · rintro ⟨i, h⟩ ⟨hi, hp⟩ rfl
      simp [DB.hotelOf, Table.find_eq_some.mpr hi] at hp
    · rintro ⟨i, o⟩ ⟨hi, hp⟩ rfl
      simp [DB.orderOf, Table.find_eq_some.mpr hi] at hp

end FoodFactory
