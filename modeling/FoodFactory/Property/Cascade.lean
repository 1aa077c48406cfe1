import Mathlib.Logic.Relation
import Mathlib.Data.Set.Basic
import FoodFactory.Property.Integrity

/-!
# Cascading destroys

What a destroy takes with it. The associations with `dependent: :destroy` say which rows
depend on a row directly (`Dependent`), and the rows that go with a row are those that
depend on it directly or through others.

## What is proved

* `mem_closure_iff`: the rows listed for each kind of record (`closure`) are exactly the
  ones that the associations lead to, in any number of steps.
* `destroy_removes_closure`: from a database in which the foreign keys hold, destroying a
  record ends without an exception, so no deletion on the way breaks a foreign key. The
  foreign keys hold afterwards, the rows that are gone are those of the closure, and every
  other row of every table is as it was. An order item of a user's order at a hotel of the
  same user is reached twice, and goes once.
-/

namespace FoodFactory

open Store

/-- A row, by its table and its id. -/
inductive Row where
  | user (i : ℕ)
  | hotel (i : ℕ)
  | menu (i : ℕ)
  | order (i : ℕ)
  | orderItem (i : ℕ)
  deriving DecidableEq

/-- `record.destroy`. -/
def Row.destroy : Row → Action DB Exn Unit
  | .user i => destroyUser i
  | .hotel i => destroyHotel i
  | .menu i => destroyMenu i
  | .order i => destroyOrder i
  | .orderItem i => destroyOrderItem i

variable {db : DB}

/-! ### What depends on a row -/

/-- The second row is one of a `has_many …, dependent: :destroy` association of the first. -/
inductive Dependent (db : DB) : Row → Row → Prop
  | hotelOfUser {i : ℕ} {h : Hotel} : db.hotels.find i = some h → Dependent db (.user h.userId) (.hotel i)
  | orderOfUser {i : ℕ} {o : Order} : db.orders.find i = some o → Dependent db (.user o.userId) (.order i)
  | menuOfHotel {i : ℕ} {m : Menu} : db.menus.find i = some m → Dependent db (.hotel m.hotelId) (.menu i)
  | itemOfMenu {i : ℕ} {x : OrderItem} : db.orderItems.find i = some x → Dependent db (.menu x.menuId) (.orderItem i)
  | itemOfOrder {i : ℕ} {x : OrderItem} : db.orderItems.find i = some x → Dependent db (.order x.orderId) (.orderItem i)

/-- An order and its items. -/
def orderClosure (db : DB) (o : ℕ) : Set Row :=
  {r | r = .order o ∨ ∃ i x, db.orderItems.find i = some x ∧ x.orderId = o ∧ r = .orderItem i}

/-- A menu and its order items. -/
def menuClosure (db : DB) (m : ℕ) : Set Row :=
  {r | r = .menu m ∨ ∃ i x, db.orderItems.find i = some x ∧ x.menuId = m ∧ r = .orderItem i}

/-- A hotel, its menus and their order items. -/
def hotelClosure (db : DB) (h : ℕ) : Set Row :=
  {r | r = .hotel h ∨ ∃ i m, db.menus.find i = some m ∧ m.hotelId = h ∧ r ∈ menuClosure db i}

/-- A user, what goes with each of the user's hotels, and each of the user's orders with its items. -/
def userClosure (db : DB) (u : ℕ) : Set Row :=
  {r | r = .user u ∨ (∃ i h, db.hotels.find i = some h ∧ h.userId = u ∧ r ∈ hotelClosure db i) ∨
    ∃ i o, db.orders.find i = some o ∧ o.userId = u ∧ r ∈ orderClosure db i}

/-- What goes with a row. -/
def closure (db : DB) : Row → Set Row
  | .user i => userClosure db i
  | .hotel i => hotelClosure db i
  | .menu i => menuClosure db i
  | .order i => orderClosure db i
  | .orderItem i => {.orderItem i}

theorem self_mem_closure (db : DB) (r : Row) : r ∈ closure db r := by
  cases r with
  | orderItem i => exact rfl
  | _ => exact .inl rfl

/-- What goes with a dependent row goes with the row. -/
theorem mem_closure_of_dependent {r r' r'' : Row} (h : Dependent db r r') (h' : r'' ∈ closure db r') :
    r'' ∈ closure db r := by
  cases h with
  | hotelOfUser hi => exact .inr (.inl ⟨_, _, hi, rfl, h'⟩)
  | orderOfUser hi => exact .inr (.inr ⟨_, _, hi, rfl, h'⟩)
  | menuOfHotel hi => exact .inr ⟨_, _, hi, rfl, h'⟩
  | itemOfMenu hi => exact .inr ⟨_, _, hi, rfl, h'⟩
  | itemOfOrder hi => exact .inr ⟨_, _, hi, rfl, h'⟩

open Relation in
/-- **The closure is what the associations lead to.** -/
theorem mem_closure_iff {r r' : Row} : r' ∈ closure db r ↔ ReflTransGen (Dependent db) r r' := by
  have horder : ∀ {i r'}, r' ∈ orderClosure db i → ReflTransGen (Dependent db) (.order i) r' := by
    rintro i r' (rfl | ⟨j, x, hx, rfl, rfl⟩)
    · exact .refl
    · exact .single (.itemOfOrder hx)
  have hmenu : ∀ {i r'}, r' ∈ menuClosure db i → ReflTransGen (Dependent db) (.menu i) r' := by
    rintro i r' (rfl | ⟨j, x, hx, rfl, rfl⟩)
    · exact .refl
    · exact .single (.itemOfMenu hx)
  have hhotel : ∀ {i r'}, r' ∈ hotelClosure db i → ReflTransGen (Dependent db) (.hotel i) r' := by
    rintro i r' (rfl | ⟨j, m, hm, rfl, hr⟩)
    · exact .refl
    · exact .head (.menuOfHotel hm) (hmenu hr)
  constructor
  · intro h
    cases r with
    | user i =>
      rcases h with rfl | ⟨j, x, hx, rfl, hr⟩ | ⟨j, o, ho, rfl, hr⟩
      · exact .refl
      · exact .head (.hotelOfUser hx) (hhotel hr)
      · exact .head (.orderOfUser ho) (horder hr)
    | hotel i => exact hhotel h
    | menu i => exact hmenu h
    | order i => exact horder h
    | orderItem i =>
      cases h
      exact .refl
  · intro h
    induction h using ReflTransGen.head_induction_on with
    | refl => exact self_mem_closure db _
    | head hd _ ih => exact mem_closure_of_dependent hd ih

/-! ### What a destroy removes -/

/-- The second database is the first without the rows `gone`. -/
structure Without (db : DB) (gone : Set Row) (db' : DB) : Prop where
  users : ∀ i u, db'.users.find i = some u ↔ db.users.find i = some u ∧ .user i ∉ gone
  hotels : ∀ i h, db'.hotels.find i = some h ↔ db.hotels.find i = some h ∧ .hotel i ∉ gone
  menus : ∀ i m, db'.menus.find i = some m ↔ db.menus.find i = some m ∧ .menu i ∉ gone
  orders : ∀ i o, db'.orders.find i = some o ↔ db.orders.find i = some o ∧ .order i ∉ gone
  orderItems : ∀ i x, db'.orderItems.find i = some x ↔ db.orderItems.find i = some x ∧ .orderItem i ∉ gone
  jwtBlacklists : db'.jwtBlacklists = db.jwtBlacklists

theorem without_dropOrder (db : DB) (o : ℕ) : Without db (orderClosure db o) (db.dropOrders fun i => i == o) := by
  constructor <;> simp +contextual [DB.dropOrders, orderClosure, Table.find_filter]

theorem without_dropMenu (db : DB) (m : ℕ) : Without db (menuClosure db m) (db.dropMenus fun i => i == m) := by
  constructor <;> simp +contextual [DB.dropMenus, menuClosure, Table.find_filter]

/-- The items that go with a hotel are those of its menus. -/
theorem item_mem_hotelClosure {h i : ℕ} {x : OrderItem} (hx : db.orderItems.find i = some x) :
    .orderItem i ∈ hotelClosure db h ↔ db.menuOf (fun j => j == h) x.menuId = true := by
  rw [DB.menuOf_eq_true]
  constructor
  · rintro (hi | ⟨j, m, hm, rfl, hi | ⟨k, y, hy, rfl, hi⟩⟩) <;> cases hi
    cases hx.symm.trans hy
    exact ⟨m, hm, beq_self_eq_true _⟩
  · rintro ⟨m, hm, hh⟩
    exact .inr ⟨_, m, hm, beq_iff_eq.mp hh, .inr ⟨i, x, hx, rfl, rfl⟩⟩

theorem without_dropHotel (db : DB) (h : ℕ) : Without db (hotelClosure db h) (db.dropHotels fun i => i == h) := by
  constructor
  case orderItems =>
    intro i x
    refine Table.find_filter_eq_some.trans (and_congr_right fun hx => ?_)
    rw [item_mem_hotelClosure hx, Bool.not_eq_true', Bool.not_eq_true]
  all_goals simp +contextual [DB.dropHotels, DB.dropMenus, DB.menuOf, hotelClosure, menuClosure, Table.find_filter]

/-- The menus that go with a user are those of the user's hotels. -/
theorem menu_mem_userClosure {u i : ℕ} {m : Menu} (hm : db.menus.find i = some m) :
    .menu i ∈ userClosure db u ↔ db.hotelOf u m.hotelId = true := by
  rw [DB.hotelOf_eq_true]
  constructor
  · rintro (hi | ⟨j, h, hh, rfl, hi | ⟨k, y, hy, rfl, hi | ⟨_, _, _, _, hi⟩⟩⟩ | ⟨_, _, _, _, hi | ⟨_, _, _, _, hi⟩⟩) <;>
      cases hi
    cases hm.symm.trans hy
    exact ⟨h, hh, rfl⟩
  · rintro ⟨h, hh, rfl⟩
    exact .inr (.inl ⟨_, h, hh, rfl, .inr ⟨i, m, hm, rfl, .inl rfl⟩⟩)

/-- The items that go with a user are those of the menus of the user's hotels, and those of the user's orders. -/
theorem item_mem_userClosure {u i : ℕ} {x : OrderItem} (hx : db.orderItems.find i = some x) :
    .orderItem i ∈ userClosure db u ↔ db.menuOf (db.hotelOf u) x.menuId = true ∨ db.orderOf u x.orderId = true := by
  simp only [DB.menuOf_eq_true, DB.hotelOf_eq_true, DB.orderOf_eq_true]
  constructor
  · rintro (hi | ⟨j, h, hh, hu, hi⟩ | ⟨j, o, ho, hu, hi | ⟨k, y, hy, rfl, hi⟩⟩)
    · cases hi
    · obtain ⟨m, hm, hmh⟩ := DB.menuOf_eq_true.mp ((item_mem_hotelClosure hx).mp hi)
      exact .inl ⟨m, hm, h, beq_iff_eq.mp hmh ▸ hh, hu⟩
    · cases hi
    · cases hi
      cases hx.symm.trans hy
      exact .inr ⟨o, ho, hu⟩
  · rintro (⟨m, hm, h, hh, hu⟩ | ⟨o, ho, hu⟩)
    · exact .inr (.inl ⟨_, h, hh, hu, (item_mem_hotelClosure hx).mpr (DB.menuOf_eq_true.mpr ⟨m, hm, beq_self_eq_true _⟩)⟩)
    · exact .inr (.inr ⟨_, o, ho, hu, .inr ⟨i, x, hx, rfl, rfl⟩⟩)

theorem without_dropUser (db : DB) (u : ℕ) : Without db (userClosure db u) (db.dropUser u) := by
  constructor
  case menus =>
    intro i m
    refine Table.find_filter_eq_some.trans (and_congr_right fun hm => ?_)
    rw [menu_mem_userClosure hm, DB.menuOf, hm, Option.any_some, Bool.not_eq_true', Bool.not_eq_true]
  case orderItems =>
    intro i x
    -- the items of the user's hotels go first, then those of the user's orders
    have hitems : (db.dropUser u).orderItems.find i = some x ↔
        (db.orderItems.find i = some x ∧ (!db.menuOf (db.hotelOf u) x.menuId) = true) ∧
          (!db.orderOf u x.orderId) = true :=
      Table.find_filter_eq_some.trans (and_congr_left fun _ => Table.find_filter_eq_some)
    rw [hitems, and_assoc]
    refine and_congr_right fun hx => ?_
    rw [item_mem_userClosure hx, not_or, Bool.not_eq_true', Bool.not_eq_true', Bool.not_eq_true, Bool.not_eq_true]
  all_goals
    simp +contextual [DB.dropUser, DB.dropOrders, DB.dropHotels, DB.dropMenus, DB.orderOf, DB.hotelOf, userClosure,
      orderClosure, hotelClosure, menuClosure, Table.find_filter, Table.erase]

theorem without_eraseItem (db : DB) (i : ℕ) :
    Without db {.orderItem i} { db with orderItems := db.orderItems.erase i } := by
  constructor <;> simp [Table.erase, Table.find_filter]

/-- **A destroy removes exactly the dependent closure, and never trips a foreign key.** -/
theorem destroy_removes_closure (h : ForeignKeys db) (r : Row) :
    ∃ db', r.destroy.run db = (.ok (), db') ∧ ForeignKeys db' ∧ Without db (closure db r) db' := by
  cases r with
  | user i => exact ⟨_, destroyUser_run i db, h.dropUser i, without_dropUser db i⟩
  | hotel i => exact ⟨_, destroyHotel_run i db, h.dropHotels _, without_dropHotel db i⟩
  | menu i => exact ⟨_, destroyMenu_run i db, h.dropMenus _, without_dropMenu db i⟩
  | order i => exact ⟨_, destroyOrder_run i db, h.dropOrders _, without_dropOrder db i⟩
  | orderItem i =>
    refine ⟨_, orderItemsT.run_delete_ok rfl, ?_, without_eraseItem db i⟩
    exact { h with itemOrder := h.itemOrder.filter_child _, itemMenu := h.itemMenu.filter_child _ }

/-- The owner of the sample is destroyed, with the hotel, its menu, and the item that the client ordered. The
client's order stays. -/
theorem destroy_removes_closure_owner :
    ∃ db', (Row.user 2).destroy.run DB.ordered = (.ok (), db') ∧ ForeignKeys db' ∧
      Without DB.ordered (closure DB.ordered (.user 2)) db' :=
  destroy_removes_closure ForeignKeys.ordered (.user 2)

end FoodFactory
