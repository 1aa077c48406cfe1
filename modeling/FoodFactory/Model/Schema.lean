import FoodFactory.Store.Action
import FoodFactory.Ruby.Value

/-!
# The database

The tables of `db/schema.rb`, as rows of the columns the application reads or
writes, and the statements on them. The foreign keys are those of the schema's
last lines and no others:

    hotels.user_id → users          menus.hotel_id → hotels
    orders.user_id → users          order_items.order_id → orders
                                    order_items.menu_id → menus

`orders.hotel_id` is a column like any other: the schema declares no foreign key
for it. Each statement is checked against the five keys when it runs.

The primary keys are SQLite's `AUTOINCREMENT` ones, so an id is never used twice
(`Store.Table`). Integer columns hold 64 bits; a value outside is refused when
the row is written. A password is kept as it was set, in place of its digest:
all the application asks of the digest is whether a password is the one that was
set. The time stamps and the columns of Devise's other modules are left out.
-/

namespace FoodFactory

open Store

/-- `User.roles`: `enum role: { admin: 0, client: 1, hotel_owner: 2 }`. -/
inductive Role where
  | admin
  | client
  | hotelOwner
  deriving DecidableEq

namespace Role

/-- The key of a role in `User.roles`. -/
def key : Role → String
  | .admin => "admin"
  | .client => "client"
  | .hotelOwner => "hotel_owner"

/-- The value of a role in `User.roles`. -/
def value : Role → ℤ
  | .admin => 0
  | .client => 1
  | .hotelOwner => 2

/-- The role with a given key. -/
def ofKey? (s : String) : Option Role := [admin, client, hotelOwner].find? fun r => r.key == s

/-- The role with a given value. -/
def ofValue? (q : ℚ) : Option Role := [admin, client, hotelOwner].find? fun r => (r.value : ℚ) == q

end Role

/-- A row of `users`. The column `role` may be null. -/
structure User where
  name : String
  role : Option Role
  email : String
  password : String
  deriving DecidableEq

/-- A row of `hotels`. -/
structure Hotel where
  hotelName : String
  userId : ℕ
  deriving DecidableEq

/-- A row of `menus`. -/
structure Menu where
  menuName : String
  hotelId : ℕ
  description : Option String
  price : ℤ
  deriving DecidableEq

/-- A row of `orders`. -/
structure Order where
  userId : ℕ
  hotelId : ℕ
  totalPrice : ℤ
  status : String
  deriving DecidableEq

/-- A row of `order_items`. The quantity is a string column. -/
structure OrderItem where
  orderId : ℕ
  menuId : ℕ
  quantity : String
  price : ℤ
  deriving DecidableEq

/-- A row of `jwt_blacklists`. The expiry is in nanoseconds. -/
structure JwtBlacklist where
  jti : String
  exp : ℕ
  deriving DecidableEq

/-- The database. -/
@[ext]
structure DB where
  users : Table User
  hotels : Table Hotel
  menus : Table Menu
  orders : Table Order
  orderItems : Table OrderItem
  jwtBlacklists : Table JwtBlacklist
  deriving DecidableEq

/-- The database after the schema is loaded. -/
def DB.empty : DB := ⟨.empty, .empty, .empty, .empty, .empty, .empty⟩

/-- A database with a client, a hotel owner, the owner's hotel, and a menu of that hotel. -/
def DB.sample : DB :=
  { DB.empty with
    users := (Table.empty.insert ⟨"Client", some .client, "client@mail.com", "password"⟩).insert
      ⟨"Owner", some .hotelOwner, "owner@mail.com", "password"⟩
    hotels := Table.empty.insert ⟨"Hotel", 2⟩
    menus := Table.empty.insert ⟨"Menu", 1, none, 100⟩ }

/-- The client has ordered the menu, twice. -/
def DB.ordered : DB :=
  { DB.sample with
    orders := Table.empty.insert ⟨1, 1, 200, "pending"⟩
    orderItems := Table.empty.insert ⟨1, 1, "2", 100⟩ }

/-! ### Errors -/

/-- The attributes and associations that validations speak of. -/
inductive Attr where
  | name | role | email | password | passwordConfirmation
  | hotelName | userId | user
  | menuName | hotelId | hotel | price
  | status | totalPrice
  | orderId | order | menuId | menu | quantity
  | jti | exp
  deriving DecidableEq

/-- `human_attribute_name`. -/
def Attr.human : Attr → String
  | .name => "Name" | .role => "Role" | .email => "Email" | .password => "Password"
  | .passwordConfirmation => "Password confirmation"
  | .hotelName => "Hotel name" | .userId => "User" | .user => "User"
  | .menuName => "Menu name" | .hotelId => "Hotel" | .hotel => "Hotel" | .price => "Price"
  | .status => "Status" | .totalPrice => "Total price"
  | .orderId => "Order" | .order => "Order" | .menuId => "Menu" | .menu => "Menu"
  | .quantity => "Quantity" | .jti => "Jti" | .exp => "Exp"

/-- Why a validation failed. -/
inductive Problem where
  | blank
  | required
  | taken
  | invalid
  | tooShort
  | tooLong
  | confirmation
  | greaterThanOrEqualToZero
  deriving DecidableEq

/-- The message of a failed validation. -/
def Problem.message : Problem → String
  | .blank => "can't be blank"
  | .required => "must exist"
  | .taken => "has already been taken"
  | .invalid => "is invalid"
  | .tooShort => "is too short (minimum is 6 characters)"
  | .tooLong => "is too long (maximum is 128 characters)"
  | .confirmation => "doesn't match Password"
  | .greaterThanOrEqualToZero => "must be greater than or equal to 0"

/-- A validation error: the attribute it names, and why. -/
structure ModelError where
  attr : Attr
  problem : Problem
  deriving DecidableEq

/-- One of `errors.full_messages`. -/
def ModelError.fullMessage (e : ModelError) : String := e.attr.human ++ " " ++ e.problem.message

/-- The exceptions that can leave a request. -/
inductive Exn where
  | recordInvalid (errors : List ModelError)
  | recordNotFound
  | invalidForeignKey
  | rangeError
  | parameterMissing (key : String)
  | accessDenied
  | noMethodError
  | floatDomainError
  | argumentError
  | typeError
  | actionNotFound
  deriving DecidableEq

/-! ### Statements -/

/-- `users`, referred to by `hotels` and `orders`. -/
def usersT : TableOf DB Exn User where
  get := DB.users
  put := fun db t => { db with users := t }
  keys := fun _ => []
  parents := fun _ _ => true
  referenced := fun db i => db.hotels.rows.any (fun h => h.2.userId == i) ||
    db.orders.rows.any fun o => o.2.userId == i
  violation := .invalidForeignKey
  get_put := fun _ _ => rfl
  put_put := fun _ _ _ => rfl
  put_get := fun _ => rfl
  referenced_put := fun _ _ _ => rfl

/-- `hotels`, referring to `users` and referred to by `menus` (and not, for the
database, by `orders`). -/
def hotelsT : TableOf DB Exn Hotel where
  get := DB.hotels
  put := fun db t => { db with hotels := t }
  keys := fun h => [h.userId]
  parents := fun db h => decide (db.users.Has h.userId)
  referenced := fun db i => db.menus.rows.any fun m => m.2.hotelId == i
  violation := .invalidForeignKey
  get_put := fun _ _ => rfl
  put_put := fun _ _ _ => rfl
  put_get := fun _ => rfl
  referenced_put := fun _ _ _ => rfl

/-- `menus`, referring to `hotels` and referred to by `order_items`. -/
def menusT : TableOf DB Exn Menu where
  get := DB.menus
  put := fun db t => { db with menus := t }
  keys := fun m => [m.hotelId]
  parents := fun db m => decide (db.hotels.Has m.hotelId)
  referenced := fun db i => db.orderItems.rows.any fun x => x.2.menuId == i
  violation := .invalidForeignKey
  get_put := fun _ _ => rfl
  put_put := fun _ _ _ => rfl
  put_get := fun _ => rfl
  referenced_put := fun _ _ _ => rfl

/-- `orders`, referring to `users` only, and referred to by `order_items`. -/
def ordersT : TableOf DB Exn Order where
  get := DB.orders
  put := fun db t => { db with orders := t }
  keys := fun o => [o.userId]
  parents := fun db o => decide (db.users.Has o.userId)
  referenced := fun db i => db.orderItems.rows.any fun x => x.2.orderId == i
  violation := .invalidForeignKey
  get_put := fun _ _ => rfl
  put_put := fun _ _ _ => rfl
  put_get := fun _ => rfl
  referenced_put := fun _ _ _ => rfl

/-- `order_items`, referring to `orders` and `menus`. -/
def orderItemsT : TableOf DB Exn OrderItem where
  get := DB.orderItems
  put := fun db t => { db with orderItems := t }
  keys := fun x => [x.orderId, x.menuId]
  parents := fun db x => decide (db.orders.Has x.orderId) && decide (db.menus.Has x.menuId)
  referenced := fun _ _ => false
  violation := .invalidForeignKey
  get_put := fun _ _ => rfl
  put_put := fun _ _ _ => rfl
  put_get := fun _ => rfl
  referenced_put := fun _ _ _ => rfl

/-- An integer column holds 64 bits. -/
def inRange (n : ℤ) : Bool := -2 ^ 63 ≤ n && n < 2 ^ 63

/-- Refuse a value outside its column's range, when the row is written. -/
def checkRange (n : ℤ) : Action DB Exn Unit := Action.read fun _ => if inRange n then .ok () else .error .rangeError

theorem filters_checkRange (n : ℤ) (db : DB) : (checkRange n).Filters db fun _ => inRange n = true := by
  refine Action.Filters.read fun _ => ?_
  split_ifs with h <;> simp [h]

end FoodFactory
