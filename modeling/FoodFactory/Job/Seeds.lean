import Mathlib.Data.List.Perm.Subperm
import FoodFactory.Model.Records

/-!
# The seeds

`db/seeds.rb` and `db/seeds/*.rb`, which fill a database for development: users, then hotels for
the users that own hotels, then menus for the hotels, then orders for the clients. Each record is
created by a transaction of its own, and an exception ends the whole, with what was created
before still there.

What the seeds draw at random is a parameter (`Draws`). The draws of a loop are told apart by its
counters. What a draw promises is part of its type: `rand(100..300)` is a number of that interval,
and `sample` an element of the list.

The texts that the seeds print, and the mails that are queued for the users they create, are left
out. Nothing else runs in the meantime.
-/

namespace FoodFactory

open Store

/-! ### Draws -/

/-- `Array#sample`: an element, where there is one. -/
structure Sample (α : Type) where
  pick : List α → Option α
  mem : ∀ l a, pick l = some a → a ∈ l
  isSome : ∀ l, l ≠ [] → (pick l).isSome

/-- `Array#sample(n)`: `n` of the elements, or all of them where there are fewer, in any order. -/
structure SampleOf (n : ℕ) (α : Type) where
  pick : List α → List α
  subperm : ∀ l, (pick l).Subperm l
  length : ∀ l, (pick l).length = min n l.length

/-- What the seeds draw. -/
structure Draws where
  /-- `Faker::Name.name`, for a client. -/
  name : ℕ → String
  /-- `Faker::Internet.email`, for a client. -/
  email : ℕ → String
  /-- `Faker::Restaurant.name`, for a hotel of an owner. -/
  restaurant : ℕ → ℕ → String
  /-- `Faker::Food.dish`, for a menu of a hotel. -/
  dish : ℕ → ℕ → String
  /-- `Faker::Food.description`, for a menu of a hotel. -/
  description : ℕ → ℕ → String
  /-- `rand(100..300)`, for a menu of a hotel. -/
  price : ℕ → ℕ → {n : ℤ // 100 ≤ n ∧ n ≤ 300}
  /-- `hotels.sample`, for an order of a client. -/
  hotel : ℕ → ℕ → Sample (ℕ × Hotel)
  /-- `order.hotel.menus.sample(3)`. -/
  menus : ℕ → SampleOf 3 (ℕ × Menu)
  /-- `rand(1..3)`, for an item of an order. -/
  quantity : ℕ → ℕ → {n : ℤ // 1 ≤ n ∧ n ≤ 3}

namespace Seeds

/-- `create!`: `save`, or raise. -/
def orRaise {α : Type} (m : Action DB Exn (Except (List ModelError) α)) : Action DB Exn α := do
  let r ← m
  match r with
  | .ok a => pure a
  | .error es => Action.throw (.recordInvalid es)

/-! ### Users, hotels and menus -/

/-- `User.create!(name:, email:, password: "password", password_confirmation: "password", role:)`. -/
def createUser (downcase : String → String) (name email : String) (role : Role) : Action DB Exn (ℕ × User) :=
  orRaise (User.save downcase ⟨some (some name), some (some email), some (some "password"), none⟩ (some role)
    (some "password"))

/-- One of the ten clients. -/
def createClient (downcase : String → String) (d : Draws) (i : ℕ) : Action DB Exn Unit := do
  let _ ← createUser downcase (d.name i) (d.email i) .client
  pure ()

/-- `Seeds::CreateUsersSeed.seed_users`. -/
def seedUsers (downcase : String → String) (d : Draws) : Action DB Exn Unit := do
  let _ ← createUser downcase "Admin" "admin@example.com" .admin
  let _ ← createUser downcase "Hotel owner" "hotelowner@example.com" .hotelOwner
  Action.each (createClient downcase d) (List.range 10)

/-- `Hotel.create!(Hotel_name: Faker::Restaurant.name, user: owner)`. -/
def createHotel (d : Draws) (owner j : ℕ) : Action DB Exn Unit := do
  let _ ← orRaise (Hotel.save (some (d.restaurant owner j)) owner)
  pure ()

/-- `Seeds::CreateHotelsSeed.seed_hotels`. -/
def seedHotels (d : Draws) : Action DB Exn Unit := do
  let owners ← Action.read fun db => .ok (db.users.select fun u => u.role == some .hotelOwner)
  Action.each (fun owner => Action.each (createHotel d owner.1) (List.range 3)) owners

/-- `Menu.create!(menu_name:, description:, price: rand(100..300), hotel: hotel)`. -/
def createMenu (d : Draws) (hotel j : ℕ) : Action DB Exn Unit := do
  let _ ← orRaise (Menu.save
    ⟨some (some (d.dish hotel j)), some (some (d.description hotel j)), some (.int (d.price hotel j))⟩ hotel)
  pure ()

/-- `Seeds::CreateMenusSeed.seed_menus`. -/
def seedMenus (d : Draws) : Action DB Exn Unit := do
  let hotels ← Action.read fun db => .ok db.hotels.rows
  Action.each (fun hotel => Action.each (createMenu d hotel.1) (List.range 5)) hotels

/-! ### Orders -/

/-- A new order for a client, at a hotel that is given as a record or `nil`. -/
def validateOrder (client : ℕ) (hotel : Option (ℕ × Hotel)) (totalPrice : ℤ) (status : Option String) :
    Except (List ModelError) Order :=
  validated
    (presence .hotelId hotel.isSome ++ presence .status (present status) ++
      (if 0 ≤ totalPrice then [] else [⟨.totalPrice, .greaterThanOrEqualToZero⟩]) ++ required .hotel hotel.isSome)
    ⟨client, (hotel.map (·.1)).getD 0, totalPrice, status.getD ""⟩

/-- `Order.create!(user:, hotel:, total_price:)`, with a status where one is given. -/
def createOrder (client : ℕ) (hotel : Option (ℕ × Hotel)) (totalPrice : ℤ) (status : Option String) :
    Action DB Exn (ℕ × Order) :=
  orRaise
    (match validateOrder client hotel totalPrice status with
    | .error es => pure (.error es)
    | .ok o => do
      checkRange o.totalPrice
      let i ← ordersT.insert o
      pure (.ok (i, o)))

/-- The row for an item of the seeds. -/
def itemRow (order : ℕ) (menu : ℕ × Menu) (quantity : ℤ) : OrderItem :=
  ⟨order, menu.1, toString quantity, menu.2.price * quantity⟩

/-- `OrderItem.create!(order:, menu:, quantity:, price: menu.price * quantity)`. -/
def createItem (order : ℕ) (menu : ℕ × Menu) (quantity : ℤ) : Action DB Exn Unit := do
  checkRange (itemRow order menu quantity).price
  let _ ← orderItemsT.insert (itemRow order menu quantity)
  pure ()

/-- The loop over the menus, with the total so far. -/
def createItems (d : Draws) (order : ℕ) : ℕ → ℤ → List (ℕ × Menu) → Action DB Exn ℤ
  | _, totalPrice, [] => pure totalPrice
  | j, totalPrice, menu :: l => do
    createItem order menu (d.quantity order j)
    createItems d order (j + 1) (totalPrice + menu.2.price * (d.quantity order j : ℤ)) l

/-- `order.hotel.menus`. -/
def menusOf (o : Order) : Action DB Exn (List (ℕ × Menu)) := Action.read fun db =>
  if db.hotels.Has o.hotelId then .ok (db.menus.select fun m => m.hotelId == o.hotelId) else .error .noMethodError

/-- `order.update!(total_price:)`. -/
def updateTotal (order : ℕ × Order) (totalPrice : ℤ) : Action DB Exn Unit :=
  match validated
      (presence .status (present (some order.2.status)) ++
        (if 0 ≤ totalPrice then [] else [⟨.totalPrice, .greaterThanOrEqualToZero⟩]))
      { order.2 with totalPrice := totalPrice } with
  | .error es => Action.throw (.recordInvalid es)
  | .ok o => do
    checkRange o.totalPrice
    ordersT.update order.1 o

/-- `Seeds::CreateOrdersSeed.create_order_items`. -/
def createOrderItems (d : Draws) (order : ℕ × Order) : Action DB Exn Unit := do
  let menus ← menusOf order.2
  let totalPrice ← createItems d order.1 0 0 ((d.menus order.1).pick menus)
  updateTotal order totalPrice

/-- One of the three orders of a client. No status is given. -/
def seedOrder (d : Draws) (hotels : List (ℕ × Hotel)) (client j : ℕ) : Action DB Exn Unit := do
  let order ← createOrder client ((d.hotel client j).pick hotels) 0 none
  createOrderItems d order

/-- `Seeds::CreateOrdersSeed.seed_orders`. -/
def seedOrders (d : Draws) : Action DB Exn Unit := do
  let clients ← Action.read fun db => .ok (db.users.select fun u => u.role == some .client)
  let hotels ← Action.read fun db => .ok db.hotels.rows
  Action.each (fun client => Action.each (seedOrder d hotels client.1) (List.range 3)) clients

/-- `SeedDb.call_for_create`. -/
def callForCreate (downcase : String → String) (d : Draws) : Action DB Exn Unit := do
  seedUsers downcase d
  seedHotels d
  seedMenus d
  seedOrders d

end Seeds

end FoodFactory
