import FoodFactory.Controller.Hotels
import FoodFactory.Controller.Menus
import FoodFactory.Controller.Orders
import FoodFactory.Controller.Registrations

/-!
# Routes

The requests that `config/routes.rb` sends to the users, hotels, menus, orders and order
items controllers, with their path parameters and bodies. A route whose action the
controller does not define (`POST /users`, `DELETE /users/:id`, the `show` of an order item)
raises before any filter runs.

`Effect` says once what a request can do to the database: nothing, or one of nine writes,
each with what the filters have made sure of. `handle_effect` is that every request has
such an effect; what the later modules prove of requests, they prove by cases on it.

`DB.step` is one event in the life of the database: a sign-up, a request, or a user
destroyed from the console.
-/

namespace FoodFactory

open Store HotelsController

/-- A request to one of the five controllers. -/
inductive Req where
  | usersIndex
  | usersShow (id : String)
  | usersUpdate (id : String) (body : Required UserParams)
  | hotelsIndex (userId : String)
  | hotelsShow (userId id : String)
  | hotelsCreate (userId : String) (body : Required HotelParams)
  | hotelsUpdate (userId id : String) (body : Required HotelParams)
  | hotelsDestroy (userId id : String)
  | menusIndex (userId hotelId : String)
  | menusShow (userId hotelId id : String)
  | menusCreate (userId hotelId : String) (body : Required MenuParams)
  | menusUpdate (userId hotelId id : String) (body : Required MenuParams)
  | menusDestroy (userId hotelId id : String)
  | ordersIndex (userId hotelId : String)
  | ordersShow (userId hotelId id : String)
  | ordersCreate (userId hotelId : String) (order : Required OrderBody) (orderItems : ItemsBody)
  | ordersDestroy (userId hotelId id : String)
  | orderItemsIndex (userId hotelId orderId : String)
  /-- A route to an action that is not defined. -/
  | undefinedAction
  deriving DecidableEq

/-- Run a request. -/
def handle (env : Env) (ctx : Ctx) : Req → Action DB Stop Response
  | .usersIndex => UsersController.index env ctx
  | .usersShow id => UsersController.show env ctx id
  | .usersUpdate id body => UsersController.update env ctx id body
  | .hotelsIndex userId => HotelsController.index env ctx userId
  | .hotelsShow _ id => HotelsController.show env ctx id
  | .hotelsCreate userId body => HotelsController.create env ctx userId body
  | .hotelsUpdate _ id body => HotelsController.update env ctx id body
  | .hotelsDestroy _ id => HotelsController.destroy env ctx id
  | .menusIndex userId hotelId => MenusController.index env ctx userId hotelId
  | .menusShow _ _ id => MenusController.show env ctx id
  | .menusCreate _ hotelId body => MenusController.create env ctx hotelId body
  | .menusUpdate _ _ id body => MenusController.update env ctx id body
  | .menusDestroy _ _ id => MenusController.destroy env ctx id
  | .ordersIndex userId hotelId => OrdersController.index env ctx userId hotelId
  | .ordersShow _ _ id => OrdersController.show env ctx id
  | .ordersCreate _ hotelId order orderItems => OrdersController.create env ctx hotelId order orderItems
  | .ordersDestroy userId _ id => OrdersController.destroy env ctx userId id
  | .orderItemsIndex _ _ _ => OrderItemsController.index env ctx
  | .undefinedAction => Action.throw (.raised .actionNotFound)

/-- The database after a request. -/
def after (env : Env) (ctx : Ctx) (req : Req) (db : DB) : DB := ((handle env ctx req).run db).2

/-- **What a request can do to the database.** -/
inductive Effect (env : Env) (ctx : Ctx) (db : DB) : Req → DB → Prop
  /-- Nothing. -/
  | nothing {req : Req} : Effect env ctx db req db
  | updateUser {id : String} {body : Required UserParams} {db' : DB} {i : ℕ} {u u' : User} :
      UsersController.Updates env ctx id body db db' i u u' → Effect env ctx db (.usersUpdate id body) db'
  | createHotel {userId : String} {body : Required HotelParams} {db' : DB} {i : ℕ} {h : Hotel} :
      HotelsController.Creates env ctx userId body db db' i h → Effect env ctx db (.hotelsCreate userId body) db'
  | updateHotel {userId id : String} {body : Required HotelParams} {db' : DB} {i : ℕ} {h h' : Hotel} :
      HotelsController.Updates env ctx id body db db' i h h' → Effect env ctx db (.hotelsUpdate userId id body) db'
  | destroyHotel {userId id : String} {db' : DB} {i : ℕ} {h : Hotel} :
      HotelsController.Destroys env ctx id db db' i h → Effect env ctx db (.hotelsDestroy userId id) db'
  | createMenu {userId hotelId : String} {body : Required MenuParams} {db' : DB} {i : ℕ} {h : Hotel} {m : Menu} :
      MenusController.Creates env ctx hotelId body db db' i h m →
        Effect env ctx db (.menusCreate userId hotelId body) db'
  | updateMenu {userId hotelId id : String} {body : Required MenuParams} {db' : DB} {i : ℕ} {m m' : Menu} :
      MenusController.Updates env ctx id body db db' i m m' →
        Effect env ctx db (.menusUpdate userId hotelId id body) db'
  | destroyMenu {userId hotelId id : String} {db' : DB} {i : ℕ} {m : Menu} :
      MenusController.Destroys env ctx id db db' i m → Effect env ctx db (.menusDestroy userId hotelId id) db'
  | createOrder {userId hotelId : String} {order : Required OrderBody} {orderItems : ItemsBody} {user hotel : ℕ}
      {params : OrderParams} {items : List ItemParams} :
      OrdersController.Calls env ctx hotelId order orderItems db user hotel params items →
        Effect env ctx db (.ordersCreate userId hotelId order orderItems)
          ((CreateOrderService.call user hotel params items).run db).2
  | destroyOrder {userId hotelId id : String} {db' : DB} {i : ℕ} {o : Order} :
      OrdersController.Destroys env ctx userId id db db' i o → Effect env ctx db (.ordersDestroy userId hotelId id) db'

/-- What a request leaves, when it leaves what satisfies `P` or nothing new. -/
theorem effect_of_leaves {env : Env} {ctx : Ctx} {db : DB} {req : Req} {P : DB → Prop}
    (h : (handle env ctx req).Leaves db P) (hP : ∀ db', P db' → Effect env ctx db req db') :
    Effect env ctx db req (after env ctx req db) := by
  rcases h with h | ⟨-, h⟩
  · exact hP _ h
  · rw [after, h]
    exact .nothing

/-- Every request has such an effect. -/
theorem handle_effect (env : Env) (ctx : Ctx) (req : Req) (db : DB) :
    Effect env ctx db req (after env ctx req db) := by
  have hread : ((handle env ctx req).run db).2 = db → Effect env ctx db req (after env ctx req db) := by
    intro h
    rw [after, h]
    exact .nothing
  cases req with
  | usersIndex => exact hread UsersController.index_state
  | usersShow id => exact hread UsersController.show_state
  | usersUpdate id body =>
    exact effect_of_leaves UsersController.leaves_update fun _ ⟨_, _, _, h⟩ => .updateUser h
  | hotelsIndex userId => exact hread HotelsController.index_state
  | hotelsShow userId id => exact hread HotelsController.show_state
  | hotelsCreate userId body =>
    exact effect_of_leaves HotelsController.leaves_create fun _ ⟨_, _, h⟩ => .createHotel h
  | hotelsUpdate userId id body =>
    exact effect_of_leaves HotelsController.leaves_update fun _ ⟨_, _, _, h⟩ => .updateHotel h
  | hotelsDestroy userId id =>
    exact effect_of_leaves HotelsController.leaves_destroy fun _ ⟨_, _, h⟩ => .destroyHotel h
  | menusIndex userId hotelId => exact hread MenusController.index_state
  | menusShow userId hotelId id => exact hread MenusController.show_state
  | menusCreate userId hotelId body =>
    exact effect_of_leaves MenusController.leaves_create fun _ ⟨_, _, _, h⟩ => .createMenu h
  | menusUpdate userId hotelId id body =>
    exact effect_of_leaves MenusController.leaves_update fun _ ⟨_, _, _, h⟩ => .updateMenu h
  | menusDestroy userId hotelId id =>
    exact effect_of_leaves MenusController.leaves_destroy fun _ ⟨_, _, h⟩ => .destroyMenu h
  | ordersIndex userId hotelId => exact hread OrdersController.filters_index.1
  | ordersShow userId hotelId id => exact hread OrdersController.filters_show.1
  | ordersCreate userId hotelId order orderItems =>
    refine effect_of_leaves OrdersController.leaves_create ?_
    rintro _ ⟨_, _, _, _, h, rfl⟩
    exact .createOrder h
  | ordersDestroy userId hotelId id =>
    exact effect_of_leaves OrdersController.leaves_destroy fun _ ⟨_, _, h⟩ => .destroyOrder h
  | orderItemsIndex userId hotelId orderId => exact hread OrderItemsController.filters_index.1
  | undefinedAction => exact hread rfl

/-- What a request that creates an order leaves. -/
theorem after_ordersCreate (env : Env) (ctx : Ctx) (userId hotelId : String) (order : Required OrderBody)
    (orderItems : ItemsBody) (db : DB) :
    (∃ user hotel p items, OrdersController.Calls env ctx hotelId order orderItems db user hotel p items ∧
        after env ctx (.ordersCreate userId hotelId order orderItems) db =
          CreateOrderService.placed db user hotel p items) ∨
      ((∀ user hotel p items, ¬ OrdersController.Calls env ctx hotelId order orderItems db user hotel p items) ∧
        after env ctx (.ordersCreate userId hotelId order orderItems) db = db) := by
  rcases @OrdersController.leaves_create env ctx hotelId db order orderItems with
    ⟨user, hotel, p, items, hc, -⟩ | ⟨hno, hsame⟩
  · exact .inl ⟨user, hotel, p, items, hc, hc.state⟩
  · exact .inr ⟨fun user hotel p items hc => hno _ ⟨user, hotel, p, items, hc, rfl⟩, hsame⟩

/-- Requests write users by `UsersController#update` only. -/
theorem Effect.users {env : Env} {ctx : Ctx} {db db' : DB} {req : Req} (h : Effect env ctx db req db') :
    db'.users = db.users ∨ ∃ id body i u u', req = .usersUpdate id body ∧
      UsersController.Updates env ctx id body db db' i u u' := by
  cases h with
  | nothing => exact .inl rfl
  | updateUser h => exact .inr ⟨_, _, _, _, _, rfl, h⟩
  | createHotel h => exact .inl (h.state ▸ rfl)
  | updateHotel h => exact .inl (h.state ▸ rfl)
  | destroyHotel h => exact .inl (h.state ▸ rfl)
  | createMenu h => exact .inl (h.state ▸ rfl)
  | updateMenu h => exact .inl (h.state ▸ rfl)
  | destroyMenu h => exact .inl (h.state ▸ rfl)
  | createOrder h =>
    rw [CreateOrderService.call_state, CreateOrderService.placed]
    split <;> exact .inl rfl
  | destroyOrder h => exact .inl (h.state ▸ rfl)

/-- Requests write hotels by `HotelsController#create`, `#update` and `#destroy` only. -/
theorem Effect.hotels {env : Env} {ctx : Ctx} {db db' : DB} {req : Req} (h : Effect env ctx db req db') :
    db'.hotels = db.hotels ∨
      (∃ userId body i x, req = .hotelsCreate userId body ∧ HotelsController.Creates env ctx userId body db db' i x) ∨
      (∃ userId id body i x x', req = .hotelsUpdate userId id body ∧
        HotelsController.Updates env ctx id body db db' i x x') ∨
      ∃ userId id i x, req = .hotelsDestroy userId id ∧ HotelsController.Destroys env ctx id db db' i x := by
  cases h with
  | nothing => exact .inl rfl
  | updateUser h => exact .inl (h.state ▸ rfl)
  | createHotel h => exact .inr (.inl ⟨_, _, _, _, rfl, h⟩)
  | updateHotel h => exact .inr (.inr (.inl ⟨_, _, _, _, _, _, rfl, h⟩))
  | destroyHotel h => exact .inr (.inr (.inr ⟨_, _, _, _, rfl, h⟩))
  | createMenu h => exact .inl (h.state ▸ rfl)
  | updateMenu h => exact .inl (h.state ▸ rfl)
  | destroyMenu h => exact .inl (h.state ▸ rfl)
  | createOrder h =>
    rw [CreateOrderService.call_state, CreateOrderService.placed]
    split <;> exact .inl rfl
  | destroyOrder h => exact .inl (h.state ▸ rfl)

/-- Requests write orders by placing one and by destroying one. -/
theorem Effect.orders {env : Env} {ctx : Ctx} {db db' : DB} {req : Req} (h : Effect env ctx db req db') :
    db'.orders = db.orders ∨
      (∃ userId hotelId order orderItems user hotel p items, req = .ordersCreate userId hotelId order orderItems ∧
        OrdersController.Calls env ctx hotelId order orderItems db user hotel p items ∧
        db' = CreateOrderService.placed db user hotel p items) ∨
      ∃ userId hotelId id i o, req = .ordersDestroy userId hotelId id ∧
        OrdersController.Destroys env ctx userId id db db' i o := by
  cases h with
  | nothing => exact .inl rfl
  | updateUser h => exact .inl (h.state ▸ rfl)
  | createHotel h => exact .inl (h.state ▸ rfl)
  | updateHotel h => exact .inl (h.state ▸ rfl)
  | destroyHotel h => exact .inl (h.state ▸ rfl)
  | createMenu h => exact .inl (h.state ▸ rfl)
  | updateMenu h => exact .inl (h.state ▸ rfl)
  | destroyMenu h => exact .inl (h.state ▸ rfl)
  | createOrder h => exact .inr (.inl ⟨_, _, _, _, _, _, _, _, rfl, h, CreateOrderService.call_state ..⟩)
  | destroyOrder h => exact .inr (.inr ⟨_, _, _, _, _, rfl, h⟩)

/-! ### Events -/

/-- What happens to the database over time. -/
inductive Event where
  | signUp (body : Required RegistrationsController.SignUpParams)
  | request (ctx : Ctx) (req : Req)
  /-- `User#destroy`, which no route leads to. -/
  | destroyUser (id : ℕ)

/-- One event. -/
def DB.step (env : Env) (db : DB) : Event → DB
  | .signUp body => ((RegistrationsController.create env body).run db).2
  | .request ctx req => after env ctx req db
  | .destroyUser id => ((FoodFactory.destroyUser id).run db).2

/-- A sign-up stores a user, whose role is not admin, or nothing. -/
theorem step_signUp (env : Env) (db : DB) (body : Required RegistrationsController.SignUpParams) :
    db.step env (.signUp body) = db ∨
      ∃ p r u, RegistrationsController.SignsUp env body db (db.step env (.signUp body)) p r u := by
  rcases @RegistrationsController.leaves_create env body db with h | ⟨-, h⟩
  · exact .inr h
  · exact .inl h

theorem step_destroyUser (env : Env) (db : DB) (id : ℕ) : db.step env (.destroyUser id) = db.dropUser id := by
  rw [DB.step, destroyUser_run]

/-- A sign-up with a name, an email address and a role. -/
def sampleSignUp (name email role : String) : Event :=
  .signUp (.hash ⟨⟨some (some name), some (some email), some (some "password"), some (.str role)⟩, none⟩)

/-- A client and a hotel owner sign up, the owner adds a hotel with a menu, and the client orders from it. -/
def sampleEvents : List Event :=
  [sampleSignUp "Client" "client@mail.com" "client",
    sampleSignUp "Owner" "owner@mail.com" "hotel_owner",
    .request (sampleCtx 2) (.hotelsCreate "2" (.hash (some (some "Hotel")))),
    .request (sampleCtx 2) (.menusCreate "2" "1" (.hash ⟨some (some "Menu"), none, some (.int 100)⟩)),
    .request (sampleCtx 1) (.ordersCreate "1" "1" (.hash ⟨.int 200, some "pending"⟩)
      (.list [some ⟨.int 1, .int 2, .int 100⟩]))]

theorem foldl_sampleEvents : sampleEvents.foldl (DB.step Plain.env) DB.empty = DB.ordered := by decide +kernel

end FoodFactory
