import FoodFactory.Route.Escape
import FoodFactory.Route.Pattern
import FoodFactory.Controller.Router

/-!
# From a path to a request

`config/routes.rb`: `devise_for :users`, the nested `resources`, and the health check.

* `resources` writes the routes that are nested in it first, under `/name/:name_id`, and then its own: `index`
  and `create` at `/name`, `show`, `update` (for `PATCH` and for `PUT`) and `destroy` at `/name/:id`. The
  application is `api_only`, so there is no `new` and no `edit`: `GET /users/new` shows the user with the id
  `"new"`.
* Every route ends in `(.:format)`: the last segment of a path may have an extension. A parameter has no dot in
  it.
* A path is matched as it is written. Then the parameters, and the format, are unescaped, and a request with one that
  is no valid text is bad. So a parameter as an action gets it may have a dot or a slash in it.
* A `HEAD` is routed as a `GET`.

The routes that the framework adds for itself (`/rails/…`) are left out.
-/

namespace FoodFactory

open Route HotelsController

/-- The method of a request. -/
inductive Method where
  | get
  | head
  | post
  | put
  | patch
  | delete
  | options
  deriving DecidableEq

/-- The methods that a route can be for. -/
def Method.routed : Method → Method
  | .head => .get
  | m => m

/-- The controllers that routes lead to. -/
inductive Controller where
  /-- `users/sessions`. -/
  | sessions
  /-- `users/registrations`. -/
  | registrations
  /-- `devise/passwords`. -/
  | passwords
  | users
  | hotels
  | menus
  | orders
  | orderItems
  /-- `rails/health`. -/
  | health
  deriving DecidableEq

/-- The actions that routes lead to. -/
inductive ActionName where
  | index
  | create
  | new
  | edit
  | show
  | update
  | destroy
  | cancel
  deriving DecidableEq

/-- `controller#action`. -/
structure Endpoint where
  controller : Controller
  action : ActionName
  deriving DecidableEq

/-- A route. -/
abbrev RouteEntry := Entry Method String Endpoint

/-- `resources name, only: actions do nested end`. -/
def resources (name : String) (controller : Controller) (actions : List ActionName) (nested : List RouteEntry) :
    List RouteEntry :=
  let routes (action : ActionName) : List RouteEntry :=
    match action with
    | .index => [⟨.get, [.lit name], ⟨controller, .index⟩⟩]
    | .create => [⟨.post, [.lit name], ⟨controller, .create⟩⟩]
    | .show => [⟨.get, [.lit name, .param], ⟨controller, .show⟩⟩]
    | .update =>
        [⟨.patch, [.lit name, .param], ⟨controller, .update⟩⟩, ⟨.put, [.lit name, .param], ⟨controller, .update⟩⟩]
    | .destroy => [⟨.delete, [.lit name, .param], ⟨controller, .destroy⟩⟩]
    | _ => []
  nested.map (fun e => { e with pattern := .lit name :: .param :: e.pattern }) ++ actions.flatMap routes

/-- The actions of `resources` in an application that is `api_only`. -/
def defaultActions : List ActionName := [.index, .create, .show, .update, .destroy]

/-- `devise_for :users`, with an empty path and the names `login`, `logout` and `signup`. -/
def deviseRoutes : List RouteEntry :=
  [⟨.get, [.lit "login"], ⟨.sessions, .new⟩⟩,
    ⟨.post, [.lit "login"], ⟨.sessions, .create⟩⟩,
    ⟨.delete, [.lit "logout"], ⟨.sessions, .destroy⟩⟩,
    ⟨.get, [.lit "password", .lit "new"], ⟨.passwords, .new⟩⟩,
    ⟨.get, [.lit "password", .lit "edit"], ⟨.passwords, .edit⟩⟩,
    ⟨.patch, [.lit "password"], ⟨.passwords, .update⟩⟩,
    ⟨.put, [.lit "password"], ⟨.passwords, .update⟩⟩,
    ⟨.post, [.lit "password"], ⟨.passwords, .create⟩⟩,
    ⟨.get, [.lit "signup", .lit "cancel"], ⟨.registrations, .cancel⟩⟩,
    ⟨.get, [.lit "signup", .lit "sign_up"], ⟨.registrations, .new⟩⟩,
    ⟨.get, [.lit "signup", .lit "edit"], ⟨.registrations, .edit⟩⟩,
    ⟨.patch, [.lit "signup"], ⟨.registrations, .update⟩⟩,
    ⟨.put, [.lit "signup"], ⟨.registrations, .update⟩⟩,
    ⟨.delete, [.lit "signup"], ⟨.registrations, .destroy⟩⟩,
    ⟨.post, [.lit "signup"], ⟨.registrations, .create⟩⟩]

/-- The nested `resources`. -/
def resourceRoutes : List RouteEntry :=
  resources "users" .users defaultActions <|
    resources "hotels" .hotels defaultActions <|
      resources "menus" .menus defaultActions [] ++
      resources "orders" .orders (defaultActions.erase .update) (resources "order_items" .orderItems [.index, .show] [])

/-- `Rails.application.routes`. -/
def routes : List RouteEntry :=
  deviseRoutes ++ resourceRoutes ++ [⟨.get, [.lit "up"], ⟨.health, .show⟩⟩]

/-- No path has two routes for a method, so the order of the routes does not matter. -/
theorem unambiguous_routes : Unambiguous routes := by decide +kernel

/-- What a parameter of a path can be, as it is written. -/
def plainParam (s : String) : Bool := '.' ∉ s.toList

/-- The segments of the path of a URL without its format, and its format. The path ends at a question mark. -/
def pathSegments (url : String) : Option (List String × Option String) :=
  (cutLast '.' (segments '/' (url.toList.takeWhile (· ≠ '?')))).map fun x => (x.1.map .ofList, x.2.map .ofList)

/-- The parameters of a path, unescaped, if they and its format are valid. -/
def unescapeParams (params : List String) (format : Option String) : Option (List String) :=
  if format.all fun s => (unescape s).isSome then params.mapM unescape else none

/-- The bodies of a request, as each action reads them. -/
structure Params where
  signUp : Required RegistrationsController.SignUpParams
  user : Required UserParams
  hotel : Required HotelParams
  menu : Required MenuParams
  order : Required OrderBody
  orderItems : ItemsBody

/-- Where a path leads. -/
inductive Dispatch where
  /-- To one of the five controllers. -/
  | request (req : Req)
  /-- To a session, a registration, a password, or the health check. -/
  | other (target : Endpoint)
  /-- To no action: the path has parameters that are not valid. -/
  | badRequest
  deriving DecidableEq

/-- The actions that a controller of the application's resources defines. -/
def Controller.defined : Controller → Option (List ActionName)
  | .users => some [.index, .show, .update]
  | .hotels => some [.index, .show, .create, .update, .destroy]
  | .menus => some [.index, .show, .create, .update, .destroy]
  | .orders => some [.index, .show, .create, .destroy]
  | .orderItems => some [.index]
  | _ => none

/-- The endpoint is an action that its controller does not define. -/
def Endpoint.isUndefined (e : Endpoint) : Bool := e.controller.defined.any fun actions => e.action ∉ actions

/-- The action that an endpoint is, with the parameters of its path, where it is defined. -/
def Endpoint.perform (p : Params) : Endpoint → List String → Dispatch
  | ⟨.users, .index⟩, [] => .request .usersIndex
  | ⟨.users, .show⟩, [id] => .request (.usersShow id)
  | ⟨.users, .update⟩, [id] => .request (.usersUpdate id p.user)
  | ⟨.hotels, .index⟩, [userId] => .request (.hotelsIndex userId)
  | ⟨.hotels, .create⟩, [userId] => .request (.hotelsCreate userId p.hotel)
  | ⟨.hotels, .show⟩, [userId, id] => .request (.hotelsShow userId id)
  | ⟨.hotels, .update⟩, [userId, id] => .request (.hotelsUpdate userId id p.hotel)
  | ⟨.hotels, .destroy⟩, [userId, id] => .request (.hotelsDestroy userId id)
  | ⟨.menus, .index⟩, [userId, hotelId] => .request (.menusIndex userId hotelId)
  | ⟨.menus, .create⟩, [userId, hotelId] => .request (.menusCreate userId hotelId p.menu)
  | ⟨.menus, .show⟩, [userId, hotelId, id] => .request (.menusShow userId hotelId id)
  | ⟨.menus, .update⟩, [userId, hotelId, id] => .request (.menusUpdate userId hotelId id p.menu)
  | ⟨.menus, .destroy⟩, [userId, hotelId, id] => .request (.menusDestroy userId hotelId id)
  | ⟨.orders, .index⟩, [userId, hotelId] => .request (.ordersIndex userId hotelId)
  | ⟨.orders, .create⟩, [userId, hotelId] => .request (.ordersCreate userId hotelId p.order p.orderItems)
  | ⟨.orders, .show⟩, [userId, hotelId, id] => .request (.ordersShow userId hotelId id)
  | ⟨.orders, .destroy⟩, [userId, hotelId, id] => .request (.ordersDestroy userId hotelId id)
  | ⟨.orderItems, .index⟩, [userId, hotelId, orderId] => .request (.orderItemsIndex userId hotelId orderId)
  | target, _ => .other target

/-- What an endpoint does with the parameters of its path. -/
def Endpoint.dispatch (p : Params) (e : Endpoint) (ids : List String) : Dispatch :=
  if e.isUndefined then .request .undefinedAction else e.perform p ids

/-- Where a request goes, if it has a route. -/
def dispatch (m : Method) (url : String) (p : Params) : Option Dispatch := do
  let (l, format) ← pathSegments url
  let (target, params) ← recognize plainParam routes m.routed l
  match unescapeParams params format with
  | some ids => return target.dispatch p ids
  | none => return .badRequest

end FoodFactory
