import FoodFactory.Store.Program
import FoodFactory.Controller.Router
import FoodFactory.Controller.Sessions

/-!
# Requests, step by step

The server answers many requests at a time. Each of them goes through its filters and its
action by itself, and what it does to the database are single queries and transactions,
between which others come in. This module has the requests of `Controller.Router`, the
sign-up, the logout, the rake task and the destruction of a user again, as programs of such
steps (`Task.program`).

A query is a step. So is every `save`, `update`, `create!` and `destroy`: Active Record runs it
in a transaction, with its validations and its cascades, and transactions of SQLite do not
overlap. A record that was read is not read again: a filter's record, and `current_user`, are
as they were when the request first asked for them.

(The query cache, which may answer a query that a request repeats, is not part of the model: every query is asked of the
database.)

An `update` writes the columns that it changes, and no others: what is written is compared
with what was read (`changed`). The digest of a password is salted, so it always changes.

## What is proved

`Task.alone_program`: a task with nothing between its steps does what the earlier modules
say of it as a whole.
-/

namespace FoodFactory

open Store Ruby Program

/-! ### Changed columns -/

/-- The value of a column after an update: the new one where it differs from the one that was read, and otherwise
the one that is there. -/
def changed {α : Type} [DecidableEq α] (old new kept : α) : α := if new = old then kept else new

@[simp] theorem changed_self {α : Type} [DecidableEq α] (old new : α) : changed old new old = new := by
  unfold changed
  split_ifs with h
  · exact h.symm
  · rfl

/-- An update of a user that was read as `old` makes the row `kept`. -/
def User.merge (old new kept : User) : User where
  name := changed old.name new.name kept.name
  role := changed old.role new.role kept.role
  email := changed old.email new.email kept.email
  password := new.password

/-- An update of a hotel that was read as `old`, on the row `kept`. -/
def Hotel.merge (old new kept : Hotel) : Hotel where
  hotelName := changed old.hotelName new.hotelName kept.hotelName
  userId := changed old.userId new.userId kept.userId

/-- An update of a menu that was read as `old`, on the row `kept`. -/
def Menu.merge (old new kept : Menu) : Menu where
  menuName := changed old.menuName new.menuName kept.menuName
  hotelId := changed old.hotelId new.hotelId kept.hotelId
  description := changed old.description new.description kept.description
  price := changed old.price new.price kept.price

/-- `@user.update(params)`, on the columns that change. -/
def User.updateChanged (downcase : String → String) (i : ℕ) (u : User) (p : UserParams) :
    Action DB Exn (Except (List ModelError) User) := do
  let role ← Action.read fun _ => p.roleFor u
  let v ← Action.read fun db => .ok (User.validateUpdate downcase db i u p role)
  match v with
  | .error es => pure (.error es)
  | .ok u' => do
    usersT.modify i (User.merge u u')
    pure (.ok u')

/-- `@hotel.update(params)`, on the columns that change. -/
def Hotel.updateChanged (i : ℕ) (h : Hotel) (hotelName : Option (Option String)) :
    Action DB Exn (Except (List ModelError) Hotel) :=
  match Hotel.validate (hotelName.getD (some h.hotelName)) h.userId with
  | .error es => pure (.error es)
  | .ok h' => do
    hotelsT.modify i (Hotel.merge h h')
    pure (.ok h')

/-- `@menu.update(params)`, on the columns that change. -/
def Menu.updateChanged (i : ℕ) (m : Menu) (p : MenuParams) : Action DB Exn (Except (List ModelError) Menu) :=
  match Menu.validateUpdate m p with
  | .error es => pure (.error es)
  | .ok m' => do
    checkRange m'.price
    menusT.modify i (Menu.merge m m')
    pure (.ok m')

/-! ### The filters that load `current_user` -/

/-- `authorize!`, which loads `current_user`. -/
def authorizing (ctx : Ctx) (v : Verb) (s : Subject) : Action DB Stop (Option (ℕ × User)) := Action.read fun db =>
  if can (currentUser ctx db) v s then .ok (currentUser ctx db) else .error (.raised .accessDenied)

/-- Authorize the record that the library builds, and load `current_user`. -/
def authorizingBuilt (ctx : Ctx) (v : Verb) (m : Model) : Action DB Stop (Option (ℕ × User)) := Action.read fun db =>
  let u := currentUser ctx db
  if can u v (.record m (attributesFor u v m)) then .ok u else .error (.raised .accessDenied)

/-- `current_user`, loaded before, in an action that calls a method on it. -/
def needUser : Option (ℕ × User) → Program DB Stop (ℕ × User)
  | none => .ret (.error (.raised .noMethodError))
  | some u => .ret (.ok u)

/-! ### The actions -/

namespace UsersController

/-- `UsersController#index`. -/
def indexSteps (env : Env) (ctx : Ctx) : Program DB Stop Response := do
  lift (authenticateUser env ctx)
  let loaded ← lift (authorizing ctx .index (.cls .user))
  let current ← needUser loaded
  lift (Action.read fun db =>
    if current.2.role = some .admin then .ok ⟨.ok, .users (allUsersData db)⟩
    else .ok ⟨.unprocessableEntity, .errorsText "Only admin can access this routes"⟩)

/-- `UsersController#show`. -/
def showSteps (env : Env) (ctx : Ctx) (id : String) : Program DB Stop Response := do
  lift (authenticateUser env ctx)
  let user ← lift (setUser id)
  lift (authorize ctx .show (.record .user none))
  pure ⟨.ok, .user user.1 user.2⟩

/-- The branch of `UsersController#update` for one's own profile. -/
def updateProfileSteps (env : Env) (user : ℕ × User) (body : Required UserParams) : Program DB Stop Response := do
  let userParams ← lift (permitted "user" body)
  let r ← lift (raising (User.updateChanged env.downcase user.1 user.2 userParams))
  match r with
  | .ok u => pure ⟨.ok, .updatedUser "user updated successfully" user.1 u⟩
  | .error es => pure ⟨.unprocessableEntity, .errors (es.map ModelError.fullMessage)⟩

/-- `UsersController#update`. -/
def updateSteps (env : Env) (ctx : Ctx) (id : String) (body : Required UserParams) : Program DB Stop Response := do
  lift (authenticateUser env ctx)
  let user ← lift (setUser id)
  let loaded ← lift (authorizing ctx .update (.record .user none))
  let current ← needUser loaded
  if user.1 = current.1 then updateProfileSteps env user body
  else pure ⟨.forbidden, .message "You can only edit only your profile not others"⟩

end UsersController

namespace HotelsController

/-- `HotelsController#index`. -/
def indexSteps (env : Env) (ctx : Ctx) (userId : String) : Program DB Stop Response := do
  lift (authenticateUser env ctx)
  let user ← lift (setUser userId)
  lift (authorize ctx .index (.cls .hotel))
  lift (Action.read fun db => .ok ⟨.ok, .hotels (indexObjectMaker db user)⟩)

/-- `HotelsController#show`. -/
def showSteps (env : Env) (ctx : Ctx) (id : String) : Program DB Stop Response := do
  lift (authenticateUser env ctx)
  let hotel ← lift (setHotel id)
  lift (authorize ctx .show (.record .hotel (some hotel.2.userId)))
  pure ⟨.ok, .hotel hotel.1 hotel.2⟩

/-- `HotelsController#create`. -/
def createSteps (env : Env) (ctx : Ctx) (userId : String) (body : Required HotelParams) : Program DB Stop Response := do
  lift (authenticateUser env ctx)
  let user ← lift (setUser userId)
  let hotelParams ← lift (permitted "hotel" body)
  lift (authorizeBuilt ctx .create .hotel)
  let r ← lift (raising (Hotel.save hotelParams.join user.1))
  match r with
  | .ok h => pure ⟨.created, .hotel h.1 h.2⟩
  | .error es => pure ⟨.unprocessableEntity, .recordErrors es⟩

/-- `HotelsController#update`. -/
def updateSteps (env : Env) (ctx : Ctx) (id : String) (body : Required HotelParams) : Program DB Stop Response := do
  lift (authenticateUser env ctx)
  let hotel ← lift (setHotel id)
  lift (authorize ctx .update (.record .hotel (some hotel.2.userId)))
  let hotelParams ← lift (permitted "hotel" body)
  let r ← lift (raising (Hotel.updateChanged hotel.1 hotel.2 hotelParams))
  match r with
  | .ok h => pure ⟨.ok, .hotel hotel.1 h⟩
  | .error es => pure ⟨.unprocessableEntity, .recordErrors es⟩

/-- `HotelsController#destroy`. -/
def destroySteps (env : Env) (ctx : Ctx) (id : String) : Program DB Stop Response := do
  lift (authenticateUser env ctx)
  let hotel ← lift (setHotel id)
  lift (authorize ctx .destroy (.record .hotel (some hotel.2.userId)))
  lift (raising (destroyHotel hotel.1))
  pure ⟨.ok, .message (hotel.2.hotelName ++ " hotel was deleted successfully")⟩

end HotelsController

namespace MenusController

/-- `MenusController#index`. -/
def indexSteps (env : Env) (ctx : Ctx) (userId hotelId : String) : Program DB Stop Response := do
  lift (authenticateUser env ctx)
  let hotel ← lift (setHotel hotelId)
  let user ← lift (setUser userId)
  lift (authorize ctx .index (.cls .menu))
  lift (Action.read fun db =>
    let menus :=
      if user.2.role = some .hotelOwner then db.menus.select fun m => m.hotelId == hotel.1 else db.menus.rows
    .ok ⟨.ok, .menus (createObjectIndex menus)⟩)

/-- `MenusController#show`. -/
def showSteps (env : Env) (ctx : Ctx) (id : String) : Program DB Stop Response := do
  lift (authenticateUser env ctx)
  let menu ← lift (setMenu id)
  lift (authorize ctx .show (.record .menu none))
  pure ⟨.ok, .menu menu.1 menu.2⟩

/-- `MenusController#create`. -/
def createSteps (env : Env) (ctx : Ctx) (hotelId : String) (body : Required MenuParams) : Program DB Stop Response := do
  lift (authenticateUser env ctx)
  let hotel ← lift (setHotel hotelId)
  let menuParams ← lift (permitted "menu" body)
  lift (authorizeBuilt ctx .create .menu)
  let r ← lift (raising (Menu.save menuParams hotel.1))
  match r with
  | .ok m => pure ⟨.created, .menu m.1 m.2⟩
  | .error es => pure ⟨.unprocessableEntity, .recordErrors es⟩

/-- `MenusController#update`. -/
def updateSteps (env : Env) (ctx : Ctx) (id : String) (body : Required MenuParams) : Program DB Stop Response := do
  lift (authenticateUser env ctx)
  let menu ← lift (setMenu id)
  lift (authorize ctx .update (.record .menu none))
  let menuParams ← lift (permitted "menu" body)
  let r ← lift (raising (Menu.updateChanged menu.1 menu.2 menuParams))
  match r with
  | .ok m => pure ⟨.ok, .menu menu.1 m⟩
  | .error es => pure ⟨.unprocessableEntity, .recordErrors es⟩

/-- `MenusController#destroy`. -/
def destroySteps (env : Env) (ctx : Ctx) (id : String) : Program DB Stop Response := do
  lift (authenticateUser env ctx)
  let menu ← lift (setMenu id)
  lift (authorize ctx .destroy (.record .menu none))
  lift (raising (destroyMenu menu.1))
  pure ⟨.ok, .message (menu.2.menuName ++ " is deleted successfully")⟩

end MenusController

namespace CreateOrderService

/-- What is returned once the order and its items are written. -/
def createdSteps (i : ℕ) (order : Order) : Program DB Stop ServiceResult := do
  let rows ← lift (Action.read fun db => .ok (db.orderItems.select fun x => x.orderId == i))
  let items ← collect (fun x => lift (raising (report x))) rows
  pure (.created i order items)

/-- `CreateOrderService#call`: the order and each item are saved by a transaction of their own. -/
def callSteps (userId hotelId : ℕ) (orderParams : OrderParams) (orderItems : List ItemParams) :
    Program DB Stop ServiceResult := do
  let saved ← lift (raising (Order.save userId hotelId orderParams))
  match saved with
  | .error es => pure (.unprocessableEntity (es.map ModelError.fullMessage))
  | .ok (i, order) => do
    each (fun x => lift (raising (OrderItem.create i x))) orderItems
    createdSteps i order

end CreateOrderService

namespace OrdersController

/-- `OrdersController#index`. -/
def indexSteps (env : Env) (ctx : Ctx) (userId hotelId : String) : Program DB Stop Response := do
  lift (authenticateUser env ctx)
  let user ← lift (setUser userId)
  let hotel ← lift (setHotel hotelId)
  lift (authorize ctx .index (.cls .order))
  lift (Action.read fun db => .ok ⟨.ok, .orders (ordersFor db user hotel.1)⟩)

/-- `OrdersController#show`. -/
def showSteps (env : Env) (ctx : Ctx) (id : String) : Program DB Stop Response := do
  lift (authenticateUser env ctx)
  let order ← lift (setOrder id)
  lift (authorize ctx .show (.record .order (some order.2.userId)))
  pure ⟨.ok, .order order.1 order.2⟩

/-- `OrdersController#create`. -/
def createSteps (env : Env) (ctx : Ctx) (hotelId : String) (order : Required OrderBody) (orderItems : ItemsBody) :
    Program DB Stop Response := do
  lift (authenticateUser env ctx)
  let hotel ← lift (setHotel hotelId)
  let params ← lift (orderParams order)
  let loaded ← lift (authorizingBuilt ctx .create .order)
  let items ← lift (orderItemsParams orderItems)
  let current ← needUser loaded
  let result ← CreateOrderService.callSteps current.1 hotel.1 params items
  pure (renderResult result)

/-- `OrdersController#destroy`. -/
def destroySteps (env : Env) (ctx : Ctx) (userId id : String) : Program DB Stop Response := do
  lift (authenticateUser env ctx)
  let order ← lift (setOrder id)
  let user ← lift (setUser userId)
  lift (authorize ctx .destroy (.record .order (some order.2.userId)))
  let owner ← lift (orderUser order.2)
  if owner = user.1 then do
    lift (raising (destroyOrder order.1))
    pure ⟨.ok, .message "Order successfully deleted"⟩
  else pure ⟨.forbidden, .error "you are not authorize to delete this order"⟩

end OrdersController

/-- `OrderItemsController#index`. -/
def OrderItemsController.indexSteps (env : Env) (ctx : Ctx) : Program DB Stop Response := do
  lift (authenticateUser env ctx)
  lift (Action.read fun db => .ok ⟨.ok, .orderItems db.orderItems.rows⟩)

/-- A request. -/
def Req.steps (env : Env) (ctx : Ctx) : Req → Program DB Stop Response
  | .usersIndex => UsersController.indexSteps env ctx
  | .usersShow id => UsersController.showSteps env ctx id
  | .usersUpdate id body => UsersController.updateSteps env ctx id body
  | .hotelsIndex userId => HotelsController.indexSteps env ctx userId
  | .hotelsShow _ id => HotelsController.showSteps env ctx id
  | .hotelsCreate userId body => HotelsController.createSteps env ctx userId body
  | .hotelsUpdate _ id body => HotelsController.updateSteps env ctx id body
  | .hotelsDestroy _ id => HotelsController.destroySteps env ctx id
  | .menusIndex userId hotelId => MenusController.indexSteps env ctx userId hotelId
  | .menusShow _ _ id => MenusController.showSteps env ctx id
  | .menusCreate _ hotelId body => MenusController.createSteps env ctx hotelId body
  | .menusUpdate _ _ id body => MenusController.updateSteps env ctx id body
  | .menusDestroy _ _ id => MenusController.destroySteps env ctx id
  | .ordersIndex userId hotelId => OrdersController.indexSteps env ctx userId hotelId
  | .ordersShow _ _ id => OrdersController.showSteps env ctx id
  | .ordersCreate _ hotelId order orderItems => OrdersController.createSteps env ctx hotelId order orderItems
  | .ordersDestroy userId _ id => OrdersController.destroySteps env ctx userId id
  | .orderItemsIndex _ _ _ => OrderItemsController.indexSteps env ctx
  | .undefinedAction => .ret (.error (.raised .actionNotFound))

/-- `Users::RegistrationsController#create`. -/
def RegistrationsController.createSteps (env : Env) (body : Required SignUpParams) : Program DB Stop Response := do
  lift (validateRole env body)
  let p ← lift (permitted "user" body)
  let saved ← lift (buildAndSave env p)
  pure (respondWith saved)

/-- `respond_to_on_destroy`: the token is looked up, and then revoked. -/
def SessionsController.destroySteps (env : Env) (now : ℕ) (authorization : Option String) : Program DB Stop Response :=
  if present authorization then do
    let decoded ← lift (Action.read fun db => .ok (decodedToken env db now authorization))
    match decoded with
    | some p => do
      lift (raising (revoke p))
      pure ⟨.ok, .statusAndMessage 200 "Logged out successfully"⟩
    | none => pure ⟨.unauthorized, .statusAndMessage 401 "Invalid token or user already logged out."⟩
  else pure ⟨.unauthorized, .statusAndMessage 401 "Couldn't find an active session."⟩

/-! ### Tasks -/

/-- What the server and the console work on. -/
inductive Task where
  | request (ctx : Ctx) (req : Req)
  | signUp (body : Required RegistrationsController.SignUpParams)
  | logout (now : ℕ) (authorization : Option String)
  /-- `rake jwt:clear_expired`. -/
  | clearExpired (now : ℕ)
  /-- `User#destroy`, from the console. -/
  | destroyUser (id : ℕ)

/-- The steps of a task, and its response if it has one. -/
def Task.program (env : Env) : Task → Program DB Stop (Option Response)
  | .request ctx req => do
    let r ← req.steps env ctx
    pure (some r)
  | .signUp body => do
    let r ← RegistrationsController.createSteps env body
    pure (some r)
  | .logout now authorization => do
    let r ← SessionsController.destroySteps env now authorization
    pure (some r)
  | .clearExpired now => lift fun db => (.ok none, FoodFactory.clearExpired now db)
  | .destroyUser id => do
    lift (raising (FoodFactory.destroyUser id))
    pure none

/-- A task as a whole. -/
def Task.whole (env : Env) : Task → Action DB Stop (Option Response)
  | .request ctx req => do
    let r ← handle env ctx req
    pure (some r)
  | .signUp body => do
    let r ← RegistrationsController.create env body
    pure (some r)
  | .logout now authorization => do
    let r ← raising (SessionsController.respondToOnDestroy env now authorization)
    pure (some r)
  | .clearExpired now => fun db => (.ok none, FoodFactory.clearExpired now db)
  | .destroyUser id => do
    raising (FoodFactory.destroyUser id)
    pure none

/-! ### Alone -/

@[simp] theorem User.merge_self (old new : User) : User.merge old new old = new := by simp [User.merge]

@[simp] theorem Hotel.merge_self (old new : Hotel) : Hotel.merge old new old = new := by simp [Hotel.merge]

@[simp] theorem Menu.merge_self (old new : Menu) : Menu.merge old new old = new := by simp [Menu.merge]

/-- On the row that was read, an update of the columns that change is an update. -/
theorem User.run_updateChanged {downcase : String → String} {db : DB} {i : ℕ} {u : User} (h : db.users.find i = some u)
    (p : UserParams) : (User.updateChanged downcase i u p).run db = (User.update downcase i u p).run db := by
  unfold User.updateChanged User.update
  have hrole : (Action.read fun _ => p.roleFor u : Action DB Exn _).Filters db fun role => p.roleFor u = .ok role :=
    Action.Filters.read fun _ => Iff.rfl
  refine hrole.run_congr fun role _ => ?_
  rw [Action.run_get_bind, Action.run_get_bind]
  cases User.validateUpdate downcase db i u p role with
  | error es => rfl
  | ok u' =>
    dsimp only
    rw [Action.run_bind, Action.run_bind, usersT.run_modify h, User.merge_self]

theorem Hotel.run_updateChanged {db : DB} {i : ℕ} {h : Hotel} (hh : db.hotels.find i = some h)
    (name : Option (Option String)) : (Hotel.updateChanged i h name).run db = (Hotel.update i h name).run db := by
  unfold Hotel.updateChanged Hotel.update
  cases Hotel.validate (name.getD (some h.hotelName)) h.userId with
  | error es => rfl
  | ok h' =>
    dsimp only
    rw [Action.run_bind, Action.run_bind, hotelsT.run_modify hh, Hotel.merge_self]

theorem Menu.run_updateChanged {db : DB} {i : ℕ} {m : Menu} (hm : db.menus.find i = some m) (p : MenuParams) :
    (Menu.updateChanged i m p).run db = (Menu.update i m p).run db := by
  unfold Menu.updateChanged Menu.update
  cases Menu.validateUpdate m p with
  | error es => rfl
  | ok m' =>
    refine (filters_checkRange m'.price db).run_congr fun _ _ => ?_
    rw [Action.run_bind, Action.run_bind, menusT.run_modify hm, Menu.merge_self]

theorem filters_authorizing {ctx : Ctx} {db : DB} (v : Verb) (s : Subject) :
    (authorizing ctx v s).Filters db fun c => can (currentUser ctx db) v s = true ∧ currentUser ctx db = c := by
  refine Action.Filters.read fun _ => ?_
  split_ifs with h <;> simp [h]

theorem filters_authorizingBuilt {ctx : Ctx} {db : DB} (v : Verb) (m : Model) :
    (authorizingBuilt ctx v m).Filters db fun c =>
      can (currentUser ctx db) v (.record m (attributesFor (currentUser ctx db) v m)) = true ∧ currentUser ctx db = c := by
  refine Action.Filters.read fun _ => ?_
  dsimp only
  split_ifs with h <;> simp [h]

/-- Loading `current_user` on the way changes nothing in an authorization. -/
theorem run_authorizing {α : Type} (ctx : Ctx) (v : Verb) (s : Subject) (f : Option (ℕ × User) → Action DB Stop α)
    (db : DB) :
    (authorizing ctx v s >>= f).run db = (authorize ctx v s >>= fun _ => f (currentUser ctx db)).run db := by
  rw [Action.run_bind, Action.run_bind, authorizing, authorize, Action.run_read, Action.run_read]
  split_ifs <;> rfl

theorem run_authorizingBuilt {α : Type} (ctx : Ctx) (v : Verb) (m : Model)
    (f : Option (ℕ × User) → Action DB Stop α) (db : DB) :
    (authorizingBuilt ctx v m >>= f).run db = (authorizeBuilt ctx v m >>= fun _ => f (currentUser ctx db)).run db := by
  rw [Action.run_bind, Action.run_bind, authorizingBuilt, authorizeBuilt, Action.run_read, Action.run_read]
  dsimp only
  split_ifs <;> rfl

/-- The user that was loaded is the user that would be loaded now. -/
theorem run_needUser {α : Type} (ctx : Ctx) (f : ℕ × User → Action DB Stop α) (db : DB) :
    ((needUser (currentUser ctx db)).alone >>= f).run db = (requireCurrentUser ctx >>= f).run db := by
  rw [Action.run_bind, Action.run_bind, requireCurrentUser, Action.run_read]
  cases currentUser ctx db <;> rfl

variable {env : Env} {ctx : Ctx}

namespace UsersController

theorem alone_indexSteps : (indexSteps env ctx).alone = index env ctx := by
  funext db
  show (indexSteps env ctx).alone.run db = (index env ctx).run db
  simp only [indexSteps, index, alone_bind, alone_lift]
  refine filters_authenticateUser.run_congr fun _ _ => ?_
  rw [run_authorizing]
  exact (filters_authorize .index (.cls .user)).run_congr fun _ _ => run_needUser ctx _ db

theorem alone_showSteps (id : String) : (showSteps env ctx id).alone = «show» env ctx id := by
  simp only [showSteps, «show», alone_bind, alone_lift, alone_pure]

theorem run_updateProfileSteps {db : DB} {user : ℕ × User} (h : db.users.find user.1 = some user.2)
    (body : Required UserParams) :
    (updateProfileSteps env user body).alone.run db = (updateProfile env user body).run db := by
  simp only [updateProfileSteps, updateProfile, alone_bind, alone_lift]
  refine (filters_permitted "user" body).run_congr fun p _ => ?_
  rw [Action.run_bind, Action.run_bind, raising, raising, Action.run_mapError, Action.run_mapError,
    User.run_updateChanged h]
  rcases (User.update env.downcase user.1 user.2 p).run db with ⟨e | r, s'⟩
  · rfl
  · cases r <;> rfl

theorem alone_updateSteps (id : String) (body : Required UserParams) :
    (updateSteps env ctx id body).alone = update env ctx id body := by
  funext db
  show (updateSteps env ctx id body).alone.run db = (update env ctx id body).run db
  simp only [updateSteps, update, alone_bind, alone_lift]
  refine filters_authenticateUser.run_congr fun _ _ => (filters_setUser id).run_congr fun user huser => ?_
  rw [run_authorizing]
  refine (filters_authorize .update (.record .user none)).run_congr fun _ _ => ?_
  rw [run_needUser]
  refine filters_requireCurrentUser.run_congr fun current _ => ?_
  split_ifs
  · exact run_updateProfileSteps (findParam_find huser) body
  · rfl

end UsersController

namespace HotelsController

theorem alone_indexSteps (userId : String) : (indexSteps env ctx userId).alone = index env ctx userId := by
  simp only [indexSteps, index, alone_bind, alone_lift]

theorem alone_showSteps (id : String) : (showSteps env ctx id).alone = «show» env ctx id := by
  simp only [showSteps, «show», alone_bind, alone_lift, alone_pure]

theorem alone_createSteps (userId : String) (body : Required HotelParams) :
    (createSteps env ctx userId body).alone = create env ctx userId body := by
  simp only [createSteps, create, alone_bind, alone_lift]
  refine bind_congr fun _ => bind_congr fun user => bind_congr fun p => bind_congr fun _ => bind_congr fun r => ?_
  cases r <;> rfl

theorem alone_updateSteps (id : String) (body : Required HotelParams) :
    (updateSteps env ctx id body).alone = update env ctx id body := by
  funext db
  show (updateSteps env ctx id body).alone.run db = (update env ctx id body).run db
  simp only [updateSteps, update, alone_bind, alone_lift]
  refine filters_authenticateUser.run_congr fun _ _ => (filters_setHotel id).run_congr fun hotel hh =>
    (filters_authorize .update (.record .hotel (some hotel.2.userId))).run_congr fun _ _ =>
      (filters_permitted "hotel" body).run_congr fun p _ => ?_
  rw [Action.run_bind, Action.run_bind, raising, raising, Action.run_mapError, Action.run_mapError,
    Hotel.run_updateChanged (findParam_find hh)]
  rcases (Hotel.update hotel.1 hotel.2 p).run db with ⟨e | r, s'⟩
  · rfl
  · cases r <;> rfl

theorem alone_destroySteps (id : String) : (destroySteps env ctx id).alone = destroy env ctx id := by
  simp only [destroySteps, destroy, alone_bind, alone_lift, alone_pure]

end HotelsController

namespace MenusController

theorem alone_indexSteps (userId hotelId : String) :
    (indexSteps env ctx userId hotelId).alone = index env ctx userId hotelId := by
  simp only [indexSteps, index, alone_bind, alone_lift]

theorem alone_showSteps (id : String) : (showSteps env ctx id).alone = «show» env ctx id := by
  simp only [showSteps, «show», alone_bind, alone_lift, alone_pure]

theorem alone_createSteps (hotelId : String) (body : Required MenuParams) :
    (createSteps env ctx hotelId body).alone = create env ctx hotelId body := by
  simp only [createSteps, create, alone_bind, alone_lift]
  refine bind_congr fun _ => bind_congr fun hotel => bind_congr fun p => bind_congr fun _ => bind_congr fun r => ?_
  cases r <;> rfl

theorem alone_updateSteps (id : String) (body : Required MenuParams) :
    (updateSteps env ctx id body).alone = update env ctx id body := by
  funext db
  show (updateSteps env ctx id body).alone.run db = (update env ctx id body).run db
  simp only [updateSteps, update, alone_bind, alone_lift]
  refine filters_authenticateUser.run_congr fun _ _ => (filters_setMenu id).run_congr fun menu hm =>
    (filters_authorize .update (.record .menu none)).run_congr fun _ _ =>
      (filters_permitted "menu" body).run_congr fun p _ => ?_
  rw [Action.run_bind, Action.run_bind, raising, raising, Action.run_mapError, Action.run_mapError,
    Menu.run_updateChanged (findParam_find hm)]
  rcases (Menu.update menu.1 menu.2 p).run db with ⟨e | r, s'⟩
  · rfl
  · cases r <;> rfl

theorem alone_destroySteps (id : String) : (destroySteps env ctx id).alone = destroy env ctx id := by
  simp only [destroySteps, destroy, alone_bind, alone_lift, alone_pure]

end MenusController

namespace OrdersController

theorem alone_indexSteps (userId hotelId : String) :
    (indexSteps env ctx userId hotelId).alone = index env ctx userId hotelId := by
  simp only [indexSteps, index, alone_bind, alone_lift]

theorem alone_showSteps (id : String) : (showSteps env ctx id).alone = «show» env ctx id := by
  simp only [showSteps, «show», alone_bind, alone_lift, alone_pure]

/-- The service, with its exceptions let out one by one or all together. -/
theorem alone_callSteps (userId hotelId : ℕ) (p : OrderParams) (items : List ItemParams) :
    (CreateOrderService.callSteps userId hotelId p items).alone =
      raising (CreateOrderService.call userId hotelId p items) := by
  simp only [CreateOrderService.callSteps, CreateOrderService.call, alone_bind, alone_lift, raising,
    Action.mapError_bind]
  refine bind_congr fun saved => ?_
  match saved with
  | .error es => rfl
  | .ok (i, order) =>
    simp only [CreateOrderService.createdSteps, CreateOrderService.created, alone_bind, alone_each, alone_collect,
      alone_lift, alone_pure, raising, Action.mapError_bind, Action.mapError_each, Action.mapError_collect,
      Action.mapError_pure]
    rfl

theorem alone_createSteps (hotelId : String) (order : Required OrderBody) (orderItems : ItemsBody) :
    (createSteps env ctx hotelId order orderItems).alone = create env ctx hotelId order orderItems := by
  funext db
  show (createSteps env ctx hotelId order orderItems).alone.run db = (create env ctx hotelId order orderItems).run db
  simp only [createSteps, create, alone_bind, alone_lift, alone_pure, alone_callSteps]
  refine filters_authenticateUser.run_congr fun _ _ => (filters_setHotel hotelId).run_congr fun hotel _ =>
    filters_orderParams.run_congr fun params _ => ?_
  rw [run_authorizingBuilt]
  exact (filters_authorizeBuilt .create .order).run_congr fun _ _ => filters_orderItemsParams.run_congr fun items _ =>
    run_needUser ctx _ db

theorem alone_destroySteps (userId id : String) : (destroySteps env ctx userId id).alone = destroy env ctx userId id := by
  simp only [destroySteps, destroy, alone_bind, alone_lift]
  refine bind_congr fun _ => bind_congr fun order => bind_congr fun user => bind_congr fun _ => bind_congr fun owner => ?_
  split_ifs <;> simp only [alone_bind, alone_lift, alone_pure]

end OrdersController

/-- **A request with nothing between its steps** is the request as a whole. -/
theorem Req.alone_steps (req : Req) : (req.steps env ctx).alone = handle env ctx req := by
  cases req with
  | usersIndex => exact UsersController.alone_indexSteps
  | usersShow id => exact UsersController.alone_showSteps id
  | usersUpdate id body => exact UsersController.alone_updateSteps id body
  | hotelsIndex userId => exact HotelsController.alone_indexSteps userId
  | hotelsShow userId id => exact HotelsController.alone_showSteps id
  | hotelsCreate userId body => exact HotelsController.alone_createSteps userId body
  | hotelsUpdate userId id body => exact HotelsController.alone_updateSteps id body
  | hotelsDestroy userId id => exact HotelsController.alone_destroySteps id
  | menusIndex userId hotelId => exact MenusController.alone_indexSteps userId hotelId
  | menusShow userId hotelId id => exact MenusController.alone_showSteps id
  | menusCreate userId hotelId body => exact MenusController.alone_createSteps hotelId body
  | menusUpdate userId hotelId id body => exact MenusController.alone_updateSteps id body
  | menusDestroy userId hotelId id => exact MenusController.alone_destroySteps id
  | ordersIndex userId hotelId => exact OrdersController.alone_indexSteps userId hotelId
  | ordersShow userId hotelId id => exact OrdersController.alone_showSteps id
  | ordersCreate userId hotelId order orderItems => exact OrdersController.alone_createSteps hotelId order orderItems
  | ordersDestroy userId hotelId id => exact OrdersController.alone_destroySteps userId id
  | orderItemsIndex userId hotelId orderId =>
    simp only [steps, handle, OrderItemsController.indexSteps, OrderItemsController.index, alone_bind, alone_lift]
  | undefinedAction => rfl

theorem RegistrationsController.alone_createSteps (body : Required SignUpParams) :
    (createSteps env body).alone = create env body := by
  simp only [createSteps, create, alone_bind, alone_lift, alone_pure]

theorem SessionsController.alone_destroySteps (now : ℕ) (authorization : Option String) :
    (destroySteps env now authorization).alone = raising (respondToOnDestroy env now authorization) := by
  unfold destroySteps respondToOnDestroy
  split_ifs
  · simp only [alone_bind, alone_lift, raising, Action.mapError_bind]
    refine bind_congr fun decoded => ?_
    cases decoded with
    | none => rfl
    | some p =>
      simp only [alone_bind, alone_lift, alone_pure, Action.mapError_bind]
      rfl
  · rfl

/-- **Tasks step by step refine tasks as a whole**: with nothing between its steps, a task does the same to every
database and ends the same. -/
theorem Task.alone_program (env : Env) (t : Task) : (t.program env).alone = t.whole env := by
  cases t with
  | request ctx req => simp only [program, whole, alone_bind, alone_pure, Req.alone_steps]
  | signUp body => simp only [program, whole, alone_bind, alone_pure, RegistrationsController.alone_createSteps]
  | logout now authorization =>
    simp only [program, whole, alone_bind, alone_pure, SessionsController.alone_destroySteps]
  | clearExpired now => exact alone_lift _
  | destroyUser id => simp only [program, whole, alone_bind, alone_lift, alone_pure]

end FoodFactory
