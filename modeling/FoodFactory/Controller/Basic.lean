import FoodFactory.Model.Destroy
import FoodFactory.Model.Ability
import FoodFactory.Service.JwtToken
import FoodFactory.Service.CreateOrder

/-!
# Requests and filters

What the controllers of `app/controllers` share: the request around an action, the
responses, and the filters that run before an action.

A filter that renders stops the request with that response, and so does an
exception; `Stop` is either. Filters only read. A request carries the
`Authorization` header, which `authenticate_user!` looks at, and the user stored in
its session, which is `current_user` as long as the row is there: the two are
independent inputs.

`load_and_authorize_resource` uses the record that a filter has set. Where none is set,
for `index` it authorizes the class, and for `create` a record that it builds from the
permitted parameters and the conditions of the ability.
-/

namespace FoodFactory

open Store Ruby

/-- The status of a response. -/
inductive Status where
  | ok
  | created
  | badRequest
  | unauthorized
  | forbidden
  | notFound
  | unprocessableEntity
  deriving DecidableEq

/-- An entry of the list of users. -/
structure UserData where
  id : ℕ
  name : String
  role : Option Role
  deriving DecidableEq

/-- An entry of the list of hotels. -/
structure HotelData where
  id : ℕ
  name : String
  userId : ℕ
  deriving DecidableEq

/-- An entry of the list of menus. -/
structure MenuData where
  menuId : ℕ
  name : String
  hotelId : ℕ
  details : Option String
  price : ℤ
  deriving DecidableEq

/-- What is rendered. -/
inductive Body where
  /-- `{ error: message }`. -/
  | error (message : String)
  /-- `{ errors: messages }`. -/
  | errors (messages : List String)
  /-- `{ errors: message }`. -/
  | errorsText (message : String)
  /-- `{ message: message }`. -/
  | message (message : String)
  /-- `{ status: { message: message } }`. -/
  | statusMessage (message : String)
  /-- `{ status: { code: code, message: message } }`. -/
  | codeMessage (code : ℕ) (message : String)
  /-- `{ status: status, message: message }`. -/
  | statusAndMessage (status : ℕ) (message : String)
  /-- `{ status: { code: code, message: message }, data: data }`, with the attributes of a user. -/
  | signedUp (code : ℕ) (message : String) (id : ℕ) (u : User)
  /-- `{ status: { code: code, message: message, data: data } }`, with the attributes of a user and a token. -/
  | loggedIn (code : ℕ) (message : String) (id : ℕ) (u : User) (jwt : String)
  /-- The errors of a record, by attribute. -/
  | recordErrors (errors : List ModelError)
  | user (id : ℕ) (u : User)
  /-- `{ message: message, user: user }`. -/
  | updatedUser (message : String) (id : ℕ) (u : User)
  | users (l : List UserData)
  | hotel (id : ℕ) (h : Hotel)
  | hotels (l : List HotelData)
  | menu (id : ℕ) (m : Menu)
  | menus (l : List MenuData)
  | order (id : ℕ) (o : Order)
  | orders (l : List (ℕ × Order))
  /-- `{ order: objectForOrder(result) }`. -/
  | createdOrder (orderId : ℕ) (status : String) (totalPrice : ℤ) (orderItems : List ReportedItem)
  | orderItems (l : List (ℕ × OrderItem))
  deriving DecidableEq

/-- A response. -/
structure Response where
  status : Status
  body : Body
  deriving DecidableEq

/-- Why a request does not come to the end of its action: a filter rendered, or an
exception was raised. -/
inductive Stop where
  | halt (r : Response)
  | raised (e : Exn)
  deriving DecidableEq

/-- What surrounds an action: the time, the `Authorization` header, and the id of the user
stored in the session. Devise also stores the salt of the user's password digest there, and
forgets the user when it has changed; digests are not modelled. -/
structure Ctx where
  now : ℕ
  authorization : Option String
  session : Option ℕ
  deriving DecidableEq

/-- `current_user`, with its id. -/
def currentUser (ctx : Ctx) (db : DB) : Option (ℕ × User) :=
  ctx.session.bind fun i => (db.users.find i).map fun u => (i, u)

theorem currentUser_eq_some {ctx : Ctx} {db : DB} {i : ℕ} {u : User} :
    currentUser ctx db = some (i, u) ↔ ctx.session = some i ∧ db.users.find i = some u := by
  simp only [currentUser, Option.bind_eq_some_iff, Option.map_eq_some_iff, Prod.mk.injEq]
  constructor
  · rintro ⟨j, hj, v, hv, rfl, rfl⟩
    exact ⟨hj, hv⟩
  · rintro ⟨hi, hu⟩
    exact ⟨i, hi, u, hu, rfl, rfl⟩

/-- A part of a request that an action requires: not there, there but not a hash, or there. -/
inductive Required (α : Type) where
  | missing
  | notHash
  | hash (a : α)
  deriving DecidableEq

/-- `params.require(key).permit(…)`. -/
def permitted {α : Type} (key : String) : Required α → Action DB Stop α
  | .missing => Action.throw (.raised (.parameterMissing key))
  | .notHash => Action.throw (.raised .noMethodError)
  | .hash a => pure a

/-- Let the exceptions of a model leave the request. -/
def raising {α : Type} (m : Action DB Exn α) : Action DB Stop α := m.mapError .raised

/-- A request with an accepted token, in a session that stores user `i`. -/
def sampleCtx (i : ℕ) : Ctx :=
  ⟨0, some ("Bearer " ++ JwtTokenService.encode Plain.env "id" i twentyFourHours), some i⟩

/-! ### Filters -/

/-- The row that a path parameter names: the parameter is cast to an integer. -/
def findParam {ρ : Type} (t : Table ρ) (param : String) : Option (ℕ × ρ) :=
  if blank param ∨ toI param < 0 then none
  else (t.find (toI param).toNat).map fun r => ((toI param).toNat, r)

/-- The token of a request: `request.headers['Authorization']&.split(' ')&.last`. -/
def Ctx.token (ctx : Ctx) : Option String := ctx.authorization.bind lastWord

/-- The token of the request is accepted: it is there and `JwtTokenService.decode` returns its payload. -/
def Authenticated (env : Env) (ctx : Ctx) (db : DB) : Prop :=
  ∃ t p, ctx.token = some t ∧ JwtTokenService.decode env db ctx.now t = some p

/-- `authenticate_user!`. The payload is not used. -/
def authenticateUser (env : Env) (ctx : Ctx) : Action DB Stop Unit := Action.read fun db =>
  match ctx.token with
  | none => .error (.halt ⟨.unauthorized, .error "Token is missing"⟩)
  | some t =>
      match JwtTokenService.decode env db ctx.now t with
      | none => .error (.halt ⟨.unauthorized, .error "Invalid or expired token"⟩)
      | some _ => .ok ()

/-- A filter that loads the row a path parameter names, or renders. -/
def load {ρ : Type} (t : DB → Table ρ) (param : String) (missing notFound : Response) : Action DB Stop (ℕ × ρ) :=
  Action.read fun db =>
    if blank param then .error (.halt missing)
    else
      match findParam (t db) param with
      | none => .error (.halt notFound)
      | some r => .ok r

/-- `set_user`. -/
def setUser (param : String) : Action DB Stop (ℕ × User) :=
  load DB.users param ⟨.badRequest, .error "User ID not provided"⟩ ⟨.notFound, .error "User not found"⟩

/-- `set_hotel`. A missing id is answered with the default status. -/
def setHotel (param : String) : Action DB Stop (ℕ × Hotel) :=
  load DB.hotels param ⟨.ok, .error "Hotel Id not provided"⟩ ⟨.notFound, .error "Hotel not found"⟩

/-- `set_menu`. -/
def setMenu (param : String) : Action DB Stop (ℕ × Menu) :=
  load DB.menus param ⟨.badRequest, .error "Menu Id not provided"⟩ ⟨.notFound, .error "Menu not found"⟩

/-- `set_order`: `Order.find_by(id: params[:id])`, with no check for a missing id. -/
def setOrder (param : String) : Action DB Stop (ℕ × Order) := Action.read fun db =>
  match findParam db.orders param with
  | none => .error (.halt ⟨.notFound, .error ("Order not found with id: " ++ param)⟩)
  | some r => .ok r

/-- `authorize!`. -/
def authorize (ctx : Ctx) (v : Verb) (s : Subject) : Action DB Stop Unit := Action.read fun db =>
  if can (currentUser ctx db) v s then .ok () else .error (.raised .accessDenied)

/-- The `user_id` that the ability's conditions give to a record built for `v`. -/
def attributesFor (u : Option (ℕ × User)) (v : Verb) (m : Model) : Option ℕ :=
  ((ability u).filter fun r => r.relevant v (.cls m)).findSome? Rule.userId

/-- Authorize the record that the library builds. -/
def authorizeBuilt (ctx : Ctx) (v : Verb) (m : Model) : Action DB Stop Unit := Action.read fun db =>
  let u := currentUser ctx db
  if can u v (.record m (attributesFor u v m)) then .ok () else .error (.raised .accessDenied)

/-! ### What the filters let pass -/

variable {env : Env} {ctx : Ctx} {db : DB}

theorem findParam_eq_some {ρ : Type} {t : Table ρ} {param : String} {i : ℕ} {r : ρ} :
    findParam t param = some (i, r) ↔ blank param = false ∧ toI param = i ∧ t.find i = some r := by
  unfold findParam
  split_ifs with h
  · constructor
    · intro hf
      cases hf
    · rintro ⟨hb, hi, -⟩
      rw [hb, hi] at h
      simp at h
      omega
  · simp only [not_or, Bool.not_eq_true, not_lt] at h
    simp only [Option.map_eq_some_iff, Prod.mk.injEq]
    constructor
    · rintro ⟨r', hr, hi, rfl⟩
      subst hi
      exact ⟨h.1, by omega, hr⟩
    · rintro ⟨-, hi, hr⟩
      have hn : (toI param).toNat = i := by omega
      exact ⟨r, hn ▸ hr, hn, rfl⟩

theorem findParam_find {ρ : Type} {t : Table ρ} {param : String} {i : ℕ} {r : ρ}
    (h : findParam t param = some (i, r)) : t.find i = some r := (findParam_eq_some.mp h).2.2

theorem filters_authenticateUser :
    (authenticateUser env ctx).Filters db fun _ => Authenticated env ctx db := by
  refine Action.Filters.read fun _ => ?_
  unfold Authenticated
  cases ht : ctx.token with
  | none => simp
  | some t => cases hd : JwtTokenService.decode env db ctx.now t <;> simp [hd]

theorem filters_load {ρ : Type} (t : DB → Table ρ) (param : String) (missing notFound : Response) :
    (load t param missing notFound).Filters db fun r => findParam (t db) param = some r := by
  refine Action.Filters.read fun r => ?_
  split_ifs with hb
  · simp [findParam, hb]
  · cases hf : findParam (t db) param <;> simp

theorem filters_setUser (param : String) : (setUser param).Filters db fun r => findParam db.users param = some r :=
  filters_load DB.users param _ _

theorem filters_setHotel (param : String) :
    (setHotel param).Filters db fun r => findParam db.hotels param = some r :=
  filters_load DB.hotels param _ _

theorem filters_setMenu (param : String) : (setMenu param).Filters db fun r => findParam db.menus param = some r :=
  filters_load DB.menus param _ _

theorem filters_setOrder (param : String) :
    (setOrder param).Filters db fun r => findParam db.orders param = some r := by
  refine Action.Filters.read fun r => ?_
  cases hf : findParam db.orders param <;> simp

theorem filters_authorize (v : Verb) (s : Subject) :
    (authorize ctx v s).Filters db fun _ => can (currentUser ctx db) v s = true := by
  refine Action.Filters.read fun _ => ?_
  split_ifs with hc <;> simp [hc]

theorem filters_authorizeBuilt (v : Verb) (m : Model) :
    (authorizeBuilt ctx v m).Filters db fun _ =>
      can (currentUser ctx db) v (.record m (attributesFor (currentUser ctx db) v m)) = true := by
  refine Action.Filters.read fun _ => ?_
  dsimp only
  split_ifs with hc <;> simp [hc]

theorem filters_permitted {α : Type} (key : String) (b : Required α) :
    (permitted key b).Filters db fun a => b = .hash a := by
  cases b with
  | missing => exact (Action.Filters.throw _ db).congr (by simp)
  | notHash => exact (Action.Filters.throw _ db).congr (by simp)
  | hash a => exact (Action.Filters.pure a db).congr (by simp)

end FoodFactory
