import FoodFactory.Controller.Basic

/-!
# The users controller

`app/controllers/users_controller.rb`. `index` lists all users, to an admin; `show`
renders any user; `update` changes a user's name, email, password and role, when the
user that the path names is the one logged in.
-/

namespace FoodFactory

open Store

/-- `current_user`, in an action that calls a method on it. -/
def requireCurrentUser (ctx : Ctx) : Action DB Stop (ℕ × User) := Action.read fun db =>
  match currentUser ctx db with
  | none => .error (.raised .noMethodError)
  | some u => .ok u

theorem filters_requireCurrentUser {ctx : Ctx} {db : DB} :
    (requireCurrentUser ctx).Filters db fun u => currentUser ctx db = some u := by
  refine Action.Filters.read fun u => ?_
  cases h : currentUser ctx db <;> simp

namespace UsersController

/-- `all_users_data`. -/
def allUsersData (db : DB) : List UserData := db.users.rows.map fun u => ⟨u.1, u.2.name, u.2.role⟩

/-- `UsersController#index`. -/
def index (env : Env) (ctx : Ctx) : Action DB Stop Response := do
  authenticateUser env ctx
  authorize ctx .index (.cls .user)
  let current ← requireCurrentUser ctx
  Action.read fun db =>
    if current.2.role = some .admin then .ok ⟨.ok, .users (allUsersData db)⟩
    else .ok ⟨.unprocessableEntity, .errorsText "Only admin can access this routes"⟩

/-- `UsersController#show`. -/
def «show» (env : Env) (ctx : Ctx) (id : String) : Action DB Stop Response := do
  authenticateUser env ctx
  let user ← setUser id
  authorize ctx .show (.record .user none)
  pure ⟨.ok, .user user.1 user.2⟩

/-- The branch of `UsersController#update` for one's own profile. -/
def updateProfile (env : Env) (user : ℕ × User) (body : Required UserParams) : Action DB Stop Response := do
  let userParams ← permitted "user" body
  let r ← raising (User.update env.downcase user.1 user.2 userParams)
  match r with
  | .ok u => pure ⟨.ok, .updatedUser "user updated successfully" user.1 u⟩
  | .error es => pure ⟨.unprocessableEntity, .errors (es.map ModelError.fullMessage)⟩

/-- `UsersController#update`. -/
def update (env : Env) (ctx : Ctx) (id : String) (body : Required UserParams) : Action DB Stop Response := do
  authenticateUser env ctx
  let user ← setUser id
  authorize ctx .update (.record .user none)
  let current ← requireCurrentUser ctx
  if user.1 = current.1 then updateProfile env user body
  else pure ⟨.forbidden, .message "You can only edit only your profile not others"⟩

/-- The values of a request, accepted for user `u` under id `i`, make it `u'`. -/
def Accepts (env : Env) (body : Required UserParams) (db : DB) (i : ℕ) (u u' : User) : Prop :=
  ∃ p role, body = .hash p ∧ p.roleFor u = .ok role ∧ User.validateUpdate env.downcase db i u p role = .ok u'

/-- What an accepted update does: the user that is logged in and that the path names gets
the values of the request. -/
structure Updates (env : Env) (ctx : Ctx) (id : String) (body : Required UserParams) (db db' : DB) (i : ℕ)
    (u u' : User) : Prop where
  auth : Authenticated env ctx db
  path : findParam db.users id = some (i, u)
  can : can (currentUser ctx db) .update (.record .user none) = true
  current : currentUser ctx db = some (i, u)
  valid : Accepts env body db i u u'
  state : db' = { db with users := db.users.set i u' }

variable {env : Env} {ctx : Ctx} {id : String} {body : Required UserParams} {db : DB}

theorem leaves_updateProfile {user : ℕ × User} (h : db.users.find user.1 = some user.2) :
    (updateProfile env user body).Leaves db fun db' =>
      ∃ u', Accepts env body db user.1 user.2 u' ∧ db' = { db with users := db.users.set user.1 u' } := by
  refine Action.Leaves.congr ((filters_permitted "user" body).leaves fun p _ =>
    ((User.leaves_update env.downcase p h).mapError _).bind fun r _ => by cases r <;> rfl) fun db' => ?_
  constructor
  · rintro ⟨p, hp, role, u', hrole, hv, hdb⟩
    exact ⟨u', ⟨p, role, hp, hrole, hv⟩, hdb⟩
  · rintro ⟨u', ⟨p, role, hp, hrole, hv⟩, hdb⟩
    exact ⟨p, hp, role, u', hrole, hv, hdb⟩

theorem leaves_update :
    (update env ctx id body).Leaves db fun db' => ∃ i u u', Updates env ctx id body db db' i u u' := by
  refine Action.Leaves.congr (filters_authenticateUser.leaves fun _ _ => (filters_setUser id).leaves fun user huser =>
    (filters_authorize .update (.record .user none)).leaves fun _ _ => filters_requireCurrentUser.leaves
      (Q := fun current db' => user.1 = current.1 ∧
        ∃ u', Accepts env body db user.1 user.2 u' ∧ db' = { db with users := db.users.set user.1 u' })
      fun current _ => ?_) fun db' => ?_
  · split_ifs with hi
    · exact (leaves_updateProfile (findParam_find huser)).congr fun _ => by simp [hi]
    · exact (Action.Filters.pure _ db).leaves_nothing.congr fun _ => by simp [hi]
  · constructor
    · rintro ⟨-, hauth, ⟨i, u⟩, huser, -, hcan, ⟨j, v⟩, hcur, hij, u', hv, hdb⟩
      obtain rfl : i = j := hij
      -- the row that the path names is the row of the current user
      obtain rfl : v = u := by
        have h := findParam_find huser
        rw [(currentUser_eq_some.mp hcur).2] at h
        exact Option.some.inj h
      exact ⟨i, v, u', hauth, huser, hcan, hcur, hv, hdb⟩
    · rintro ⟨i, u, u', h⟩
      exact ⟨(), h.auth, (i, u), h.path, (), h.can, (i, u), h.current, rfl, u', h.valid, h.state⟩

/-- Listing users writes nothing. -/
theorem index_state : ((index env ctx).run db).2 = db := by
  refine (filters_authenticateUser.bind fun _ _ => (filters_authorize .index (.cls .user)).bind fun _ _ =>
    filters_requireCurrentUser.bind fun current _ => Action.Filters.read fun r => Iff.rfl).1

/-- Showing a user writes nothing. -/
theorem show_state : ((«show» env ctx id).run db).2 = db :=
  (filters_authenticateUser.bind fun _ _ => (filters_setUser id).bind fun _ _ =>
    (filters_authorize .show (.record .user none)).bind fun _ _ => Action.Filters.pure _ db).1

end UsersController

end FoodFactory
