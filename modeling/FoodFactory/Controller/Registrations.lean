import FoodFactory.Controller.Basic

/-!
# The registrations controller

`app/controllers/users/registrations_controller.rb`: sign-up. `validate_role` runs before
the `create` of the authentication library, which builds a user from the permitted keys
(email, password, confirmation, name and role), saves it and signs it in.

`validate_role` lets exactly the keys `client` and `hotel_owner` pass, so a sign-up stores
no admin (`leaves_create`).
-/

namespace FoodFactory

open Store Ruby

namespace RegistrationsController

/-- The permitted parameters of a sign-up. -/
structure SignUpParams extends UserParams where
  passwordConfirmation : Option (Option String) := none
  deriving DecidableEq

/-- The role whose key `role.to_s` is. Of a number, a boolean or `nil` it is none. -/
def roleKey : Scalar → Option Role
  | .str s => Role.ofKey? s
  | _ => none

/-- `validate_role`. Where there is no hash, `params[:user][:role]` raises. -/
def validateRole (env : Env) : Required SignUpParams → Action DB Stop Unit
  | .missing => Action.throw (.raised .noMethodError)
  | .notHash => Action.throw (.raised .typeError)
  | .hash p =>
      let role := p.role.getD .nil
      match roleKey role with
      | none =>
          Action.throw (.halt ⟨.unprocessableEntity, .statusMessage ("Invalid role: " ++ role.toS env.floatToS)⟩)
      | some r =>
          if r = .admin then
            Action.throw (.halt ⟨.forbidden, .statusMessage "Admin role cannot be assigned through registration."⟩)
          else pure ()

/-- `Array#to_sentence`. -/
def toSentence : List String → String
  | [] => ""
  | [a] => a
  | [a, b] => a ++ " and " ++ b
  | l => String.intercalate ", " l.dropLast ++ ", and " ++ l.getLast?.getD ""

/-- `respond_with`. No validation of the model gives the error on `role` that the first branch
of the source looks for, so a stored user is answered with success. -/
def respondWith : Except (List ModelError) (ℕ × User) → Response
  | .ok u => ⟨.ok, .signedUp 200 "Signed up successfully." u.1 u.2⟩
  | .error es =>
      let sentence := toSentence (es.map ModelError.fullMessage)
      if es.any fun e => e.attr == .role then
        ⟨.unprocessableEntity, .statusMessage ("User couldn't be created: " ++ sentence)⟩
      else ⟨.unprocessableEntity, .statusMessage ("User couldn't be created successfully. " ++ sentence)⟩

/-- `build_resource(sign_up_params)` and `resource.save`. -/
def buildAndSave (env : Env) (p : SignUpParams) : Action DB Stop (Except (List ModelError) (ℕ × User)) := do
  let role ← Action.read fun _ => (castRole (p.role.getD .nil)).mapError Stop.raised
  raising (User.save env.downcase p.toUserParams role p.passwordConfirmation.join)

/-- `Users::RegistrationsController#create`. -/
def create (env : Env) (body : Required SignUpParams) : Action DB Stop Response := do
  validateRole env body
  let p ← permitted "user" body
  let saved ← buildAndSave env p
  pure (respondWith saved)

/-! ### What a sign-up does -/

variable {env : Env} {body : Required SignUpParams} {db : DB}

/-- What `validate_role` lets pass: the key of a role other than admin. -/
theorem filters_validateRole :
    (validateRole env body).Filters db fun _ =>
      ∃ p r, body = .hash p ∧ roleKey (p.role.getD .nil) = some r ∧ r ≠ .admin := by
  match body with
  | .missing => exact (Action.Filters.throw _ db).congr (by simp)
  | .notHash => exact (Action.Filters.throw _ db).congr (by simp)
  | .hash p =>
    unfold validateRole
    dsimp only
    cases hr : roleKey (p.role.getD .nil) with
    | none => exact (Action.Filters.throw _ db).congr (by simp [hr])
    | some r =>
      dsimp only
      split_ifs with ha
      · exact (Action.Filters.throw _ db).congr (by simp [hr, ha])
      · exact (Action.Filters.pure () db).congr (by simp [hr, ha])

/-- A role's key is assigned as that role. -/
theorem castRole_of_roleKey {x : Scalar} {r : Role} (h : roleKey x = some r) : castRole x = .ok (some r) := by
  cases x with
  | str s => rw [castRole, show Role.ofKey? s = some r from h]
  | nil => cases h
  | int n => cases h
  | flt x => cases h
  | bool b => cases h

/-- What an accepted sign-up does: a new user, with the role that the request names, which is not admin. -/
structure SignsUp (env : Env) (body : Required SignUpParams) (db db' : DB) (p : SignUpParams) (r : Role) (u : User) :
    Prop where
  body : body = .hash p
  role : roleKey (p.role.getD .nil) = some r
  notAdmin : r ≠ .admin
  valid : User.validateNew env.downcase db p.toUserParams (some r) p.passwordConfirmation.join = .ok u
  state : db' = { db with users := db.users.insert u }

theorem leaves_create :
    (create env body).Leaves db fun db' => ∃ p r u, SignsUp env body db db' p r u := by
  refine Action.Leaves.congr (filters_validateRole.leaves fun _ _ => (filters_permitted "user" body).leaves fun p _ =>
    Action.Leaves.bind (Action.Filters.leaves (P := fun role => castRole (p.role.getD .nil) = .ok role)
      (Action.Filters.read fun role => ?_) fun role _ =>
        (User.leaves_save env.downcase p.toUserParams role p.passwordConfirmation.join db).mapError _)
      fun _ _ => rfl) fun db' => ?_
  · cases castRole (p.role.getD .nil) <;> simp [Except.mapError]
  · constructor
    · rintro ⟨-, ⟨p', r, hb, hr, ha⟩, p, hp, role, hrole, u, hv, hdb⟩
      obtain rfl : p' = p := Required.hash.inj (hb.symm.trans hp)
      rw [castRole_of_roleKey hr] at hrole
      cases hrole
      exact ⟨p', r, u, hb, hr, ha, hv, hdb⟩
    · rintro ⟨p, r, u, hb, hr, ha, hv, hdb⟩
      exact ⟨(), ⟨p, r, hb, hr, ha⟩, p, hb, some r, castRole_of_roleKey hr, u, hv, hdb⟩

/-- Whatever the errors are, the answer to a refused sign-up is not that of a stored user. -/
theorem respondWith_error_ne (es : List ModelError) (i : ℕ) (u : User) :
    respondWith (.error es) ≠ ⟨.ok, .signedUp 200 "Signed up successfully." i u⟩ := by
  rw [respondWith]
  split_ifs <;> simp

/-- A sign-up that is answered with a user has stored it, under the next id. -/
theorem signsUp_of_run {db' : DB} {i : ℕ} {u : User}
    (h : (create env body).run db = (.ok ⟨.ok, .signedUp 200 "Signed up successfully." i u⟩, db')) :
    i = db.users.next ∧ ∃ p r, SignsUp env body db db' p r u := by
  unfold create at h
  rcases (@filters_validateRole env body db).run_cases with ⟨_, ⟨p, r, rfl, hr, ha⟩, hrun⟩ | ⟨-, e, hrun⟩
  · have hsave : (buildAndSave env p).run db =
        (raising (User.save env.downcase p.toUserParams (some r) p.passwordConfirmation.join)).run db :=
      Action.run_read_bind (by rw [castRole_of_roleKey hr]; rfl)
    rw [Action.run_bind_ok hrun, permitted, Action.run_bind_ok (Action.run_pure p db), Action.run_bind, hsave, raising,
      Action.run_mapError] at h
    cases hv : User.validateNew env.downcase db p.toUserParams (some r) p.passwordConfirmation.join with
    | error es =>
      rw [User.run_save_error hv] at h
      exact absurd (Except.ok.inj (congrArg Prod.fst h)) (respondWith_error_ne es i u)
    | ok u' =>
      rw [User.run_save_ok hv] at h
      cases h
      exact ⟨rfl, p, r, rfl, hr, ha, hv, rfl⟩
  · rw [Action.run_bind_error hrun] at h
    cases h

end RegistrationsController

end FoodFactory
