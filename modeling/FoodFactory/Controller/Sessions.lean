import FoodFactory.Controller.Basic

/-!
# The sessions controller

`app/controllers/users/sessions_controller.rb`: login and logout, with what they act on
besides the database. A `World` is the database, the clock, the user that each cookie
session stores, and how many token identifiers have been drawn.

A login stores the user in the session of the request and hands out a token; the two are
not connected afterwards. A logout empties the session of the request, whoever it stores,
and then revokes the token that the request presents, if that is acceptable.

`World.step` is one event: a login, a logout, a run of `rake jwt:clear_expired`, or some time
passing.
-/

namespace FoodFactory

open Store Ruby

/-- The state of the application. -/
structure World where
  db : DB
  /-- The time, in nanoseconds. -/
  now : ℕ
  /-- The user stored in each cookie session. -/
  sessions : ℕ → Option ℕ
  /-- How many values of `SecureRandom.uuid` have been used. -/
  drawn : ℕ

/-- What surrounds a request that comes with a session and an `Authorization` header. -/
def World.ctx (w : World) (session : ℕ) (authorization : Option String) : Ctx :=
  ⟨w.now, authorization, w.sessions session⟩

namespace SessionsController

/-- `params[:user]` of a login. -/
structure Credentials where
  email : Option String
  password : Option String
  deriving DecidableEq

/-- `User.find_by(email: email)`, and `valid_password?(password)`. -/
def authenticate (db : DB) (c : Credentials) : Option (ℕ × User) :=
  (db.users.rows.find? fun u => some u.2.email == c.email).filter fun u => some u.2.password == c.password

/-- The token of a login, and its payload. -/
def payload (env : Env) (w : World) (userId : ℕ) : Payload :=
  ⟨some userId, some (env.uuid w.drawn), some (toSeconds (w.now + twentyFourHours))⟩

/-- `JwtTokenService.encode(user_id: user.id)`. -/
def token (env : Env) (w : World) (userId : ℕ) : String :=
  JwtTokenService.encode env (env.uuid w.drawn) userId (w.now + twentyFourHours)

/-- `Users::SessionsController#create`. -/
def create (env : Env) (session : ℕ) : Required Credentials → Action World Exn Response
  | .missing => Action.throw .noMethodError
  | .notHash => Action.throw .typeError
  | .hash c => fun w =>
      match authenticate w.db c with
      | none => (.ok ⟨.unauthorized, .codeMessage 401 "Invalid email or password."⟩, w)
      | some (i, u) =>
          (.ok ⟨.ok, .loggedIn 200 "Logged in successfully." i u (token env w i)⟩,
            { w with sessions := Function.update w.sessions session (some i), drawn := w.drawn + 1 })

/-- `JwtBlacklist.create!(jti: decoded_token[:jti], exp: Time.at(decoded_token[:exp]))`. -/
def revoke (p : Payload) : Action DB Exn Unit :=
  match p.exp with
  | none => Action.throw .typeError
  | some e => JwtBlacklist.create p.jti (timeAt e)

/-- The payload of the token in the header, if `JwtTokenService.decode` returns it. -/
def decodedToken (env : Env) (db : DB) (now : ℕ) (authorization : Option String) : Option Payload :=
  (authorization.bind lastWord).bind fun t => JwtTokenService.decode env db now t

/-- `respond_to_on_destroy`. -/
def respondToOnDestroy (env : Env) (now : ℕ) (authorization : Option String) : Action DB Exn Response :=
  if present authorization then do
    let decoded ← Action.read fun db => .ok (decodedToken env db now authorization)
    match decoded with
    | some p => do
      revoke p
      pure ⟨.ok, .statusAndMessage 200 "Logged out successfully"⟩
    | none => pure ⟨.unauthorized, .statusAndMessage 401 "Invalid token or user already logged out."⟩
  else pure ⟨.unauthorized, .statusAndMessage 401 "Couldn't find an active session."⟩

/-- `Users::SessionsController#destroy`: the library signs out the session, and then responds. -/
def destroy (env : Env) (session : ℕ) (authorization : Option String) : Action World Exn Response := fun w =>
  let out := (respondToOnDestroy env w.now authorization).run w.db
  (out.1, { w with db := out.2, sessions := Function.update w.sessions session none })

/-! ### What they do -/

/-- A login finds a user that is there, with the email and the password that are given. -/
theorem find_of_authenticate {db : DB} {c : Credentials} {i : ℕ} {u : User} (h : authenticate db c = some (i, u)) :
    db.users.find i = some u ∧ c.email = some u.email ∧ c.password = some u.password := by
  rw [authenticate, Option.filter_eq_some_iff] at h
  have he : some u.email = c.email := by simpa using List.find?_some h.1
  have hp : some u.password = c.password := by simpa using h.2
  exact ⟨Table.find_eq_some.mpr (List.mem_of_find?_eq_some h.1), he.symm, hp.symm⟩

/-- The header of a logout presents token `t`. -/
def Presents (authorization : Option String) (t : String) : Prop :=
  present authorization = true ∧ authorization.bind lastWord = some t

/-- A logout that presents no acceptable token writes nothing. -/
theorem run_respondToOnDestroy_refused {env : Env} {now : ℕ} {authorization : Option String} {db : DB}
    (h : ∀ t, Presents authorization t → JwtTokenService.decode env db now t = none) :
    ∃ r, (respondToOnDestroy env now authorization).run db = (.ok r, db) := by
  unfold respondToOnDestroy
  split_ifs with hp
  · have hd : decodedToken env db now authorization = none := by
      unfold decodedToken
      cases ht : authorization.bind lastWord with
      | none => rfl
      | some t => exact h t ⟨hp, ht⟩
    refine ⟨⟨.unauthorized, .statusAndMessage 401 "Invalid token or user already logged out."⟩, ?_⟩
    rw [Action.run_get_bind, hd]
    rfl
  · exact ⟨_, rfl⟩

/-- A logout writes no users. -/
theorem respondToOnDestroy_users (env : Env) (now : ℕ) (authorization : Option String) (db : DB) :
    ((respondToOnDestroy env now authorization).run db).2.users = db.users := by
  have hrevoke (p : Payload) : ((revoke p).run db).2.users = db.users := by
    unfold revoke
    split
    · rfl
    · simp only [Action.run, JwtBlacklist.create]
      split_ifs <;> rfl
  unfold respondToOnDestroy
  split_ifs
  · rw [Action.run_get_bind]
    cases decodedToken env db now authorization with
    | none => rfl
    | some p =>
      dsimp only
      rw [Action.run_bind_state fun _ _ => rfl]
      exact hrevoke p
  · rfl

/-- A token that is accepted is not in the table. -/
theorem not_blacklisted_of_decode {env : Env} {now : ℕ} {db : DB} {t : String} {p : Payload}
    (h : JwtTokenService.decode env db now t = some p) : JwtTokenService.blacklisted db p.jti = false := by
  unfold JwtTokenService.decode at h
  split at h
  · cases h
  · split_ifs at h with hb
    cases h
    simpa using hb

/-- A logout that presents an acceptable token, with an identifier and an expiry, revokes it. -/
theorem run_respondToOnDestroy_accepted {env : Env} {now : ℕ} {authorization : Option String} {db : DB} {t j : String}
    {p : Payload} {e : ℕ} (hp : Presents authorization t) (hd : JwtTokenService.decode env db now t = some p)
    (hj : p.jti = some j) (hb : blank j = false) (he : p.exp = some e) :
    ∃ r, (respondToOnDestroy env now authorization).run db =
      (.ok r, { db with jwtBlacklists := db.jwtBlacklists.insert ⟨j, timeAt e⟩ }) := by
  have hdec : decodedToken env db now authorization = some p := by
    rw [decodedToken, hp.2]
    exact hd
  have hcreate : (revoke p).run db =
      (.ok (), { db with jwtBlacklists := db.jwtBlacklists.insert ⟨j, timeAt e⟩ }) := by
    have hnew := not_blacklisted_of_decode hd
    rw [hj] at hnew
    rw [revoke, he, hj]
    exact JwtBlacklist.run_create_ok hb hnew (timeAt e)
  unfold respondToOnDestroy
  refine ⟨⟨.ok, .statusAndMessage 200 "Logged out successfully"⟩, ?_⟩
  rw [if_pos hp.1, Action.run_get_bind, hdec]
  dsimp only
  rw [Action.run_bind_ok hcreate, Action.run_pure]

end SessionsController

open SessionsController

/-- What happens to the state of the application, apart from requests. -/
inductive AuthEvent where
  /-- A login, in a session. -/
  | login (session : ℕ) (body : Required Credentials)
  /-- A logout, in a session, with an `Authorization` header. -/
  | logout (session : ℕ) (authorization : Option String)
  /-- `rake jwt:clear_expired`. -/
  | clearExpired
  /-- Some time passes. -/
  | advance (d : ℕ)

/-- One event. -/
def World.step (env : Env) (w : World) : AuthEvent → World
  | .login session body => ((SessionsController.create env session body).run w).2
  | .logout session authorization => ((SessionsController.destroy env session authorization).run w).2
  | .clearExpired => { w with db := clearExpired w.now w.db }
  | .advance d => { w with now := w.now + d }

end FoodFactory
