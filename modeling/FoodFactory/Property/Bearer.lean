import FoodFactory.Property.Revocation

/-!
# On whose behalf a request acts

A login establishes two credentials: it stores the user in the cookie session of its
request, and it hands out a token with the user's id. `authenticate_user!` decodes the token
of a request and drops what it decodes; `current_user` is the user stored in the session.
So the token decides whether a request acts, and the session decides for whom.

## What is proved

* `sessions_eq_some_iff`: a session stores user `v` exactly when the last login or logout in
  it was a login of `v`.
* `tokenDecides_iff`: so a request with an accepted token of user `v` acts for `v` exactly
  when the last login or logout in its session was a login of `v`.
* `token_of_other_session`: two users log in, in one session; the token of the first acts
  for the second, and, in a session of its own, for nobody.
-/

namespace FoodFactory

open Store Ruby SessionsController

variable {env : Env} {w₀ w : World} {es : List AuthEvent} {session v : ℕ}

/-- The event is a login of user `v`, in the session. -/
def SignsIn (session v : ℕ) (w : World) (e : AuthEvent) : Prop :=
  ∃ c u, e = .login session (.hash c) ∧ authenticate w.db c = some (v, u)

/-- The event is a login that succeeds, or a logout, in the session. -/
def Touches (session : ℕ) (w : World) (e : AuthEvent) : Prop :=
  (∃ v, SignsIn session v w e) ∨ ∃ authorization, e = .logout session authorization

/-- The last login or logout in the session was a login of user `v`. -/
abbrev LastSignedIn (env : Env) (w₀ : World) (es : List AuthEvent) (session v : ℕ) : Prop :=
  Since (World.step env) w₀ es (SignsIn session v) (Touches session)

/-! ### Sessions -/

/-- An event that does not touch a session. -/
theorem sessions_step_of_not_touches {e : AuthEvent} (h : ¬ Touches session w e) :
    (w.step env e).sessions session = w.sessions session := by
  cases e with
  | login s body =>
    cases body with
    | missing => rfl
    | notHash => rfl
    | hash c =>
      cases hauth : authenticate w.db c with
      | none => rw [step_login_none hauth]
      | some iu =>
        have hs : session ≠ s := by
          rintro rfl
          exact h (.inl ⟨iu.1, c, iu.2, rfl, hauth⟩)
        rw [step_login_some hauth]
        exact Function.update_of_ne hs _ _
  | logout s authorization =>
    have hs : session ≠ s := by
      rintro rfl
      exact h (.inr ⟨authorization, rfl⟩)
    exact Function.update_of_ne hs _ _
  | clearExpired => rfl
  | advance d => rfl

/-- What an event does to a session. -/
theorem sessions_step (w : World) (e : AuthEvent) (session v : ℕ) :
    (w.step env e).sessions session = some v ↔
      SignsIn session v w e ∨ (w.sessions session = some v ∧ ¬ Touches session w e) := by
  by_cases ht : Touches session w e
  · simp only [ht, not_true, and_false, or_false]
    rcases ht with ⟨i, c, u, rfl, hauth⟩ | ⟨authorization, rfl⟩
    · rw [step_login_some hauth]
      show Function.update w.sessions session (some i) session = some v ↔ _
      rw [Function.update_self, Option.some.injEq]
      constructor
      · rintro rfl
        exact ⟨c, u, rfl, hauth⟩
      · rintro ⟨c', u', he, hauth'⟩
        cases he
        cases hauth.symm.trans hauth'
        rfl
    · constructor
      · intro h
        have hnone : Function.update w.sessions session none session = some v := h
        rw [Function.update_self] at hnone
        cases hnone
      · rintro ⟨c, u, he, -⟩
        cases he
  · rw [sessions_step_of_not_touches ht]
    constructor
    · intro h
      exact .inr ⟨h, ht⟩
    · rintro (h | h)
      · exact absurd (.inl ⟨v, h⟩) ht
      · exact h.1

/-- Logins, logouts, purges and time leave the users as they are. -/
theorem users_step (w : World) (e : AuthEvent) : (w.step env e).db.users = w.db.users := by
  cases e with
  | login session body =>
    cases body with
    | missing => rfl
    | notHash => rfl
    | hash c =>
      cases h : authenticate w.db c with
      | none => rw [step_login_none h]
      | some iu => rw [step_login_some h]
  | logout session authorization => exact respondToOnDestroy_users env w.now authorization w.db
  | clearExpired => rfl
  | advance d => rfl

theorem users_foldl (w₀ : World) (es : List AuthEvent) : (es.foldl (World.step env) w₀).db.users = w₀.db.users := by
  induction es generalizing w₀ with
  | nil => rfl
  | cons e es ih => rw [List.foldl_cons, ih, users_step]

/-- **What a session stores**: user `v`, exactly when the last login or logout in it was a login of `v`. -/
theorem sessions_eq_some_iff (h₀ : w₀.sessions session = none) (es : List AuthEvent) :
    (es.foldl (World.step env) w₀).sessions session = some v ↔ LastSignedIn env w₀ es session v := by
  induction es using List.reverseRecOn with
  | nil => simp [h₀, LastSignedIn, Since.not_nil]
  | append_singleton es e ih =>
    rw [List.foldl_append, LastSignedIn, Since.concat_iff]
    exact (sessions_step _ e session v).trans (or_congr_right (and_congr_left fun _ => ih))

/-! ### Requests -/

/-- The current user of a request is user `v` exactly when the last login or logout in its session was a login of
`v`. -/
theorem currentUser_iff (h₀ : w₀.sessions session = none) (es : List AuthEvent) (authorization : Option String) :
    (∃ u, currentUser ((es.foldl (World.step env) w₀).ctx session authorization)
      (es.foldl (World.step env) w₀).db = some (v, u)) ↔ LastSignedIn env w₀ es session v := by
  simp only [currentUser_eq_some, World.ctx, sessions_eq_some_iff h₀]
  constructor
  · rintro ⟨u, h, -⟩
    exact h
  · intro h
    obtain ⟨es₁, e, es₂, rfl, ⟨c, u, -, hauth⟩, -⟩ := id h
    refine ⟨u, h, ?_⟩
    rw [users_foldl, ← @users_foldl env w₀ es₁]
    exact (find_of_authenticate hauth).1

/-- **The token decides who acts**, at the end of the run `es`: a request in the session, whose header has a token
that is accepted and was issued in the run to user `v`, acts for `v`. -/
def TokenDecides (env : Env) (w₀ : World) (es : List AuthEvent) (session : ℕ) (authorization : Option String) : Prop :=
  let w := es.foldl (World.step env) w₀
  ∀ t p v, IssuedIn env w₀ es t p → p.userId = some v → (w.ctx session authorization).token = some t →
    (JwtTokenService.decode env w.db w.now t).isSome →
      ∃ u, currentUser (w.ctx session authorization) w.db = some (v, u)

/-- **Who acts**: starting with empty sessions, the token decides exactly when its user was the last to log in, in the
session of the request, with no logout since. -/
theorem tokenDecides_iff (env : Env) (db : DB) (now drawn : ℕ) (es : List AuthEvent) (session : ℕ)
    (authorization : Option String) :
    TokenDecides env ⟨db, now, fun _ => none, drawn⟩ es session authorization ↔
      ∀ t p v, IssuedIn env ⟨db, now, fun _ => none, drawn⟩ es t p → p.userId = some v →
        authorization.bind lastWord = some t →
        (JwtTokenService.decode env (es.foldl (World.step env) ⟨db, now, fun _ => none, drawn⟩).db
          (es.foldl (World.step env) ⟨db, now, fun _ => none, drawn⟩).now t).isSome →
        LastSignedIn env ⟨db, now, fun _ => none, drawn⟩ es session v := by
  unfold TokenDecides
  simp only [@currentUser_iff _ ⟨db, now, fun _ => none, drawn⟩ _ _ rfl]
  rfl

/-- The client and the owner log in, both in session `0`. -/
def twoLogins : List AuthEvent :=
  [.login 0 (.hash ⟨some "client@mail.com", some "password"⟩),
    .login 0 (.hash ⟨some "owner@mail.com", some "password"⟩)]

/-- With the client's token, a request in session `0` acts for the owner, and one in session `1` for nobody. -/
theorem token_of_other_session :
    ¬ TokenDecides Plain.env sampleWorld twoLogins 0 (some ("Bearer " ++ token Plain.env sampleWorld 1)) ∧
      ¬ TokenDecides Plain.env sampleWorld twoLogins 1 (some ("Bearer " ++ token Plain.env sampleWorld 1)) := by
  have hissued : IssuedIn Plain.env sampleWorld twoLogins (token Plain.env sampleWorld 1)
      (payload Plain.env sampleWorld 1) := ⟨[], _, _, rfl, issues_login⟩
  constructor
  · intro h
    obtain ⟨u, hu⟩ := h _ _ 1 hissued rfl presents_token.2 (by decide +kernel)
    have h2 := (currentUser_eq_some.mp hu).1
    exact absurd h2 (by decide +kernel)
  · intro h
    obtain ⟨u, hu⟩ := h _ _ 1 hissued rfl presents_token.2 (by decide +kernel)
    have h2 := (currentUser_eq_some.mp hu).1
    exact absurd h2 (by decide +kernel)

end FoodFactory
