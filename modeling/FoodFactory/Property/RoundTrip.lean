import FoodFactory.Model.WellFormed
import FoodFactory.Controller.Router
import FoodFactory.Property.Bearer

/-!
# Sign-up, then login

A sign-up downcases and strips the email address before it is stored, as the keys that
`config/initializers/devise.rb` names. The login of this application looks the address up
by a query of its own, as it was typed.

## What is proved

* `EmailsUnique.next`: no two users have one address, in every state that sign-ups,
  requests, destroys, logins and logouts lead to.
* `authenticate_of_find`: so a login with the stored address and the password of a user
  finds that user.
* `roundTrip_iff`: after a sign-up, whatever happens as long as the user's address and
  password stay, the user can log in with the address and the password that were typed,
  and with no other password, exactly when downcasing and stripping leave the address
  that was typed as it is.
* `not_roundTrip_mixedCase`: an address with capitals is stored in lower case, and the login
  with the address as it was typed is refused.
-/

namespace FoodFactory

open Store Ruby SessionsController RegistrationsController

/-! ### Email addresses -/

/-- The unique index on the email addresses of users. -/
def EmailsUnique (t : Table User) : Prop :=
  ∀ i j u v, t.find i = some u → t.find j = some v → u.email = v.email → i = j

variable {env : Env} {db : DB} {t : Table User} {u : User}

theorem emailTaken_eq_false {self : Option ℕ} {email : String} :
    emailTaken db self email = false ↔
      ∀ j v, db.users.find j = some v → some j ≠ self → v.email ≠ email := by
  simp only [emailTaken, List.any_eq_false, Prod.forall, ← Table.find_eq_some, Bool.and_eq_true, beq_iff_eq, bne_iff_ne]
  exact forall₃_congr fun j v _ => ⟨fun h hj he => h ⟨he, hj⟩, fun h ⟨he, hj⟩ => h hj he⟩

namespace EmailsUnique

theorem insert (h : EmailsUnique t) (hnew : ∀ j v, t.find j = some v → v.email ≠ u.email) :
    EmailsUnique (t.insert u) := by
  intro i j x y hx hy he
  rcases Table.find_insert_eq_some.mp hx with ⟨hi, rfl⟩ | hx'
  · rcases Table.find_insert_eq_some.mp hy with ⟨hj, -⟩ | hy'
    · rw [hi, hj]
    · exact absurd he.symm (hnew j y hy')
  · rcases Table.find_insert_eq_some.mp hy with ⟨-, rfl⟩ | hy'
    · exact absurd he (hnew i x hx')
    · exact h i j x y hx' hy' he

theorem set (h : EmailsUnique t) {k : ℕ} (hnew : ∀ j v, t.find j = some v → j ≠ k → v.email ≠ u.email) :
    EmailsUnique (t.set k u) := by
  intro i j x y hx hy he
  rw [Table.find_set] at hx hy
  split_ifs at hx hy with hi hj hj
  · rw [hi, hj]
  · obtain ⟨_, -, rfl⟩ := Option.map_eq_some_iff.mp hx
    exact absurd he.symm (hnew j y hy hj)
  · obtain ⟨_, -, rfl⟩ := Option.map_eq_some_iff.mp hy
    exact absurd he (hnew i x hx hi)
  · exact h i j x y hx hy he

theorem filter (h : EmailsUnique t) (p : ℕ → User → Bool) : EmailsUnique (t.filter p) :=
  fun i j x y hx hy he => h i j x y (Table.find_of_find_filter hx) (Table.find_of_find_filter hy) he

end EmailsUnique

/-- Events on the database keep the addresses unique. -/
theorem EmailsUnique.step (h : EmailsUnique db.users) (e : Event) : EmailsUnique (db.step env e).users := by
  cases e with
  | signUp body =>
    rcases step_signUp env db body with he | ⟨p, r, u, he⟩
    · rwa [he]
    · rw [he.state]
      exact h.insert fun j v hv => emailTaken_eq_false.mp (User.wellFormed_of_validateNew he.valid).2 j v hv (by simp)
  | request ctx req =>
    rcases (handle_effect env ctx req db).users with hs | ⟨id, body, i, u, u', -, hu⟩
    · exact hs ▸ h
    · obtain ⟨p, role, -, -, hv⟩ := hu.valid
      have hstate : db.step env (.request ctx req) = { db with users := db.users.set i u' } := hu.state
      rw [hstate]
      refine h.set fun j v hj hne => ?_
      by_cases he : u'.email = u.email
      · -- the address stays, and it was nobody else's
        rw [he]
        exact fun hv' => hne (h j i v u hj (findParam_find hu.path) hv')
      · exact emailTaken_eq_false.mp ((User.validateUpdate_columns hv).email he).2 j v hj (by simpa using hne)
  | destroyUser id =>
    rw [step_destroyUser]
    exact h.filter _

/-! ### What happens to the application -/

/-- An event on the database, or a login, a logout, a purge or some time passing. -/
inductive AppEvent where
  | database (e : Event)
  | auth (e : AuthEvent)

/-- One event. -/
def World.next (env : Env) (w : World) : AppEvent → World
  | .database e => { w with db := w.db.step env e }
  | .auth e => w.step env e

theorem EmailsUnique.next {w : World} (h : EmailsUnique w.db.users) (e : AppEvent) :
    EmailsUnique (w.next env e).db.users := by
  cases e with
  | database e => exact h.step e
  | auth e =>
    show EmailsUnique (w.step env e).db.users
    rwa [users_step]

/-- **In every state of a run, no two users have one address.** -/
theorem EmailsUnique.foldl {w : World} (h : EmailsUnique w.db.users) (es : List AppEvent) :
    EmailsUnique (es.foldl (World.next env) w).db.users :=
  (Run.free w es).inv (I := fun w => EmailsUnique w.db.users) (fun _ e h _ => h.next e) h

/-! ### Login -/

/-- A login with the address and the password of a user finds that user. -/
theorem authenticate_of_find {i : ℕ} (h : EmailsUnique db.users) (hu : db.users.find i = some u) (c : Option String) :
    authenticate db ⟨some u.email, c⟩ = if c = some u.password then some (i, u) else none := by
  have hfind : (db.users.rows.find? fun x => some x.2.email == some u.email) = some (i, u) := by
    have hsome : (db.users.rows.find? fun x => some x.2.email == some u.email).isSome := by
      rw [List.find?_isSome]
      exact ⟨_, Table.find_eq_some.mp hu, by simp⟩
    obtain ⟨⟨j, v⟩, hv⟩ := Option.isSome_iff_exists.mp hsome
    have hj := Table.find_eq_some.mpr (List.mem_of_find?_eq_some hv)
    have he : v.email = u.email := by simpa using List.find?_some hv
    obtain rfl := h j i v u hj hu he
    rw [hv, Option.some.inj (hj.symm.trans hu)]
  rw [authenticate, hfind]
  by_cases hc : c = some u.password
  · simp [hc]
  · have hne : ¬ some u.password = c := fun h => hc h.symm
    simp [hc, hne]

/-- **Login answers as it should**: with the address and the password, user `i` gets a token with their id, and with
the address and another password, or none, nobody does. -/
structure RoundTrip (env : Env) (w : World) (session : ℕ) (email password : String) (i : ℕ) : Prop where
  accepted : ∃ u t w', (SessionsController.create env session (.hash ⟨some email, some password⟩)).run w =
    (.ok ⟨.ok, .loggedIn 200 "Logged in successfully." i u t⟩, w') ∧
      ∃ p, p.userId = some i ∧ t = env.jwt.encode p env.secretKey
  refused : ∀ c, c ≠ some password → (SessionsController.create env session (.hash ⟨some email, c⟩)).run w =
    (.ok ⟨.unauthorized, .codeMessage 401 "Invalid email or password."⟩, w)

/-- For the stored address and password of a user, login answers as it should. -/
theorem roundTrip_of_find {w : World} {i : ℕ} (h : EmailsUnique w.db.users) (hu : w.db.users.find i = some u)
    (session : ℕ) : RoundTrip env w session u.email u.password i := by
  constructor
  · have hauth := authenticate_of_find h hu (some u.password)
    rw [if_pos rfl] at hauth
    refine ⟨u, token env w i,
      { w with sessions := Function.update w.sessions session (some i), drawn := w.drawn + 1 }, ?_,
      payload env w i, rfl, rfl⟩
    simp only [SessionsController.create, Action.run, hauth]
  · intro c hc
    have hauth := authenticate_of_find h hu c
    rw [if_neg hc] at hauth
    simp only [SessionsController.create, Action.run, hauth]

/-- A login that is answered with a user was made with the stored address of that user. -/
theorem RoundTrip.email_eq {w : World} {session i : ℕ} {email password : String}
    (h : RoundTrip env w session email password i) (hu : w.db.users.find i = some u) : u.email = email := by
  obtain ⟨v, t, w', hrun, -⟩ := h.accepted
  simp only [SessionsController.create, Action.run] at hrun
  cases hauth : authenticate w.db ⟨some email, some password⟩ with
  | none =>
    rw [hauth] at hrun
    cases hrun
  | some jx =>
    rw [hauth] at hrun
    obtain ⟨j, x⟩ := jx
    cases hrun
    obtain ⟨hfind, hemail, -⟩ := find_of_authenticate hauth
    obtain rfl : v = u := Option.some.inj (hfind.symm.trans hu)
    exact (Option.some.inj hemail).symm

/-- What is stored of the address and the password of a sign-up. -/
theorem stored_of_validateNew {p : UserParams} {role : Option Role} {confirmation : Option String}
    {email password : String} (h : User.validateNew env.downcase db p role confirmation = .ok u)
    (he : p.email = some (some email)) (hp : p.password = some (some password)) :
    u.email = normalizeEmail env.downcase email ∧ u.password = password := by
  obtain ⟨-, rfl⟩ := validated_eq_ok.mp h
  rw [he, hp]
  exact ⟨rfl, rfl⟩

/-- **The round trip**: user `i` signs up with an address and a password. In a later state in which the stored address
and password are those of the sign-up, login with the address and the password that were typed answers as it should
exactly when downcasing and stripping do not change the address. -/
theorem roundTrip_iff {w : World} (hunique : EmailsUnique w.db.users) {q : SignUpParams} {email password : String}
    (hemail : q.email = some (some email)) (hpassword : q.password = some (some password)) {i : ℕ} {db' : DB}
    (hsign : (RegistrationsController.create env (.hash q)).run w.db =
      (.ok ⟨.ok, .signedUp 200 "Signed up successfully." i u⟩, db'))
    (es : List AppEvent) {v : User} (hv : (es.foldl (World.next env) { w with db := db' }).db.users.find i = some v)
    (hsame : v.email = u.email ∧ v.password = u.password) (session : ℕ) :
    RoundTrip env (es.foldl (World.next env) { w with db := db' }) session email password i ↔
      normalizeEmail env.downcase email = email := by
  obtain ⟨-, p, r, hs⟩ := signsUp_of_run hsign
  cases hs.body
  obtain ⟨hue, hup⟩ := stored_of_validateNew hs.valid hemail hpassword
  constructor
  · intro h
    rw [← hue, ← hsame.1]
    exact h.email_eq hv
  · intro hnorm
    have hdb' : EmailsUnique db'.users := by
      rw [hs.state]
      exact hunique.insert fun j x hx => emailTaken_eq_false.mp (User.wellFormed_of_validateNew hs.valid).2 j x hx (by simp)
    have h := @roundTrip_of_find env v _ i (EmailsUnique.foldl (w := { w with db := db' }) hdb' es) hv session
    rwa [hsame.1, hsame.2, hue, hup, hnorm] at h

/-- An environment that downcases letters. -/
def lowerCaseEnv : Env := { Plain.env with downcase := fun s => String.ofList (s.toList.map Char.toLower) }

/-- A client's sign-up with an address. -/
def clientSignUp (email : String) : SignUpParams :=
  ⟨⟨some (some "Client"), some (some email), some (some "password"), some (.str "client")⟩, none⟩

/-- The client, as stored. -/
def storedClient : User := ⟨"Client", some .client, "client@mail.com", "password"⟩

/-- The client has signed up, and nothing else has happened. -/
def clientWorld (now : ℕ) : World :=
  ⟨{ DB.empty with users := DB.empty.users.insert storedClient }, now, fun _ => none, 0⟩

/-- Whether typed with capitals or without, the address is stored without. -/
theorem run_clientSignUp (email : String) (h : email = "client@mail.com" ∨ email = "Client@Mail.com") :
    (RegistrationsController.create lowerCaseEnv (.hash (clientSignUp email))).run DB.empty =
      (.ok ⟨.ok, .signedUp 200 "Signed up successfully." 1 storedClient⟩, (clientWorld 0).db) := by
  rcases h with rfl | rfl <;> decide +kernel

/-- A client signs up in lower case, some time passes, and the client can log in. -/
theorem roundTrip_lowerCase : RoundTrip lowerCaseEnv (clientWorld 5) 0 "client@mail.com" "password" 1 :=
  (@roundTrip_iff lowerCaseEnv storedClient ⟨DB.empty, 0, fun _ => none, 0⟩ (by intro i j u v hu; cases hu)
    (clientSignUp "client@mail.com") "client@mail.com" "password" rfl rfl 1 (clientWorld 0).db
    (run_clientSignUp _ (.inl rfl)) [.auth (.advance 5)] storedClient (by decide +kernel) ⟨rfl, rfl⟩ 0).mpr
    (by decide +kernel)

/-- A client signs up as `Client@Mail.com`, and the login with that address and the password is refused. -/
theorem not_roundTrip_mixedCase :
    (RegistrationsController.create lowerCaseEnv (.hash (clientSignUp "Client@Mail.com"))).run DB.empty =
        (.ok ⟨.ok, .signedUp 200 "Signed up successfully." 1 storedClient⟩, (clientWorld 0).db) ∧
      ((SessionsController.create lowerCaseEnv 0 (.hash ⟨some "Client@Mail.com", some "password"⟩)).run
        (clientWorld 0)).1 = .ok ⟨.unauthorized, .codeMessage 401 "Invalid email or password."⟩ ∧
      ¬ RoundTrip lowerCaseEnv (clientWorld 0) 0 "Client@Mail.com" "password" 1 := by
  refine ⟨run_clientSignUp _ (.inr rfl), by decide +kernel, fun h => ?_⟩
  exact absurd (h.email_eq (u := storedClient) rfl) (by decide)

end FoodFactory
