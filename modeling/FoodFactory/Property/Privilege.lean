import FoodFactory.Store.Run
import FoodFactory.Controller.Router

/-!
# Who becomes an admin

A role is written in two places. Sign-up goes through `validate_role`, which refuses the
admin role. `UsersController#update` permits `:role` among the values a user may set of
their own profile, and nothing checks which role that is.

## What is proved

For runs in which no request is made by an admin:

* `Admins.step_iff`: an event makes no new admin exactly when it is not an update by which
  a user gives themselves the admin role (`Promotes`).
* `no_new_admins_iff`: so no state of a run has an admin that was none at the start,
  exactly when no step of the run is such an update. In particular sign-ups, and the
  other requests, make no admin.
* `client_becomes_admin`: such an update.
-/

namespace FoodFactory

open Store

/-- User `i` is there and is an admin. -/
def IsAdmin (db : DB) (i : ℕ) : Prop := ∃ u, db.users.find i = some u ∧ u.role = some .admin

/-- The event is not a request of an admin. -/
def NotByAdmin (db : DB) : Event → Prop
  | .request ctx _ => ∀ i u, currentUser ctx db = some (i, u) → u.role ≠ some .admin
  | _ => True

/-- The event is an update by which the user who is logged in, and who may update users, sets their own role to
admin, with values that are valid. -/
def Promotes (env : Env) (db : DB) : Event → Prop
  | .request ctx (.usersUpdate id body) => Authenticated env ctx db ∧ ∃ i u p x,
      currentUser ctx db = some (i, u) ∧ findParam db.users id = some (i, u) ∧
      can (currentUser ctx db) .update (.record .user none) = true ∧
      body = .hash p ∧ p.role = some x ∧ castRole x = .ok (some .admin) ∧
      ∃ u', User.validateUpdate env.downcase db i u p (some .admin) = .ok u'
  | _ => False

/-- The admins are among those of `db₀`. -/
def Admins (db₀ db : DB) : Prop := ∀ i, IsAdmin db i → IsAdmin db₀ i

/-- The admins of `db₀` that are still there are still admins, and no id was given back. -/
structure KeepsAdmins (db₀ db : DB) : Prop where
  next : db₀.users.next ≤ db.users.next
  admin : ∀ i, IsAdmin db₀ i → db.users.Has i → IsAdmin db i

variable {env : Env} {ctx : Ctx} {db₀ db db' : DB}

theorem IsAdmin.congr (h : db'.users = db.users) {i : ℕ} : IsAdmin db' i ↔ IsAdmin db i := by
  rw [IsAdmin, IsAdmin, h]

/-- The record of an admin says so. -/
theorem IsAdmin.role {i : ℕ} {u : User} (h : IsAdmin db i) (hu : db.users.find i = some u) : u.role = some .admin := by
  obtain ⟨v, hv, hrole⟩ := h
  cases hv.symm.trans hu
  exact hrole

/-- Who is an admin after a user was changed. -/
theorem isAdmin_set {i j : ℕ} {u : User} (hi : db.users.Has i) :
    IsAdmin { db with users := db.users.set i u } j ↔ if j = i then u.role = some .admin else IsAdmin db j := by
  obtain ⟨v, hv⟩ := Table.has_iff.mp hi
  simp only [IsAdmin, Table.find_set]
  split_ifs with hj
  · subst hj
    simp [hv]
  · rfl

/-- Who is an admin after a user was added. -/
theorem isAdmin_insert {j : ℕ} {u : User} :
    IsAdmin { db with users := db.users.insert u } j ↔
      if j = db.users.next then u.role = some .admin else IsAdmin db j := by
  simp only [IsAdmin, Table.find_insert]
  split_ifs <;> simp

theorem isAdmin_dropUser {i j : ℕ} : IsAdmin (db.dropUser i) j ↔ j ≠ i ∧ IsAdmin db j := by
  have hfind : (db.dropUser i).users.find j = if j = i then none else db.users.find j := Table.find_erase ..
  rw [IsAdmin, hfind]
  split_ifs with hj <;> simp [hj, IsAdmin]

/-- An update that is accepted makes its user an admin exactly when it promotes. -/
theorem UsersController.Updates.promotes_iff {id : String} {body : Required UserParams} {i : ℕ} {u u' : User}
    (h : UsersController.Updates env ctx id body db db' i u u') (hu : u.role ≠ some .admin) :
    Promotes env db (.request ctx (.usersUpdate id body)) ↔ u'.role = some .admin := by
  obtain ⟨p, role, hb, hrole, hv⟩ := h.valid
  constructor
  · rintro ⟨-, j, v, q, x, hcur, -, -, hb', hx, hadmin, -⟩
    obtain rfl : p = q := Required.hash.inj (hb.symm.trans hb')
    rw [UserParams.roleFor, hx] at hrole
    rw [User.validateUpdate_role hv]
    exact Except.ok.inj (hrole.symm.trans hadmin)
  · intro hadmin
    obtain rfl : role = some .admin := (User.validateUpdate_role hv).symm.trans hadmin
    unfold UserParams.roleFor at hrole
    split at hrole
    · exact absurd (Except.ok.inj hrole) hu
    · exact ⟨h.auth, i, u, p, _, h.current, h.path, h.can, hb, by assumption, hrole, u', hv⟩

/-- A promotion is an update that is accepted. -/
theorem Promotes.updates {id : String} {body : Required UserParams}
    (h : Promotes env db (.request ctx (.usersUpdate id body))) :
    ∃ i u u', UsersController.Updates env ctx id body db (db.step env (.request ctx (.usersUpdate id body))) i u u' := by
  rcases @UsersController.leaves_update env ctx id body db with
    hl | ⟨hno, -⟩
  · exact hl
  · obtain ⟨hauth, i, u, p, x, hcur, hpath, hcan, hb, hx, hadmin, u', hv⟩ := h
    refine absurd ⟨i, u, u', hauth, hpath, hcan, hcur, ⟨p, some .admin, hb, ?_, hv⟩, rfl⟩ (hno _)
    rw [UserParams.roleFor, hx, ← hadmin]

/-- A promotion of a user who is no admin changes the users. -/
theorem Promotes.users_ne {req : Req} (h : Promotes env db (.request ctx req))
    (he : NotByAdmin db (.request ctx req)) : (after env ctx req db).users ≠ db.users := by
  cases req with
  | usersUpdate id body =>
    obtain ⟨i, u, u', hup⟩ := h.updates
    have hfind : db.users.find i = some u := findParam_find hup.path
    have hu : u.role ≠ some .admin := he i u hup.current
    intro hs
    have hadmin : IsAdmin (db.step env (.request ctx (.usersUpdate id body))) i := by
      rw [hup.state, isAdmin_set (Table.Has.of_find hfind), if_pos rfl]
      exact (hup.promotes_iff hu).mp h
    exact hu (((IsAdmin.congr hs).mp hadmin).role hfind)
  | _ => exact h.elim

/-- Events that are not requests of admins leave admins as they are. -/
theorem KeepsAdmins.step (h : KeepsAdmins db₀ db) {e : Event} (he : NotByAdmin db e) :
    KeepsAdmins db₀ (db.step env e) := by
  cases e with
  | signUp body =>
    rcases step_signUp env db body with hs | ⟨p, r, u, hs⟩
    · rwa [hs]
    · rw [hs.state]
      refine ⟨h.next.trans (Nat.le_succ _), fun i hi hhas => ?_⟩
      obtain ⟨v, hv, -⟩ := id hi
      have hne : i ≠ db.users.next := by
        have := Table.lt_next (Table.Has.of_find hv)
        have := h.next
        omega
      rw [isAdmin_insert, if_neg hne]
      refine h.admin i hi ?_
      simpa [Table.Has, Table.find_insert, hne] using hhas
  | request ctx req =>
    rcases (handle_effect env ctx req db).users with hs | ⟨id, body, i, u, u', -, hup⟩
    · exact ⟨hs ▸ h.next, fun i hi hhas => (IsAdmin.congr hs).mpr (h.admin i hi (hs ▸ hhas))⟩
    · have hfind : db.users.find i = some u := findParam_find hup.path
      show KeepsAdmins db₀ (after env ctx req db)
      rw [hup.state]
      refine ⟨h.next, fun j hj hhas => ?_⟩
      have hadmin : IsAdmin db j := h.admin j hj (Table.has_set.mp hhas)
      rw [isAdmin_set (Table.Has.of_find hfind)]
      split_ifs with hji
      · -- the user who is logged in is no admin
        subst hji
        exact absurd (hadmin.role hfind) (he j u hup.current)
      · exact hadmin
  | destroyUser id =>
    rw [step_destroyUser]
    refine ⟨h.next, fun i hi hhas => ?_⟩
    have hne := Table.has_erase.mp hhas
    exact isAdmin_dropUser.mpr ⟨hne.1, h.admin i hi hne.2⟩

/-- **Exactly the promotions make an admin**, among the events that are not requests of admins. -/
theorem Admins.step_iff (hk : KeepsAdmins db₀ db) {e : Event} (he : NotByAdmin db e) (h : Admins db₀ db) :
    Admins db₀ (db.step env e) ↔ ¬ Promotes env db e := by
  cases e with
  | signUp body =>
    refine iff_of_true ?_ id
    rcases step_signUp env db body with hs | ⟨p, r, u, hs⟩
    · rwa [hs]
    · rw [hs.state]
      intro i hi
      rw [isAdmin_insert] at hi
      split_ifs at hi with hn
      · rw [User.validateNew_role hs.valid] at hi
        exact absurd (Option.some.inj hi) hs.notAdmin
      · exact h i hi
  | request ctx req =>
    rcases (handle_effect env ctx req db).users with hs | ⟨id, body, i, u, u', rfl, hup⟩
    · refine iff_of_true (fun i hi => h i ((IsAdmin.congr hs).mp hi)) fun hp => ?_
      exact hp.users_ne he hs
    · have hfind : db.users.find i = some u := findParam_find hup.path
      have hu : u.role ≠ some .admin := he i u hup.current
      rw [hup.promotes_iff hu]
      show Admins db₀ (after env ctx _ db) ↔ _
      rw [hup.state]
      constructor
      · intro ha hadmin
        have hi₀ : IsAdmin db₀ i := ha i ((isAdmin_set (Table.Has.of_find hfind)).mpr (by rwa [if_pos rfl]))
        exact hu ((hk.admin i hi₀ (Table.Has.of_find hfind)).role hfind)
      · intro hadmin j hj
        rw [isAdmin_set (Table.Has.of_find hfind)] at hj
        split_ifs at hj with hji
        · exact absurd hj hadmin
        · exact h j hj
  | destroyUser id =>
    refine iff_of_true (fun i hi => ?_) fun hp => hp
    rw [step_destroyUser] at hi
    exact h i (isAdmin_dropUser.mp hi).2

/-- **No privilege escalation**: in a run in which no request is made by an admin, the admins of every state are
among those of the start exactly when no step is an update by which a user gives themselves the admin role. -/
theorem no_new_admins_iff {es : List Event} (h : Run (DB.step env) NotByAdmin db₀ es db) :
    (∀ es₁ es₂, es = es₁ ++ es₂ → Admins db₀ (es₁.foldl (DB.step env) db₀)) ↔
      Run (DB.step env) (fun s e => ¬ Promotes env s e) db₀ es db :=
  Run.forall_iff (fun _ _ hk he _ _ => hk.step he) (fun _ _ hk he hI => Admins.step_iff hk he hI)
    ⟨le_rfl, fun _ hi _ => hi⟩ (fun _ hi => hi) h

/-- Client 1 of the sample is no admin. -/
theorem notByAdmin_sample (req : Req) : NotByAdmin DB.sample (.request (sampleCtx 1) req) := by
  intro i u h
  rw [show currentUser (sampleCtx 1) DB.sample =
    some (1, ⟨"Client", some .client, "client@mail.com", "password"⟩) by decide +kernel] at h
  cases h
  decide

/-- Client 1 changes their name. -/
def rename : Event :=
  .request (sampleCtx 1) (.usersUpdate "1" (.hash ⟨some (some "New"), none, some (some "password"), none⟩))

/-- A run of that one request. -/
theorem no_new_admins_rename :
    NotByAdmin DB.sample rename ∧ Admins DB.sample (DB.sample.step Plain.env rename) := by
  have hby : NotByAdmin DB.sample rename := notByAdmin_sample _
  have hno : ¬ Promotes Plain.env DB.sample rename := by
    rintro ⟨-, i, u, p, x, -, -, -, hb, hx, -⟩
    cases hb
    cases hx
  exact ⟨hby, (no_new_admins_iff (.cons hby .nil)).mpr (.cons hno .nil) [rename] [] rfl⟩

/-- A client sets their role to admin by an update of their own profile, and is an admin. -/
theorem client_becomes_admin :
    ¬ IsAdmin DB.sample 1 ∧
      NotByAdmin DB.sample (.request (sampleCtx 1) (.usersUpdate "1"
        (.hash ⟨none, none, some (some "password"), some (.str "admin")⟩))) ∧
      IsAdmin (DB.sample.step Plain.env (.request (sampleCtx 1) (.usersUpdate "1"
        (.hash ⟨none, none, some (some "password"), some (.str "admin")⟩)))) 1 := by
  refine ⟨?_, notByAdmin_sample _, ⟨⟨"Client", some .admin, "client@mail.com", "password"⟩, by decide +kernel, rfl⟩⟩
  rintro ⟨u, hu, hrole⟩
  rw [show DB.sample.users.find 1 =
    some ⟨"Client", some .client, "client@mail.com", "password"⟩ by decide +kernel] at hu
  cases hu
  cases hrole

end FoodFactory
