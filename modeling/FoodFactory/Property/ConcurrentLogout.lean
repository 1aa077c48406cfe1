import Mathlib.Logic.Function.Basic
import FoodFactory.Property.Revocation
import FoodFactory.Property.Interleaving

/-!
# Logouts of one token at the same time

`respond_to_on_destroy` looks the token up in the blacklist, then writes it there with
`create!`, which looks once more, and then responds. Any number of requests that present
one token take these steps in any order.

## The model

`logoutStep` is one step of a request: what it does to the database, and where the request
stands afterwards (`Phase`). `Logouts` is the database and where each request stands, and a
schedule is the list of the requests whose turn it is. It is the pool of the logouts, with
their programs told apart by where they stand.

## What is proved

* `logout_alone`: the steps of one request, with nothing in between, are `respondToOnDestroy`.
* `run_serve_logouts`: under every schedule, `Logouts` and the pool of the logouts are in step.
* `Ledger.step`: whatever the order, the token gets one row in the blacklist, written by one
  request, and a request that passed the first look without writing the row raises.
* `resolved_iff`: once all requests have finished, one has logged out, all others were
  refused, and none raised, exactly when no request looked the token up while another was
  between its look and its write.
* `not_resolved_two`: two requests look before either writes, and the second raises.
-/

namespace FoodFactory

open Store Ruby SessionsController

/-- Where a logout request stands. -/
inductive Phase where
  /-- It has done nothing yet. -/
  | start
  /-- It has decoded the token, and not found it in the blacklist. -/
  | decoded (p : Payload)
  /-- It is about to respond. -/
  | responding (r : Response)
  /-- It has responded. -/
  | answered (r : Response)
  /-- It has ended with an exception. -/
  | raised (e : Exn)
  deriving DecidableEq

/-- The response of a logout that revoked its token. -/
def loggedOut : Response := ⟨.ok, .statusAndMessage 200 "Logged out successfully"⟩

/-- The response of a logout whose token is not acceptable. -/
def alreadyLoggedOut : Response := ⟨.unauthorized, .statusAndMessage 401 "Invalid token or user already logged out."⟩

/-- One step of `respond_to_on_destroy`: decoding with the look at the blacklist, `JwtBlacklist.create!`, or the
response. -/
def logoutStep (env : Env) (now : ℕ) (authorization : Option String) : Phase × DB → Phase × DB
  | (.start, db) =>
      if present authorization then
        match decodedToken env db now authorization with
        | some p => (.decoded p, db)
        | none => (.responding alreadyLoggedOut, db)
      else (.responding ⟨.unauthorized, .statusAndMessage 401 "Couldn't find an active session."⟩, db)
  | (.decoded p, db) =>
      match (revoke p).run db with
      | (.ok (), db') => (.responding loggedOut, db')
      | (.error e, db') => (.raised e, db')
  | (.responding r, db) => (.answered r, db)
  | (.answered r, db) => (.answered r, db)
  | (.raised e, db) => (.raised e, db)

/-- **One request, with nothing in between, is `respondToOnDestroy`.** -/
theorem logout_alone (env : Env) (now : ℕ) (authorization : Option String) (db : DB) :
    (logoutStep env now authorization)^[3] (.start, db) =
      match (respondToOnDestroy env now authorization).run db with
      | (.ok r, db') => (.answered r, db')
      | (.error e, db') => (.raised e, db') := by
  show logoutStep env now authorization (logoutStep env now authorization
    (logoutStep env now authorization (.start, db))) = _
  unfold respondToOnDestroy
  by_cases hp : present authorization = true
  · rw [if_pos hp, Action.run_get_bind]
    cases hd : decodedToken env db now authorization with
    | none => simp only [logoutStep, hp, hd, if_true]; rfl
    | some p =>
      simp only [logoutStep, hp, hd, if_true]
      rw [Action.run_bind]
      rcases (revoke p).run db with ⟨e | _, db'⟩ <;> rfl
  · rw [if_neg hp]
    simp only [logoutStep, hp]
    rfl

/-- The database, and where each request stands. -/
structure Logouts (ι : Type) where
  db : DB
  phase : ι → Phase

variable {ι : Type} {env : Env} {now : ι → ℕ} {authorization : ι → Option String}

/-- It is the turn of request `k`. -/
def Logouts.step [DecidableEq ι] (env : Env) (now : ι → ℕ) (authorization : ι → Option String) (s : Logouts ι) (k : ι) :
    Logouts ι :=
  let out := logoutStep env (now k) (authorization k) (s.phase k, s.db)
  ⟨out.2, Function.update s.phase k out.1⟩

/-- All requests are at their start. -/
def Logouts.start (db : DB) : Logouts ι := ⟨db, fun _ => .start⟩

/-! ### The pool of the logouts -/

/-- What is left of the program of a request. -/
def Phase.program (env : Env) (now : ℕ) (authorization : Option String) : Phase → Program DB Stop (Option Response)
  | .start => (Task.logout now authorization).program env
  | .decoded p => do
    Program.lift (raising (revoke p))
    pure (some loggedOut)
  | .responding r => .ret (.ok (some r))
  | .answered r => .ret (.ok (some r))
  | .raised e => .ret (.error (.raised e))

/-- A step of the program is a step of the request. -/
theorem Phase.next_program (env : Env) (now : ℕ) (authorization : Option String) (x : Phase) (db : DB) :
    (x.program env now authorization).next db =
      ((logoutStep env now authorization (x, db)).1.program env now authorization,
        (logoutStep env now authorization (x, db)).2) := by
  cases x with
  | start =>
    show (destroySteps env now authorization >>= fun r => pure (some r)).next db = _
    by_cases hp : present authorization = true
    · rw [destroySteps, if_pos hp]
      have hread : (Action.read fun db => .ok (decodedToken env db now authorization) :
          Action DB Stop (Option Payload)).run db = (.ok (decodedToken env db now authorization), db) := rfl
      refine (Program.next_step_ok hread).trans ?_
      cases hd : decodedToken env db now authorization <;> simp only [logoutStep, hp, hd, if_true] <;> rfl
    · rw [destroySteps, if_neg hp]
      simp only [logoutStep, hp]
      rfl
  | decoded p =>
    rcases hrun : (revoke p).run db with ⟨e | u, db'⟩
    · have hraise : (raising (revoke p)).run db = (.error (.raised e), db') := by
        rw [raising, Action.run_mapError, hrun]
        rfl
      simp only [logoutStep, hrun]
      exact Program.next_step_error hraise
    · have hraise : (raising (revoke p)).run db = (.ok u, db') := by
        rw [raising, Action.run_mapError, hrun]
        rfl
      simp only [logoutStep, hrun]
      exact Program.next_step_ok hraise
  | responding r => rfl
  | answered r => rfl
  | raised e => rfl

/-- The pool that `Logouts` stands for. -/
def Logouts.pool (env : Env) (now : ι → ℕ) (authorization : ι → Option String) (s : Logouts ι) :
    Pool DB Stop (Option Response) ι :=
  ⟨s.db, fun k => (s.phase k).program env (now k) (authorization k)⟩

/-- A turn in the pool is a turn of the request. -/
theorem Logouts.pool_turn [DecidableEq ι] (s : Logouts ι) (k : ι) :
    (s.pool env now authorization).turn k = (s.step env now authorization k).pool env now authorization := by
  have hnext := Phase.next_program env (now k) (authorization k) (s.phase k) s.db
  unfold Pool.turn Logouts.pool Logouts.step
  refine congrArg₂ Pool.mk (congrArg Prod.snd hnext) (funext fun k' => ?_)
  by_cases hk : k' = k
  · subst hk
    simp only [Function.update_self]
    exact congrArg Prod.fst hnext
  · simp only [Function.update_of_ne hk]

/-- **The logouts and their pool are in step**, under every schedule. -/
theorem run_serve_logouts [DecidableEq ι] (env : Env) (db : DB) (now : ι → ℕ) (authorization : ι → Option String)
    (es : List ι) :
    (serve env db fun k => .logout (now k) (authorization k)).run es =
      (es.foldl (Logouts.step env now authorization) (.start db)).pool env now authorization := by
  have hrun (s : Logouts ι) : (s.pool env now authorization).run es =
      (es.foldl (Logouts.step env now authorization) s).pool env now authorization := by
    induction es generalizing s with
    | nil => rfl
    | cons k es ih => rw [Pool.run_cons, Logouts.pool_turn, ih, List.foldl_cons]
  exact hrun (.start db)

/-- All requests present token `t`, which decodes to a payload with identifier `j` and an expiry `e` whenever one of them
looks. -/
structure SameToken (env : Env) (now : ι → ℕ) (authorization : ι → Option String) (t : String) (p : Payload)
    (j : String) (e : ℕ) : Prop where
  presents : ∀ k, Presents (authorization k) t
  decodes : ∀ k, env.jwt.decode t env.secretKey (toSeconds (now k)) = .ok p
  jti : p.jti = some j
  notBlank : blank j = false
  exp : p.exp = some e

/-- The number of rows of the blacklist for identifier `j`. -/
def revocations (db : DB) (j : String) : ℕ := (db.jwtBlacklists.select fun r => r.jti == j).length

theorem blacklisted_eq_false {db : DB} {j : String} :
    JwtTokenService.blacklisted db (some j) = false ↔ revocations db j = 0 := by
  rw [revocations, List.length_eq_zero_iff, Table.select, List.filter_eq_nil_iff, JwtTokenService.blacklisted,
    List.any_eq_false]
  simp

/-! ### What a step does -/

section

variable {t j : String} {p : Payload} {e : ℕ} {s s' : Logouts ι} {k : ι}

/-- The row that revokes the token. -/
def DB.revoked (db : DB) (j : String) (e : ℕ) : DB :=
  { db with jwtBlacklists := db.jwtBlacklists.insert ⟨j, timeAt e⟩ }

theorem revocations_revoked (db : DB) (j : String) (e : ℕ) : revocations (db.revoked j e) j = revocations db j + 1 := by
  simp [revocations, DB.revoked, Table.select_insert]

theorem decodedToken_eq (h : SameToken env now authorization t p j e) (k : ι) (db : DB) :
    decodedToken env db (now k) (authorization k) = if revocations db j = 0 then some p else none := by
  rw [decodedToken, (h.presents k).2, Option.bind_some, JwtTokenService.decode, h.decodes k]
  dsimp only
  rw [h.jti]
  split_ifs with hb hr hr
  · rw [blacklisted_eq_false.mpr hr] at hb
    cases hb
  · rfl
  · rfl
  · exact absurd (blacklisted_eq_false.mp (by simpa using hb)) hr

/-- `create!` writes the row, or raises when it is there. -/
theorem run_revoke (h : SameToken env now authorization t p j e) (db : DB) :
    (revoke p).run db = if revocations db j = 0 then (.ok (), db.revoked j e) else
      (.error (.recordInvalid [⟨.jti, .taken⟩]), db) := by
  rw [revoke, h.exp, h.jti]
  split_ifs with hr
  · exact JwtBlacklist.run_create_ok h.notBlank (blacklisted_eq_false.mpr hr) (timeAt e)
  · have hany : (db.jwtBlacklists.rows.any fun r => some r.2.jti == some j) = true := by
      rw [← Bool.not_eq_false]
      exact fun hf => hr (blacklisted_eq_false.mp hf)
    simp only [Action.run, JwtBlacklist.create, hany, presence, present, h.notBlank, Bool.not_false, if_true]
    rfl

variable [DecidableEq ι]

/-- What the request whose turn it is does, when all present one token. -/
inductive Turn (p : Payload) (j : String) (e : ℕ) (s : Logouts ι) (k : ι) : Logouts ι → Prop
  /-- It looks, and does not find the token. -/
  | look : s.phase k = .start → revocations s.db j = 0 →
      Turn p j e s k ⟨s.db, Function.update s.phase k (.decoded p)⟩
  /-- It looks, and finds the token. -/
  | refuse : s.phase k = .start → revocations s.db j ≠ 0 →
      Turn p j e s k ⟨s.db, Function.update s.phase k (.responding alreadyLoggedOut)⟩
  /-- It writes the row. -/
  | write : s.phase k = .decoded p → revocations s.db j = 0 →
      Turn p j e s k ⟨s.db.revoked j e, Function.update s.phase k (.responding loggedOut)⟩
  /-- The row is there already. -/
  | fail {x : Exn} : s.phase k = .decoded p → revocations s.db j ≠ 0 →
      Turn p j e s k ⟨s.db, Function.update s.phase k (.raised x)⟩
  | answer {r : Response} : s.phase k = .responding r →
      Turn p j e s k ⟨s.db, Function.update s.phase k (.answered r)⟩
  /-- It has finished. -/
  | rest : s.phase k ≠ .start → Turn p j e s k s

/-- The request whose turn it is does one of these. -/
theorem step_turn (h : SameToken env now authorization t p j e) (hp : ∀ q, s.phase k = .decoded q → q = p) :
    Turn p j e s k (s.step env now authorization k) := by
  unfold Logouts.step
  cases hk : s.phase k with
  | start =>
    simp only [logoutStep, (h.presents k).1, if_true, decodedToken_eq h]
    split_ifs with hr
    · exact .look hk hr
    · exact .refuse hk hr
  | decoded q =>
    obtain rfl := hp q hk
    simp only [logoutStep, run_revoke h]
    split_ifs with hr
    · exact .write hk hr
    · exact .fail hk hr
  | responding r => exact .answer hk
  | answered r =>
    have hsame : (⟨s.db, Function.update s.phase k (.answered r)⟩ : Logouts ι) = s := by
      rw [← hk, Function.update_eq_self]
    simp only [logoutStep, hsame]
    exact .rest (by simp [hk])
  | raised x =>
    have hsame : (⟨s.db, Function.update s.phase k (.raised x)⟩ : Logouts ι) = s := by
      rw [← hk, Function.update_eq_self]
    simp only [logoutStep, hsame]
    exact .rest (by simp [hk])

/-! ### The ledger -/

/-- A request that wrote the row. -/
def Won (x : Phase) : Prop := x = .responding loggedOut ∨ x = .answered loggedOut

/-- A request that did not write the row, once it is written. -/
def Behind (p : Payload) (x : Phase) : Prop :=
  x = .start ∨ x = .decoded p ∨ x = .responding alreadyLoggedOut ∨ x = .answered alreadyLoggedOut ∨ ∃ y, x = .raised y

/-- The row of the token is not written and every request is still before its write, or the row is written once, by
one request. -/
inductive Ledger (p : Payload) (j : String) (s : Logouts ι) : Prop
  | before : revocations s.db j = 0 → (∀ k, s.phase k = .start ∨ s.phase k = .decoded p) → Ledger p j s
  | after (w : ι) : revocations s.db j = 1 → Won (s.phase w) → (∀ k, k ≠ w → Behind p (s.phase k)) → Ledger p j s

theorem Ledger.decoded_eq (h : Ledger p j s) (q : Payload) (hq : s.phase k = .decoded q) : q = p := by
  cases h with
  | before _ hall =>
    rcases hall k with hk | hk <;> rw [hq] at hk <;> cases hk
    rfl
  | after w _ hw hall =>
    by_cases hkw : k = w
    · rw [hkw] at hq
      rcases hw with hw | hw <;> rw [hq] at hw <;> cases hw
    · rcases hall k hkw with hk | hk | hk | hk | ⟨y, hk⟩ <;> rw [hq] at hk <;> cases hk
      rfl

/-- Changing where a request other than the writer stands. -/
theorem Ledger.after_update {w : ι} {x : Phase} (hr : revocations s.db j = 1) (hw : Won (s.phase w))
    (hall : ∀ k, k ≠ w → Behind p (s.phase k)) (hk : k ≠ w) (hx : Behind p x) :
    Ledger p j ⟨s.db, Function.update s.phase k x⟩ := by
  refine .after w hr ?_ fun k' hk' => ?_
  · simpa only [Function.update_of_ne hk.symm] using hw
  · by_cases hkk : k' = k
    · simpa only [hkk, Function.update_self] using hx
    · simpa only [Function.update_of_ne hkk] using hall k' hk'

/-- **Every step keeps the ledger.** -/
theorem Ledger.turn (h : Ledger p j s) (ht : Turn p j e s k s') : Ledger p j s' := by
  cases h with
  | before hr hall =>
    cases ht with
    | look hk _ =>
      refine .before hr fun k' => ?_
      by_cases hkk : k' = k
      · exact .inr (by simp only [hkk, Function.update_self])
      · simpa only [Function.update_of_ne hkk] using hall k'
    | refuse _ hr' => exact absurd hr hr'
    | write hk _ =>
      refine .after k ((revocations_revoked s.db j e).trans (by rw [hr])) (.inl (Function.update_self ..)) fun k' hk' => ?_
      simp only [Function.update_of_ne hk']
      rcases hall k' with hs | hd
      · exact .inl hs
      · exact .inr (.inl hd)
    | fail _ hr' => exact absurd hr hr'
    | answer hk => rcases hall k with hs | hd <;> simp_all
    | rest _ => exact .before hr hall
  | after w hr hw hall =>
    have hne : revocations s.db j ≠ 0 := by omega
    have hstart : ∀ {x}, s.phase k = x → ¬ Won x → k ≠ w := fun hk hx hkw => hx (by rw [← hk, hkw]; exact hw)
    cases ht with
    | look _ hr' => exact absurd hr' hne
    | refuse hk _ => exact Ledger.after_update hr hw hall (hstart hk (by simp [Won])) (by simp [Behind])
    | write _ hr' => exact absurd hr' hne
    | @fail x hk _ => exact Ledger.after_update hr hw hall (hstart hk (by simp [Won])) (by simp [Behind])
    | @answer r hk =>
      by_cases hkw : k = w
      · subst hkw
        refine .after k hr ?_ fun k' hk' => ?_
        · rcases hw with hw | hw <;> rw [hk] at hw <;> cases hw
          exact .inr (Function.update_self ..)
        · simpa only [Function.update_of_ne hk'] using hall k' hk'
      · refine Ledger.after_update hr hw hall hkw ?_
        rcases hall k hkw with hb | hb | hb | hb | ⟨y, hb⟩ <;> rw [hk] at hb <;> cases hb
        simp [Behind]
    | rest _ => exact .after w hr hw hall

/-! ### One at a time -/

/-- A request that did not find the token in the blacklist. -/
def Passed : Phase → Prop
  | .start => False
  | .decoded _ => True
  | .responding r => r = loggedOut
  | .answered r => r = loggedOut
  | .raised _ => True

/-- At most one request did not find the token. -/
def OnePassed (s : Logouts ι) : Prop := ∀ k k', Passed (s.phase k) → Passed (s.phase k') → k = k'

/-- The request, if it looks for the token while the token is not in the blacklist, does so while no other is between
its look and its write. -/
def LooksAlone (j : String) (s : Logouts ι) (k : ι) : Prop :=
  s.phase k = .start → revocations s.db j = 0 → ∀ k' q, s.phase k' ≠ .decoded q

omit [DecidableEq ι] in
theorem onePassed_of_only {w : ι} (h : ∀ k, Passed (s.phase k) → k = w) : OnePassed s :=
  fun k k' hk hk' => (h k hk).trans (h k' hk').symm

/-- The others stay where they are. -/
theorem Turn.phase_of_ne (ht : Turn p j e s k s') {k' : ι} (hk : k' ≠ k) : s'.phase k' = s.phase k' := by
  cases ht with
  | rest _ => rfl
  | _ => exact Function.update_of_ne hk _ _

/-- A request that passed stays so. -/
theorem passed_turn (ht : Turn p j e s k s') {k' : ι} (h : Passed (s.phase k')) : Passed (s'.phase k') := by
  by_cases hkk : k' = k
  · subst hkk
    cases ht with
    | rest _ => exact h
    | _ => simp_all [Passed]
  · rwa [ht.phase_of_ne hkk]

/-- Only looking while the token is not there makes a request pass. -/
theorem passed_of_turn (ht : Turn p j e s k s') (hk : ¬ (s.phase k = .start ∧ revocations s.db j = 0)) {k' : ι}
    (h : Passed (s'.phase k')) : Passed (s.phase k') := by
  by_cases hkk : k' = k
  · subst hkk
    cases ht with
    | look hs hr => exact absurd ⟨hs, hr⟩ hk
    | refuse hs hr =>
      simp only [Function.update_self] at h
      exact absurd h (by simp [Passed, alreadyLoggedOut, loggedOut])
    | write hs _ => simp [hs, Passed]
    | fail hs _ => simp [hs, Passed]
    | answer hs =>
      simp only [Function.update_self] at h
      rwa [hs]
    | rest _ => exact h
  · rwa [← ht.phase_of_ne hkk]

/-- A request that looks while the token is not there passes. -/
theorem passed_of_look (ht : Turn p j e s k s') (hs : s.phase k = .start) (hr : revocations s.db j = 0) :
    Passed (s'.phase k) := by
  cases ht with
  | look _ _ => simp [Passed]
  | refuse _ hr' => exact absurd hr hr'
  | write hd _ => simp [hs] at hd
  | fail hd _ => simp [hs] at hd
  | answer hd => simp [hs] at hd
  | rest hne => exact absurd hs hne

omit [DecidableEq ι] in
/-- While the token is not there, those who passed are between look and write. -/
theorem Ledger.decoded_of_passed (hl : Ledger p j s) (hr : revocations s.db j = 0) (hp : Passed (s.phase k)) :
    s.phase k = .decoded p := by
  cases hl with
  | before _ hall =>
    rcases hall k with hk | hk
    · simp [hk, Passed] at hp
    · exact hk
  | after w hr' _ _ => omega

/-- **From a state in which at most one request passed, exactly these steps keep it so.** -/
theorem onePassed_turn_iff (hl : Ledger p j s) (h : OnePassed s) (ht : Turn p j e s k s') :
    OnePassed s' ↔ LooksAlone j s k := by
  by_cases hk : s.phase k = .start ∧ revocations s.db j = 0
  · obtain ⟨hs, hr⟩ := hk
    constructor
    · intro h' _ _ k' q hq
      have hkk := h' k' k (passed_turn ht (by simp [hq, Passed])) (passed_of_look ht hs hr)
      rw [hkk, hs] at hq
      cases hq
    · intro ha
      refine onePassed_of_only (w := k) fun k' hp => ?_
      by_contra hkk
      rw [ht.phase_of_ne hkk] at hp
      exact ha hs hr k' p (hl.decoded_of_passed hr hp)
  · refine iff_of_true (fun k₁ k₂ h₁ h₂ => ?_) fun hs hr => absurd ⟨hs, hr⟩ hk
    exact h k₁ k₂ (passed_of_turn ht hk h₁) (passed_of_turn ht hk h₂)

/-! ### Runs -/

/-- Once all have finished: one request logged out, all others were refused, and the token has one row. -/
def Resolved (j : String) (s : Logouts ι) : Prop :=
  ∃ w, s.phase w = .answered loggedOut ∧ (∀ k, k ≠ w → s.phase k = .answered alreadyLoggedOut) ∧ revocations s.db j = 1

/-- The request has responded, or has ended with an exception. -/
def Phase.Finished (x : Phase) : Prop := (∃ r, x = .answered r) ∨ ∃ y, x = .raised y

/-- When all have finished, one has written the row, and the others were refused or raised. -/
theorem Ledger.resolved_iff_onePassed [Nonempty ι] (h : Ledger p j s) (hfin : ∀ k, (s.phase k).Finished) :
    Resolved j s ↔ OnePassed s := by
  cases h with
  | before _ hall =>
    obtain ⟨k⟩ := ‹Nonempty ι›
    rcases hall k with hk | hk <;> rcases hfin k with ⟨r, hr⟩ | ⟨y, hy⟩ <;> simp_all
  | after w hr hw hall =>
    have hwin : s.phase w = .answered loggedOut := by
      rcases hw with hw | hw
      · rcases hfin w with ⟨r, hr⟩ | ⟨y, hy⟩ <;> simp_all
      · exact hw
    constructor
    · rintro ⟨w', hw', hothers, -⟩
      refine onePassed_of_only (w := w') fun k hk => ?_
      by_contra hkw
      rw [hothers k hkw] at hk
      exact absurd hk (by simp [Passed, alreadyLoggedOut, loggedOut])
    · intro hone
      refine ⟨w, hwin, fun k hkw => ?_, hr⟩
      have hnot : ¬ Passed (s.phase k) := fun hk => hkw (hone k w hk (by simp [hwin, Passed]))
      rcases hall k hkw with hb | hb | hb | hb | ⟨y, hb⟩
      · rcases hfin k with ⟨r, hr⟩ | ⟨y, hy⟩ <;> simp_all
      · simp [hb, Passed] at hnot
      · rcases hfin k with ⟨r, hr⟩ | ⟨y, hy⟩ <;> simp_all
      · exact hb
      · simp [hb, Passed] at hnot

/-- Every step keeps the ledger. -/
theorem Ledger.step (hs : SameToken env now authorization t p j e) (h : Ledger p j s) (k : ι) :
    Ledger p j (s.step env now authorization k) :=
  h.turn (step_turn hs h.decoded_eq)

/-- A request that passed stays so to the end of a run. -/
theorem passed_foldl (hs : SameToken env now authorization t p j e) (h : Ledger p j s) (es : List ι)
    (hk : Passed (s.phase k)) : Passed ((es.foldl (Logouts.step env now authorization) s).phase k) := by
  have hrun : Run (Logouts.step env now authorization) (fun _ _ => True) s es _ := Run.free s es
  exact (hrun.inv (I := fun s => Ledger p j s ∧ Passed (s.phase k))
    (fun s k' hI _ => ⟨hI.1.step hs k', passed_turn (step_turn hs hI.1.decoded_eq) hI.2⟩) ⟨h, hk⟩).2

/-- **Concurrent logouts**: when requests that all present one token, which is not in the blacklist at the start, have
finished, one has logged out, all others were refused, none raised and the token has one row, exactly when in the
whole schedule no request looked for the token, while it was not there, with another between its look and its write. -/
theorem resolved_iff [Nonempty ι] (hs : SameToken env now authorization t p j e) {db : DB}
    (hdb : JwtTokenService.blacklisted db (some j) = false) (es : List ι)
    (hfin : ∀ k, ((es.foldl (Logouts.step env now authorization) (.start db)).phase k).Finished) :
    Resolved j (es.foldl (Logouts.step env now authorization) (.start db)) ↔
      Run (Logouts.step env now authorization) (LooksAlone j) (.start db) es
        (es.foldl (Logouts.step env now authorization) (.start db)) := by
  have hstart : Ledger p j (.start db : Logouts ι) := .before (blacklisted_eq_false.mp hdb) fun _ => .inl rfl
  have hledger : ∀ es : List ι, Ledger p j (es.foldl (Logouts.step env now authorization) (.start db)) := fun es =>
    (Run.free _ es).inv (fun _ k h _ => h.step hs k) hstart
  have hiff : (∀ es₁ es₂, es = es₁ ++ es₂ → OnePassed (es₁.foldl (Logouts.step env now authorization) (.start db))) ↔
      Run (Logouts.step env now authorization) (LooksAlone j) (.start db) es _ :=
    Run.forall_iff (I := OnePassed) (J := Ledger p j) (fun _ k h _ _ _ => h.step hs k)
      (fun _ k h _ hone => onePassed_turn_iff h hone (step_turn hs h.decoded_eq)) hstart (fun _ _ h => h.elim)
      (Run.free _ es)
  rw [(hledger es).resolved_iff_onePassed hfin, ← hiff]
  constructor
  · -- requests that passed stay so, and at the end there is at most one
    rintro hone es₁ es₂ rfl k k' hk hk'
    rw [List.foldl_append] at hone
    exact hone k k' (passed_foldl hs (hledger es₁) es₂ hk) (passed_foldl hs (hledger es₁) es₂ hk')
  · exact fun h => h es [] (List.append_nil es).symm

end

/-! ### Two requests -/

/-- Two requests with the token of a login of the client, one second after it. -/
theorem sameToken_sample :
    SameToken Plain.env (fun _ : Bool => 1000000000) (fun _ => some ("Bearer " ++ token Plain.env sampleWorld 1))
      (token Plain.env sampleWorld 1) (payload Plain.env sampleWorld 1) (Plain.env.uuid 0) 86400 :=
  ⟨fun _ => presents_token, fun _ => by decide +kernel, rfl, by decide +kernel, rfl⟩

/-- The two requests take their turns. -/
def twoLogouts (es : List Bool) : Logouts Bool :=
  es.foldl (Logouts.step Plain.env (fun _ => 1000000000)
    fun _ => some ("Bearer " ++ token Plain.env sampleWorld 1)) (.start DB.sample)

/-- One after the other. -/
theorem resolved_two : Resolved (Plain.env.uuid 0) (twoLogouts [true, true, true, false, false]) := by
  refine (resolved_iff sameToken_sample (by decide +kernel) [true, true, true, false, false] ?_).mpr ?_
  · intro k
    cases k with
    | false => exact .inl ⟨alreadyLoggedOut, by decide +kernel⟩
    | true => exact .inl ⟨loggedOut, by decide +kernel⟩
  · refine .cons (fun _ _ _ _ h => by cases h) (.cons (fun h => ?_) (.cons (fun h => ?_) (.cons (fun _ h => ?_)
      (.cons (fun h => ?_) .nil))))
    -- the first request is past its look, and when the second looks the row is there
    all_goals exact absurd h (by decide +kernel)

/-- Both look before either writes. The second raises. -/
theorem not_resolved_two :
    (twoLogouts [true, false, true, false, true]).phase true = .answered loggedOut ∧
      (twoLogouts [true, false, true, false, true]).phase false = .raised (.recordInvalid [⟨.jti, .taken⟩]) ∧
      ¬ Resolved (Plain.env.uuid 0) (twoLogouts [true, false, true, false, true]) := by
  have htrue : (twoLogouts [true, false, true, false, true]).phase true = .answered loggedOut := by decide +kernel
  have hfalse : (twoLogouts [true, false, true, false, true]).phase false =
      .raised (.recordInvalid [⟨.jti, .taken⟩]) := by decide +kernel
  refine ⟨htrue, hfalse, ?_⟩
  rintro ⟨w, hw, hothers, -⟩
  cases w with
  | false =>
    rw [hfalse] at hw
    cases hw
  | true =>
    have hother := hothers false (by simp)
    rw [hfalse] at hother
    cases hother

end FoodFactory
