import Mathlib.Data.List.Induction
import FoodFactory.Store.Run
import FoodFactory.Controller.Sessions

/-!
# Revocation of tokens

A logout writes the identifier of the token it presents into a table, and the rake task
deletes the rows whose expiry has passed. Whether a deleted row can bring its token back
depends on two comparisons: the task compares `exp` with the time to the microsecond, and
the token library compares it with the time in whole seconds.

## The model

Logins, logouts, runs of the task and the passing of time happen in any order
(`World.step`). What happened in a run is said by `IssuedIn` and `LoggedOutIn`; that is the
abstract account of a token, and says nothing of the table.

The assumptions are those of the parts that are not in the repository: identifiers are
distinct and not blank (`UuidLawful`), the library decodes what it encodes until it expires
(`JWT.Lawful`), and nobody makes a token with one of our identifiers but a login
(`Genuine`: a token that a logout presents was issued in the run, or has an identifier of
its own if it decodes at all).

## What is proved

* `Account.step`: the invariant that ties the table to the account, kept by every event.
* `revocation_exact`: in every state of every run, `JwtTokenService.decode` returns the
  payload of an issued token exactly when it has not expired and no logout has presented it
  while it was acceptable. A logout raises nothing, and leaves other tokens as they were.
-/

namespace FoodFactory

open Store Ruby SessionsController

/-- What is expected of `SecureRandom.uuid`. -/
structure UuidLawful (uuid : ℕ → String) : Prop where
  injective : Function.Injective uuid
  present : ∀ n, blank (uuid n) = false

variable (env : Env)

/-- The event is a login that hands out token `t`, made from `p`. -/
def Issues (t : String) (p : Payload) (w : World) (e : AuthEvent) : Prop :=
  ∃ session c i u, e = .login session (.hash c) ∧ authenticate w.db c = some (i, u) ∧
    p = payload env w i ∧ t = token env w i

/-- The event is a logout that presents token `t` while it is acceptable. -/
def LogsOut (t : String) (w : World) (e : AuthEvent) : Prop :=
  ∃ session authorization, e = .logout session authorization ∧ Presents authorization t ∧
    (JwtTokenService.decode env w.db w.now t).isSome

/-- Token `t`, made from `p`, was handed out in the run. -/
abbrev IssuedIn (w₀ : World) (es : List AuthEvent) (t : String) (p : Payload) : Prop :=
  Happened (World.step env) w₀ es (Issues env t p)

/-- Token `t` was presented by a logout of the run, while it was acceptable. -/
abbrev LoggedOutIn (w₀ : World) (es : List AuthEvent) (t : String) : Prop :=
  Happened (World.step env) w₀ es (LogsOut env t)

/-- If the token decodes at all, it has an expiry, and an identifier that is not one of `SecureRandom.uuid`. -/
def Foreign (t : String) : Prop :=
  ∀ now p, env.jwt.decode t env.secretKey now = .ok p → (∃ e, p.exp = some e) ∧
    ∃ j, p.jti = some j ∧ blank j = false ∧ ∀ n, env.uuid n ≠ j

/-- Every token that a logout of the run presents was issued before in the run, or is foreign. -/
def Genuine (w₀ : World) (es : List AuthEvent) : Prop :=
  ∀ es₁ session authorization es₂ t, es = es₁ ++ .logout session authorization :: es₂ →
    Presents authorization t → (∃ p, IssuedIn env w₀ es₁ t p) ∨ Foreign env t

/-- No identifier to come is in the table. -/
def Fresh (w : World) : Prop := ∀ n, w.drawn ≤ n → JwtTokenService.blacklisted w.db (some (env.uuid n)) = false

/-- **The table and the account of a run** `es` from `w₀` to `w`. -/
structure Account (w₀ : World) (es : List AuthEvent) (w : World) : Prop where
  drawn : w₀.drawn ≤ w.drawn
  /-- A token is made from its payload, under an identifier drawn in the run. -/
  issued : ∀ t p, IssuedIn env w₀ es t p → ∃ n v e, w₀.drawn ≤ n ∧ n < w.drawn ∧ 0 < e ∧
    p = ⟨some v, some (env.uuid n), some e⟩ ∧ t = env.jwt.encode p env.secretKey
  /-- An identifier is of one token. -/
  unique : ∀ t p t' p', IssuedIn env w₀ es t p → IssuedIn env w₀ es t' p' → p.jti = p'.jti → t = t' ∧ p = p'
  /-- A token that a logout presented is issued or foreign. -/
  known : ∀ t, LoggedOutIn env w₀ es t → (∃ p, IssuedIn env w₀ es t p) ∨ Foreign env t
  /-- A row under one of our identifiers is of a token that was logged out. -/
  listed : ∀ i x n, w.db.jwtBlacklists.find i = some x → w₀.drawn ≤ n → x.jti = env.uuid n →
    ∃ t v e, IssuedIn env w₀ es t ⟨some v, some (env.uuid n), some e⟩ ∧ x.exp = timeAt e ∧ LoggedOutIn env w₀ es t
  /-- A token that was logged out has a row, or has expired. -/
  revoked : ∀ t v j e, IssuedIn env w₀ es t ⟨some v, some j, some e⟩ → LoggedOutIn env w₀ es t →
    JwtTokenService.blacklisted w.db (some j) = true ∨ e ≤ toSeconds w.now

variable {env} {w₀ w : World} {es : List AuthEvent}

theorem toSeconds_mono {a b : ℕ} (h : a ≤ b) : toSeconds a ≤ toSeconds b := Nat.div_le_div_right h

/-! ### Which events issue and revoke -/

/-- Only a login issues a token. -/
theorem not_issues {e : AuthEvent} (he : ∀ session c, e ≠ .login session (.hash c)) (t : String) (p : Payload)
    (w : World) : ¬ Issues env t p w e := by
  rintro ⟨session, c, i, u, rfl, -⟩
  exact he session c rfl

/-- Only a logout logs a token out. -/
theorem not_logsOut {e : AuthEvent} (he : ∀ session authorization, e ≠ .logout session authorization) (t : String)
    (w : World) : ¬ LogsOut env t w e := by
  rintro ⟨session, authorization, rfl, -⟩
  exact he session authorization rfl

/-- An event that does not issue the token changes nothing in whether it was issued. -/
theorem issuedIn_concat {e : AuthEvent} {t : String} {p : Payload}
    (he : ¬ Issues env t p (es.foldl (World.step env) w₀) e) :
    IssuedIn env w₀ (es ++ [e]) t p ↔ IssuedIn env w₀ es t p := by
  rw [IssuedIn, Happened.concat_iff, or_iff_left he]

/-- An event that does not log the token out changes nothing in whether it was logged out. -/
theorem loggedOutIn_concat {e : AuthEvent} {t : String} (he : ¬ LogsOut env t (es.foldl (World.step env) w₀) e) :
    LoggedOutIn env w₀ (es ++ [e]) t ↔ LoggedOutIn env w₀ es t := by
  rw [LoggedOutIn, Happened.concat_iff, or_iff_left he]

theorem Account.nil (h : Fresh env w₀) : Account env w₀ [] w₀ where
  drawn := le_rfl
  issued := fun _ _ h => absurd h Happened.not_nil
  unique := fun _ _ _ _ h => absurd h Happened.not_nil
  known := fun _ h => absurd h Happened.not_nil
  listed := by
    intro i x n hx hn hj
    have hb : JwtTokenService.blacklisted w₀.db (some (env.uuid n)) = true :=
      JwtTokenService.blacklisted_eq_true.mpr ⟨i, x, hx, hj⟩
    rw [h n hn] at hb
    cases hb
  revoked := fun _ _ _ _ h => absurd h Happened.not_nil

/-- An event that issues nothing and logs nothing out. -/
theorem Account.quiet (h : Account env w₀ es w) {e : AuthEvent} {w' : World} (hw : w = es.foldl (World.step env) w₀)
    (hi : ∀ t p, ¬ Issues env t p w e) (hl : ∀ t, ¬ LogsOut env t w e) (hdrawn : w.drawn ≤ w'.drawn)
    (hlisted : ∀ i x, w'.db.jwtBlacklists.find i = some x → w.db.jwtBlacklists.find i = some x)
    (hrevoked : ∀ i x n e', w.db.jwtBlacklists.find i = some x → w₀.drawn ≤ n → x.jti = env.uuid n → x.exp = timeAt e' →
      w'.db.jwtBlacklists.find i = some x ∨ e' ≤ toSeconds w'.now)
    (hnow : w.now ≤ w'.now) : Account env w₀ (es ++ [e]) w' := by
  subst hw
  have hissued (t : String) (p : Payload) := issuedIn_concat (hi t p)
  have hout (t : String) := loggedOutIn_concat (hl t)
  refine ⟨h.drawn.trans hdrawn, ?_, ?_, ?_, ?_, ?_⟩
  · intro t p ht
    obtain ⟨n, v, e', h₁, h₂, h₃⟩ := h.issued t p ((hissued t p).mp ht)
    exact ⟨n, v, e', h₁, by omega, h₃⟩
  · intro t p t' p' ht ht'
    exact h.unique t p t' p' ((hissued t p).mp ht) ((hissued t' p').mp ht')
  · intro t ht
    simp only [hissued]
    exact h.known t ((hout t).mp ht)
  · intro i x n hx hn hj
    simp only [hissued, hout]
    exact h.listed i x n (hlisted i x hx) hn hj
  · intro t v j e' ht hlo
    rw [hissued] at ht
    rw [hout] at hlo
    obtain ⟨n, v', e'', hn, -, -, hp, -⟩ := h.issued t _ ht
    cases hp
    rcases h.revoked t v _ e' ht hlo with hb | he
    · -- the row may go only when the token has expired
      obtain ⟨i, x, hx, hj⟩ := JwtTokenService.blacklisted_eq_true.mp hb
      obtain ⟨t', v', e'', ht', hexp, -⟩ := h.listed i x n hx hn hj
      obtain ⟨-, hpp⟩ := h.unique _ _ _ _ ht ht' rfl
      cases hpp
      rcases hrevoked i x n e' hx hn hj hexp with hx' | he
      · exact .inl (JwtTokenService.blacklisted_eq_true.mpr ⟨i, x, hx', hj⟩)
      · exact .inr he
    · exact .inr (he.trans (toSeconds_mono hnow))

/-! ### Logins -/

theorem step_login_some {session i : ℕ} {c : Credentials} {u : User} (h : authenticate w.db c = some (i, u)) :
    w.step env (.login session (.hash c)) =
      { w with sessions := Function.update w.sessions session (some i), drawn := w.drawn + 1 } := by
  simp only [World.step, Action.run, SessionsController.create, h]

theorem step_login_none {session : ℕ} {c : Credentials} (h : authenticate w.db c = none) :
    w.step env (.login session (.hash c)) = w := by
  simp only [World.step, Action.run, SessionsController.create, h]

theorem exp_pos (w : World) : 0 < toSeconds (w.now + twentyFourHours) := by
  unfold toSeconds twentyFourHours
  omega

/-- Equal tokens are made from equal payloads, if these expire at some time after `0`. -/
theorem encode_inj (hjwt : env.jwt.Lawful) {p p' : Payload} {e e' : ℕ} (he : p.exp = some e) (he' : p'.exp = some e')
    (hpos : 0 < e) (hpos' : 0 < e') (h : env.jwt.encode p env.secretKey = env.jwt.encode p' env.secretKey) : p = p' := by
  have hd := hjwt.decode_encode p env.secretKey 0 e he
  have hd' := hjwt.decode_encode p' env.secretKey 0 e' he'
  rw [if_neg (by omega)] at hd hd'
  rw [h] at hd
  exact Except.ok.inj (hd.symm.trans hd')

/-- The token of the next login has not been presented. -/
theorem Account.not_loggedOut_token (h : Account env w₀ es w) (hjwt : env.jwt.Lawful) (huuid : UuidLawful env.uuid)
    (i : ℕ) : ¬ LoggedOutIn env w₀ es (token env w i) := by
  intro hlo
  rcases h.known _ hlo with ⟨p, hp⟩ | hf
  · obtain ⟨n, v, e, -, hn, hpos, rfl, ht⟩ := h.issued _ _ hp
    have hpp := encode_inj hjwt (p := payload env w i) rfl rfl (exp_pos w) hpos ht
    have hj : env.uuid w.drawn = env.uuid n := Option.some.inj (congrArg Payload.jti hpp)
    exact absurd (huuid.injective hj) (by omega)
  · have hd := hjwt.decode_encode (payload env w i) env.secretKey 0 _ rfl
    rw [if_neg (by have := exp_pos w; omega)] at hd
    obtain ⟨-, j, hj, -, hne⟩ := hf 0 _ hd
    exact hne w.drawn (Option.some.inj hj)

/-- A login that succeeds issues one token. -/
theorem issuedIn_login (hw : w = es.foldl (World.step env) w₀) {session i : ℕ} {c : Credentials} {u : User}
    (hauth : authenticate w.db c = some (i, u)) (t : String) (p : Payload) :
    IssuedIn env w₀ (es ++ [.login session (.hash c)]) t p ↔
      IssuedIn env w₀ es t p ∨ (p = payload env w i ∧ t = token env w i) := by
  rw [IssuedIn, Happened.concat_iff, ← hw]
  refine or_congr_right ⟨?_, fun hp => ⟨session, c, i, u, rfl, hauth, hp⟩⟩
  rintro ⟨s', c', i', u', he, hauth', hp⟩
  cases he
  cases hauth.symm.trans hauth'
  exact hp

/-- A login that succeeds. -/
theorem Account.login (h : Account env w₀ es w) (hw : w = es.foldl (World.step env) w₀) (hjwt : env.jwt.Lawful)
    (huuid : UuidLawful env.uuid) {session i : ℕ} {c : Credentials} {u : User}
    (hauth : authenticate w.db c = some (i, u)) :
    Account env w₀ (es ++ [.login session (.hash c)]) (w.step env (.login session (.hash c))) := by
  have hnot := h.not_loggedOut_token hjwt huuid i
  have hissued := @issuedIn_login env w₀ w es hw session i c u hauth
  have hout (t : String) : LoggedOutIn env w₀ (es ++ [.login session (.hash c)]) t ↔ LoggedOutIn env w₀ es t :=
    loggedOutIn_concat (not_logsOut (by simp) t _)
  -- the identifiers of earlier tokens are not the new one
  have hold (t : String) (p : Payload) (ht : IssuedIn env w₀ es t p) : p.jti ≠ (payload env w i).jti := by
    obtain ⟨n, v, e, -, hn, -, rfl, -⟩ := h.issued t p ht
    intro hj
    exact absurd (huuid.injective (Option.some.inj hj)) (by omega)
  rw [step_login_some hauth]
  refine ⟨h.drawn.trans (Nat.le_succ _), ?_, ?_, ?_, ?_, ?_⟩
  · intro t p ht
    rcases (hissued t p).mp ht with ht | ⟨rfl, rfl⟩
    · obtain ⟨n, v, e, h₁, h₂, h₃⟩ := h.issued t p ht
      exact ⟨n, v, e, h₁, Nat.lt_succ_of_lt h₂, h₃⟩
    · exact ⟨w.drawn, i, _, h.drawn, Nat.lt_succ_self _, exp_pos w, rfl, rfl⟩
  · intro t p t' p' ht ht' hj
    rcases (hissued t p).mp ht with ht | ⟨rfl, rfl⟩ <;> rcases (hissued t' p').mp ht' with ht' | ⟨rfl, rfl⟩
    · exact h.unique t p t' p' ht ht' hj
    · exact absurd hj (hold t p ht)
    · exact absurd hj.symm (hold t' p' ht')
    · exact ⟨rfl, rfl⟩
  · intro t ht
    exact (h.known t ((hout t).mp ht)).imp_left fun ⟨p, hp⟩ => ⟨p, hp.append _⟩
  · intro k x n hx hn hj
    obtain ⟨t, v, e, ht, hexp, hlo⟩ := h.listed k x n hx hn hj
    exact ⟨t, v, e, ht.append _, hexp, hlo.append _⟩
  · intro t v j e ht hlo
    rw [hout] at hlo
    rcases (hissued t _).mp ht with ht | ⟨-, rfl⟩
    · exact h.revoked t v j e ht hlo
    · exact absurd hlo hnot

/-- A login that fails. -/
theorem Account.login_failed (h : Account env w₀ es w) (hw : w = es.foldl (World.step env) w₀) {session : ℕ}
    {body : Required Credentials} (hno : ∀ c i u, body = .hash c → authenticate w.db c ≠ some (i, u)) :
    Account env w₀ (es ++ [.login session body]) w := by
  refine h.quiet hw ?_ (fun t => not_logsOut (by simp) t _) le_rfl (fun _ _ hx => hx) (fun _ _ _ _ hx _ _ _ => .inl hx)
    le_rfl
  rintro t p ⟨s', c, i, u, he, hauth, -⟩
  cases he
  exact hno c i u rfl hauth

/-! ### Logouts -/

theorem step_logout (session : ℕ) {authorization : Option String} {r : Response} {db : DB}
    (h : (respondToOnDestroy env w.now authorization).run w.db = (.ok r, db)) :
    ((SessionsController.destroy env session authorization).run w).1 = .ok r ∧
      w.step env (.logout session authorization) =
        { w with db := db, sessions := Function.update w.sessions session none } := by
  rw [Action.run] at h
  simp only [World.step, Action.run, SessionsController.destroy, h, and_self]

/-- What is known of a token that is accepted. -/
theorem Account.accepted (h : Account env w₀ es w) (hjwt : env.jwt.Lawful) (huuid : UuidLawful env.uuid) {t : String}
    {q : Payload} (hknown : (∃ p, IssuedIn env w₀ es t p) ∨ Foreign env t)
    (hd : JwtTokenService.decode env w.db w.now t = some q) :
    ∃ j e, q.jti = some j ∧ blank j = false ∧ q.exp = some e ∧
      ∀ n, j = env.uuid n → ∃ v, IssuedIn env w₀ es t ⟨some v, some j, some e⟩ := by
  rcases hknown with ⟨p, hp⟩ | hf
  · obtain ⟨n, v, e, -, -, -, rfl, rfl⟩ := h.issued t p hp
    obtain ⟨rfl, -, -⟩ := (JwtTokenService.decode_encode hjwt rfl).mp hd
    exact ⟨env.uuid n, e, rfl, huuid.present n, rfl, fun _ _ => ⟨v, hp⟩⟩
  · unfold JwtTokenService.decode at hd
    split at hd
    · cases hd
    · rename_i p hp
      split_ifs at hd
      cases hd
      obtain ⟨⟨e, he⟩, j, hj, hb, hne⟩ := hf _ _ hp
      exact ⟨j, e, hj, hb, he, fun n hn => absurd hn.symm (hne n)⟩

/-- After a logout that presents the acceptable token `t`, that one is logged out too. -/
theorem loggedOutIn_logout (hw : w = es.foldl (World.step env) w₀) (session : ℕ) {authorization : Option String}
    {t : String} {q : Payload} (hp : Presents authorization t)
    (hd : JwtTokenService.decode env w.db w.now t = some q) (t' : String) :
    LoggedOutIn env w₀ (es ++ [.logout session authorization]) t' ↔ LoggedOutIn env w₀ es t' ∨ t' = t := by
  rw [LoggedOutIn, Happened.concat_iff, ← hw]
  refine or_congr_right ⟨?_, ?_⟩
  · rintro ⟨s', a, he, hp', -⟩
    cases he
    exact Option.some.inj (hp'.2.symm.trans hp.2)
  · rintro rfl
    exact ⟨session, authorization, rfl, hp, by rw [hd]; rfl⟩

/-- A logout that presents an acceptable token. -/
theorem Account.logout (h : Account env w₀ es w) (hw : w = es.foldl (World.step env) w₀) (hjwt : env.jwt.Lawful)
    (huuid : UuidLawful env.uuid) {session : ℕ} {authorization : Option String} {t : String} {q : Payload}
    (hp : Presents authorization t) (hknown : (∃ p, IssuedIn env w₀ es t p) ∨ Foreign env t)
    (hd : JwtTokenService.decode env w.db w.now t = some q) :
    Account env w₀ (es ++ [.logout session authorization]) (w.step env (.logout session authorization)) ∧
      ∃ r, ((SessionsController.destroy env session authorization).run w).1 = .ok r := by
  obtain ⟨j, e, hj, hb, he, hown⟩ := h.accepted hjwt huuid hknown hd
  obtain ⟨r, hrun⟩ := run_respondToOnDestroy_accepted hp hd hj hb he
  obtain ⟨hok, hstep⟩ := step_logout session hrun
  refine ⟨?_, r, hok⟩
  have hissued (t : String) (p : Payload) :
      IssuedIn env w₀ (es ++ [.logout session authorization]) t p ↔ IssuedIn env w₀ es t p :=
    issuedIn_concat (not_issues (by simp) t p _)
  have hout := loggedOutIn_logout hw session hp hd
  rw [hstep]
  refine ⟨h.drawn, ?_, ?_, ?_, ?_, ?_⟩
  · intro t' p ht'
    exact h.issued t' p ((hissued t' p).mp ht')
  · intro t₁ p₁ t₂ p₂ h₁ h₂
    exact h.unique t₁ p₁ t₂ p₂ ((hissued t₁ p₁).mp h₁) ((hissued t₂ p₂).mp h₂)
  · intro t' ht'
    simp only [hissued]
    rcases (hout t').mp ht' with ht' | rfl
    · exact h.known t' ht'
    · exact hknown
  · intro i x n hx hn hxj
    simp only [hissued, hout]
    rcases Table.find_insert_eq_some.mp hx with ⟨-, rfl⟩ | hx
    · -- the new row is of the token that is presented
      obtain ⟨v, hv⟩ := hown n hxj
      exact ⟨t, v, e, hxj ▸ hv, rfl, .inr rfl⟩
    · obtain ⟨t', v, e', ht', hexp, hlo⟩ := h.listed i x n hx hn hxj
      exact ⟨t', v, e', ht', hexp, .inl hlo⟩
  · intro t' v j' e' ht' hlo
    rw [hissued] at ht'
    rcases (hout t').mp hlo with hlo | rfl
    · refine (h.revoked t' v j' e' ht' hlo).imp_left fun hb => ?_
      obtain ⟨i, x, hx, hxj⟩ := JwtTokenService.blacklisted_eq_true.mp hb
      exact JwtTokenService.blacklisted_eq_true.mpr ⟨i, x, Table.find_insert_of_find hx _, hxj⟩
    · left
      obtain ⟨n, v', e'', -, -, -, -, ht⟩ := h.issued t' _ ht'
      rw [ht] at hd
      obtain ⟨rfl, -, -⟩ := (JwtTokenService.decode_encode hjwt rfl).mp hd
      cases hj
      exact JwtTokenService.blacklisted_eq_true.mpr
        ⟨w.db.jwtBlacklists.next, ⟨j, timeAt e⟩, Table.find_insert_next .., rfl⟩

/-- A logout that presents no acceptable token. -/
theorem Account.logout_refused (h : Account env w₀ es w) (hw : w = es.foldl (World.step env) w₀) {session : ℕ}
    {authorization : Option String}
    (hd : ∀ t, Presents authorization t → JwtTokenService.decode env w.db w.now t = none) :
    Account env w₀ (es ++ [.logout session authorization]) (w.step env (.logout session authorization)) ∧
      ∃ r, ((SessionsController.destroy env session authorization).run w).1 = .ok r := by
  obtain ⟨r, hrun⟩ := run_respondToOnDestroy_refused hd
  obtain ⟨hok, hstep⟩ := step_logout session hrun
  refine ⟨?_, r, hok⟩
  rw [hstep]
  refine h.quiet hw (fun t p => not_issues (by simp) t p _) ?_ le_rfl (fun _ _ hx => hx)
    (fun _ _ _ _ hx _ _ _ => .inl hx) le_rfl
  rintro t ⟨s', a, he, hp, hsome⟩
  cases he
  rw [hd t hp] at hsome
  cases hsome

/-! ### Runs -/

theorem Genuine.init {e : AuthEvent} (h : Genuine env w₀ (es ++ [e])) : Genuine env w₀ es := by
  intro es₁ session authorization es₂ t hes
  exact h es₁ session authorization (es₂ ++ [e]) t (by rw [hes]; simp)

/-- A logout at the end of a run raises nothing, and the account goes on. -/
theorem Account.logout_cases (h : Account env w₀ es w) (hw : w = es.foldl (World.step env) w₀) (hjwt : env.jwt.Lawful)
    (huuid : UuidLawful env.uuid) {session : ℕ} {authorization : Option String}
    (hgen : Genuine env w₀ (es ++ [.logout session authorization])) :
    Account env w₀ (es ++ [.logout session authorization]) (w.step env (.logout session authorization)) ∧
      ∃ r, ((SessionsController.destroy env session authorization).run w).1 = .ok r := by
  by_cases hacc : ∃ t q, Presents authorization t ∧ JwtTokenService.decode env w.db w.now t = some q
  · obtain ⟨t, q, hp, hd⟩ := hacc
    exact h.logout hw hjwt huuid hp (hgen es session authorization [] t rfl hp) hd
  · refine h.logout_refused hw fun t hp => ?_
    cases hd : JwtTokenService.decode env w.db w.now t with
    | none => rfl
    | some q => exact absurd ⟨t, q, hp, hd⟩ hacc

/-- A purge takes rows of expired tokens only. -/
theorem Account.clearExpired (h : Account env w₀ es w) (hw : w = es.foldl (World.step env) w₀) :
    Account env w₀ (es ++ [.clearExpired]) (w.step env .clearExpired) := by
  refine h.quiet hw (fun t p => not_issues (by simp) t p _) (fun t => not_logsOut (by simp) t _) le_rfl
    (fun i x hx => Table.find_of_find_filter hx) (fun i x n e hx _ _ hexp => ?_) le_rfl
  cases hpurged : x.expired w.now with
  | true => exact .inr (le_of_expired hexp hpurged)
  | false => exact .inl (Table.find_filter_eq_some.mpr ⟨hx, by simp [hpurged]⟩)

/-- **Every event keeps the account.** -/
theorem Account.step (h : Account env w₀ es w) (hw : w = es.foldl (World.step env) w₀) (hjwt : env.jwt.Lawful)
    (huuid : UuidLawful env.uuid) (e : AuthEvent) (hgen : Genuine env w₀ (es ++ [e])) :
    Account env w₀ (es ++ [e]) (w.step env e) := by
  cases e with
  | login session body =>
    cases body with
    | missing => exact h.login_failed hw (by simp)
    | notHash => exact h.login_failed hw (by simp)
    | hash c =>
      cases hauth : authenticate w.db c with
      | none =>
        rw [step_login_none hauth]
        refine h.login_failed hw fun c' i u hc hauth' => ?_
        cases hc
        cases hauth.symm.trans hauth'
      | some iu => exact h.login hw hjwt huuid hauth
  | logout session authorization => exact (h.logout_cases hw hjwt huuid hgen).1
  | clearExpired => exact h.clearExpired hw
  | advance d =>
    exact h.quiet hw (fun t p => not_issues (by simp) t p _) (fun t => not_logsOut (by simp) t _) le_rfl
      (fun _ _ hx => hx) (fun _ _ _ _ hx _ _ _ => .inl hx) (Nat.le_add_right _ _)

/-- The account of a run. -/
theorem account_foldl (hjwt : env.jwt.Lawful) (huuid : UuidLawful env.uuid) (hfresh : Fresh env w₀)
    (es : List AuthEvent) (hgen : Genuine env w₀ es) : Account env w₀ es (es.foldl (World.step env) w₀) := by
  induction es using List.reverseRecOn with
  | nil => exact .nil hfresh
  | append_singleton es e ih =>
    rw [List.foldl_append]
    exact (ih hgen.init).step rfl hjwt huuid e hgen

/-- When a token of the run is accepted. -/
theorem Account.decode_iff (h : Account env w₀ es w) (hjwt : env.jwt.Lawful) {t : String} {p : Payload}
    (ht : IssuedIn env w₀ es t p) (q : Payload) :
    JwtTokenService.decode env w.db w.now t = some q ↔
      q = p ∧ (∃ e, p.exp = some e ∧ toSeconds w.now < e) ∧ ¬ LoggedOutIn env w₀ es t := by
  obtain ⟨n, v, e, hn, -, -, rfl, henc⟩ := h.issued t p ht
  have hblack (hexp : toSeconds w.now < e) :
      JwtTokenService.blacklisted w.db (some (env.uuid n)) = true ↔ LoggedOutIn env w₀ es t := by
    constructor
    · intro hb
      obtain ⟨i, x, hx, hj⟩ := JwtTokenService.blacklisted_eq_true.mp hb
      obtain ⟨t', v', e', ht', -, hlo⟩ := h.listed i x n hx hn hj
      rwa [(h.unique _ _ _ _ ht ht' rfl).1]
    · intro hlo
      rcases h.revoked t v _ e ht hlo with hb | he
      · exact hb
      · omega
  rw [henc, JwtTokenService.decode_encode hjwt rfl, ← henc]
  constructor
  · rintro ⟨rfl, hexp, hb⟩
    refine ⟨rfl, ⟨e, rfl, hexp⟩, fun hlo => ?_⟩
    rw [(hblack hexp).mpr hlo] at hb
    cases hb
  · rintro ⟨rfl, ⟨e', he', hexp⟩, hlo⟩
    cases he'
    refine ⟨rfl, hexp, ?_⟩
    rw [← Bool.not_eq_true, hblack hexp]
    exact hlo

/-- **Revocation is exact over runs.** Of a token that was issued in the run, `decode` returns its payload exactly
when it has not expired and no logout of the run has presented it while it was acceptable. No logout of the run
raises, and a logout leaves the tokens that it does not present as they were. -/
theorem revocation_exact (env : Env) (hjwt : env.jwt.Lawful) (huuid : UuidLawful env.uuid) (w₀ : World)
    (hfresh : Fresh env w₀) (es : List AuthEvent) (hgen : Genuine env w₀ es) :
    (∀ t p, IssuedIn env w₀ es t p → ∀ q,
      JwtTokenService.decode env (es.foldl (World.step env) w₀).db (es.foldl (World.step env) w₀).now t = some q ↔
        q = p ∧ (∃ e, p.exp = some e ∧ toSeconds (es.foldl (World.step env) w₀).now < e) ∧
          ¬ LoggedOutIn env w₀ es t) ∧
    ∀ es₁ session authorization es₂, es = es₁ ++ .logout session authorization :: es₂ →
      let w := es₁.foldl (World.step env) w₀
      (∃ r, ((SessionsController.destroy env session authorization).run w).1 = .ok r) ∧
      ∀ t p, IssuedIn env w₀ es₁ t p → ¬ Presents authorization t →
        JwtTokenService.decode env (w.step env (.logout session authorization)).db w.now t =
          JwtTokenService.decode env w.db w.now t := by
  refine ⟨fun t p ht q => (account_foldl hjwt huuid hfresh es hgen).decode_iff hjwt ht q, ?_⟩
  rintro es₁ session authorization es₂ rfl
  dsimp only
  have hgen₁ : Genuine env w₀ (es₁ ++ [.logout session authorization]) := by
    intro es₃ s a es₄ t hes
    exact hgen es₃ s a (es₄ ++ es₂) t (by rw [← List.cons_append, ← List.append_assoc, ← hes]; simp)
  have hacc := account_foldl hjwt huuid hfresh es₁ hgen₁.init
  obtain ⟨hacc', hok⟩ := hacc.logout_cases rfl hjwt huuid hgen₁
  refine ⟨hok, fun t p ht hno => Option.ext fun q => ?_⟩
  have hnow : ((es₁.foldl (World.step env) w₀).step env (.logout session authorization)).now =
      (es₁.foldl (World.step env) w₀).now := rfl
  have hiff := hacc'.decode_iff hjwt (ht.append [.logout session authorization]) q
  rw [hnow] at hiff
  rw [hiff, hacc.decode_iff hjwt ht q, LoggedOutIn, Happened.concat_iff, or_iff_left]
  rintro ⟨s', a, he, hp, -⟩
  cases he
  exact hno hp

/-- The identifiers of the plain library are lawful. -/
theorem Plain.uuid_lawful : UuidLawful Plain.env.uuid where
  injective := by
    intro m n h
    have hbits : Plain.toBits m m = Plain.toBits n n := by
      simpa [Plain.env] using congrArg String.toList h
    rw [← Plain.ofBits_toBits m m le_rfl, hbits, Plain.ofBits_toBits n n le_rfl]
  present := by
    intro n
    have hu : space 'u' = false := by decide
    simp [Plain.env, blank, hu]

/-- The sample database, at time `0`, with nobody logged in. -/
def sampleWorld : World := ⟨DB.sample, 0, fun _ => none, 0⟩

/-- The client logs in, and logs out with the token. -/
def loginLogout : List AuthEvent :=
  [.login 0 (.hash ⟨some "client@mail.com", some "password"⟩),
    .logout 0 (some ("Bearer " ++ token Plain.env sampleWorld 1))]

theorem presents_token : Presents (some ("Bearer " ++ token Plain.env sampleWorld 1)) (token Plain.env sampleWorld 1) :=
  ⟨by decide +kernel, by decide +kernel⟩

theorem issues_login : Issues Plain.env (token Plain.env sampleWorld 1) (payload Plain.env sampleWorld 1) sampleWorld
    (.login 0 (.hash ⟨some "client@mail.com", some "password"⟩)) :=
  ⟨0, _, 1, ⟨"Client", some .client, "client@mail.com", "password"⟩, rfl, by decide +kernel, rfl, rfl⟩

theorem genuine_loginLogout : Genuine Plain.env sampleWorld loginLogout := by
  intro es₁ session authorization es₂ t hes hp
  match es₁, hes with
  | [], hes => cases hes
  | [_], hes =>
    cases hes
    obtain rfl : token Plain.env sampleWorld 1 = t := Option.some.inj (presents_token.2.symm.trans hp.2)
    exact .inl ⟨_, [], _, [], rfl, issues_login⟩
  | _ :: _ :: es₁, hes =>
    simp [loginLogout] at hes

/-- The token is not accepted after the logout. -/
theorem revocation_loginLogout :
    JwtTokenService.decode Plain.env (loginLogout.foldl (World.step Plain.env) sampleWorld).db
      (loginLogout.foldl (World.step Plain.env) sampleWorld).now (token Plain.env sampleWorld 1) = none := by
  have hiff := (revocation_exact Plain.env Plain.jwt_lawful Plain.uuid_lawful sampleWorld (fun _ _ => rfl) loginLogout
    genuine_loginLogout).1 _ _ ⟨[], _, _, rfl, issues_login⟩
  refine Option.eq_none_iff_forall_ne_some.mpr fun q hq => ((hiff q).mp hq).2.2 ?_
  exact ⟨[_], _, [], rfl, 0, _, rfl, presents_token, by decide +kernel⟩

end FoodFactory
