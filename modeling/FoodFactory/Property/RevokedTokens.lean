import FoodFactory.Store.Seen
import FoodFactory.Property.Interleaving
import FoodFactory.Property.ConcurrentLogout

/-!
# Revoked tokens, while others work

A request looks at the blacklist once, in its first step, and a logout looks at it before it
writes. Meanwhile others log out, and the rake task deletes rows.

## What is proved

`revoked_interleaved`: once a logout has been answered with success, every task that presents the
token and has not begun by then is refused by its first step, and does nothing. That holds for
every interleaving with any other tasks, when the rake task does not run ahead of the clock of
the task that is refused: a row that it deletes is then of a token that has expired.

A request that has begun before is not stopped: it has passed the filter, and does not look again.
-/

namespace FoodFactory

open Store Program SessionsController

variable {env : Env} {p : Payload} {e now : ℕ} {db db' : DB}

/-- The token that is made from the payload. -/
def tokenOf (env : Env) (p : Payload) : String := env.jwt.encode p env.secretKey

/-- The token of `p`, which expires at `e`, is in the blacklist. -/
def Listed (p : Payload) (e : ℕ) (db : DB) : Prop :=
  ∃ i r, db.jwtBlacklists.find i = some r ∧ some r.jti = p.jti ∧ r.exp = timeAt e

/-- The token is in the blacklist, or it has expired. -/
def Dead (p : Payload) (e now : ℕ) (db : DB) : Prop := Listed p e db ∨ e ≤ toSeconds now

/-- A dead token is not accepted. -/
theorem Dead.decode_eq_none (hjwt : env.jwt.Lawful) (he : p.exp = some e) (h : Dead p e now db) :
    JwtTokenService.decode env db now (tokenOf env p) = none := by
  refine Option.eq_none_iff_forall_ne_some.mpr fun q hq => ?_
  obtain ⟨-, hlt, hfree⟩ := (JwtTokenService.decode_encode hjwt he).mp hq
  rcases h with ⟨i, r, hfind, hj, -⟩ | hexp
  · rw [← hj] at hfree
    exact not_blacklisted_iff.mp hfree i r hfind rfl
  · omega

/-- **A dead token stays dead**: a row is deleted only by a purge, and a purge that is not ahead of the clock deletes no
row of a token that is still good. -/
theorem Dead.move {K : Set Change} (h : Dead p e now db) (hK : ∀ t, .clearExpired t ∈ K → t ≤ now) (hm : Move K db db') :
    Dead p e now db' := by
  rcases h with ⟨i, r, hfind, hj, hr⟩ | hexp
  · cases hm with
    | revoke _ _ _ => exact .inl ⟨i, r, Table.find_insert_of_find hfind _, hj, hr⟩
    | clearExpired t ht =>
      cases hold : r.expired t with
      | true => exact .inr ((le_of_expired hr hold).trans (toSeconds_mono (hK t ht)))
      | false =>
        refine .inl ⟨i, r, ?_, hj, hr⟩
        show (db.jwtBlacklists.filter fun _ r => !r.expired t).find i = some r
        rw [Table.find_filter, hfind, Option.filter_some, hold]
        rfl
    | _ => exact .inl ⟨i, r, hfind, hj, hr⟩
  · exact .inr hexp

/-! ### Logouts that succeed -/

/-- A token is revoked by a row under its identifier, with its expiry. -/
theorem listed_of_revoke (he : p.exp = some e) {u : Unit} (h : ((raising (revoke p)).run db).1 = .ok u) :
    Listed p e ((raising (revoke p)).run db).2 := by
  rw [raising_state]
  rw [raising, Action.run_mapError] at h
  unfold revoke at h ⊢
  rw [he] at h ⊢
  rcases JwtBlacklist.create_cases p.jti (timeAt e) db with ⟨j, hj, -, -, hrun⟩ | ⟨x, hrun⟩
  · dsimp only
    rw [hrun]
    exact ⟨_, _, Table.find_insert_next db.jwtBlacklists _, hj.symm, rfl⟩
  · dsimp only at h
    rw [hrun] at h
    cases h

/-- A logout that is answered with success has seen its token in the blacklist. -/
theorem answers_logout (hjwt : env.jwt.Lawful) (he : p.exp = some e) {authorization : Option String}
    (hp : Presents authorization (tokenOf env p)) (now : ℕ) {past : Set DB} :
    ((Task.logout now authorization).program env).Answers
      (fun past r => r = some loggedOut → ∃ s ∈ past, Listed p e s) past := by
  show Answers _ _ (destroySteps env now authorization >>= fun r => pure (some r))
  unfold destroySteps
  rw [if_pos hp.1]
  refine .step fun s decoded hdec => ?_
  have hval : decodedToken env s now authorization = decoded := Except.ok.inj hdec
  rw [decodedToken, hp.2] at hval
  cases decoded with
  | none => exact fun _ _ hr => by cases hr
  | some q =>
    obtain rfl : q = p := ((JwtTokenService.decode_encode hjwt he).mp hval).1
    refine Program.Answers.step fun s' u hu past' hpast _ => ?_
    exact ⟨_, hpast (.inr (.inr rfl)), listed_of_revoke he hu⟩

/-! ### Tasks that come after it -/

/-- The task presents token `t`, at time `now`. -/
def Task.PresentsAt (t : String) (now : ℕ) : Task → Prop
  | .request ctx req => ctx.token = some t ∧ ctx.now = now ∧ req ≠ .undefinedAction
  | .logout now' authorization => Presents authorization t ∧ now' = now
  | _ => False

/-- Only the rake task deletes rows of the blacklist. -/
theorem Task.eq_clearExpired {t : Task} {time : ℕ} (h : .clearExpired time ∈ t.changes) : t = .clearExpired time := by
  cases t with
  | request ctx req =>
    cases req with
    | ordersCreate userId hotelId order orderItems =>
      rcases h with h | ⟨i, h⟩
      · cases h
      · cases h
    | _ => cases h
  | clearExpired now =>
    cases h
    rfl
  | _ => cases h

/-- What a task ends with whose token is refused. -/
def Task.refused : Task → Except Stop (Option Response)
  | .logout _ _ => .ok (some alreadyLoggedOut)
  | _ => .error (.halt ⟨.unauthorized, .error "Invalid or expired token"⟩)

/-- A request to an action that is there looks at its token first. -/
theorem Req.steps_eq_authenticate (env : Env) (ctx : Ctx) {req : Req} (h : req ≠ .undefinedAction) :
    ∃ f, req.steps env ctx = lift (authenticateUser env ctx) >>= f := by
  cases req with
  | undefinedAction => exact absurd rfl h
  | _ => exact ⟨_, rfl⟩

/-- A task that presents a dead token is refused by its first step, and does nothing. -/
theorem Task.next_of_dead (hjwt : env.jwt.Lawful) (he : p.exp = some e) {t : Task}
    (ht : t.PresentsAt (tokenOf env p) now) (h : Dead p e now db) :
    (t.program env).next db = (.ret t.refused, db) := by
  have hnone := h.decode_eq_none hjwt he
  cases t with
  | request ctx req =>
    obtain ⟨htoken, rfl, hreq⟩ := ht
    obtain ⟨f, hf⟩ := Req.steps_eq_authenticate env ctx hreq
    have hauth : (authenticateUser env ctx).run db =
        (.error (.halt ⟨.unauthorized, .error "Invalid or expired token"⟩), db) := by
      rw [authenticateUser, Action.run_read, htoken]
      simp only [hnone]
    show (req.steps env ctx >>= fun r => pure (some r)).next db = _
    rw [hf]
    exact next_step_error hauth
  | logout now' authorization =>
    obtain ⟨hp, rfl⟩ := ht
    have hdec : decodedToken env db now' authorization = none := by rw [decodedToken, hp.2, Option.bind_some, hnone]
    show (destroySteps env now' authorization >>= fun r => pure (some r)).next db = _
    unfold destroySteps
    rw [if_pos hp.1]
    exact next_step_ok (b := none) (by rw [Action.run_read, hdec])
  | signUp body => exact ht.elim
  | clearExpired t => exact ht.elim
  | destroyUser id => exact ht.elim

variable {ι : Type} [DecidableEq ι]

/-- **A revoked token is refused**, in every interleaving: when a logout of it has been answered with success, a task
that presents it and has not begun is refused on its first turn, and none of its turns does anything. -/
theorem revoked_interleaved (env : Env) (hjwt : env.jwt.Lawful) (db : DB) (task : ι → Task) (he : p.exp = some e)
    {k k' : ι} {loggedOutAt : ℕ} {authorization : Option String} (hk : task k = .logout loggedOutAt authorization)
    (hp : Presents authorization (tokenOf env p)) {ks : List ι}
    (hdone : (((serve env db task).run ks).thread k).result = some (.ok (some loggedOut)))
    (hk' : (task k').PresentsAt (tokenOf env p) now) (hnew : k' ∉ ks)
    (hclock : ∀ j t, task j = .clearExpired t → t ≤ now) (ks' : List ι) :
    ((serve env db task).run (ks ++ ks' ++ [k'])).shared = ((serve env db task).run (ks ++ ks')).shared ∧
      (((serve env db task).run (ks ++ ks' ++ [k'])).thread k').result = some (task k').refused := by
  have hK (t : ℕ) (ht : .clearExpired t ∈ ⋃ k, (task k).changes) : t ≤ now := by
    obtain ⟨j, hj⟩ := Set.mem_iUnion.mp ht
    exact hclock j t (Task.eq_clearExpired hj)
  have hstays (ks₁ ks₂ : List ι) : Dead p e now ((serve env db task).run ks₁).shared →
      Dead p e now ((serve env db task).run (ks₁ ++ ks₂)).shared :=
    Pool.run_rel (R := fun s s' => Dead p e now s → Dead p e now s') (fun _ h => h) (fun _ _ _ h h' hd => h' (h hd))
      (fun _ _ hm h => h.move hK hm) (steps_serve env db task) ks₁ ks₂
  have hdead : Dead p e now ((serve env db task).run ks).shared := by
    have hanswers : ((serve env db task).thread k).Answers
        (fun past r => r = some loggedOut → ∃ s ∈ past, Listed p e s) ∅ := by
      show Answers _ _ ((task k).program env)
      rw [hk]
      exact answers_logout hjwt he hp loggedOutAt
    obtain ⟨s, hs, hlisted⟩ := Pool.run_answers hanswers ks hdone rfl
    exact Pool.rel_seen (R := fun s s' => Dead p e now s → Dead p e now s') hstays hs (.inl hlisted)
  have hthread : ((serve env db task).run ks).thread k' = (task k').program env :=
    Pool.thread_run_of_notMem (serve env db task) hnew
  rw [List.append_assoc, Pool.run_append, Pool.run_append _ ks ks']
  refine Pool.run_ends (J := Dead p e now) (fun s hs => ?_) (fun ks₁ => ?_) ks'
  · rw [hthread]
    exact Task.next_of_dead hjwt he hk' hs
  · rw [← Pool.run_append]
    exact hstays ks ks₁ hdead

/-- A client logs out and then deletes an order with the same token, while the rake task runs. -/
def logoutAndDestroy : Fin 3 → Task
  | 0 => .logout 0 (sampleCtx 1).authorization
  | 1 => .request (sampleCtx 1) (.ordersDestroy "1" "1" "1")
  | 2 => .clearExpired 0

/-- The order stays. -/
theorem revoked_interleaved_destroy :
    ((serve Plain.env DB.ordered logoutAndDestroy).run ([0, 0] ++ [2] ++ [1])).shared =
        ((serve Plain.env DB.ordered logoutAndDestroy).run ([0, 0] ++ [2])).shared ∧
      (((serve Plain.env DB.ordered logoutAndDestroy).run ([0, 0] ++ [2] ++ [1])).thread 1).result =
        some (.error (.halt ⟨.unauthorized, .error "Invalid or expired token"⟩)) := by
  have hpresents : Presents (sampleCtx 1).authorization
      (tokenOf Plain.env ⟨some 1, some "id", some (toSeconds twentyFourHours)⟩) := ⟨by decide +kernel, by decide +kernel⟩
  have hrequest : (logoutAndDestroy 1).PresentsAt
      (tokenOf Plain.env ⟨some 1, some "id", some (toSeconds twentyFourHours)⟩) 0 := ⟨hpresents.2, rfl, nofun⟩
  refine revoked_interleaved Plain.env Plain.jwt_lawful DB.ordered logoutAndDestroy rfl (k := 0) rfl hpresents
    (by decide +kernel) hrequest (by decide) (fun j t h => ?_) [2]
  match j with
  | 0 => cases h
  | 1 => cases h
  | 2 =>
    cases h
    exact le_rfl

end FoodFactory
