import Mathlib.Logic.Function.Basic
import FoodFactory.Store.Run
import FoodFactory.Model.Records

/-!
# The welcome mail

`app/jobs/user_mailer_job.rb`. Creating a user is a transaction: the row is inserted, the
callback `after_create :send_welcome_email` queues a `UserMailerJob` for it, and the
transaction is committed or rolled back. The queue is not part of the database, so the job
is there as soon as the callback has run. A login queues a job, too, for a user that is
stored. A worker takes jobs in any order, and looks the user of a job up among the rows that
are committed.

## The model

`Mailroom` is where each id of `users` stands, the queue, the jobs that were ever queued, and
what the worker found for each job it took. Any number of creations, logins and workers take
their steps in any order (`Mailroom.step`); a step that is not possible does nothing. The id of
a creation that was rolled back may be given again.

## What is proved

* `creation_alone`: the steps of one creation, with nothing in between, write the row that
  `User#save` writes and queue one job.
* `clean_step_iff`: from a state in which all is well, a step keeps it so unless it takes the
  job of, or rolls back, a creation whose callback has run and which is not committed.
* `clean_iff`: so the worker finds the user of every job it takes, and no job is queued for
  a user whose creation is rolled back, exactly in the runs without such a step.
* `not_clean_take`, `not_clean_rollback`: both happen.
-/

namespace FoodFactory

open Store

/-- Where an id of `users` stands. -/
inductive Slot where
  /-- It was never given. -/
  | free
  /-- The row is inserted. -/
  | inserted (u : User)
  /-- The callback has run. -/
  | calledBack (u : User)
  /-- The transaction is committed. -/
  | committed (u : User)
  /-- The transaction was rolled back. -/
  | rolledBack
  deriving DecidableEq

/-- The row that others see. -/
def Slot.row : Slot → Option User
  | .committed u => some u
  | _ => none

/-- The users and the jobs. -/
structure Mailroom where
  slot : ℕ → Slot
  /-- The users of the jobs that wait. -/
  queue : List ℕ
  /-- The users of all jobs that were ever queued. -/
  queued : List ℕ
  /-- The users of the jobs that were taken, and the rows found for them. Without a row, the job
  ends with `ActiveJob::DeserializationError`. -/
  taken : List (ℕ × Option User)

/-- The steps of creations, logins and workers. -/
inductive MailEvent where
  | insert (i : ℕ) (u : User)
  /-- `after_create :send_welcome_email`. -/
  | callback (i : ℕ)
  | commit (i : ℕ)
  | rollback (i : ℕ)
  /-- A login of user `i`, which queues a job. -/
  | login (i : ℕ)
  /-- A worker takes the job at a place in the queue. -/
  | take (k : ℕ)

namespace Mailroom

/-- A change of where an id stands. -/
def put (s : Mailroom) (i : ℕ) (x : Slot) : Mailroom := { s with slot := Function.update s.slot i x }

/-- `UserMailerJob.perform_later(user)`. -/
def performLater (s : Mailroom) (i : ℕ) : Mailroom := { s with queue := s.queue ++ [i], queued := s.queued ++ [i] }

/-- One step. -/
def step (s : Mailroom) : MailEvent → Mailroom
  | .insert i u =>
      match s.slot i with
      | .free | .rolledBack => s.put i (.inserted u)
      | _ => s
  | .callback i =>
      match s.slot i with
      | .inserted u => (s.put i (.calledBack u)).performLater i
      | _ => s
  | .commit i =>
      match s.slot i with
      | .calledBack u => s.put i (.committed u)
      | _ => s
  | .rollback i =>
      match s.slot i with
      | .inserted _ | .calledBack _ => s.put i .rolledBack
      | _ => s
  | .login i =>
      match s.slot i with
      | .committed _ => s.performLater i
      | _ => s
  | .take k =>
      match s.queue[k]? with
      | some i => { s with queue := s.queue.eraseIdx k, taken := s.taken ++ [(i, (s.slot i).row)] }
      | none => s

/-- The users of a table, and no jobs. -/
def start (t : Table User) : Mailroom where
  slot i := (t.find i).elim .free .committed
  queue := []
  queued := []
  taken := []

end Mailroom

open Mailroom

/-- The worker found the user of every job it took, and no job was queued for a user whose creation is rolled back. -/
structure Clean (s : Mailroom) : Prop where
  found : ∀ x ∈ s.taken, x.2.isSome
  kept : ∀ i ∈ s.queued, s.slot i ≠ .rolledBack

/-- What the steps keep, as long as all is well: a job that waits was queued, a job was queued for a user whose
callback has run, and each such user has one. -/
structure Tidy (s : Mailroom) : Prop where
  queue : ∀ i ∈ s.queue, i ∈ s.queued
  queued : ∀ i ∈ s.queued, (∃ u, s.slot i = .calledBack u) ∨ ∃ u, s.slot i = .committed u
  calledBack : ∀ i u, s.slot i = .calledBack u → i ∈ s.queued

/-- The step leaves alone the creations whose callback has run and which are not committed: it takes no job of theirs,
and does not roll them back. -/
def Waits (s : Mailroom) : MailEvent → Prop
  | .take k => ∀ i u, s.queue[k]? = some i → s.slot i ≠ .calledBack u
  | .rollback i => ∀ u, s.slot i ≠ .calledBack u
  | _ => True

variable {s : Mailroom} {i : ℕ} {x : Slot}

/-- What a step does. -/
inductive Moves (s : Mailroom) : MailEvent → Mailroom → Prop
  | nothing {e : MailEvent} : Waits s e → Moves s e s
  | insert {i : ℕ} {u : User} : s.slot i = .free ∨ s.slot i = .rolledBack →
      Moves s (.insert i u) (s.put i (.inserted u))
  | callback {i : ℕ} {u : User} : s.slot i = .inserted u →
      Moves s (.callback i) ((s.put i (.calledBack u)).performLater i)
  | commit {i : ℕ} {u : User} : s.slot i = .calledBack u → Moves s (.commit i) (s.put i (.committed u))
  | rollback {i : ℕ} {u : User} : s.slot i = .inserted u ∨ s.slot i = .calledBack u →
      Moves s (.rollback i) (s.put i .rolledBack)
  | login {i : ℕ} {u : User} : s.slot i = .committed u → Moves s (.login i) (s.performLater i)
  | take {k i : ℕ} : s.queue[k]? = some i →
      Moves s (.take k) { s with queue := s.queue.eraseIdx k, taken := s.taken ++ [(i, (s.slot i).row)] }

/-- Every step does one of these. -/
theorem step_moves (s : Mailroom) (e : MailEvent) : Moves s e (s.step e) := by
  cases e with
  | insert i u =>
    cases hi : s.slot i <;> simp only [step, hi]
    case free => exact .insert (.inl hi)
    case rolledBack => exact .insert (.inr hi)
    all_goals exact .nothing trivial
  | callback i =>
    cases hi : s.slot i <;> simp only [step, hi]
    case inserted u => exact .callback hi
    all_goals exact .nothing trivial
  | commit i =>
    cases hi : s.slot i <;> simp only [step, hi]
    case calledBack u => exact .commit hi
    all_goals exact .nothing trivial
  | rollback i =>
    cases hi : s.slot i <;> simp only [step, hi]
    case inserted u => exact .rollback (.inl hi)
    case calledBack u => exact .rollback (.inr hi)
    all_goals exact .nothing fun v => by simp [hi]
  | login i =>
    cases hi : s.slot i <;> simp only [step, hi]
    case committed u => exact .login hi
    all_goals exact .nothing trivial
  | take k =>
    cases hk : s.queue[k]? <;> simp only [step, hk]
    case none => exact .nothing fun i u hi => by simp [hk] at hi
    case some i => exact .take hk

/-! ### Changing where an id stands -/

theorem slot_put (s : Mailroom) (i : ℕ) (x : Slot) (j : ℕ) : (s.put i x).slot j = if j = i then x else s.slot j := by
  simp [put, Function.update_apply]

/-- An id that is not rolled back. -/
theorem Clean.put (h : Clean s) (hx : x ≠ .rolledBack) : Clean (s.put i x) := by
  refine ⟨h.found, fun j hj => ?_⟩
  rw [slot_put]
  split_ifs
  · exact hx
  · exact h.kept j hj

theorem Clean.performLater (h : Clean s) (hi : s.slot i ≠ .rolledBack) : Clean (s.performLater i) := by
  refine ⟨h.found, fun j hj => ?_⟩
  rcases List.mem_append.mp hj with hj | hj
  · exact h.kept j hj
  · rw [List.mem_singleton.mp hj]
    exact hi

theorem Tidy.performLater (h : ∀ j ∈ s.queue, j ∈ s.queued)
    (hq : ∀ j ∈ s.queued, (∃ u, s.slot j = .calledBack u) ∨ ∃ u, s.slot j = .committed u)
    (hc : ∀ j u, s.slot j = .calledBack u → j ≠ i → j ∈ s.queued)
    (hi : (∃ u, s.slot i = .calledBack u) ∨ ∃ u, s.slot i = .committed u) : Tidy (s.performLater i) := by
  refine ⟨fun j hj => ?_, fun j hj => ?_, fun j u hj => ?_⟩
  · exact List.mem_append.mpr ((List.mem_append.mp hj).imp (h j) id)
  · rcases List.mem_append.mp hj with hj | hj
    · exact hq j hj
    · rw [List.mem_singleton.mp hj]
      exact hi
  · by_cases hji : j = i
    · exact List.mem_append.mpr (.inr (List.mem_singleton.mpr hji))
    · exact List.mem_append.mpr (.inl (hc j u hj hji))

theorem Tidy.put (h : Tidy s) (hq : i ∈ s.queued → (∃ u, x = .calledBack u) ∨ ∃ u, x = .committed u)
    (hx : ∀ u, x = .calledBack u → i ∈ s.queued) : Tidy (s.put i x) := by
  refine ⟨h.queue, fun j hj => ?_, fun j u hj => ?_⟩
  · rw [slot_put]
    split_ifs with hji
    · exact hq (hji ▸ hj)
    · exact h.queued j hj
  · rw [slot_put] at hj
    split_ifs at hj with hji
    · exact hji ▸ hx u hj
    · exact h.calledBack j u hj

/-- No job is queued for an id before its callback. -/
theorem Tidy.not_mem_queued (h : Tidy s) (hc : ∀ u, s.slot i ≠ .calledBack u) (hd : ∀ u, s.slot i ≠ .committed u) :
    i ∉ s.queued := by
  intro hi
  rcases h.queued i hi with ⟨u, hu⟩ | ⟨u, hu⟩
  · exact hc u hu
  · exact hd u hu

/-! ### Steps -/

/-- A worker finds the user of a job exactly when the creation is not between callback and commit. -/
theorem clean_take_iff (ht : Tidy s) (h : Clean s) {k : ℕ} (hk : s.queue[k]? = some i) :
    Clean { s with queue := s.queue.eraseIdx k, taken := s.taken ++ [(i, (s.slot i).row)] } ↔ Waits s (.take k) := by
  constructor
  · intro h' j u hj hslot
    obtain rfl : i = j := Option.some.inj (hk.symm.trans hj)
    have hfound := h'.found (i, (s.slot i).row) (List.mem_append.mpr (.inr (List.mem_singleton_self _)))
    rw [hslot] at hfound
    exact absurd hfound (by simp [Slot.row])
  · intro hw
    refine ⟨fun x hx => ?_, h.kept⟩
    rcases List.mem_append.mp hx with hx | hx
    · exact h.found x hx
    · -- the job was queued, so its user is committed
      rw [List.mem_singleton.mp hx]
      rcases ht.queued i (ht.queue i (List.mem_of_getElem? hk)) with ⟨u, hu⟩ | ⟨u, hu⟩
      · exact absurd hu (hw i u hk)
      · rw [hu]
        rfl

/-- A creation can be rolled back without leaving a job exactly when its callback has not run. -/
theorem clean_rollback_iff (ht : Tidy s) (h : Clean s) {u : User}
    (hi : s.slot i = .inserted u ∨ s.slot i = .calledBack u) : Clean (s.put i .rolledBack) ↔ Waits s (.rollback i) := by
  rcases hi with hi | hi
  · have hnot : i ∉ s.queued := ht.not_mem_queued (by simp [hi]) (by simp [hi])
    refine iff_of_true ⟨h.found, fun j hj => ?_⟩ fun v => by simp [hi]
    have hji : j ≠ i := fun hji => hnot (hji ▸ hj)
    rw [slot_put, if_neg hji]
    exact h.kept j hj
  · refine iff_of_false (fun h' => ?_) fun hw => hw u hi
    exact h'.kept i (ht.calledBack i u hi) (by rw [slot_put, if_pos rfl])

/-- **From a state in which all is well, exactly these steps keep it so.** -/
theorem clean_step_iff (ht : Tidy s) (h : Clean s) (e : MailEvent) : Clean (s.step e) ↔ Waits s e := by
  have hm := step_moves s e
  generalize s.step e = s' at hm
  cases hm with
  | nothing hw => exact iff_of_true h hw
  | insert hi => exact iff_of_true (h.put (by simp)) trivial
  | callback hi => exact iff_of_true ((h.put (by simp)).performLater (by simp [slot_put])) trivial
  | commit hi => exact iff_of_true (h.put (by simp)) trivial
  | rollback hi => exact clean_rollback_iff ht h hi
  | login hi => exact iff_of_true (h.performLater (by simp [hi])) trivial
  | take hk => exact clean_take_iff ht h hk

/-- A step that keeps all well keeps the books. -/
theorem Tidy.step (ht : Tidy s) (h : Clean s) (e : MailEvent) (h' : Clean (s.step e)) : Tidy (s.step e) := by
  have hw := (clean_step_iff ht h e).mp h'
  have hm := step_moves s e
  generalize s.step e = s' at hm
  cases hm with
  | nothing _ => exact ht
  | @insert i u hi =>
    have hnot : i ∉ s.queued := by rcases hi with hi | hi <;> exact ht.not_mem_queued (by simp [hi]) (by simp [hi])
    exact ht.put (fun hq => absurd hq hnot) (by simp)
  | @callback i u hi =>
    have hnot : i ∉ s.queued := ht.not_mem_queued (by simp [hi]) (by simp [hi])
    refine Tidy.performLater ht.queue (fun j hj => ?_) (fun j v hj hji => ?_) (.inl ⟨u, by rw [slot_put, if_pos rfl]⟩)
    · have hji : j ≠ i := fun hji => hnot (hji ▸ hj)
      rw [slot_put, if_neg hji]
      exact ht.queued j hj
    · rw [slot_put, if_neg hji] at hj
      exact ht.calledBack j v hj
  | commit hi => exact ht.put (fun _ => .inr ⟨_, rfl⟩) (by simp)
  | @rollback i u hi =>
    rcases hi with hi | hi
    · exact ht.put (fun hq => absurd hq (ht.not_mem_queued (by simp [hi]) (by simp [hi]))) (by simp)
    · exact absurd hi (hw u)
  | @login i u hi =>
    exact Tidy.performLater ht.queue ht.queued (fun j v hj _ => ht.calledBack j v hj) (.inr ⟨u, hi⟩)
  | take hk => exact ⟨fun j hj => ht.queue j (List.mem_of_mem_eraseIdx hj), ht.queued, ht.calledBack⟩

/-! ### Runs -/

theorem Clean.start (t : Table User) : Clean (Mailroom.start t) := ⟨by simp [Mailroom.start], by simp [Mailroom.start]⟩

theorem Tidy.start (t : Table User) : Tidy (Mailroom.start t) := by
  refine ⟨by simp [Mailroom.start], by simp [Mailroom.start], fun i u hi => ?_⟩
  simp only [Mailroom.start] at hi
  cases hu : t.find i <;> simp [hu] at hi

/-- **The welcome mail**: whatever users there are at the start, in every state of a run the worker has found the user
of every job it took, and no job was queued for a user whose creation is rolled back, exactly when no step of the run
takes the job of, or rolls back, a creation between its callback and its commit. -/
theorem clean_iff (t : Table User) (es : List MailEvent) :
    (∀ es₁ es₂, es = es₁ ++ es₂ → Clean (es₁.foldl Mailroom.step (.start t))) ↔
      Run Mailroom.step Waits (.start t) es (es.foldl Mailroom.step (.start t)) :=
  Run.forall_iff (I := Clean) (J := Tidy) (fun _ e ht _ h h' => ht.step h e h') (fun _ e ht _ h => clean_step_iff ht h e)
    (Tidy.start t) (Clean.start t) (Run.free _ es)

/-- A worker takes the job before the user is committed. -/
theorem not_clean_take (t : Table User) (u : User) :
    ¬ Clean ([.insert t.next u, .callback t.next, .take 0].foldl Mailroom.step (.start t)) := by
  intro h
  have hfound := h.found (t.next, none)
    (by simp [Mailroom.start, Mailroom.step, Table.find_next, put, performLater, Slot.row])
  cases hfound

/-- A creation is rolled back after its callback. -/
theorem not_clean_rollback (t : Table User) (u : User) :
    ¬ Clean ([.insert t.next u, .callback t.next, .rollback t.next].foldl Mailroom.step (.start t)) := by
  intro h
  refine h.kept t.next ?_ ?_ <;> simp [Mailroom.start, Mailroom.step, Table.find_next, put, performLater]

/-- Both happen to the first user. -/
theorem not_clean_first_user :
    ¬ Clean ([.insert 1 ⟨"Client", some .client, "client@mail.com", "password"⟩, .callback 1, .take 0].foldl
        Mailroom.step (.start .empty)) ∧
      ¬ Clean ([.insert 1 ⟨"Client", some .client, "client@mail.com", "password"⟩, .callback 1, .rollback 1].foldl
        Mailroom.step (.start .empty)) :=
  ⟨not_clean_take .empty _, not_clean_rollback .empty _⟩

/-! ### One creation -/

/-- The rows that others see are those of a table. -/
def Shows (s : Mailroom) (t : Table User) : Prop := ∀ i, (s.slot i).row = t.find i

/-- **One creation, with nothing in between, is `User#save`**: it shows the row that the save writes, and queues one
job for it. -/
theorem creation_alone {downcase : String → String} {db : DB} {p : UserParams} {role : Option Role}
    {confirmation : Option String} {u : User} (hv : User.validateNew downcase db p role confirmation = .ok u)
    (hs : Shows s db.users) (hfree : s.slot db.users.next = .free) :
    let s' := [.insert db.users.next u, .callback db.users.next, .commit db.users.next].foldl Mailroom.step s
    Shows s' ((User.save downcase p role confirmation).run db).2.users ∧ s'.queue = s.queue ++ [db.users.next] := by
  have hrun : [.insert db.users.next u, .callback db.users.next, .commit db.users.next].foldl Mailroom.step s =
      (s.put db.users.next (.committed u)).performLater db.users.next := by
    simp [Mailroom.step, hfree, put, performLater]
  rw [hrun, User.run_save_ok hv]
  refine ⟨fun i => ?_, rfl⟩
  show ((s.put db.users.next (.committed u)).slot i).row = (db.users.insert u).find i
  rw [slot_put, Table.find_insert]
  split_ifs
  · rfl
  · exact hs i

end FoodFactory
