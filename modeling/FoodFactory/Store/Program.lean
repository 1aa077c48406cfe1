import Mathlib.Data.List.Induction
import Mathlib.Data.Set.Lattice
import Mathlib.Logic.Function.Basic
import FoodFactory.Store.Action

/-!
# Programs in steps, and their interleavings

An `Action` runs as a whole. A `Program` is a sequence of actions, its steps: each runs
as a whole, and between two of them other programs may run. `alone` is what a program
does when nothing comes between, and it is an action again.

A `Pool` is a shared state with any number of programs, its threads. A schedule is the
list of whose turn it is; a thread that has ended does nothing on its turn.

`Pool.run_inv` is the first rule for what holds for every schedule: when every step of every
thread is a move in `G` (`Program.Steps`), what the moves of `G` keep holds in every state. It is
the rule for what is true of all threads alike. `Store.Seen` and `Store.Discipline` have rules
for what a thread knows and for what it owns.
-/

namespace Store

variable {σ ε α β γ ι : Type}

/-- A program over states `σ` that ends with a value in `α` or an error in `ε`. -/
inductive Program (σ ε α : Type) : Type 1 where
  /-- It has ended. -/
  | ret (r : Except ε α)
  /-- The next step, and how the program goes on from its value. An error ends the program. -/
  | step {β : Type} (m : Action σ ε β) (k : β → Program σ ε α)

namespace Program

/-- Run `p`; if it ends with a value, go on with `f`. -/
protected def bind (p : Program σ ε α) (f : α → Program σ ε β) : Program σ ε β :=
  match p with
  | .ret (.ok a) => f a
  | .ret (.error e) => .ret (.error e)
  | .step m k => .step m fun b => (k b).bind f

instance : Monad (Program σ ε) where
  pure a := .ret (.ok a)
  bind := Program.bind

/-- A program of one step. -/
def lift (m : Action σ ε α) : Program σ ε α := .step m fun a => .ret (.ok a)

/-- Run `f` on each item, in order, up to the first failure. -/
def each (f : α → Program σ ε Unit) : List α → Program σ ε Unit
  | [] => pure ()
  | a :: l => do f a; each f l

/-- Run `f` on each item, in order, and collect the values. -/
def collect (f : α → Program σ ε β) : List α → Program σ ε (List β)
  | [] => pure []
  | a :: l => do
    let b ← f a
    let bs ← collect f l
    pure (b :: bs)

/-- The program, with nothing between its steps. -/
def alone : Program σ ε α → Action σ ε α
  | .ret r => fun s => (r, s)
  | .step m k => m >>= fun b => (k b).alone

/-- One step: how the program goes on, and the state it leaves. -/
def next (p : Program σ ε α) (s : σ) : Program σ ε α × σ :=
  match p with
  | .ret r => (.ret r, s)
  | .step m k =>
      match m.run s with
      | (.ok b, s') => (k b, s')
      | (.error e, s') => (.ret (.error e), s')

/-- What the program has ended with, if it has. -/
def result : Program σ ε α → Option (Except ε α)
  | .ret r => some r
  | .step _ _ => none

theorem result_eq_some {p : Program σ ε α} {r : Except ε α} : p.result = some r ↔ p = .ret r := by
  cases p with
  | ret r' => simp [result]
  | step m k => simp [result]

/-! ### Alone -/

@[simp] theorem alone_pure (a : α) : (pure a : Program σ ε α).alone = pure a := rfl

@[simp] theorem alone_bind (p : Program σ ε α) (f : α → Program σ ε β) :
    (p >>= f).alone = p.alone >>= fun a => (f a).alone := by
  induction p with
  | ret r => cases r <;> rfl
  | @step γ m k ih =>
    funext s
    show (m >>= fun b => ((k b) >>= f).alone).run s = ((m >>= fun b => (k b).alone) >>= fun a => (f a).alone).run s
    simp only [ih, Action.run_bind]
    rcases m.run s with ⟨e | b, s'⟩ <;> rfl

@[simp] theorem alone_lift (m : Action σ ε α) : (lift m).alone = m := by
  funext s
  show (m >>= fun a => (ret (.ok a) : Program σ ε α).alone).run s = m.run s
  rw [Action.run_bind]
  rcases m.run s with ⟨e | a, s'⟩ <;> rfl

@[simp] theorem alone_each (f : α → Program σ ε Unit) (l : List α) :
    (each f l).alone = Action.each (fun a => (f a).alone) l := by
  induction l with
  | nil => rfl
  | cons a l ih =>
    show (f a >>= fun _ => each f l).alone = _
    rw [alone_bind, ih]
    rfl

@[simp] theorem alone_collect (f : α → Program σ ε β) (l : List α) :
    (collect f l).alone = Action.collect (fun a => (f a).alone) l := by
  induction l with
  | nil => rfl
  | cons a l ih =>
    show (f a >>= fun b => collect f l >>= fun bs => pure (b :: bs)).alone = _
    simp only [alone_bind, ih, alone_pure]
    rfl

/-! ### One step -/

@[simp] theorem next_ret (r : Except ε α) (s : σ) : (ret r : Program σ ε α).next s = (.ret r, s) := rfl

theorem next_step_ok {m : Action σ ε β} {k : β → Program σ ε α} {s s' : σ} {b : β} (h : m.run s = (.ok b, s')) :
    (step m k).next s = (k b, s') := by
  rw [next, h]

theorem next_step_error {m : Action σ ε β} {k : β → Program σ ε α} {s s' : σ} {e : ε} (h : m.run s = (.error e, s')) :
    (step m k).next s = (.ret (.error e), s') := by
  rw [next, h]

/-- The state that a step leaves is the state that its action leaves. -/
theorem next_step_state (m : Action σ ε β) (k : β → Program σ ε α) (s : σ) :
    ((step m k).next s).2 = (m.run s).2 := by
  rw [next]
  rcases m.run s with ⟨e | b, s'⟩ <;> rfl

/-- Every step that the program can come to, from every state, is a move in `G`. -/
def Steps (G : σ → σ → Prop) : Program σ ε α → Prop
  | .ret _ => True
  | .step m k => ∀ s, G s (m.run s).2 ∧ ∀ b, (m.run s).1 = .ok b → (k b).Steps G

namespace Steps

variable {G G' : σ → σ → Prop}

theorem lift {m : Action σ ε α} (h : ∀ s, G s (m.run s).2) : (lift m).Steps G :=
  fun s => ⟨h s, fun _ _ => trivial⟩

/-- A program that begins with a step, and goes on from a value that the step can have. -/
theorem first {m : Action σ ε β} {f : β → Program σ ε α} (h : ∀ s, G s (m.run s).2)
    (hf : ∀ s b, (m.run s).1 = .ok b → (f b).Steps G) : (Program.lift m >>= f).Steps G :=
  fun s => ⟨h s, hf s⟩

theorem bind {p : Program σ ε α} {f : α → Program σ ε β} (h : p.Steps G) (hf : ∀ a, (f a).Steps G) :
    (p >>= f).Steps G := by
  induction p with
  | ret r =>
    cases r with
    | error e => trivial
    | ok a => exact hf a
  | step m k ih => exact fun s => ⟨(h s).1, fun b hb => ih b ((h s).2 b hb)⟩

theorem each {f : α → Program σ ε Unit} (h : ∀ a, (f a).Steps G) (l : List α) : (each f l).Steps G := by
  induction l with
  | nil => trivial
  | cons a l ih => exact bind (h a) fun _ => ih

theorem collect {f : α → Program σ ε β} (h : ∀ a, (f a).Steps G) (l : List α) : (collect f l).Steps G := by
  induction l with
  | nil => trivial
  | cons a l ih => exact bind (h a) fun _ => bind ih fun _ => trivial

theorem mono (hG : ∀ s s', G s s' → G' s s') {p : Program σ ε α} (h : p.Steps G) : p.Steps G' := by
  induction p with
  | ret r => trivial
  | step m k ih => exact fun s => ⟨hG _ _ (h s).1, fun b hb => ih b ((h s).2 b hb)⟩

/-- After a step, the rest of the program is as good. -/
theorem next {p : Program σ ε α} (h : p.Steps G) (s : σ) : (p.next s).1.Steps G := by
  cases p with
  | ret r => trivial
  | step m k =>
    rw [Program.next]
    rcases hm : m.run s with ⟨e | b, s'⟩
    · trivial
    · exact (h s).2 b (by rw [hm])

/-- A step is a move, or the program has ended. -/
theorem next_state {p : Program σ ε α} (h : p.Steps G) (s : σ) : (p.next s).2 = s ∨ G s (p.next s).2 := by
  cases p with
  | ret r => exact .inl rfl
  | step m k =>
    rw [next_step_state]
    exact .inr (h s).1

end Steps

/-- From the states in `J` the program only reads, and it ends with an error. -/
def Refused (J : σ → Prop) : Program σ ε α → Prop
  | .ret (.ok _) => False
  | .ret (.error _) => True
  | .step m k => ∀ s, J s → (m.run s).2 = s ∧ ∀ b, (m.run s).1 = .ok b → (k b).Refused J

namespace Refused

variable {J : σ → Prop}

/-- A program that begins with a filter. -/
theorem filter {m : Action σ ε β} {f : β → Program σ ε α} {P : σ → β → Prop} (hm : ∀ s, m.Filters s (P s))
    (hf : ∀ s b, J s → P s b → (f b).Refused J) : (Program.lift m >>= f).Refused J :=
  fun s hs => ⟨(hm s).1, fun b hb => hf s b hs (((hm s).2 b).mp hb)⟩

theorem bind {p : Program σ ε α} (h : p.Refused J) (f : α → Program σ ε β) : (p >>= f).Refused J := by
  induction p with
  | ret r =>
    cases r with
    | error e => trivial
    | ok a => exact h.elim
  | step m k ih => exact fun s hs => ⟨(h s hs).1, fun b hb => ih b ((h s hs).2 b hb)⟩

theorem next {p : Program σ ε α} (h : p.Refused J) {s : σ} (hs : J s) :
    (p.next s).1.Refused J ∧ (p.next s).2 = s := by
  cases p with
  | ret r => exact ⟨h, rfl⟩
  | step m k =>
    obtain ⟨hread, hk⟩ := h s hs
    rw [Program.next]
    rcases hm : m.run s with ⟨e | b, s'⟩
    · rw [hm] at hread
      exact ⟨trivial, hread⟩
    · rw [hm] at hread hk
      exact ⟨hk b rfl, hread⟩

theorem result_ne {p : Program σ ε α} (h : p.Refused J) (a : α) : p.result ≠ some (.ok a) := by
  intro hr
  rw [result_eq_some.mp hr] at h
  exact h

end Refused

end Program

/-! ### Pools -/

/-- A shared state, and a program in each thread. -/
structure Pool (σ ε α ι : Type) : Type 1 where
  shared : σ
  thread : ι → Program σ ε α

namespace Pool

variable [DecidableEq ι]

/-- Thread `k` takes its turn. -/
def turn (P : Pool σ ε α ι) (k : ι) : Pool σ ε α ι where
  shared := ((P.thread k).next P.shared).2
  thread := Function.update P.thread k ((P.thread k).next P.shared).1

/-- The threads take their turns in the order of the schedule. -/
def run (P : Pool σ ε α ι) (ks : List ι) : Pool σ ε α ι := ks.foldl turn P

@[simp] theorem run_nil (P : Pool σ ε α ι) : P.run [] = P := rfl

@[simp] theorem run_cons (P : Pool σ ε α ι) (k : ι) (ks : List ι) : P.run (k :: ks) = (P.turn k).run ks := rfl

theorem run_append (P : Pool σ ε α ι) (ks ks' : List ι) : P.run (ks ++ ks') = (P.run ks).run ks' :=
  List.foldl_append

theorem thread_turn_self (P : Pool σ ε α ι) (k : ι) : (P.turn k).thread k = ((P.thread k).next P.shared).1 :=
  Function.update_self ..

theorem thread_turn_of_ne (P : Pool σ ε α ι) {k k' : ι} (h : k' ≠ k) : (P.turn k).thread k' = P.thread k' :=
  Function.update_of_ne h ..

/-- What is true of all threads after a turn: the one whose turn it was has moved on. -/
theorem forall_thread_turn {P : Pool σ ε α ι} {k : ι} {C : ι → Program σ ε α → Prop}
    (hk : C k ((P.thread k).next P.shared).1) (ho : ∀ j, j ≠ k → C j (P.thread j)) (j : ι) :
    C j ((P.turn k).thread j) := by
  by_cases hj : j = k
  · subst hj
    rwa [thread_turn_self]
  · rw [thread_turn_of_ne P hj]
    exact ho j hj

/-- A thread that has had no turn is as it was. -/
theorem thread_run_of_notMem (P : Pool σ ε α ι) {ks : List ι} {k : ι} (h : k ∉ ks) :
    (P.run ks).thread k = P.thread k := by
  induction ks generalizing P with
  | nil => rfl
  | cons k' ks ih =>
    rw [List.mem_cons, not_or] at h
    rw [run_cons, ih (P.turn k') h.2, thread_turn_of_ne P h.1]

/-- A thread that ends on its first turn and does nothing, in every state that can come: so do all its turns. -/
theorem run_ends {J : σ → Prop} {P : Pool σ ε α ι} {k : ι} {r : Except ε α}
    (h : ∀ s, J s → (P.thread k).next s = (.ret r, s)) (hJ : ∀ ks, J (P.run ks).shared) (ks : List ι) :
    (P.run (ks ++ [k])).shared = (P.run ks).shared ∧ ((P.run (ks ++ [k])).thread k).result = some r := by
  have hthread : (P.run ks).thread k = P.thread k ∨ (P.run ks).thread k = .ret r := by
    induction ks using List.reverseRecOn with
    | nil => exact .inl rfl
    | append_singleton ks k' ih =>
      rw [run_append, run_cons, run_nil]
      by_cases hk : k = k'
      · subst hk
        rw [thread_turn_self]
        rcases ih with ih | ih
        · rw [ih, h _ (hJ ks)]
          exact .inr rfl
        · rw [ih]
          exact .inr rfl
      · rwa [thread_turn_of_ne _ hk]
  have hnext : ((P.run ks).thread k).next (P.run ks).shared = (.ret r, (P.run ks).shared) := by
    rcases hthread with hk | hk
    · rw [hk, h _ (hJ ks)]
    · rw [hk, Program.next_ret]
  rw [run_append, run_cons, run_nil, thread_turn_self, hnext]
  exact ⟨congrArg Prod.snd hnext, rfl⟩

/-- **A thread that is refused** in all the states that can come: none of its turns does anything, and it does not end with
a value. -/
theorem run_refused {J : σ → Prop} {P : Pool σ ε α ι} {k : ι} (h : (P.thread k).Refused J)
    (hJ : ∀ ks, J (P.run ks).shared) (ks : List ι) :
    (P.run (ks ++ [k])).shared = (P.run ks).shared ∧ ∀ a, ((P.run ks).thread k).result ≠ some (.ok a) := by
  have hthread : ((P.run ks).thread k).Refused J := by
    induction ks using List.reverseRecOn with
    | nil => exact h
    | append_singleton ks k' ih =>
      rw [run_append, run_cons, run_nil]
      by_cases hk : k = k'
      · subst hk
        rw [thread_turn_self]
        exact (ih.next (hJ ks)).1
      · rwa [thread_turn_of_ne _ hk]
  refine ⟨?_, hthread.result_ne⟩
  rw [run_append]
  exact (hthread.next (hJ ks)).2

/-- The threads of a pool stay within `G`. -/
theorem steps_run {G : σ → σ → Prop} {P : Pool σ ε α ι} (h : ∀ k, (P.thread k).Steps G) (ks : List ι) (k : ι) :
    ((P.run ks).thread k).Steps G := by
  induction ks generalizing P with
  | nil => exact h k
  | cons k' ks ih =>
    exact ih fun j => forall_thread_turn (C := fun _ p => p.Steps G) ((h k').next _) (fun j _ => h j) j

/-- **Invariants of pools**: what every move in `G` keeps holds in every state of every schedule. -/
theorem run_inv {G : σ → σ → Prop} {I : σ → Prop} (hI : ∀ s s', I s → G s s' → I s') {P : Pool σ ε α ι}
    (h : ∀ k, (P.thread k).Steps G) (hs : I P.shared) (ks : List ι) : I (P.run ks).shared := by
  induction ks using List.reverseRecOn with
  | nil => exact hs
  | append_singleton ks k ih =>
    rw [run_append]
    show I (((P.run ks).thread k).next (P.run ks).shared).2
    rcases (steps_run h ks k).next_state (P.run ks).shared with hn | hG
    · rwa [hn]
    · exact hI _ _ ih hG

/-- From any state of a schedule to any later one. -/
theorem run_rel {G R : σ → σ → Prop} (hrefl : ∀ s, R s s) (htrans : ∀ s s' s'', R s s' → R s' s'' → R s s'')
    (hR : ∀ s s', G s s' → R s s') {P : Pool σ ε α ι} (h : ∀ k, (P.thread k).Steps G) (ks ks' : List ι) :
    R (P.run ks).shared (P.run (ks ++ ks')).shared := by
  rw [run_append]
  exact run_inv (I := R (P.run ks).shared) (fun s s' hs hG => htrans _ s s' hs (hR s s' hG)) (steps_run h ks) (hrefl _) ks'

end Pool

end Store
