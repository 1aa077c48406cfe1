import Mathlib.Algebra.BigOperators.Group.Finset.Basic
import FoodFactory.Store.Program

/-!
# What programs announce

A program may tell, by what it ends with, what it has added to the state: the id of a row it has
inserted. `f` is what the state has, in a commutative monoid, and `g` what a value announces. A
program is honest when each of its steps adds to `f` what it announces by that step: nothing as
long as it goes on, and what its value announces when it ends.

`Pool.run_announced`: in every schedule of honest programs, what was added is what was announced,
neither more nor less. Nothing is announced twice, and nothing is added in silence.
-/

namespace Store

variable {σ ε α β ι M : Type} [AddCommMonoid M]

namespace Program

/-- What the program has announced so far. -/
def announced (g : α → M) : Program σ ε α → M
  | .ret (.ok a) => g a
  | .ret (.error _) => 0
  | .step _ _ => 0

/-- Each step adds what the program announces by it. -/
def Announces (f : σ → M) (g : α → M) : Program σ ε α → Prop
  | .ret _ => True
  | .step m k => ∀ s, f (m.run s).2 = f s + ((step m k).next s).1.announced g ∧
      ∀ b, (m.run s).1 = .ok b → (k b).Announces f g

/-- Whatever the program ends with satisfies `Q`. -/
def Ends (Q : α → Prop) : Program σ ε α → Prop
  | .ret (.ok a) => Q a
  | .ret (.error _) => True
  | .step m k => ∀ s b, (m.run s).1 = .ok b → (k b).Ends Q

theorem Ends.lift {Q : α → Prop} {m : Action σ ε α} (h : ∀ s a, (m.run s).1 = .ok a → Q a) : (lift m).Ends Q := h

/-- A program that begins with one step. -/
theorem Ends.first {Q : α → Prop} {m : Action σ ε β} {k : β → Program σ ε α} (h : ∀ b, (k b).Ends Q) :
    (Program.lift m >>= k).Ends Q := fun _ b _ => h b

theorem Ends.bind {P : β → Prop} {Q : α → Prop} {p : Program σ ε β} {k : β → Program σ ε α} (h : p.Ends P)
    (hk : ∀ b, P b → (k b).Ends Q) : (p >>= k).Ends Q := by
  induction p with
  | ret r =>
    cases r with
    | error e => trivial
    | ok b => exact hk b h
  | step m k' ih => exact fun s b hb => ih b (h s b hb)

theorem ends_any (p : Program σ ε α) : p.Ends fun _ => True := by
  induction p with
  | ret r => cases r <;> trivial
  | step m k ih => exact fun _ b _ => ih b

variable {f : σ → M} {g : α → M}

theorem announced_of_ends {p : Program σ ε α} (h : p.Ends fun a => g a = 0) : p.announced g = 0 := by
  match p with
  | .ret (.ok a) => exact h
  | .ret (.error _) => rfl
  | .step _ _ => rfl

namespace Announces

/-- A program that begins with a step that adds nothing, and goes on. -/
theorem first {m : Action σ ε β} {k : β → Program σ ε α} (hm : ∀ s, f (m.run s).2 = f s)
    (hk : ∀ s b, (m.run s).1 = .ok b → (k b).announced g = 0 ∧ (k b).Announces f g) : (step m k).Announces f g := by
  refine fun s => ⟨?_, fun b hb => (hk s b hb).2⟩
  rw [hm s, next]
  have hk' := hk s
  rcases hrun : m.run s with ⟨e | b, s'⟩
  · exact (add_zero _).symm
  · show f s = f s + (k b).announced g
    rw [(hk' b (by rw [hrun])).1, add_zero]

/-- A program that adds nothing and announces nothing. -/
theorem of_steps {p : Program σ ε α} (h : p.Steps fun s s' => f s' = f s) (he : p.Ends fun a => g a = 0) :
    p.Announces f g := by
  induction p with
  | ret r => trivial
  | step m k ih =>
    exact first (fun s => (h s).1) fun s b hb => ⟨announced_of_ends (he s b hb), ih b ((h s).2 b hb) (he s b hb)⟩

/-- What is announced by the value in another form. -/
theorem map {p : Program σ ε α} (h : p.Announces f g) (g' : β → M) (w : α → β) (hg : ∀ a, g' (w a) = g a) :
    (p >>= fun a => (Pure.pure (w a) : Program σ ε β)).Announces f g' ∧
      (p >>= fun a => (Pure.pure (w a) : Program σ ε β)).announced g' = p.announced g := by
  induction p with
  | ret r =>
    cases r with
    | error e => exact ⟨trivial, rfl⟩
    | ok a => exact ⟨trivial, hg a⟩
  | step m k ih =>
    refine ⟨fun s => ⟨?_, fun b hb => (ih b ((h s).2 b hb)).1⟩, rfl⟩
    rw [(h s).1, next, next]
    have h' := (h s).2
    rcases hrun : m.run s with ⟨e | b, s'⟩
    · rfl
    · exact congrArg (f s + ·) (ih b (h' b (by rw [hrun]))).2.symm

/-- A step adds what it announces. -/
theorem next {p : Program σ ε α} (h : p.Announces f g) (s : σ) :
    (p.next s).1.Announces f g ∧
      ∃ d, f (p.next s).2 = f s + d ∧ (p.next s).1.announced g = p.announced g + d := by
  cases p with
  | ret r => exact ⟨trivial, 0, (add_zero _).symm, (add_zero _).symm⟩
  | step m k =>
    refine ⟨?_, _, (next_step_state m k s).symm ▸ (h s).1, (zero_add _).symm⟩
    have h' := (h s).2
    rw [Program.next]
    rcases hrun : m.run s with ⟨e | b, s'⟩
    · trivial
    · exact h' b (by rw [hrun])

end Announces

end Program

namespace Pool

variable [DecidableEq ι] {f : σ → M} {g : α → M}

theorem announces_run {P : Pool σ ε α ι} (h : ∀ k, (P.thread k).Announces f g) (ks : List ι) (k : ι) :
    ((P.run ks).thread k).Announces f g := by
  induction ks generalizing P with
  | nil => exact h k
  | cons k' ks ih =>
    exact ih fun j => forall_thread_turn (C := fun _ p => p.Announces f g) ((h k').next _).1 (fun j _ => h j) j

variable [Fintype ι]

/-- What all threads have announced. -/
def announced (g : α → M) (P : Pool σ ε α ι) : M := ∑ k, (P.thread k).announced g

/-- A turn adds what it announces. -/
theorem announced_turn {P : Pool σ ε α ι} (h : ∀ k, (P.thread k).Announces f g) (k : ι) :
    ∃ d, f (P.turn k).shared = f P.shared + d ∧ (P.turn k).announced g = P.announced g + d := by
  obtain ⟨-, d, hf, hd⟩ := (h k).next P.shared
  refine ⟨d, hf, ?_⟩
  have hothers : ∑ j ∈ Finset.univ.erase k, ((P.turn k).thread j).announced g =
      ∑ j ∈ Finset.univ.erase k, (P.thread j).announced g := by
    refine Finset.sum_congr rfl fun j hj => ?_
    rw [thread_turn_of_ne P (Finset.ne_of_mem_erase hj)]
  unfold announced
  rw [← Finset.add_sum_erase _ _ (Finset.mem_univ k), ← Finset.add_sum_erase _ _ (Finset.mem_univ k), hothers,
    thread_turn_self, hd, add_right_comm]

/-- **Honest pools**: in every schedule, what was added is what was announced. -/
theorem run_announced {P : Pool σ ε α ι} (h : ∀ k, (P.thread k).Announces f g)
    (hstart : ∀ k, (P.thread k).announced g = 0) (ks : List ι) :
    f (P.run ks).shared = f P.shared + (P.run ks).announced g := by
  induction ks using List.reverseRecOn with
  | nil =>
    have hnone : P.announced g = 0 := Finset.sum_eq_zero fun k _ => hstart k
    rw [run_nil, hnone, add_zero]
  | append_singleton ks k ih =>
    obtain ⟨d, hf, hd⟩ := announced_turn (announces_run h ks) k
    rw [run_append]
    show f ((P.run ks).turn k).shared = f P.shared + ((P.run ks).turn k).announced g
    rw [hf, hd, ih, add_assoc]

end Pool

end Store
