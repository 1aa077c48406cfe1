import Mathlib.Data.List.Basic

/-!
# Runs of a machine

A machine is a function `step` from a state and an event to the next state. A
run is a sequence of events from a state, in which each event meets a condition
`guard` on it and the state before it. `Run.inv` is the rule for invariants: what
holds at the start and is kept by every step that meets the condition holds at
the end, and so, as the beginning of a run is a run, in every state of the run.

`Happened` and `Since` speak of the past: some event of a run satisfied a condition
when it came, and none after it satisfied another.
-/

namespace Store

variable {σ ι : Type} {step : σ → ι → σ} {guard : σ → ι → Prop}

/-- `Run step guard s es s'`: the events `es`, each meeting `guard` when its turn
comes, lead from `s` to `s'`. -/
inductive Run (step : σ → ι → σ) (guard : σ → ι → Prop) : σ → List ι → σ → Prop
  /-- Nothing happens. -/
  | nil {s : σ} : Run step guard s [] s
  /-- An event, and the rest of the run. -/
  | cons {s s' : σ} {e : ι} {es : List ι} : guard s e → Run step guard (step s e) es s' →
      Run step guard s (e :: es) s'

namespace Run

/-- **Invariants**: what every step keeps holds at the end of a run that starts with it. -/
theorem inv {I : σ → Prop} (hstep : ∀ s e, I s → guard s e → I (step s e)) {s s' : σ} {es : List ι}
    (h : Run step guard s es s') (hs : I s) : I s' := by
  induction h with
  | nil => exact hs
  | cons hg _ ih => exact ih (hstep _ _ hs hg)

/-- A run of a stronger condition is a run of a weaker one. -/
theorem mono {guard' : σ → ι → Prop} (hg : ∀ s e, guard s e → guard' s e) {s s' : σ} {es : List ι}
    (h : Run step guard s es s') : Run step guard' s es s' := by
  induction h with
  | nil => exact .nil
  | cons h _ ih => exact .cons (hg _ _ h) ih

/-- A run continued by a run. -/
theorem append {s s' s'' : σ} {es es' : List ι} (h : Run step guard s es s')
    (h' : Run step guard s' es' s'') : Run step guard s (es ++ es') s'' := by
  induction h with
  | nil => exact h'
  | cons hg _ ih => exact .cons hg (ih h')

/-- The beginning of a run is a run, and so is the rest. -/
theorem split {s s'' : σ} {es es' : List ι} (h : Run step guard s (es ++ es') s'') :
    ∃ s', Run step guard s es s' ∧ Run step guard s' es' s'' := by
  induction es generalizing s with
  | nil => exact ⟨s, .nil, h⟩
  | cons e es ih =>
    cases h with
    | cons hg h =>
      obtain ⟨s', h₁, h₂⟩ := ih h
      exact ⟨s', .cons hg h₁, h₂⟩

/-- The run of given events, when each of them meets the condition. -/
theorem foldl_eq {s s' : σ} {es : List ι} (h : Run step guard s es s') : es.foldl step s = s' := by
  induction h with
  | nil => rfl
  | cons _ _ ih => exact ih

/-- Every sequence of events is a run, when nothing is asked of them. -/
theorem free (s : σ) (es : List ι) : Run step (fun _ _ => True) s es (es.foldl step s) := by
  induction es generalizing s with
  | nil => exact .nil
  | cons e es ih => exact .cons trivial (ih _)

/-- **Exact conditions**: when, in the states that satisfy `J`, an invariant is kept by exactly the steps that meet
the condition, it holds throughout exactly the runs in which every step meets it. That `J` is kept is asked only of
the steps that keep the invariant. -/
theorem forall_iff {guard₀ : σ → ι → Prop} {I J : σ → Prop}
    (hJ : ∀ s e, J s → guard₀ s e → I s → I (step s e) → J (step s e))
    (hI : ∀ s e, J s → guard₀ s e → I s → (I (step s e) ↔ guard s e)) {s s' : σ} {es : List ι} (hJs : J s) (hIs : I s)
    (h : Run step guard₀ s es s') :
    (∀ es₁ es₂, es = es₁ ++ es₂ → I (es₁.foldl step s)) ↔ Run step guard s es s' := by
  induction h with
  | nil =>
    refine iff_of_true (fun es₁ es₂ h => ?_) .nil
    obtain ⟨rfl, rfl⟩ := List.append_eq_nil_iff.mp h.symm
    exact hIs
  | @cons s s' e es hg _ ih =>
    constructor
    · intro h
      have he : I (step s e) := h [e] es rfl
      refine .cons ((hI s e hJs hg hIs).mp he) ((ih (hJ s e hJs hg hIs he) he).mp fun es₁ es₂ hes => ?_)
      exact h (e :: es₁) es₂ (by rw [hes, List.cons_append])
    · intro h es₁ es₂ hes
      cases h with
      | cons hg' h =>
        have he : I (step s e) := (hI s e hJs hg hIs).mpr hg'
        cases es₁ with
        | nil => exact hIs
        | cons e' es₁ =>
          obtain ⟨rfl, rfl⟩ := List.cons_eq_cons.mp hes
          exact (ih (hJ s e hJs hg hIs he) he).mpr h es₁ es₂ rfl

end Run

/-! ### What happened in a run -/

/-- Among the events `es` from `s` there is one that satisfies `P`, together with the state before it. -/
def Happened (step : σ → ι → σ) (s : σ) (es : List ι) (P : σ → ι → Prop) : Prop :=
  ∃ es₁ e es₂, es = es₁ ++ e :: es₂ ∧ P (es₁.foldl step s) e

namespace Happened

variable {s : σ} {es : List ι} {P Q : σ → ι → Prop}

theorem not_nil : ¬ Happened step s [] P := by
  rintro ⟨es₁, e, es₂, h, -⟩
  exact List.cons_ne_nil e es₂ (List.append_eq_nil_iff.mp h.symm).2

/-- What happened stays so. -/
theorem append (h : Happened step s es P) (es' : List ι) : Happened step s (es ++ es') P := by
  obtain ⟨es₁, e, es₂, rfl, hP⟩ := h
  exact ⟨es₁, e, es₂ ++ es', by simp, hP⟩

/-- With one more event: it happened before, or by this event. -/
theorem concat_iff {e : ι} : Happened step s (es ++ [e]) P ↔ Happened step s es P ∨ P (es.foldl step s) e := by
  constructor
  · rintro ⟨es₁, e', es₂, h, hP⟩
    rcases List.eq_nil_or_concat es₂ with rfl | ⟨es₂, e'', rfl⟩
    · obtain ⟨rfl, hee⟩ := List.append_inj' h rfl
      cases hee
      exact .inr hP
    · refine .inl ⟨es₁, e', es₂, ?_, hP⟩
      rw [List.concat_eq_append, ← List.cons_append, ← List.append_assoc] at h
      exact (List.append_inj' h rfl).1
  · rintro (h | h)
    · exact h.append [e]
    · exact ⟨es, e, [], rfl, h⟩

end Happened

/-- Among the events `es` from `s` there is one that satisfies `P`, and none after it satisfies `Q`. -/
def Since (step : σ → ι → σ) (s : σ) (es : List ι) (P Q : σ → ι → Prop) : Prop :=
  ∃ es₁ e es₂, es = es₁ ++ e :: es₂ ∧ P (es₁.foldl step s) e ∧ ¬ Happened step (step (es₁.foldl step s) e) es₂ Q

namespace Since

variable {s : σ} {es : List ι} {P Q : σ → ι → Prop}

theorem not_nil : ¬ Since step s [] P Q := by
  rintro ⟨es₁, e, es₂, h, -⟩
  exact List.cons_ne_nil e es₂ (List.append_eq_nil_iff.mp h.symm).2

/-- With one more event: it satisfies `P`, or it does not satisfy `Q` and the rest is as before. -/
theorem concat_iff {e : ι} : Since step s (es ++ [e]) P Q ↔
    P (es.foldl step s) e ∨ (Since step s es P Q ∧ ¬ Q (es.foldl step s) e) := by
  constructor
  · rintro ⟨es₁, e', es₂, h, hP, hQ⟩
    rcases List.eq_nil_or_concat es₂ with rfl | ⟨es₂, e'', rfl⟩
    · obtain ⟨rfl, hee⟩ := List.append_inj' h rfl
      cases hee
      exact .inl hP
    · rw [List.concat_eq_append] at h hQ
      rw [← List.cons_append, ← List.append_assoc] at h
      obtain ⟨rfl, hee⟩ := List.append_inj' h rfl
      cases hee
      rw [Happened.concat_iff, not_or] at hQ
      refine .inr ⟨⟨es₁, e', es₂, rfl, hP, hQ.1⟩, ?_⟩
      rw [List.foldl_append]
      exact hQ.2
  · rintro (h | ⟨⟨es₁, e', es₂, rfl, hP, hQ⟩, hQe⟩)
    · exact ⟨es, e, [], rfl, h, Happened.not_nil⟩
    · refine ⟨es₁, e', es₂ ++ [e], by simp, hP, ?_⟩
      rw [Happened.concat_iff, not_or]
      rw [List.foldl_append] at hQe
      exact ⟨hQ, hQe⟩

end Since

end Store
