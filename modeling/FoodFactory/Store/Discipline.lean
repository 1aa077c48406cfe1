import Mathlib.Order.CompletePartialOrder
import FoodFactory.Store.Program

/-!
# Relying on others

A thread may own things, such as the rows that it has inserted, and relies on the others to leave
these alone. A `Discipline` says what a thread with given possessions relies on and what it
guarantees in turn, with the laws that make the two fit. What comes into use by a step belongs
to the thread that took it.

`Discipline.Shared.run`: when every thread is `Safe`, that is, keeps its guarantees as long as the
others keep theirs, all of them do, whatever the schedule is, and each ends as it promised. The
threads own different things all along.
-/

namespace Store

variable {σ ε α β γ ι : Type}

/-- What threads that own things in `ρ` rely on and guarantee. -/
structure Discipline (σ ρ : Type) where
  /-- What there is to own. -/
  used : σ → Set ρ
  /-- What a thread that owns `A` relies on, from one of its steps to the next. -/
  rely : Set ρ → σ → σ → Prop
  /-- What a thread that owns `A` guarantees of each of its steps. -/
  guar : Set ρ → σ → σ → Prop
  refl : ∀ A s, rely A s s
  trans : ∀ A s s' s'', rely A s s' → rely A s' s'' → rely A s s''
  /-- Nothing is used up. -/
  used_mono : ∀ A s s', guar A s s' → used s ⊆ used s'
  /-- What others guarantee is what a thread relies on. -/
  compat : ∀ A B s s', A ⊆ used s → Disjoint A B → guar B s s' → rely A s s'

namespace Discipline

variable {ρ : Type} (D : Discipline σ ρ)

/-- From `s`, as long as the others do what it relies on, a thread that owns `A` keeps its guarantees, and ends as `Q`
says. What comes into use by a step of its own is its own. -/
def Safe (Q : Set ρ → Except ε α → σ → Prop) : Set ρ → Program σ ε α → σ → Prop
  | A, .ret r, s => ∀ s', D.rely A s s' → Q A r s'
  | A, .step m k, s => ∀ s', D.rely A s s' →
      D.guar A s' (m.run s').2 ∧
        match (m.run s').1 with
        | .ok b => Safe Q (A ∪ D.used (m.run s').2 \ D.used s') (k b) (m.run s').2
        | .error e => ∀ s'', D.rely (A ∪ D.used (m.run s').2 \ D.used s') (m.run s').2 s'' →
            Q (A ∪ D.used (m.run s').2 \ D.used s') (.error e) s''

variable {D} {Q : Set ρ → Except ε α → σ → Prop} {A : Set ρ} {p : Program σ ε α} {s s' : σ}

/-- A thread stays safe while the others take their turns. -/
theorem Safe.rely (h : D.Safe Q A p s) (hr : D.rely A s s') : D.Safe Q A p s' := by
  cases p with
  | ret r => exact fun s'' h'' => h s'' (D.trans _ _ _ _ hr h'')
  | step m k => exact fun s'' h'' => h s'' (D.trans _ _ _ _ hr h'')

/-- A step of a safe thread is guaranteed, and what it goes on with is safe. -/
theorem Safe.next (h : D.Safe Q A p s) :
    (p.next s).2 = s ∧ (p.next s).1 = p ∨ D.guar A s (p.next s).2 ∧
      D.Safe Q (A ∪ D.used (p.next s).2 \ D.used s) (p.next s).1 (p.next s).2 := by
  cases p with
  | ret r => exact .inl ⟨rfl, rfl⟩
  | step m k =>
    right
    have hs := h s (D.refl A s)
    rw [Program.next]
    rcases hm : m.run s with ⟨e | b, s'⟩
    · rw [hm] at hs
      exact hs
    · rw [hm] at hs
      exact hs

/-- What a safe thread that has ended says of the state. -/
theorem Safe.post {r : Except ε α} (h : D.Safe Q A (.ret r) s) : Q A r s := h s (D.refl A s)

/-- A weaker promise about the end. -/
theorem Safe.mono {Q' : Set ρ → Except ε α → σ → Prop} (h : D.Safe Q A p s) (hQ : ∀ A r s, Q A r s → Q' A r s) :
    D.Safe Q' A p s := by
  induction p generalizing A s with
  | ret r => exact fun s' hr => hQ _ _ _ (h s' hr)
  | step m k ih =>
    intro s' hr
    obtain ⟨hg, hs⟩ := h s' hr
    refine ⟨hg, ?_⟩
    rcases hm : (m.run s').1 with e | b
    · rw [hm] at hs
      exact fun s'' hr' => hQ _ _ _ (hs s'' hr')
    · rw [hm] at hs
      exact ih b hs

/-- A program that goes on from what another one ensures. -/
theorem Safe.bind {Q' : Set ρ → Except ε β → σ → Prop} {p : Program σ ε β} {f : β → Program σ ε α}
    (h : D.Safe Q' A p s) (hf : ∀ A b s, Q' A (.ok b) s → D.Safe Q A (f b) s)
    (he : ∀ A e s, Q' A (.error e) s → Q A (.error e) s) : D.Safe Q A (p >>= f) s := by
  induction p generalizing A s with
  | ret r =>
    cases r with
    | error e => exact fun s' hr => he _ _ _ (h s' hr)
    | ok b => exact hf A b s h.post
  | step m k ih =>
    intro s' hr
    obtain ⟨hg, hs⟩ := h s' hr
    refine ⟨hg, ?_⟩
    rcases hm : (m.run s').1 with e | b
    · rw [hm] at hs
      exact fun s'' hr' => he _ _ _ (hs s'' hr')
    · rw [hm] at hs
      exact ih b hs

/-- A program that ends with a function of what another one ends with. -/
theorem Safe.map {T : Set ρ → Except ε β → σ → Prop} {p : Program σ ε β} {f : β → α} (h : D.Safe T A p s)
    (hQ : ∀ A r s, T A r s → Q A (r.map f) s) : D.Safe Q A (p >>= fun b => pure (f b)) s := by
  induction p generalizing A s with
  | ret r =>
    cases r with
    | error e => exact fun s' hr => hQ _ _ _ (h s' hr)
    | ok b => exact fun s' hr => hQ _ _ _ (h s' hr)
  | step m k ih =>
    intro s' hr
    obtain ⟨hg, hs⟩ := h s' hr
    refine ⟨hg, ?_⟩
    rcases hm : (m.run s').1 with e | b
    · rw [hm] at hs
      exact fun s'' hr' => hQ _ _ _ (hs s'' hr')
    · rw [hm] at hs
      exact ih b hs

/-- A program whose steps are all guaranteed, whatever it owns. -/
theorem Safe.of_steps (h : ∀ A, p.Steps (D.guar A)) (A : Set ρ) (s : σ) : D.Safe (fun _ _ _ => True) A p s := by
  induction p generalizing A s with
  | ret r => exact fun _ _ => trivial
  | step m k ih =>
    intro s' _
    refine ⟨((h A) s').1, ?_⟩
    have hnext (b) (hb : (m.run s').1 = .ok b) (A : Set ρ) : (k b).Steps (D.guar A) := ((h A) s').2 b hb
    rcases hm : (m.run s').1 with e | b
    · exact fun _ _ => trivial
    · exact ih b (hnext b hm) _ _

/-- What a thread that owns `A` can keep: the others do not undo it. -/
def Stable (D : Discipline σ ρ) (A : Set ρ) (J : σ → Prop) : Prop := ∀ s s', J s → D.rely A s s' → J s'

/-- A program that begins with a filter, from a state of which something is known. -/
theorem Safe.filter {m : Action σ ε β} {f : β → Program σ ε α} {P : σ → β → Prop} {J : σ → Prop} (hJ : D.Stable A J)
    (hm : ∀ s, m.Filters s (P s)) (hguar : ∀ s, D.guar A s s) (he : ∀ e s, J s → Q A (.error e) s)
    (hf : ∀ s b, J s → P s b → D.Safe Q A (f b) s) (hs : J s) : D.Safe Q A (Program.lift m >>= f) s := by
  intro s' hr
  have hs' := hJ s s' hs hr
  rw [(hm s').1, Set.sdiff_self, Set.union_empty]
  refine ⟨hguar s', ?_⟩
  rcases hm' : (m.run s').1 with e | b
  · exact fun s'' hr' => he e s'' (hJ s' s'' hs' hr')
  · exact hf s' b hs' (((hm s').2 b).mp hm')

/-- The same filter for each item of a list: what is known stays known, and each value is one that the filter lets pass
at some time. -/
theorem Safe.collect {m : γ → Action σ ε β} {P : γ → σ → β → Prop} {R : γ → β → Prop} {J : σ → Prop}
    (hJ : D.Stable A J) (hm : ∀ c s, (m c).Filters s (P c s)) (hR : ∀ c s b, P c s b → R c b)
    (hguar : ∀ s, D.guar A s s) (l : List γ) (hs : J s) :
    D.Safe (fun A' r s => A' = A ∧ J s ∧ ∀ bs, r = .ok bs → List.Forall₂ R l bs) A
      (Program.collect (fun c => Program.lift (m c)) l) s := by
  induction l generalizing s with
  | nil =>
    refine fun s' hr => ⟨rfl, hJ s s' hs hr, fun bs hbs => ?_⟩
    cases hbs
    exact .nil
  | cons c l ih =>
    refine Safe.filter hJ (hm c) hguar (fun e s hs => ⟨rfl, hs, fun _ h => by cases h⟩) (fun s b hs hb => ?_) hs
    refine (ih hs).bind (fun A' bs s h s' hr => ?_) fun A' e s h => ⟨h.1, h.2.1, fun _ h => by cases h⟩
    obtain ⟨rfl, hs, hbs⟩ := h
    refine ⟨rfl, hJ s s' hs hr, fun bs' hbs' => ?_⟩
    cases hbs'
    exact .cons (hR c _ b hb) (hbs bs rfl)

variable [DecidableEq ι] (D)

/-- The threads own different things, and each is safe with what it owns. -/
structure Shared (Q : ι → Set ρ → Except ε α → σ → Prop) (A : ι → Set ρ) (P : Pool σ ε α ι) : Prop where
  disjoint : ∀ k k', k ≠ k' → Disjoint (A k) (A k')
  used : ∀ k, A k ⊆ D.used P.shared
  safe : ∀ k, D.Safe (Q k) (A k) (P.thread k) P.shared

variable {D} {Q : ι → Set ρ → Except ε α → σ → Prop} {A : ι → Set ρ} {P : Pool σ ε α ι}

/-- When a thread takes its turn, what comes into use is its own, and all stay safe. -/
theorem Shared.turn (h : D.Shared Q A P) (k : ι) :
    D.Shared Q (Function.update A k (A k ∪ D.used (P.turn k).shared \ D.used P.shared)) (P.turn k) := by
  have hshared : (P.turn k).shared = ((P.thread k).next P.shared).2 := rfl
  rcases (h.safe k).next with ⟨hs, hp⟩ | ⟨hg, hsafe⟩
  · -- the thread has ended
    rw [hshared, hs, Set.sdiff_self, Set.union_empty, Function.update_eq_self]
    refine ⟨h.disjoint, ?_, ?_⟩
    · rw [hshared, hs]
      exact h.used
    · rw [hshared, hs]
      refine Pool.forall_thread_turn (C := fun j p => D.Safe (Q j) (A j) p P.shared) ?_ fun j _ => h.safe j
      rw [hp]
      exact h.safe k
  · rw [← hshared] at hg hsafe
    have hmono := D.used_mono _ _ _ hg
    -- what is new is owned by nobody else
    have hnew (j : ι) : Disjoint (A j) (D.used (P.turn k).shared \ D.used P.shared) :=
      Set.disjoint_left.mpr fun x hx hx' => hx'.2 (h.used j hx)
    refine ⟨fun i j hij => ?_, fun j => ?_, fun j => ?_⟩
    · by_cases hi : i = k
      · subst hi
        rw [Function.update_self, Function.update_of_ne (Ne.symm hij)]
        exact Disjoint.sup_left (h.disjoint i j hij) (hnew j).symm
      · by_cases hj : j = k
        · subst hj
          rw [Function.update_self, Function.update_of_ne hij]
          exact Disjoint.sup_right (h.disjoint i j hij) (hnew i)
        · rw [Function.update_of_ne hi, Function.update_of_ne hj]
          exact h.disjoint i j hij
    · by_cases hj : j = k
      · subst hj
        rw [Function.update_self]
        exact Set.union_subset ((h.used j).trans hmono) Set.sdiff_subset
      · rw [Function.update_of_ne hj]
        exact (h.used j).trans hmono
    · by_cases hj : j = k
      · subst hj
        rw [Function.update_self, Pool.thread_turn_self]
        exact hsafe
      · rw [Function.update_of_ne hj, Pool.thread_turn_of_ne P hj]
        exact (h.safe j).rely (D.compat _ _ _ _ (h.used j) (h.disjoint j k hj) hg)

variable (D) in
/-- What thread `j` comes to own in a schedule: what came into use in its turns. -/
def own (P : Pool σ ε α ι) : List ι → ι → Set ρ
  | [], _ => ∅
  | k :: ks, j => (if j = k then D.used (P.turn k).shared \ D.used P.shared else ∅) ∪ own (P.turn k) ks j

/-- **Safe threads are safe together**, whatever the schedule is. -/
theorem Shared.run (h : D.Shared Q A P) (ks : List ι) : D.Shared Q (fun j => A j ∪ D.own P ks j) (P.run ks) := by
  induction ks generalizing A P with
  | nil =>
    have hown : (fun j => A j ∪ D.own P [] j) = A := funext fun j => Set.union_empty (A j)
    rw [hown]
    exact h
  | cons k ks ih =>
    have hrun := ih (h.turn k)
    have hown : (fun j => A j ∪ D.own P (k :: ks) j) = fun j =>
        Function.update A k (A k ∪ D.used (P.turn k).shared \ D.used P.shared) j ∪ D.own (P.turn k) ks j := by
      funext j
      rw [own, ← Set.union_assoc]
      by_cases hj : j = k
      · subst hj
        rw [Function.update_self, if_pos rfl]
      · rw [Function.update_of_ne hj, if_neg hj, Set.union_empty]
    rw [hown]
    exact hrun

end Discipline

end Store
