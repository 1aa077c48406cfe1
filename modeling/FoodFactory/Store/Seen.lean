import FoodFactory.Store.Program

/-!
# What a thread has seen

What a step does may depend on what its thread has seen before, such as that a permission was
given, and so does what a program ends with. The others may have changed that since, but only as
the relation `R` between earlier and later states allows.

* `Pool.run_seen`: when every step of a thread is allowed by what it has seen
  (`Program.StepsAfter`), it is so in every schedule.
* `Pool.run_answers`: when a thread ends only with what is warranted by what it has seen
  (`Program.Answers`), it does so in every schedule.
* `Pool.rel_or_rel`: of two states that threads have seen, one is the later one.
-/

namespace Store

variable {σ ε α β γ ι : Type}

/-- Every step of the program, when it has seen the states in `past` and `R` holds from these to the state now, is a move
in `G past`. It sees the states in which its steps begin and end. -/
def Program.StepsAfter (R : σ → σ → Prop) (G : Set σ → σ → σ → Prop) : Set σ → Program σ ε α → Prop
  | _, .ret _ => True
  | past, .step m k => ∀ s, (∀ s₀ ∈ past, R s₀ s) → G past s (m.run s).2 ∧
      ∀ b, (m.run s).1 = .ok b → StepsAfter R G (past ∪ {s, (m.run s).2}) (k b)

namespace Program.StepsAfter

variable {R : σ → σ → Prop} {G : Set σ → σ → σ → Prop} {past : Set σ}

/-- A program that begins with one step. -/
theorem step {m : Action σ ε β} {f : β → Program σ ε α} (h : ∀ s, (∀ s₀ ∈ past, R s₀ s) → G past s (m.run s).2)
    (hf : ∀ s b, (∀ s₀ ∈ past, R s₀ s) → (m.run s).1 = .ok b → (f b).StepsAfter R G (past ∪ {s, (m.run s).2})) :
    (Program.lift m >>= f).StepsAfter R G past :=
  fun s hs => ⟨h s hs, fun b hb => hf s b hs hb⟩

/-- A program that begins with a filter. -/
theorem filter {m : Action σ ε β} {f : β → Program σ ε α} {P : σ → β → Prop} (hm : ∀ s, m.Filters s (P s))
    (hG : ∀ s, G past s s)
    (hf : ∀ s b, P s b → (f b).StepsAfter R G (insert s past)) : (Program.lift m >>= f).StepsAfter R G past := by
  refine step (fun s _ => ?_) fun s b _ hb => ?_
  · rw [(hm s).1]
    exact hG s
  · rw [(hm s).1, Set.pair_eq_singleton, Set.union_singleton]
    exact hf s b (((hm s).2 b).mp hb)

/-- What it has seen before, a program goes on to have seen. -/
theorem bind {p : Program σ ε β} {f : β → Program σ ε α} (h : p.StepsAfter R G past)
    (hf : ∀ b past', past ⊆ past' → (f b).StepsAfter R G past') : (p >>= f).StepsAfter R G past := by
  induction p generalizing past with
  | ret r =>
    cases r with
    | error e => trivial
    | ok b => exact hf b past subset_rfl
  | step m k ih =>
    intro s hs
    refine ⟨(h s hs).1, fun b hb => ih b ((h s hs).2 b hb) fun c past' hp => ?_⟩
    exact hf c past' (Set.subset_union_left.trans hp)

/-- The same step for each item of a list, allowed by what was seen before the first. -/
theorem each {f : β → Action σ ε Unit} {seen : Set σ} (h : ∀ past, seen ⊆ past → ∀ b s, (∀ s₀ ∈ past, R s₀ s) →
    G past s ((f b).run s).2) (hp : seen ⊆ past) (l : List β) :
    (Program.each (fun b => Program.lift (f b)) l).StepsAfter R G past := by
  induction l generalizing past with
  | nil => trivial
  | cons b l ih =>
    exact step (fun s hs => h past hp b s hs) fun s c _ _ => ih (hp.trans Set.subset_union_left)

/-- A program whose steps are allowed whatever was seen before. -/
theorem of_steps {H : σ → σ → Prop} {p : Program σ ε α} (h : p.Steps H) (hG : ∀ past s s', H s s' → G past s s') :
    p.StepsAfter R G past := by
  induction p generalizing past with
  | ret r => trivial
  | step m k ih => exact fun s _ => ⟨hG _ _ _ (h s).1, fun b hb => ih b ((h s).2 b hb)⟩

end Program.StepsAfter

/-- What the program ends with is warranted, by `T`, by the states that it has seen. -/
def Program.Answers (T : Set σ → α → Prop) : Set σ → Program σ ε α → Prop
  | past, .ret (.ok a) => ∀ past', past ⊆ past' → T past' a
  | _, .ret (.error _) => True
  | past, .step m k => ∀ s b, (m.run s).1 = .ok b → Answers T (past ∪ {s, (m.run s).2}) (k b)

namespace Program.Answers

variable {T : Set σ → α → Prop} {past : Set σ}

/-- A program that begins with one step. -/
theorem step {m : Action σ ε β} {f : β → Program σ ε α}
    (hf : ∀ s b, (m.run s).1 = .ok b → (f b).Answers T (past ∪ {s, (m.run s).2})) :
    (Program.lift m >>= f).Answers T past := hf

/-- A program that begins with a filter. -/
theorem filter {m : Action σ ε β} {f : β → Program σ ε α} {P : σ → β → Prop} (hm : ∀ s, m.Filters s (P s))
    (hf : ∀ s b, P s b → (f b).Answers T (insert s past)) : (Program.lift m >>= f).Answers T past := by
  refine step fun s b hb => ?_
  rw [(hm s).1, Set.pair_eq_singleton, Set.union_singleton]
  exact hf s b (((hm s).2 b).mp hb)

/-- A program that goes on from what another one ends with. -/
theorem bind {S : Set σ → β → Prop} {p : Program σ ε β} {f : β → Program σ ε α} (h : p.Answers S past)
    (hf : ∀ past' b, past ⊆ past' → S past' b → (f b).Answers T past') : (p >>= f).Answers T past := by
  induction p generalizing past with
  | ret r =>
    cases r with
    | error e => trivial
    | ok b => exact hf past b subset_rfl (h past subset_rfl)
  | step m k ih =>
    exact fun s b hb => ih b (h s b hb) fun past' c hp => hf past' c (Set.subset_union_left.trans hp)

/-- Nothing is promised. -/
theorem any (p : Program σ ε α) : p.Answers (fun _ _ => True) past := by
  induction p generalizing past with
  | ret r =>
    cases r with
    | error e => trivial
    | ok a => exact fun _ _ => trivial
  | step m k ih => exact fun s b _ => ih b

/-- The next step. -/
theorem next {p : Program σ ε α} (h : p.Answers T past) (s : σ) :
    (p.next s).1.Answers T (past ∪ {s, (p.next s).2}) := by
  cases p with
  | ret r =>
    cases r with
    | error e => trivial
    | ok a => exact fun past' hp => h past' (Set.subset_union_left.trans hp)
  | step m k =>
    rw [Program.next]
    rcases hm : m.run s with ⟨e | b, s'⟩
    · trivial
    · have hk := h s b (by rw [hm])
      rwa [hm] at hk

end Program.Answers

namespace Pool

variable [DecidableEq ι]

/-- The states that thread `k` has seen. -/
def seen (P : Pool σ ε α ι) (ks : List ι) (k : ι) : Set σ :=
  {s | ∃ ks₁ ks₂, ks = ks₁ ++ k :: ks₂ ∧ (s = (P.run ks₁).shared ∨ s = (P.run (ks₁ ++ [k])).shared)}

@[simp] theorem seen_nil (P : Pool σ ε α ι) (k : ι) : P.seen [] k = ∅ := by
  ext s
  simp [seen]

theorem seen_append_self (P : Pool σ ε α ι) (ks : List ι) (k : ι) :
    P.seen (ks ++ [k]) k = P.seen ks k ∪ {(P.run ks).shared, (P.run (ks ++ [k])).shared} := by
  ext s
  constructor
  · rintro ⟨ks₁, ks₂, heq, hs⟩
    rcases List.eq_nil_or_concat ks₂ with rfl | ⟨ks₃, k', rfl⟩
    · obtain ⟨rfl, -⟩ := List.append_inj' heq rfl
      exact .inr hs
    · rw [List.concat_eq_append, ← List.cons_append, ← List.append_assoc] at heq
      obtain ⟨rfl, -⟩ := List.append_inj' heq rfl
      exact .inl ⟨ks₁, ks₃, rfl, hs⟩
  · rintro (⟨ks₁, ks₂, rfl, hs⟩ | hs)
    · exact ⟨ks₁, ks₂ ++ [k], by simp, hs⟩
    · exact ⟨ks, [], rfl, hs⟩

theorem seen_append_of_ne (P : Pool σ ε α ι) (ks : List ι) {k k' : ι} (h : k ≠ k') :
    P.seen (ks ++ [k']) k = P.seen ks k := by
  ext s
  constructor
  · rintro ⟨ks₁, ks₂, heq, hs⟩
    rcases List.eq_nil_or_concat ks₂ with rfl | ⟨ks₃, k'', rfl⟩
    · obtain ⟨-, hk⟩ := List.append_inj' heq rfl
      exact absurd (List.singleton_inj.mp hk).symm h
    · rw [List.concat_eq_append, ← List.cons_append, ← List.append_assoc] at heq
      obtain ⟨rfl, -⟩ := List.append_inj' heq rfl
      exact ⟨ks₁, ks₃, rfl, hs⟩
  · rintro ⟨ks₁, ks₂, rfl, hs⟩
    exact ⟨ks₁, ks₂ ++ [k'], by simp, hs⟩

variable {R : σ → σ → Prop} {G : ι → Set σ → σ → σ → Prop} {P : Pool σ ε α ι}

/-- What a thread has seen, it has seen before. -/
theorem rel_seen (hR : ∀ ks ks', R (P.run ks).shared (P.run (ks ++ ks')).shared) {ks : List ι} {k : ι} {s : σ}
    (hs : s ∈ P.seen ks k) : R s (P.run ks).shared := by
  obtain ⟨ks₁, ks₂, rfl, rfl | rfl⟩ := hs
  · exact hR ks₁ (k :: ks₂)
  · have h := hR (ks₁ ++ [k]) ks₂
    rwa [List.append_assoc, List.singleton_append] at h

/-- The threads of a pool stay within what they have seen. -/
theorem stepsAfter_run (hR : ∀ ks ks', R (P.run ks).shared (P.run (ks ++ ks')).shared)
    (h : ∀ k, (P.thread k).StepsAfter R (G k) ∅) (ks : List ι) (k : ι) :
    ((P.run ks).thread k).StepsAfter R (G k) (P.seen ks k) := by
  induction ks using List.reverseRecOn generalizing k with
  | nil =>
    rw [seen_nil]
    exact h k
  | append_singleton ks k' ih =>
    rw [run_append]
    refine forall_thread_turn (C := fun j p => p.StepsAfter R (G j) (P.seen (ks ++ [k']) j)) ?_ (fun j hj => ?_) k
    · have hk := ih k'
      rw [seen_append_self, run_append]
      show Program.StepsAfter R (G k') (P.seen ks k' ∪ {(P.run ks).shared, (((P.run ks).thread k').next (P.run ks).shared).2})
        (((P.run ks).thread k').next (P.run ks).shared).1
      cases hp : (P.run ks).thread k' with
      | ret r => trivial
      | step m f =>
        rw [hp] at hk
        have hs := (hk (P.run ks).shared fun s₀ => rel_seen hR).2
        rw [Program.next]
        rcases hm : m.run (P.run ks).shared with ⟨e | b, s'⟩
        · trivial
        · rw [hm] at hs
          exact hs b rfl
    · rw [seen_append_of_ne P ks hj]
      exact ih j

/-- **What the threads of a pool do, given what they have seen**: every turn is a move that is allowed by it, or does
nothing. -/
theorem run_seen (hR : ∀ ks ks', R (P.run ks).shared (P.run (ks ++ ks')).shared)
    (h : ∀ k, (P.thread k).StepsAfter R (G k) ∅) (ks : List ι) (k : ι) :
    (P.run (ks ++ [k])).shared = (P.run ks).shared ∨
      G k (P.seen ks k) (P.run ks).shared (P.run (ks ++ [k])).shared := by
  have hk := stepsAfter_run hR h ks k
  rw [run_append]
  show (((P.run ks).thread k).next (P.run ks).shared).2 = _ ∨ G k _ _ (((P.run ks).thread k).next (P.run ks).shared).2
  cases hp : (P.run ks).thread k with
  | ret r => exact .inl rfl
  | step m f =>
    rw [hp] at hk
    rw [Program.next_step_state]
    exact .inr (hk (P.run ks).shared fun s₀ => rel_seen hR).1

/-- **What a thread of a pool ends with, given what it has seen.** -/
theorem run_answers {T : Set σ → α → Prop} {k : ι} (h : (P.thread k).Answers T ∅) (ks : List ι) {a : α}
    (hr : ((P.run ks).thread k).result = some (.ok a)) : T (P.seen ks k) a := by
  have hall : ∀ ks, ((P.run ks).thread k).Answers T (P.seen ks k) := by
    intro ks
    induction ks using List.reverseRecOn with
    | nil => simpa using h
    | append_singleton ks k' ih =>
      rw [run_append, run_cons, run_nil]
      by_cases hk : k = k'
      · subst hk
        rw [thread_turn_self, seen_append_self, run_append]
        exact ih.next _
      · rw [thread_turn_of_ne _ hk, seen_append_of_ne P ks hk]
        exact ih
  have hk := hall ks
  rw [Program.result_eq_some.mp hr] at hk
  exact hk _ subset_rfl

/-- Of two states that threads have seen, one is the later one. -/
theorem rel_or_rel (hR : ∀ ks ks', R (P.run ks).shared (P.run (ks ++ ks')).shared) {ks : List ι} {k k' : ι} {s s' : σ}
    (hs : s ∈ P.seen ks k) (hs' : s' ∈ P.seen ks k') : R s s' ∨ R s' s := by
  have hprefix : ∀ {k s}, s ∈ P.seen ks k → ∃ ks₁, ks₁ <+: ks ∧ s = (P.run ks₁).shared := by
    rintro k s ⟨ks₁, ks₂, rfl, hs | hs⟩
    · exact ⟨ks₁, List.prefix_append _ _, hs⟩
    · exact ⟨ks₁ ++ [k], ⟨ks₂, by simp⟩, hs⟩
  obtain ⟨ks₁, h₁, rfl⟩ := hprefix hs
  obtain ⟨ks₂, h₂, rfl⟩ := hprefix hs'
  rcases List.prefix_or_prefix_of_prefix h₁ h₂ with ⟨l, rfl⟩ | ⟨l, rfl⟩
  · exact .inl (hR ks₁ l)
  · exact .inr (hR ks₂ l)

end Pool

end Store
