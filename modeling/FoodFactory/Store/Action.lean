import FoodFactory.Store.Table

/-!
# Programs that write to a store and may fail

An `Action` runs from a state and ends with a value or with an error, and in
both cases with a state: what was written before an error stays written. Only
`transaction` undoes it. A `read` looks at the state and writes nothing.

`TableOf` is where a state keeps a table, together with the foreign keys the
database enforces for it; `insert`, `update` and `delete` are the single
statements, each of which either takes effect as a whole or fails without
effect. What a loop of deletions does is `each_delete`.
-/

namespace Store

variable {σ ε α β ρ : Type}

/-- A program over states `σ` that ends with a value in `α` or an error in `ε`. -/
def Action (σ ε α : Type) : Type := σ → Except ε α × σ

namespace Action

/-- Run a program: how it ends, and the state it leaves. -/
def run (m : Action σ ε α) (s : σ) : Except ε α × σ := m s

/-- End with `a`. -/
protected def pure (a : α) : Action σ ε α := fun s => (.ok a, s)

/-- Run `m`; if it ends with a value, go on with `f`. -/
protected def bind (m : Action σ ε α) (f : α → Action σ ε β) : Action σ ε β := fun s =>
  match m s with
  | (.ok a, s') => f a s'
  | (.error e, s') => (.error e, s')

instance : Monad (Action σ ε) where
  pure := Action.pure
  bind := Action.bind

/-- End with an error. -/
def throw (e : ε) : Action σ ε α := fun s => (.error e, s)

/-- Look at the state. -/
def read (f : σ → Except ε α) : Action σ ε α := fun s => (f s, s)

/-- All or nothing: when `m` fails, what it wrote is undone. -/
def transaction (m : Action σ ε α) : Action σ ε α := fun s =>
  match m s with
  | (.ok a, s') => (.ok a, s')
  | (.error e, _) => (.error e, s)

/-- Rename the errors. -/
def mapError {ε' : Type} (f : ε → ε') (m : Action σ ε α) : Action σ ε' α := fun s =>
  match m s with
  | (.ok a, s') => (.ok a, s')
  | (.error e, s') => (.error (f e), s')

/-- Run `f` on each item, in order, up to the first failure. -/
def each (f : α → Action σ ε Unit) : List α → Action σ ε Unit
  | [] => pure ()
  | a :: l => do f a; each f l

/-- Run `f` on each item, in order, and collect the values. -/
def collect (f : α → Action σ ε β) : List α → Action σ ε (List β)
  | [] => pure []
  | a :: l => do
    let b ← f a
    let bs ← collect f l
    pure (b :: bs)

/-! ### Running -/

@[simp] theorem run_pure (a : α) (s : σ) : (pure a : Action σ ε α).run s = (.ok a, s) := rfl

@[simp] theorem run_throw (e : ε) (s : σ) : (throw e : Action σ ε α).run s = (.error e, s) := rfl

@[simp] theorem run_read (f : σ → Except ε α) (s : σ) : (read f).run s = (f s, s) := rfl

theorem run_bind (m : Action σ ε α) (f : α → Action σ ε β) (s : σ) :
    (m >>= f).run s =
      match m.run s with
      | (.ok a, s') => (f a).run s'
      | (.error e, s') => (.error e, s') := rfl

theorem run_bind_ok {m : Action σ ε α} {f : α → Action σ ε β} {s s' : σ} {a : α}
    (h : m.run s = (.ok a, s')) : (m >>= f).run s = (f a).run s' := by
  rw [run_bind, h]

theorem run_bind_error {m : Action σ ε α} {f : α → Action σ ε β} {s s' : σ} {e : ε}
    (h : m.run s = (.error e, s')) : (m >>= f).run s = (.error e, s') := by
  rw [run_bind, h]

/-- A sequence that ends with a value: so does its first part. -/
theorem ok_of_bind {m : Action σ ε α} {f : α → Action σ ε β} {s : σ} {b : β} (h : ((m >>= f).run s).1 = .ok b) :
    ∃ a, (m.run s).1 = .ok a ∧ (m >>= f).run s = (f a).run (m.run s).2 := by
  rcases hm : m.run s with ⟨e | a, s'⟩
  · rw [run_bind_error hm] at h
    cases h
  · exact ⟨a, rfl, run_bind_ok hm⟩

/-- A sequence that ends with a value: what holds after its first part, and is kept, holds in the end. -/
theorem holds_of_first {m : Action σ ε α} {f : α → Action σ ε β} {s : σ} {b : β} {Q : σ → Prop}
    (h : ((m >>= f).run s).1 = .ok b) (hm : ∀ a, (m.run s).1 = .ok a → Q (m.run s).2)
    (hf : ∀ a s', Q s' → Q ((f a).run s').2) : Q ((m >>= f).run s).2 := by
  obtain ⟨a, ha, hrun⟩ := ok_of_bind h
  rw [hrun]
  exact hf a _ (hm a ha)

/-- A sequence that ends with a value: what holds after its second part, when that ends with a value. -/
theorem holds_of_second {m : Action σ ε α} {f : α → Action σ ε β} {s : σ} {b : β} {Q : σ → Prop}
    (h : ((m >>= f).run s).1 = .ok b) (hf : ∀ a s', ((f a).run s').1 = .ok b → Q ((f a).run s').2) :
    Q ((m >>= f).run s).2 := by
  obtain ⟨a, ha, hrun⟩ := ok_of_bind h
  rw [hrun] at h ⊢
  exact hf a _ h

theorem run_read_bind {f : σ → Except ε α} {g : α → Action σ ε β} {s : σ} {a : α} (h : f s = .ok a) :
    (read f >>= g).run s = (g a).run s :=
  run_bind_ok (by rw [run_read, h])

theorem run_get_bind (f : σ → α) (g : α → Action σ ε β) (s : σ) :
    ((read fun s => .ok (f s)) >>= g).run s = (g (f s)).run s := rfl

theorem run_transaction_ok {m : Action σ ε α} {s s' : σ} {a : α} (h : m.run s = (.ok a, s')) :
    (transaction m).run s = (.ok a, s') := by
  simp only [run] at h
  simp only [run, transaction, h]

theorem run_mapError {ε' : Type} (f : ε → ε') (m : Action σ ε α) (s : σ) :
    (mapError f m).run s = ((m.run s).1.mapError f, (m.run s).2) := by
  simp only [run, mapError]
  rcases m s with ⟨_ | a, s'⟩ <;> rfl

theorem mapError_pure {ε' : Type} (f : ε → ε') (a : α) : mapError f (pure a : Action σ ε α) = pure a := rfl

theorem mapError_bind {ε' : Type} (f : ε → ε') (m : Action σ ε α) (g : α → Action σ ε β) :
    mapError f (m >>= g) = mapError f m >>= fun a => mapError f (g a) := by
  funext s
  show (mapError f (m >>= g)).run s = (mapError f m >>= fun a => mapError f (g a)).run s
  rw [run_mapError, run_bind, run_bind, run_mapError]
  rcases m.run s with ⟨e | a, s'⟩
  · rfl
  · exact (run_mapError f (g a) s').symm

theorem mapError_each {ε' : Type} (f : ε → ε') (g : α → Action σ ε Unit) (l : List α) :
    mapError f (each g l) = each (fun a => mapError f (g a)) l := by
  induction l with
  | nil => rfl
  | cons a l ih =>
    show mapError f (g a >>= fun _ => each g l) = _
    rw [mapError_bind, ih]
    rfl

theorem mapError_collect {ε' : Type} (f : ε → ε') (g : α → Action σ ε β) (l : List α) :
    mapError f (collect g l) = collect (fun a => mapError f (g a)) l := by
  induction l with
  | nil => rfl
  | cons a l ih =>
    show mapError f (g a >>= fun b => collect g l >>= fun bs => pure (b :: bs)) = _
    simp only [mapError_bind, ih]
    rfl

@[simp] theorem run_each_nil (f : α → Action σ ε Unit) (s : σ) : (each f []).run s = (.ok (), s) := rfl

theorem run_each_cons (f : α → Action σ ε Unit) (a : α) (l : List α) (s : σ) :
    (each f (a :: l)).run s = (f a >>= fun _ => each f l).run s := rfl

/-- What reads after `m` leaves what `m` leaves. -/
theorem run_bind_state {m : Action σ ε α} {f : α → Action σ ε β} (hf : ∀ a s', ((f a).run s').2 = s') (s : σ) :
    ((m >>= f).run s).2 = (m.run s).2 := by
  rw [run_bind]
  rcases m.run s with ⟨e | a, s'⟩
  · rfl
  · exact hf a s'

/-- **A loop up to the first failure**: when the body writes `w` for the items that satisfy `ok`, and fails
without effect for the others, the loop writes `w` for the items before the first that does not satisfy `ok`,
and it fails if there is one. -/
theorem run_each_takeWhile {f : α → Action σ ε Unit} {ok : α → Bool} {w : σ → α → σ} {I : σ → Prop}
    (hok : ∀ s a, I s → ok a = true → (f a).run s = (.ok (), w s a) ∧ I (w s a))
    (hno : ∀ s a, I s → ok a = false → ∃ e, (f a).run s = (.error e, s)) (l : List α) (s : σ) (hs : I s) :
    ((each f l).run s).2 = (l.takeWhile ok).foldl w s ∧ (((each f l).run s).1 = .ok () ↔ ∀ a ∈ l, ok a = true) := by
  induction l generalizing s with
  | nil => simp
  | cons a l ih =>
    rw [run_each_cons]
    cases ha : ok a with
    | true =>
      obtain ⟨hrun, hI⟩ := hok s a hs ha
      rw [run_bind_ok hrun, List.takeWhile_cons_of_pos ha, List.foldl_cons]
      simpa [ha] using ih _ hI
    | false =>
      obtain ⟨e, hrun⟩ := hno s a hs ha
      rw [run_bind_error hrun, List.takeWhile_cons_of_neg (by simp [ha])]
      simp [ha]

/-- Collecting what reading each item gives, one value for each item. -/
theorem run_collect {f : α → Action σ ε β} {s : σ} {R : α → β → Prop} (l : List α)
    (h : ∀ a ∈ l, ∃ b, (f a).run s = (.ok b, s) ∧ R a b) :
    ∃ bs, (collect f l).run s = (.ok bs, s) ∧ List.Forall₂ R l bs := by
  induction l with
  | nil => exact ⟨[], rfl, .nil⟩
  | cons a l ih =>
    obtain ⟨b, hb, hR⟩ := h a (List.mem_cons_self ..)
    obtain ⟨bs, hbs, hRs⟩ := ih fun a' ha' => h a' (List.mem_cons_of_mem _ ha')
    refine ⟨b :: bs, ?_, .cons hR hRs⟩
    show (f a >>= fun b => collect f l >>= fun bs => pure (b :: bs)).run s = _
    rw [run_bind_ok hb, run_bind_ok hbs, run_pure]

/-- Collecting by reading writes nothing. -/
theorem collect_state {f : α → Action σ ε β} (h : ∀ a s, ((f a).run s).2 = s) (l : List α) (s : σ) :
    ((collect f l).run s).2 = s := by
  induction l generalizing s with
  | nil => rfl
  | cons a l ih =>
    refine (run_bind_state (fun b s' => ?_) s).trans (h a s)
    exact (run_bind_state (fun _ _ => rfl) s').trans (ih s')

/-! ### Reading, then writing -/

/-- From `s`, `m` writes nothing, and it ends with exactly the values that satisfy `P` (at
most one does). -/
def Filters (m : Action σ ε α) (s : σ) (P : α → Prop) : Prop :=
  (m.run s).2 = s ∧ ∀ a, (m.run s).1 = .ok a ↔ P a

/-- From `s`, `m` leaves the state that satisfies `P`, if one does, and otherwise leaves `s`. -/
def Leaves (m : Action σ ε α) (s : σ) (P : σ → Prop) : Prop :=
  P (m.run s).2 ∨ ((∀ s', ¬ P s') ∧ (m.run s).2 = s)

theorem Filters.read {f : σ → Except ε α} {s : σ} {P : α → Prop} (h : ∀ a, f s = .ok a ↔ P a) :
    (read f).Filters s P := ⟨rfl, h⟩

theorem Filters.pure (a : α) (s : σ) : (pure a : Action σ ε α).Filters s (a = ·) :=
  ⟨rfl, fun b => by simp⟩

theorem Filters.throw (e : ε) (s : σ) : (throw e : Action σ ε α).Filters s fun _ => False :=
  ⟨rfl, fun b => by simp⟩

theorem Filters.congr {m : Action σ ε α} {s : σ} {P Q : α → Prop} (h : m.Filters s P) (hpq : ∀ a, P a ↔ Q a) :
    m.Filters s Q := ⟨h.1, fun a => (h.2 a).trans (hpq a)⟩

theorem Leaves.congr {m : Action σ ε α} {s : σ} {P Q : σ → Prop} (h : m.Leaves s P) (hpq : ∀ s', P s' ↔ Q s') :
    m.Leaves s Q := by
  rwa [show P = Q from funext fun s' => propext (hpq s')] at h

/-- A filter either ends with its value or fails, from the state it started in. -/
theorem Filters.run_cases {m : Action σ ε α} {s : σ} {P : α → Prop} (h : m.Filters s P) :
    (∃ a, P a ∧ m.run s = (.ok a, s)) ∨ ((∀ a, ¬ P a) ∧ ∃ e, m.run s = (.error e, s)) := by
  obtain ⟨h2, h1⟩ := h
  rcases hm : m.run s with ⟨e | a, s'⟩ <;> rw [hm] at h1 h2 <;> simp only at h1 h2 <;> subst h2
  · exact .inr ⟨fun a ha => by simpa using (h1 a).mpr ha, e, rfl⟩
  · exact .inl ⟨a, (h1 a).mp rfl, rfl⟩

theorem Filters.unique {m : Action σ ε α} {s : σ} {P : α → Prop} (h : m.Filters s P) {a b : α} (ha : P a)
    (hb : P b) : a = b := by
  have := ((h.2 a).mpr ha).symm.trans ((h.2 b).mpr hb)
  simpa using this

/-- A filter followed by a filter. -/
theorem Filters.bind {m : Action σ ε α} {f : α → Action σ ε β} {s : σ} {P : α → Prop} {Q : α → β → Prop}
    (h : m.Filters s P) (hf : ∀ a, P a → (f a).Filters s (Q a)) :
    (m >>= f).Filters s fun b => ∃ a, P a ∧ Q a b := by
  rcases h.run_cases with ⟨a, ha, hm⟩ | ⟨hn, e, hm⟩
  · refine ⟨by rw [run_bind_ok hm]; exact (hf a ha).1, fun b => ?_⟩
    rw [run_bind_ok hm, (hf a ha).2 b]
    exact ⟨fun hb => ⟨a, ha, hb⟩, fun ⟨a', ha', hb⟩ => h.unique ha ha' ▸ hb⟩
  · refine ⟨by rw [run_bind_error hm], fun b => ?_⟩
    rw [run_bind_error hm]
    simp [hn]

/-- A filter followed by what may write. -/
theorem Filters.leaves {m : Action σ ε α} {f : α → Action σ ε β} {s : σ} {P : α → Prop} {Q : α → σ → Prop}
    (h : m.Filters s P) (hf : ∀ a, P a → (f a).Leaves s (Q a)) :
    (m >>= f).Leaves s fun s' => ∃ a, P a ∧ Q a s' := by
  unfold Leaves
  rcases h.run_cases with ⟨a, ha, hm⟩ | ⟨hn, e, hm⟩
  · rw [run_bind_ok hm]
    rcases hf a ha with hQ | ⟨hQ, hs⟩
    · exact .inl ⟨a, ha, hQ⟩
    · refine .inr ⟨fun s' ⟨a', ha', h'⟩ => ?_, hs⟩
      exact hQ s' (h.unique ha ha' ▸ h')
  · rw [run_bind_error hm]
    exact .inr ⟨fun s' ⟨a, ha, _⟩ => hn a ha, rfl⟩

/-- After a filter, it matters only what happens to the value it lets pass. -/
theorem Filters.run_congr {m : Action σ ε α} {f g : α → Action σ ε β} {s : σ} {P : α → Prop} (h : m.Filters s P)
    (hfg : ∀ a, P a → (f a).run s = (g a).run s) : (m >>= f).run s = (m >>= g).run s := by
  rcases h.run_cases with ⟨a, ha, hm⟩ | ⟨-, e, hm⟩
  · rw [run_bind_ok hm, run_bind_ok hm, hfg a ha]
  · rw [run_bind_error hm, run_bind_error hm]

/-- A filter leaves the state as it is. -/
theorem Filters.leaves_nothing {m : Action σ ε α} {s : σ} {P : α → Prop} (h : m.Filters s P) :
    m.Leaves s fun _ => False := .inr ⟨fun _ hf => hf, h.1⟩

/-- What writes, followed by what does not. -/
theorem Leaves.bind {m : Action σ ε α} {f : α → Action σ ε β} {s : σ} {P : σ → Prop} (h : m.Leaves s P)
    (hf : ∀ a s', ((f a).run s').2 = s') : (m >>= f).Leaves s P := by
  unfold Leaves at h ⊢
  rwa [run_bind_state hf]

theorem Leaves.mapError {ε' : Type} {m : Action σ ε α} {s : σ} {P : σ → Prop} (h : m.Leaves s P) (f : ε → ε') :
    (m.mapError f).Leaves s P := by
  unfold Leaves
  rw [run_mapError]
  exact h

/-! ### From any state to the one that is left -/

/-- From every state, `m` leaves one that `R` allows, whether it fails or not. -/
def Moves (R : σ → σ → Prop) (m : Action σ ε α) : Prop := ∀ s, R s (m.run s).2

section Moves

variable {R : σ → σ → Prop}

theorem Moves.bind {m : Action σ ε α} {f : α → Action σ ε β} (htrans : ∀ s s' s'', R s s' → R s' s'' → R s s'')
    (hm : m.Moves R) (hf : ∀ a, (f a).Moves R) : (m >>= f).Moves R := by
  intro s
  have hs := hm s
  rw [run_bind]
  rcases hrun : m.run s with ⟨e | a, s'⟩ <;> rw [hrun] at hs
  · exact hs
  · exact htrans s s' _ hs (hf a s')

theorem Moves.each {f : α → Action σ ε Unit} (hrefl : ∀ s, R s s) (htrans : ∀ s s' s'', R s s' → R s' s'' → R s s'')
    (hf : ∀ a, (f a).Moves R) (l : List α) : (each f l).Moves R := by
  induction l with
  | nil => exact hrefl
  | cons a l ih => exact .bind htrans (hf a) fun _ => ih

end Moves

end Action

/-! ### Statements on a guarded table -/

/-- Where states of type `σ` keep a table, and the foreign keys that guard it. -/
structure TableOf (σ ε ρ : Type) where
  /-- The table. -/
  get : σ → Table ρ
  /-- Replace the table. -/
  put : σ → Table ρ → σ
  /-- The enforced foreign keys of a row. -/
  keys : ρ → List ℕ
  /-- The rows these foreign keys refer to are there. -/
  parents : σ → ρ → Bool
  /-- A row of some table refers to this id by an enforced foreign key. -/
  referenced : σ → ℕ → Bool
  /-- The error of a statement that would break a foreign key. -/
  violation : ε
  get_put : ∀ s t, get (put s t) = t
  put_put : ∀ s t t', put (put s t) t' = put s t'
  put_get : ∀ s, put s (get s) = s
  referenced_put : ∀ s t i, referenced (put s t) i = referenced s i

namespace TableOf

variable (T : TableOf σ ε ρ)

/-- `INSERT`: the new row's id. -/
def insert (r : ρ) : Action σ ε ℕ := fun s =>
  if T.parents s r then (.ok (T.get s).next, T.put s ((T.get s).insert r)) else (.error T.violation, s)

/-- `UPDATE … WHERE id = i`. Foreign keys are checked when they change. -/
def update (i : ℕ) (r : ρ) : Action σ ε Unit := fun s =>
  match (T.get s).find i with
  | none => (.ok (), s)
  | some r₀ =>
      if T.keys r = T.keys r₀ ∨ T.parents s r = true then (.ok (), T.put s ((T.get s).set i r))
      else (.error T.violation, s)

/-- `DELETE … WHERE id = i`. -/
def delete (i : ℕ) : Action σ ε Unit := fun s =>
  if (T.get s).Has i ∧ T.referenced s i = true then (.error T.violation, s)
  else (.ok (), T.put s ((T.get s).erase i))

/-- `UPDATE … SET … WHERE id = i`, of some columns: `f` gives the row its new values. -/
def modify (i : ℕ) (f : ρ → ρ) : Action σ ε Unit := fun s =>
  match (T.get s).find i with
  | none => (.ok (), s)
  | some r => (T.update i (f r)).run s

theorem run_insert_ok {s : σ} {r : ρ} (h : T.parents s r = true) :
    (T.insert r).run s = (.ok (T.get s).next, T.put s ((T.get s).insert r)) := by
  simp only [Action.run, insert, h, if_true]

theorem run_insert_error {s : σ} {r : ρ} (h : T.parents s r = false) :
    (T.insert r).run s = (.error T.violation, s) := by
  simp [Action.run, insert, h]

/-- A row that was inserted is there, under the id that was returned. -/
theorem find_of_insert {s : σ} {r : ρ} {i : ℕ} (h : ((T.insert r).run s).1 = .ok i) :
    (T.get ((T.insert r).run s).2).find i = some r := by
  cases hp : T.parents s r with
  | false =>
    rw [T.run_insert_error hp] at h
    cases h
  | true =>
    rw [T.run_insert_ok hp] at h ⊢
    cases h
    rw [T.get_put]
    exact Table.find_insert_next (T.get s) r

theorem leaves_insert (r : ρ) (s : σ) :
    (T.insert r).Leaves s fun s' => T.parents s r = true ∧ s' = T.put s ((T.get s).insert r) := by
  cases h : T.parents s r with
  | true => exact .inl ⟨rfl, by rw [T.run_insert_ok h]⟩
  | false => exact .inr ⟨by simp, by rw [T.run_insert_error h]⟩

theorem run_update_ok {s : σ} {i : ℕ} {r r₀ : ρ} (h : (T.get s).find i = some r₀) (hk : T.keys r = T.keys r₀) :
    (T.update i r).run s = (.ok (), T.put s ((T.get s).set i r)) := by
  simp only [Action.run, update, h, hk, true_or, if_true]

theorem leaves_update {s : σ} {i : ℕ} {r r₀ : ρ} (h : (T.get s).find i = some r₀) (hk : T.keys r = T.keys r₀) :
    (T.update i r).Leaves s (· = T.put s ((T.get s).set i r)) :=
  .inl (by rw [T.run_update_ok h hk])

theorem run_modify {s : σ} {i : ℕ} {r : ρ} (h : (T.get s).find i = some r) (f : ρ → ρ) :
    (T.modify i f).run s = (T.update i (f r)).run s := by
  simp only [Action.run, modify, h]

/-- A change of columns that are not foreign keys sets the row, where it is there. -/
theorem run_modify_state (s : σ) (i : ℕ) {f : ρ → ρ} (hk : ∀ r, T.keys (f r) = T.keys r) :
    (T.modify i f).run s = (.ok (), s) ∨ ∃ r, (T.get s).find i = some r ∧
      (T.modify i f).run s = (.ok (), T.put s ((T.get s).set i (f r))) := by
  cases h : (T.get s).find i with
  | none => exact .inl (by simp only [Action.run, modify, h])
  | some r => exact .inr ⟨r, rfl, (T.run_modify h f).trans (T.run_update_ok h (hk r))⟩

theorem run_delete_ok {s : σ} {i : ℕ} (h : T.referenced s i = false) :
    (T.delete i).run s = (.ok (), T.put s ((T.get s).erase i)) := by
  simp [Action.run, delete, h]

/-- A loop that deletes ids nothing refers to deletes exactly those rows. -/
theorem each_delete (l : List ℕ) : ∀ s : σ, (∀ i ∈ l, T.referenced s i = false) →
    (Action.each T.delete l).run s = (.ok (), T.put s ((T.get s).filter fun i _ => decide (i ∉ l))) := by
  induction l with
  | nil =>
    intro s _
    have : (T.get s).filter (fun i _ => decide (i ∉ ([] : List ℕ))) = T.get s := by
      refine Table.ext_rows ?_ rfl
      simp [Table.filter]
    rw [Action.run_each_nil, this, T.put_get]
  | cons a l ih =>
    intro s h
    rw [Action.run_each_cons, Action.run_bind_ok (T.run_delete_ok (h a (List.mem_cons_self ..))), ih]
    · rw [T.get_put, T.put_put]
      congr 2
      refine Table.ext_find rfl fun i => ?_
      simp only [Table.find_filter, Table.find_erase]
      split_ifs with hi <;> cases (T.get s).find i <;> simp [hi]
    · intro i hi
      rw [T.referenced_put]
      exact h i (List.mem_cons_of_mem _ hi)

/-- **A loop that inserts**: where its body inserts the rows `g a`, from every state that satisfies `I`, the loop inserts
the rows of all its items, one after the other. -/
theorem each_insertAll {ε' : Type} {f : α → Action σ ε' Unit} {g : α → List ρ} {I : σ → Prop}
    (hput : ∀ s t, I s → I (T.put s t)) (l : List α)
    (hf : ∀ a ∈ l, ∀ s, I s → (f a).run s = (.ok (), T.put s ((T.get s).insertAll (g a)))) (s : σ) (hs : I s) :
    (Action.each f l).run s = (.ok (), T.put s ((T.get s).insertAll (l.flatMap g))) := by
  induction l generalizing s with
  | nil => rw [Action.run_each_nil, List.flatMap_nil, Table.insertAll_nil, T.put_get]
  | cons a l ih =>
    rw [Action.run_each_cons, Action.run_bind_ok (hf a (List.mem_cons_self ..) s hs),
      ih (fun a' ha' => hf a' (List.mem_cons_of_mem _ ha')) _ (hput s _ hs), T.get_put, T.put_put, List.flatMap_cons,
      Table.insertAll_append]

end TableOf

end Store
