import Mathlib.Data.List.Basic
import Mathlib.Data.List.Pairwise
import Mathlib.Data.List.Nodup
import Mathlib.Data.List.Sort

/-!
# Tables with automatic ids

A table keeps its rows under natural-number ids. A new row gets the next id of
a counter that only grows (an autoincrement key is never given twice, also not
after the row is deleted), and the rows stand in the order of their ids, which
is the order in which they were inserted.

Both facts are fields of `Table`, so that a table with a repeated or an unused
future id cannot be built, and what a table says about an id is one function,
`find`. A table is determined by `find` and its counter (`Table.ext_find`).

`Refs child fk parent` says that every row of `child` refers, through `fk`, to a
row of `parent`: referential integrity of one reference. The rules below say how
inserting, changing and deleting rows on either side keep it.
-/

namespace Store

universe u v

/-- A table: its rows under their ids, oldest first, and the id the next row gets. -/
structure Table (ρ : Type u) where
  /-- The rows, each with its id. -/
  rows : List (ℕ × ρ)
  /-- The id of the next row to be inserted. -/
  next : ℕ
  /-- The ids increase. -/
  sorted : rows.Pairwise fun a b => a.1 < b.1
  /-- Every id was given out before. -/
  fresh : ∀ r ∈ rows, r.1 < next

namespace Table

variable {ρ : Type u} {π : Type v}

theorem ext_rows {t t' : Table ρ} (hr : t.rows = t'.rows) (hn : t.next = t'.next) : t = t' := by
  cases t; cases t'; simp_all

instance [DecidableEq ρ] : DecidableEq (Table ρ) := fun t t' =>
  decidable_of_iff (t.rows = t'.rows ∧ t.next = t'.next)
    ⟨fun h => ext_rows h.1 h.2, fun h => h ▸ ⟨rfl, rfl⟩⟩

/-- The table with no rows. -/
def empty : Table ρ := ⟨[], 1, List.Pairwise.nil, by simp⟩

/-- The row under id `i`. -/
def find (t : Table ρ) (i : ℕ) : Option ρ := (t.rows.find? fun r => r.1 == i).map (·.2)

/-- There is a row under id `i`. -/
def Has (t : Table ρ) (i : ℕ) : Prop := (t.find i).isSome

instance (t : Table ρ) (i : ℕ) : Decidable (t.Has i) := inferInstanceAs (Decidable (_ = true))

/-- The rows that satisfy `p`, in the order of their ids. -/
def select (t : Table ρ) (p : ρ → Bool) : List (ℕ × ρ) := t.rows.filter fun r => p r.2

/-- The ids of the rows that satisfy `p`. -/
def idsWhere (t : Table ρ) (p : ρ → Bool) : List ℕ := (t.select p).map (·.1)

/-- Insert a row under the next id. -/
def insert (t : Table ρ) (r : ρ) : Table ρ where
  rows := t.rows ++ [(t.next, r)]
  next := t.next + 1
  sorted := by
    rw [List.pairwise_append]
    refine ⟨t.sorted, List.pairwise_singleton .., fun a ha b hb => ?_⟩
    rw [List.mem_singleton] at hb
    rw [hb]
    exact t.fresh a ha
  fresh := by
    intro a ha
    rcases List.mem_append.mp ha with h | h
    · exact Nat.lt_succ_of_lt (t.fresh a h)
    · rw [List.mem_singleton] at h
      rw [h]
      exact Nat.lt_succ_self _

/-- Insert rows one after the other. -/
def insertAll (t : Table ρ) (l : List ρ) : Table ρ := l.foldl insert t

/-- Keep the rows that satisfy `p`, which may look at the id. -/
def filter (t : Table ρ) (p : ℕ → ρ → Bool) : Table ρ where
  rows := t.rows.filter fun r => p r.1 r.2
  next := t.next
  sorted := t.sorted.filter _
  fresh := fun r hr => t.fresh r (List.mem_of_mem_filter hr)

/-- Delete the row under id `i`. -/
def erase (t : Table ρ) (i : ℕ) : Table ρ := t.filter fun j _ => j != i

/-- Replace the row under id `i`, if there is one. -/
def set (t : Table ρ) (i : ℕ) (r : ρ) : Table ρ where
  rows := t.rows.map fun x => (x.1, if x.1 = i then r else x.2)
  next := t.next
  sorted := by
    rw [List.pairwise_map]
    exact t.sorted
  fresh := by
    intro x hx
    obtain ⟨y, hy, rfl⟩ := List.mem_map.mp hx
    exact t.fresh y hy

/-! ### What a table says about an id -/

theorem nodup_ids (t : Table ρ) : (t.rows.map (·.1)).Nodup :=
  (List.pairwise_map.mpr t.sorted).imp fun h => Nat.ne_of_lt h

/-- Two rows under one id are one row. -/
theorem row_unique {t : Table ρ} {i : ℕ} {r r' : ρ} (h : (i, r) ∈ t.rows) (h' : (i, r') ∈ t.rows) :
    r = r' := by
  have := List.inj_on_of_nodup_map t.nodup_ids h h' rfl
  exact congrArg Prod.snd this

theorem find_eq_some {t : Table ρ} {i : ℕ} {r : ρ} : t.find i = some r ↔ (i, r) ∈ t.rows := by
  unfold find
  constructor
  · intro h
    obtain ⟨⟨j, x⟩, hx, rfl⟩ := Option.map_eq_some_iff.mp h
    have hj : j = i := by simpa using List.find?_some hx
    rw [← hj]
    exact List.mem_of_find?_eq_some hx
  · intro h
    have hs : (t.rows.find? fun x => x.1 == i).isSome := by
      rw [List.find?_isSome]
      exact ⟨_, h, by simp⟩
    obtain ⟨⟨j, x⟩, hx⟩ := Option.isSome_iff_exists.mp hs
    have hj : j = i := by simpa using List.find?_some hx
    subst hj
    rw [hx, Option.map_some, row_unique (List.mem_of_find?_eq_some hx) h]

theorem has_iff {t : Table ρ} {i : ℕ} : t.Has i ↔ ∃ r, t.find i = some r := Option.isSome_iff_exists

theorem Has.of_find {t : Table ρ} {i : ℕ} {r : ρ} (h : t.find i = some r) : t.Has i :=
  has_iff.mpr ⟨r, h⟩

theorem mem_select {t : Table ρ} {p : ρ → Bool} {i : ℕ} {r : ρ} :
    (i, r) ∈ t.select p ↔ t.find i = some r ∧ p r = true := by
  rw [select, List.mem_filter, find_eq_some]

theorem mem_idsWhere {t : Table ρ} {p : ρ → Bool} {i : ℕ} :
    i ∈ t.idsWhere p ↔ ∃ r, t.find i = some r ∧ p r = true := by
  simp only [idsWhere, List.mem_map, Prod.exists, mem_select]
  exact ⟨fun ⟨_, r, h, hi⟩ => ⟨r, hi ▸ h⟩, fun ⟨r, h⟩ => ⟨i, r, h, rfl⟩⟩

/-- A row that is there has an id that was given out. -/
theorem lt_next {t : Table ρ} {i : ℕ} (h : t.Has i) : i < t.next := by
  obtain ⟨r, hr⟩ := has_iff.mp h
  exact t.fresh _ (find_eq_some.mp hr)

/-- The id to come is not in use. -/
theorem find_next (t : Table ρ) : t.find t.next = none := by
  cases h : t.find t.next with
  | none => rfl
  | some r => exact absurd (lt_next (Has.of_find h)) (lt_irrefl _)

@[simp] theorem find_empty (i : ℕ) : (empty : Table ρ).find i = none := rfl

theorem find_insert (t : Table ρ) (r : ρ) (i : ℕ) :
    (t.insert r).find i = if i = t.next then some r else t.find i := by
  ext x
  rw [find_eq_some, insert, List.mem_append, List.mem_singleton, ← find_eq_some, Prod.mk.injEq]
  split_ifs with hi
  · subst hi
    simp [find_next, eq_comm]
  · simp [hi]

theorem find_filter (t : Table ρ) (p : ℕ → ρ → Bool) (i : ℕ) :
    (t.filter p).find i = (t.find i).filter (p i) := by
  ext x
  rw [find_eq_some, filter, List.mem_filter, ← find_eq_some, Option.filter_eq_some_iff]

theorem find_filter_eq_some {t : Table ρ} {p : ℕ → ρ → Bool} {i : ℕ} {r : ρ} :
    (t.filter p).find i = some r ↔ t.find i = some r ∧ p i r = true := by
  rw [find_filter, Option.filter_eq_some_iff]

/-- A row that was kept was there. -/
theorem find_of_find_filter {t : Table ρ} {p : ℕ → ρ → Bool} {i : ℕ} {r : ρ} (h : (t.filter p).find i = some r) :
    t.find i = some r := (find_filter_eq_some.mp h).1

theorem find_erase (t : Table ρ) (i j : ℕ) : (t.erase i).find j = if j = i then none else t.find j := by
  rw [erase, find_filter]
  split_ifs with h
  · subst h
    cases t.find j <;> simp
  · cases t.find j <;> simp [h]

theorem find_set (t : Table ρ) (i : ℕ) (r : ρ) (j : ℕ) :
    (t.set i r).find j = if j = i then (t.find j).map fun _ => r else t.find j := by
  ext x
  rw [find_eq_some, set, List.mem_map]
  constructor
  · rintro ⟨⟨k, y⟩, hy, hk⟩
    simp only [Prod.mk.injEq] at hk
    obtain ⟨rfl, rfl⟩ := hk
    rw [← find_eq_some] at hy
    split_ifs with h <;> simp [hy]
  · split_ifs with h
    · intro hx
      obtain ⟨y, hy, rfl⟩ := Option.map_eq_some_iff.mp hx
      exact ⟨(j, y), find_eq_some.mp hy, by simp [h]⟩
    · intro hx
      exact ⟨(j, x), find_eq_some.mp hx, by simp [h]⟩

theorem find_set_of_ne {t : Table ρ} {i j : ℕ} (r : ρ) (h : i ≠ j) : (t.set i r).find j = t.find j := by
  rw [find_set, if_neg h.symm]

/-- **A table is what it says about ids**, and its counter. -/
theorem ext_find {t t' : Table ρ} (hn : t.next = t'.next) (h : ∀ i, t.find i = t'.find i) : t = t' := by
  refine ext_rows ?_ hn
  have hmem : ∀ x : ℕ × ρ, x ∈ t.rows ↔ x ∈ t'.rows := by
    rintro ⟨i, r⟩
    rw [← find_eq_some, ← find_eq_some, h]
  have hperm : t.rows.Perm t'.rows :=
    (List.perm_ext_iff_of_nodup (List.Nodup.of_map _ t.nodup_ids) (List.Nodup.of_map _ t'.nodup_ids)).mpr hmem
  exact hperm.eq_of_pairwise (fun a b _ _ hab hba => absurd (hab.trans hba) (lt_irrefl _)) t.sorted t'.sorted

/-- To write what is there changes nothing. -/
theorem set_of_find {t : Table ρ} {i : ℕ} {r : ρ} (h : t.find i = some r) : t.set i r = t := by
  refine ext_find rfl fun j => ?_
  rw [find_set]
  split_ifs with hj
  · rw [hj, h, Option.map_some]
  · rfl

theorem find_set_self {t : Table ρ} {i : ℕ} {r : ρ} (h : t.find i = some r) (r' : ρ) : (t.set i r').find i = some r' := by
  rw [find_set, if_pos rfl, h, Option.map_some]

theorem select_insert (t : Table ρ) (r : ρ) (p : ρ → Bool) :
    (t.insert r).select p = t.select p ++ if p r then [(t.next, r)] else [] := by
  simp [select, insert, List.filter_cons]

/-! ### Inserting many -/

@[simp] theorem insertAll_nil (t : Table ρ) : t.insertAll [] = t := rfl

@[simp] theorem insertAll_cons (t : Table ρ) (r : ρ) (l : List ρ) :
    t.insertAll (r :: l) = (t.insert r).insertAll l := rfl

theorem insertAll_append (t : Table ρ) (l l' : List ρ) : t.insertAll (l ++ l') = (t.insertAll l).insertAll l' :=
  List.foldl_append

/-- The inserted rows get the ids from the counter on, in their order. -/
theorem find_insertAll (t : Table ρ) (l : List ρ) (i : ℕ) :
    (t.insertAll l).find i = if i < t.next then t.find i else l[i - t.next]? := by
  induction l generalizing t with
  | nil =>
    split_ifs with hi
    · rfl
    · rw [List.getElem?_nil, insertAll_nil, Option.eq_none_iff_forall_ne_some]
      exact fun r hr => hi (lt_next (Has.of_find hr))
  | cons x l ih =>
    have hnext : (t.insert x).next = t.next + 1 := rfl
    rw [insertAll_cons, ih, find_insert, hnext]
    rcases Nat.lt_trichotomy i t.next with hi | rfl | hi
    · rw [if_pos (by omega), if_neg (by omega), if_pos hi]
    · rw [if_pos (by omega), if_pos rfl, if_neg (by omega), Nat.sub_self, List.getElem?_cons_zero]
    · have hsub : i - t.next = i - (t.next + 1) + 1 := by omega
      rw [if_neg (by omega), if_neg (by omega), hsub, List.getElem?_cons_succ]

/-- A row found after inserting was there before, or is one of the inserted. -/
theorem mem_of_find_insertAll {t : Table ρ} {l : List ρ} {i : ℕ} {r : ρ} (h : (t.insertAll l).find i = some r) :
    t.find i = some r ∨ r ∈ l := by
  rw [find_insertAll] at h
  split_ifs at h
  · exact .inl h
  · exact .inr (List.mem_of_getElem? h)

/-- Every inserted row is found. -/
theorem exists_find_insertAll (t : Table ρ) {l : List ρ} {r : ρ} (h : r ∈ l) : ∃ i, (t.insertAll l).find i = some r := by
  obtain ⟨k, hk⟩ := List.mem_iff_getElem?.mp h
  refine ⟨t.next + k, ?_⟩
  rw [find_insertAll, if_neg (by omega), Nat.add_sub_cancel_left, hk]

/-- The rows that satisfy `p`, after inserting. -/
theorem map_select_insertAll (t : Table ρ) (l : List ρ) (p : ρ → Bool) :
    ((t.insertAll l).select p).map (·.2) = (t.select p).map (·.2) ++ l.filter p := by
  induction l generalizing t with
  | nil => simp
  | cons x l ih =>
    rw [insertAll_cons, ih]
    cases hx : p x <;> simp [select, insert, hx]

/-! ### Keeping rows -/

theorem filter_congr {t : Table ρ} {p q : ℕ → ρ → Bool} (h : ∀ i r, t.find i = some r → p i r = q i r) :
    t.filter p = t.filter q :=
  ext_rows (List.filter_congr fun x hx => h x.1 x.2 (find_eq_some.mpr hx)) rfl

theorem filter_filter (t : Table ρ) (p q : ℕ → ρ → Bool) :
    (t.filter p).filter q = t.filter fun i r => p i r && q i r :=
  ext_rows (by simp [filter, List.filter_filter, Bool.and_comm]) rfl

theorem filter_true {t : Table ρ} {p : ℕ → ρ → Bool} (h : ∀ i r, t.find i = some r → p i r = true) :
    t.filter p = t :=
  ext_rows (List.filter_eq_self.mpr fun x hx => h x.1 x.2 (find_eq_some.mpr hx)) rfl

/-- The rows that satisfy `p`, after keeping those that satisfy `q`. -/
theorem map_select_filter (t : Table ρ) (p q : ρ → Bool) :
    ((t.filter fun _ r => q r).select p).map (·.2) = ((t.select p).map (·.2)).filter q := by
  simp only [select, filter, List.filter_filter, List.filter_map]
  congr 1
  refine List.filter_congr fun x _ => ?_
  rw [Function.comp, Bool.and_comm]

/-- Keeping the ids that `p` does not pick is keeping the rows that `p` does not pick. -/
theorem filter_not_mem_idsWhere (t : Table ρ) (p : ρ → Bool) :
    (t.filter fun i _ => decide (i ∉ t.idsWhere p)) = t.filter fun _ r => !p r := by
  refine filter_congr fun i r hr => ?_
  rw [Bool.eq_iff_iff, decide_eq_true_iff, mem_idsWhere]
  cases hp : p r <;> simp [hr, hp]

/-- Inserting a row keeps the others. -/
theorem find_insert_of_find {t : Table ρ} {i : ℕ} {x : ρ} (h : t.find i = some x) (r : ρ) :
    (t.insert r).find i = some x := by
  have hne : i ≠ t.next := Nat.ne_of_lt (lt_next (Has.of_find h))
  rw [find_insert, if_neg hne, h]

theorem find_insert_of_has {t : Table ρ} {i : ℕ} (h : t.Has i) (r : ρ) : (t.insert r).find i = t.find i := by
  rw [find_insert, if_neg (Nat.ne_of_lt (lt_next h))]

theorem find_insert_next (t : Table ρ) (r : ρ) : (t.insert r).find t.next = some r := by
  rw [find_insert, if_pos rfl]

/-- A row that is there after an insertion is the new one, or was there. -/
theorem find_insert_eq_some {t : Table ρ} {r x : ρ} {i : ℕ} :
    (t.insert r).find i = some x ↔ (i = t.next ∧ x = r) ∨ t.find i = some x := by
  constructor
  · intro h
    rw [find_insert] at h
    split_ifs at h with hi
    · exact .inl ⟨hi, (Option.some.inj h).symm⟩
    · exact .inr h
  · rintro (⟨rfl, rfl⟩ | h)
    · exact find_insert_next t x
    · exact find_insert_of_find h r

theorem Has.insert {t : Table ρ} {i : ℕ} (h : t.Has i) (r : ρ) : (t.insert r).Has i := by
  obtain ⟨x, hx⟩ := has_iff.mp h
  exact Has.of_find (find_insert_of_find hx r)

theorem has_set {t : Table ρ} {i j : ℕ} {r : ρ} : (t.set i r).Has j ↔ t.Has j := by
  simp only [Has, find_set]
  split_ifs <;> simp

theorem has_filter {t : Table ρ} {p : ℕ → Bool} {i : ℕ} : (t.filter fun j _ => p j).Has i ↔ p i = true ∧ t.Has i := by
  rw [has_iff, has_iff]
  simp only [find_filter_eq_some]
  exact ⟨fun ⟨r, hr, hp⟩ => ⟨hp, r, hr⟩, fun ⟨hp, r, hr⟩ => ⟨r, hr, hp⟩⟩

theorem has_erase {t : Table ρ} {i j : ℕ} : (t.erase i).Has j ↔ j ≠ i ∧ t.Has j := by
  simp only [Has, find_erase]
  split_ifs with h <;> simp [h]

/-! ### What is true of all rows -/

/-- Every row satisfies `P`. -/
def All (P : ρ → Prop) (t : Table ρ) : Prop := ∀ i r, t.find i = some r → P r

theorem All.empty {P : ρ → Prop} : All P (empty : Table ρ) := by
  intro i r h
  simp at h

theorem All.insert {P : ρ → Prop} {t : Table ρ} (h : All P t) {r : ρ} (hr : P r) : All P (t.insert r) := by
  intro i x hx
  rcases find_insert_eq_some.mp hx with ⟨-, rfl⟩ | hx
  · exact hr
  · exact h i x hx

theorem All.set {P : ρ → Prop} {t : Table ρ} (h : All P t) {i : ℕ} {r : ρ} (hr : P r) : All P (t.set i r) := by
  intro j x hx
  rw [find_set] at hx
  split_ifs at hx with hj
  · obtain ⟨_, _, rfl⟩ := Option.map_eq_some_iff.mp hx
    exact hr
  · exact h j x hx

theorem All.filter {P : ρ → Prop} {t : Table ρ} (h : All P t) (p : ℕ → ρ → Bool) : All P (t.filter p) :=
  fun i r hr => h i r (find_of_find_filter hr)

/-- No two rows have the same value of `f`: a unique index. -/
def Unique {κ : Type} (f : ρ → κ) (t : Table ρ) : Prop :=
  ∀ i j r x, t.find i = some r → t.find j = some x → f r = f x → i = j

theorem Unique.insert {κ : Type} {f : ρ → κ} {t : Table ρ} (h : Unique f t) {r : ρ}
    (hr : ∀ i x, t.find i = some x → f x ≠ f r) : Unique f (t.insert r) := by
  intro i j x y hx hy he
  rcases find_insert_eq_some.mp hx with ⟨hi, rfl⟩ | hx'
  · rcases find_insert_eq_some.mp hy with ⟨hj, -⟩ | hy'
    · rw [hi, hj]
    · exact absurd he.symm (hr j y hy')
  · rcases find_insert_eq_some.mp hy with ⟨-, rfl⟩ | hy'
    · exact absurd he (hr i x hx')
    · exact h i j x y hx' hy' he

theorem Unique.filter {κ : Type} {f : ρ → κ} {t : Table ρ} (h : Unique f t) (p : ℕ → ρ → Bool) : Unique f (t.filter p) :=
  fun i j r x hr hx he => h i j r x (find_of_find_filter hr) (find_of_find_filter hx) he

/-! ### Tables over time -/

/-- `t'` may have come of `t`: no id was given twice, and a row under an id that `t` had given was there, with the same
value of `f`. -/
structure Later {κ : Type} (f : ρ → κ) (t t' : Table ρ) : Prop where
  next_le : t.next ≤ t'.next
  kept : ∀ i r', i < t.next → t'.find i = some r' → ∃ r, t.find i = some r ∧ f r' = f r

section Later

variable {κ : Type} {f : ρ → κ} {t t' t'' : Table ρ}

theorem Later.refl (f : ρ → κ) (t : Table ρ) : Later f t t := ⟨le_rfl, fun _ r _ hr => ⟨r, hr, rfl⟩⟩

theorem Later.trans (h : Later f t t') (h' : Later f t' t'') : Later f t t'' := by
  refine ⟨h.next_le.trans h'.next_le, fun i r'' hi hr'' => ?_⟩
  obtain ⟨r', hr', hk'⟩ := h'.kept i r'' (lt_of_lt_of_le hi h.next_le) hr''
  obtain ⟨r, hr, hk⟩ := h.kept i r' hi hr'
  exact ⟨r, hr, hk'.trans hk⟩

theorem Later.insert (f : ρ → κ) (t : Table ρ) (r : ρ) : Later f t (t.insert r) := by
  refine ⟨Nat.le_succ _, fun i x hi hx => ?_⟩
  rcases find_insert_eq_some.mp hx with ⟨rfl, -⟩ | hx
  · exact absurd hi (lt_irrefl _)
  · exact ⟨x, hx, rfl⟩

theorem Later.set {i : ℕ} {r r' : ρ} (h : t.find i = some r) (hf : f r' = f r) : Later f t (t.set i r') := by
  refine ⟨le_rfl, fun j x _ hx => ?_⟩
  rw [find_set] at hx
  split_ifs at hx with hj
  · subst hj
    obtain ⟨_, -, rfl⟩ := Option.map_eq_some_iff.mp hx
    exact ⟨r, h, hf⟩
  · exact ⟨x, hx, rfl⟩

theorem Later.filter (f : ρ → κ) (t : Table ρ) (p : ℕ → ρ → Bool) : Later f t (t.filter p) :=
  ⟨le_rfl, fun _ x _ hx => ⟨x, find_of_find_filter hx, rfl⟩⟩

/-- What was deleted does not come back. -/
theorem Later.find_eq_none (h : Later f t t') {i : ℕ} (hi : i < t.next) (hn : t.find i = none) : t'.find i = none := by
  cases hf : t'.find i with
  | none => rfl
  | some r' =>
    obtain ⟨r, hr, -⟩ := h.kept i r' hi hf
    rw [hn] at hr
    cases hr

/-- What is there at both times has the same value of `f`. -/
theorem Later.eq_of_find (h : Later f t t') {i : ℕ} {r r' : ρ} (hr : t.find i = some r) (hr' : t'.find i = some r') :
    f r' = f r := by
  obtain ⟨x, hx, hf⟩ := h.kept i r' (lt_next (Has.of_find hr)) hr'
  rw [hr] at hx
  cases hx
  exact hf

end Later

/-! ### References -/

/-- Every row of `child` refers, through `fk`, to a row of `parent`. -/
def Refs (child : Table ρ) (fk : ρ → ℕ) (parent : Table π) : Prop :=
  ∀ i r, child.find i = some r → parent.Has (fk r)

variable {child : Table ρ} {parent : Table π} {fk : ρ → ℕ}

theorem Refs.empty : Refs (empty : Table ρ) fk parent := by
  intro i r h
  simp at h

/-- Nothing refers to a row to come. -/
theorem Refs.select_next (h : Refs child fk parent) : (child.select fun r => fk r == parent.next) = [] := by
  refine List.filter_eq_nil_iff.mpr fun x hx => ?_
  have := lt_next (h x.1 x.2 (find_eq_some.mpr hx))
  simp only [beq_iff_eq]
  omega

/-- A reference survives whatever only adds parents. -/
theorem Refs.mono {parent' : Table π} (h : Refs child fk parent)
    (hp : ∀ i, parent.Has i → parent'.Has i) : Refs child fk parent' :=
  fun i r hr => hp _ (h i r hr)

theorem Refs.insert_child (h : Refs child fk parent) {r : ρ} (hr : parent.Has (fk r)) :
    Refs (child.insert r) fk parent := by
  intro i x hx
  rw [find_insert] at hx
  split_ifs at hx with hi
  · cases hx
    exact hr
  · exact h i x hx

theorem Refs.insertAll_child (h : Refs child fk parent) {l : List ρ} (hl : ∀ r ∈ l, parent.Has (fk r)) :
    Refs (child.insertAll l) fk parent := by
  intro i r hr
  rcases mem_of_find_insertAll hr with hr | hr
  · exact h i r hr
  · exact hl r hr

theorem Refs.set_child (h : Refs child fk parent) {i : ℕ} {r : ρ} (hr : parent.Has (fk r)) :
    Refs (child.set i r) fk parent := by
  intro j x hx
  rw [find_set] at hx
  split_ifs at hx with hi
  · obtain ⟨_, _, rfl⟩ := Option.map_eq_some_iff.mp hx
    exact hr
  · exact h j x hx

/-- Deleting children keeps a reference. -/
theorem Refs.filter_child (h : Refs child fk parent) (p : ℕ → ρ → Bool) :
    Refs (child.filter p) fk parent := by
  intro i r hr
  exact h i r (find_of_find_filter hr)

/-- Deleting parents keeps a reference when the children that stay refer to parents that stay. -/
theorem Refs.filter_both (h : Refs child fk parent) {p : ℕ → ρ → Bool} {q : ℕ → π → Bool}
    (hpq : ∀ i r x, child.find i = some r → p i r = true → parent.find (fk r) = some x → q (fk r) x = true) :
    Refs (child.filter p) fk (parent.filter q) := by
  intro i r hr
  obtain ⟨hr, hp⟩ := find_filter_eq_some.mp hr
  obtain ⟨x, hx⟩ := has_iff.mp (h i r hr)
  exact Has.of_find (find_filter_eq_some.mpr ⟨hx, hpq i r x hr hp hx⟩)

/-- Deleting parents keeps a reference when every child refers to a parent that stays. -/
theorem Refs.filter_parent (h : Refs child fk parent) {q : ℕ → π → Bool}
    (hq : ∀ i r x, child.find i = some r → parent.find (fk r) = some x → q (fk r) x = true) :
    Refs child fk (parent.filter q) := by
  have := h.filter_both (p := fun _ _ => true) fun i r x hr _ hx => hq i r x hr hx
  rwa [filter_true fun _ _ _ => rfl] at this

end Table

end Store
