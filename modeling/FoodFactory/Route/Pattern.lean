import Mathlib.Data.List.Basic
import Mathlib.Tactic.Common

/-!
# Paths and route tables

A path is a list of characters, cut into segments at a separator. A pattern is a list of segments, each of
which is fixed or captured; a route table is a list of patterns for a method each, and the first that fits a
path says where the path goes and what is captured.

The order of a table does not matter where any two of its patterns are *apart*: of different lengths, or with
different fixed segments in some place. `recognize_eq_some_iff` is then the meaning of the table: a path goes
where some pattern leads that gives the path when its captures are filled in.
-/

namespace Route

/-! ### Paths -/

section Path

variable {χ : Type*} [DecidableEq χ] {sep dot : χ}

/-- What stands between the separators of a path. Separators that are repeated, or at an end, do not matter. -/
def segments (sep : χ) (path : List χ) : List (List χ) := (path.splitOn sep).filter (· ≠ [])

/-- The path with the given segments. -/
def join (sep : χ) (l : List (List χ)) : List χ := l.flatMap (sep :: ·)

theorem splitOn_append_join {s : List χ} {l : List (List χ)} (hs : sep ∉ s) (hl : ∀ t ∈ l, sep ∉ t) :
    (s ++ join sep l).splitOn sep = s :: l := by
  induction l generalizing s with
  | nil =>
    rw [join, List.flatMap_nil, List.append_nil]
    exact List.splitOn_eq_singleton hs
  | cons t l ih =>
    obtain ⟨ht, hl⟩ := List.forall_mem_cons.mp hl
    have hcut : (s ++ join sep (t :: l)).splitOn sep = s :: (t ++ join sep l).splitOn sep :=
      List.splitOn_append_cons_self_of_not_mem hs _
    rw [hcut, ih ht hl]

/-- A path is cut into the segments that it was made of. -/
theorem segments_join {l : List (List χ)} (h : ∀ s ∈ l, s ≠ [] ∧ sep ∉ s) : segments sep (join sep l) = l := by
  have hsplit := splitOn_append_join List.not_mem_nil fun s hs => (h s hs).2
  rw [List.nil_append] at hsplit
  rw [segments, hsplit, List.filter_cons_of_neg (by simp), List.filter_eq_self]
  intro s hs
  exact decide_eq_true (h s hs).1

/-- A segment and its extension: what stands before its dot, and what stands after it if there is one. With a dot there
must be something on both sides of it. -/
def cut (dot : χ) (s : List χ) : Option (List χ × Option (List χ)) :=
  match s.splitOn dot with
  | [a] => some (a, none)
  | [a, b] => if a ≠ [] ∧ b ≠ [] then some (a, some b) else none
  | _ => none

/-- The segments of a path without the extension of the last, and that extension. -/
def cutLast (dot : χ) : List (List χ) → Option (List (List χ) × Option (List χ))
  | [] => some ([], none)
  | [s] => (cut dot s).map fun x => ([x.1], x.2)
  | s :: t :: l => (cutLast dot (t :: l)).map fun x => (s :: x.1, x.2)

theorem cut_of_notMem {s : List χ} (h : dot ∉ s) : cut dot s = some (s, none) := by
  rw [cut, List.splitOn_eq_singleton h]

theorem cutLast_of_notMem {l : List (List χ)} (h : ∀ s ∈ l, dot ∉ s) : cutLast dot l = some (l, none) := by
  induction l with
  | nil => rfl
  | cons s l ih =>
    obtain ⟨hs, hl⟩ := List.forall_mem_cons.mp h
    cases l with
    | nil => rw [cutLast, cut_of_notMem hs, Option.map_some]
    | cons t l => rw [cutLast, ih hl, Option.map_some]

end Path

/-! ### Patterns -/

/-- A segment of a pattern. -/
inductive Segment (α : Type*) where
  /-- This one. -/
  | lit (a : α)
  /-- Any one, which is captured. -/
  | param
  deriving DecidableEq

/-- A pattern for the segments of a path. -/
abbrev Pattern (α : Type*) := List (Segment α)

namespace Pattern

variable {α : Type*} {ok : α → Bool}

/-- The segments of a path that a pattern captures, if it fits; only what is `ok` can be captured. -/
def capture [DecidableEq α] (ok : α → Bool) : Pattern α → List α → Option (List α)
  | [], [] => some []
  | .lit a :: p, b :: l => if a = b then capture ok p l else none
  | .param :: p, b :: l => if ok b then (capture ok p l).map (b :: ·) else none
  | [], _ :: _ => none
  | _ :: _, [] => none

/-- The pattern captures `ids` from the path: the path is the pattern, with `ids` in the places of its parameters. -/
inductive Fits (ok : α → Bool) : Pattern α → List α → List α → Prop where
  | nil : Fits ok [] [] []
  | lit {p : Pattern α} {l ids : List α} (a : α) (h : Fits ok p l ids) : Fits ok (.lit a :: p) (a :: l) ids
  | param {p : Pattern α} {l ids : List α} {b : α} (hb : ok b) (h : Fits ok p l ids) :
    Fits ok (.param :: p) (b :: l) (b :: ids)

@[simp]
theorem fits_nil {l ids : List α} : Fits ok [] l ids ↔ l = [] ∧ ids = [] := by
  constructor
  · intro h
    cases h
    exact ⟨rfl, rfl⟩
  · rintro ⟨rfl, rfl⟩
    exact .nil

@[simp]
theorem fits_lit {a : α} {p : Pattern α} {l ids : List α} :
    Fits ok (.lit a :: p) l ids ↔ ∃ l', l = a :: l' ∧ Fits ok p l' ids := by
  constructor
  · intro h
    cases h with
    | lit _ h => exact ⟨_, rfl, h⟩
  · rintro ⟨l', rfl, h⟩
    exact .lit a h

@[simp]
theorem fits_param {p : Pattern α} {l ids : List α} :
    Fits ok (.param :: p) l ids ↔ ∃ b l' ids', l = b :: l' ∧ ids = b :: ids' ∧ ok b ∧ Fits ok p l' ids' := by
  constructor
  · intro h
    cases h with
    | param hb h => exact ⟨_, _, _, rfl, rfl, hb, h⟩
  · rintro ⟨b, l', ids', rfl, rfl, hb, h⟩
    exact .param hb h

/-- The path that a pattern makes of the values of its parameters. -/
def fill : Pattern α → List α → List α
  | .lit a :: p, ids => a :: fill p ids
  | .param :: p, id :: ids => id :: fill p ids
  | _, _ => []

theorem mem_fill {p : Pattern α} {ids : List α} {s : α} (h : s ∈ p.fill ids) : .lit s ∈ p ∨ s ∈ ids := by
  fun_induction fill p ids with
  | case1 a p ids ih =>
    obtain rfl | h := List.mem_cons.mp h
    · exact .inl List.mem_cons_self
    · exact (ih h).imp (List.mem_cons_of_mem _) id
  | case2 p b ids ih =>
    obtain rfl | h := List.mem_cons.mp h
    · exact .inr List.mem_cons_self
    · exact (ih h).imp (List.mem_cons_of_mem _) (List.mem_cons_of_mem _)
  | case3 => exact absurd h List.not_mem_nil

variable [DecidableEq α]

theorem capture_eq_some_iff {p : Pattern α} {l ids : List α} : p.capture ok l = some ids ↔ Fits ok p l ids := by
  fun_induction capture ok p l generalizing ids with
  | case1 => simp [eq_comm]
  | case2 p a l ih => simp [ih]
  | case3 a p b l hab =>
    have hba : ¬b = a := fun h => hab h.symm
    simp [hba]
  | case4 p b l hb ih =>
    simp only [Option.map_eq_some_iff, ih, fits_param]
    constructor
    · rintro ⟨ids, h, rfl⟩
      exact ⟨b, l, ids, rfl, rfl, hb, h⟩
    · rintro ⟨_, _, ids, hl, rfl, -, h⟩
      cases hl
      exact ⟨ids, h, rfl⟩
  | case5 p b l hb => simp [hb]
  | case6 b l => simp
  | case7 s p =>
    cases s <;> simp

/-- The number of parameters of a pattern. -/
def arity (p : Pattern α) : ℕ := p.count .param

/-- A path fits a pattern if it is made by it. -/
theorem fits_iff {p : Pattern α} {l ids : List α} :
    Fits ok p l ids ↔ ids.length = p.arity ∧ l = p.fill ids ∧ ∀ id ∈ ids, ok id := by
  constructor
  · intro h
    induction h with
    | nil => simp [arity, fill]
    | lit a _ ih => simpa [arity, fill] using ih
    | param hb _ ih => simpa [arity, fill, hb] using ih
  · rintro ⟨hlen, rfl, hok⟩
    induction p generalizing ids with
    | nil =>
      rw [List.eq_nil_of_length_eq_zero hlen]
      exact .nil
    | cons s p ih =>
      cases s with
      | lit a => exact .lit a (ih (by simpa [arity] using hlen) hok)
      | param =>
        cases ids with
        | nil => simp [arity] at hlen
        | cons id ids =>
          obtain ⟨hid, hids⟩ := List.forall_mem_cons.mp hok
          exact .param hid (ih (by simpa [arity] using hlen) hids)

/-- No path fits both: the patterns have different lengths, or different fixed segments in some place. -/
def apart : Pattern α → Pattern α → Bool
  | [], [] => false
  | .lit a :: p, .lit b :: q => a ≠ b || apart p q
  | _ :: p, _ :: q => apart p q
  | [], _ :: _ => true
  | _ :: _, [] => true

theorem Fits.not_apart {p q : Pattern α} {l ids ids' : List α} (h : Fits ok p l ids) (h' : Fits ok q l ids') :
    p.apart q = false := by
  induction h generalizing q ids' with
  | nil =>
    cases h'
    rfl
  | lit a h ih =>
    cases h' with
    | lit _ h' => simp [apart, ih h']
    | param _ h' => exact ih h'
  | param _ h ih =>
    cases h' with
    | lit _ h' => exact ih h'
    | param _ h' => exact ih h'

end Pattern

/-! ### Tables -/

/-- An entry of a table. -/
structure Entry (μ α τ : Type*) where
  method : μ
  pattern : Pattern α
  target : τ

variable {μ α τ : Type*} [DecidableEq μ] [DecidableEq α] {ok : α → Bool} {table : List (Entry μ α τ)}
  {m : μ} {l ids : List α} {t : τ}

/-- Where an entry sends a path, and what it captures. -/
def Entry.serve (ok : α → Bool) (m : μ) (l : List α) (e : Entry μ α τ) : Option (τ × List α) :=
  if e.method = m then (e.pattern.capture ok l).map fun ids => (e.target, ids) else none

/-- The first entry that serves a path. -/
def recognize (ok : α → Bool) (table : List (Entry μ α τ)) (m : μ) (l : List α) : Option (τ × List α) :=
  table.findSome? (Entry.serve ok m l)

/-- Any two entries are for different methods, or have patterns that are apart. -/
def Unambiguous (table : List (Entry μ α τ)) : Prop :=
  table.Pairwise fun e e' => e.method = e'.method → e.pattern.apart e'.pattern

instance : Decidable (Unambiguous table) :=
  inferInstanceAs (Decidable (table.Pairwise fun e e' => e.method = e'.method → e.pattern.apart e'.pattern))

theorem Entry.serve_eq_some_iff {e : Entry μ α τ} :
    e.serve ok m l = some (t, ids) ↔ e.method = m ∧ e.target = t ∧ e.pattern.Fits ok l ids := by
  rw [Entry.serve]
  by_cases hm : e.method = m
  · rw [if_pos hm, Option.map_eq_some_iff]
    simp only [Pattern.capture_eq_some_iff, Prod.mk.injEq, hm, true_and]
    constructor
    · rintro ⟨ids, h, rfl, rfl⟩
      exact ⟨rfl, h⟩
    · rintro ⟨rfl, h⟩
      exact ⟨ids, h, rfl, rfl⟩
  · rw [if_neg hm]
    simp [hm]

/-- **What a table means**, whatever its order. -/
theorem recognize_eq_some_iff (h : Unambiguous table) :
    recognize ok table m l = some (t, ids) ↔ ∃ e ∈ table, e.method = m ∧ e.target = t ∧ e.pattern.Fits ok l ids := by
  rw [recognize, List.findSome?_eq_some_iff]
  constructor
  · rintro ⟨before, e, after, rfl, he, -⟩
    exact ⟨e, by simp, Entry.serve_eq_some_iff.mp he⟩
  · rintro ⟨e, he, hserve⟩
    obtain ⟨before, after, rfl⟩ := List.append_of_mem he
    refine ⟨before, e, after, rfl, Entry.serve_eq_some_iff.mpr hserve, ?_⟩
    intro e' he'
    by_contra hne
    obtain ⟨⟨t', ids'⟩, hserve'⟩ := Option.ne_none_iff_exists'.mp hne
    obtain ⟨hm, -, hfits⟩ := Entry.serve_eq_some_iff.mp hserve'
    have hapart := (List.pairwise_append.mp h).2.2 e' he' e (by simp) (hm.trans hserve.1.symm)
    rw [hfits.not_apart hserve.2.2] at hapart
    contradiction

end Route
