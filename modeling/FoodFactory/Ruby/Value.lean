import Mathlib.Data.Rat.Lemmas
import FoodFactory.Number.Binary64

/-!
# Ruby values

What the application uses of Ruby's conversions, on strings as lists of
characters so that every conversion can be evaluated.

* `blank` — `Object#blank?` on a string: only (Unicode) white space.
* `lastWord` — `split(' ').last`.
* `strip` — `String#strip`.
* `toI`, `toF` — `String#to_i` and `String#to_f`: white space, a sign, and the
  longest numeral that follows; `0` when there is none. A single underscore may
  stand between two digits. The number that `to_f` reads (`readFloat`) is rounded
  to a float.
* `floatToI` — `Float#to_i`, towards zero; an infinity has none.

A `Scalar` is a permitted request parameter: `nil`, a string, a number or a
boolean. `Scalar.toI` and `Scalar.toF` are `to_i` and `to_f` on such a value, and
fail on a boolean, which has neither method, and `to_i` on an infinity.

## Honest scope

Numerals are decimal: the hexadecimal ones that `to_f` reads after a sign are not
modelled, nor is it that `to_f` drops digits after the sixtieth.
-/

namespace FoodFactory.Ruby

/-- The white space of the C locale. -/
def asciiSpace (c : Char) : Bool := c.toNat == 32 || (9 ≤ c.toNat && c.toNat ≤ 13)

/-- `[[:space:]]`: Unicode white space. -/
def space (c : Char) : Bool :=
  asciiSpace c || [0x85, 0xA0, 0x1680, 0x2028, 0x2029, 0x202F, 0x205F, 0x3000].contains c.toNat ||
    (0x2000 ≤ c.toNat && c.toNat ≤ 0x200A)

/-- `String#blank?`. -/
def blank (s : String) : Bool := s.toList.all space

/-- `split(' ').last`: the last word of a string, `nil` when it has none. -/
def lastWord (s : String) : Option String :=
  let w := (s.toList.reverse.dropWhile asciiSpace).takeWhile fun c => !asciiSpace c
  if w.isEmpty then none else some (String.ofList w.reverse)

/-- `String#strip`: white space and nulls, at both ends. -/
def strip (s : String) : String :=
  let p := fun c : Char => asciiSpace c || c.toNat == 0
  String.ofList ((s.toList.dropWhile p).reverse.dropWhile p).reverse

/-- The value of a decimal digit. -/
def digit (c : Char) : ℕ := c.toNat - '0'.toNat

/-- Read digits: the number `v` they extend, how many there are after the first `n`,
and what is left. -/
def readDigits : List Char → ℕ → ℕ → ℕ × ℕ × List Char
  | [], v, n => (v, n, [])
  | '_' :: c :: cs, v, n =>
      if 0 < n ∧ c.isDigit then readDigits cs (v * 10 + digit c) (n + 1) else (v, n, '_' :: c :: cs)
  | c :: cs, v, n => if c.isDigit then readDigits cs (v * 10 + digit c) (n + 1) else (v, n, c :: cs)

/-- Read an optional sign. -/
def readSign : List Char → ℤ × List Char
  | '-' :: cs => (-1, cs)
  | '+' :: cs => (1, cs)
  | cs => (1, cs)

/-- Skip the prefix of a decimal numeral. -/
def skipRadix : List Char → List Char
  | '0' :: 'd' :: cs => cs
  | '0' :: 'D' :: cs => cs
  | cs => cs

/-- `String#to_i`. -/
def toI (s : String) : ℤ :=
  let (sg, cs) := readSign (s.toList.dropWhile asciiSpace)
  sg * (readDigits (skipRadix cs) 0 0).1

/-- The exponent of a float: `e`, a sign and digits, or nothing. -/
def readExponent : List Char → ℤ
  | c :: cs =>
      if c = 'e' ∨ c = 'E' then
        let (sg, cs) := readSign cs
        sg * (readDigits cs 0 0).1
      else 0
  | [] => 0

/-- The number that `String#to_f` reads. -/
def readFloat (s : String) : ℚ :=
  let (sg, cs) := readSign (s.toList.dropWhile asciiSpace)
  let (v, n, cs) := readDigits cs 0 0
  -- a point counts only when a digit follows it
  let (v, k, m, cs) := match cs with
    | '.' :: c :: cs' =>
        if c.isDigit then
          let (v', n', cs'') := readDigits (c :: cs') v 0
          (v', n', n + n', cs'')
        else (v, 0, n, cs)
    | _ => (v, 0, n, cs)
  if m = 0 then 0 else sg * v * (10 : ℚ) ^ (readExponent cs - k)

/-- `String#to_f`. -/
def toF (s : String) : Binary64 := .round (readFloat s)

/-- Round towards zero. -/
def truncate (q : ℚ) : ℤ := q.num.tdiv q.den

/-- `Float#to_i`. -/
def floatToI (x : Binary64) : Option ℤ := x.toRat?.map truncate

/-- A permitted scalar parameter. -/
inductive Scalar where
  | nil
  | str (s : String)
  | int (n : ℤ)
  | flt (x : Binary64)
  | bool (b : Bool)
  deriving DecidableEq

/-- Why a conversion raises. -/
inductive ConversionError where
  | noMethodError
  | floatDomainError
  deriving DecidableEq

namespace Scalar

/-- `value.to_i`. -/
def toI : Scalar → Except ConversionError ℤ
  | .nil => .ok 0
  | .str s => .ok (Ruby.toI s)
  | .int n => .ok n
  | .flt x =>
      match floatToI x with
      | some n => .ok n
      | none => .error .floatDomainError
  | .bool _ => .error .noMethodError

/-- `value.to_f`. -/
def toF : Scalar → Except ConversionError Binary64
  | .nil => .ok 0
  | .str s => .ok (Ruby.toF s)
  | .int n => .ok (.round n)
  | .flt x => .ok x
  | .bool _ => .error .noMethodError

/-- `value.to_s`. -/
def toS (floatToS : Binary64 → String) : Scalar → String
  | .nil => ""
  | .str s => s
  | .int n => toString n
  | .flt x => floatToS x
  | .bool b => toString b

/-- The value as an integer column keeps it. An infinity is as good as `nil` there. -/
def castInteger : Scalar → Option ℤ
  | .nil => none
  | .str s => if blank s then none else some (Ruby.toI s)
  | .int n => some n
  | .flt x => floatToI x
  | .bool b => some (if b then 1 else 0)

end Scalar

/-! ### Numerals

`to_i` and `to_f` read what a string begins with. Whether the whole string is a numeral, white space around
it apart, is another question. -/

/-- The whole string is the numeral of an integer. -/
def isInteger (s : String) : Bool :=
  let (_, n, cs) := readDigits (readSign (s.toList.dropWhile asciiSpace)).2 0 0
  0 < n && cs.all asciiSpace

/-- What is left after an exponent with at least one digit, or after nothing. -/
def dropExponent : List Char → List Char
  | c :: cs =>
      let (_, n, cs') := readDigits (readSign cs).2 0 0
      if (c = 'e' ∨ c = 'E') ∧ 0 < n then cs' else c :: cs
  | [] => []

/-- The whole string is a decimal numeral, with or without a fraction and an exponent. -/
def isNumeral (s : String) : Bool :=
  let (_, n, cs) := readDigits (readSign (s.toList.dropWhile asciiSpace)).2 0 0
  let (m, cs) := match cs with
    | '.' :: c :: cs' =>
        if c.isDigit then
          let (_, n', cs'') := readDigits (c :: cs') 0 0
          (n + n', cs'')
        else (n, cs)
    | _ => (n, cs)
  0 < m && (dropExponent cs).all asciiSpace

/-- The number that a value is, if it is a number or a numeral. -/
def Scalar.number : Scalar → Option ℚ
  | .nil => none
  | .str s => if isNumeral s then some (readFloat s) else none
  | .int n => some n
  | .flt x => x.toRat?
  | .bool _ => none

/-- The integer that a value is, if it is an integer or the numeral of one. -/
def Scalar.integer : Scalar → Option ℤ
  | .nil => none
  | .str s => if isInteger s then some (Ruby.toI s) else none
  | .int n => some n
  | .flt x => x.toRat?.bind fun q => if q.den = 1 then some q.num else none
  | .bool _ => none

/-- A number that a float holds is converted to itself. -/
theorem Scalar.toF_of_number {x : Scalar} {q : ℚ} (h : x.number = some q) (hq : IsBinary64 q) :
    x.toF = .ok (.finite q hq) := by
  cases x with
  | nil => cases h
  | str s =>
    rw [number, Option.ite_none_right_eq_some, Option.some.injEq] at h
    rw [toF, Ruby.toF, h.2, Binary64.round_of_isBinary64 hq]
  | int n =>
    cases h
    rw [toF, Binary64.round_of_isBinary64 hq]
  | flt r =>
    cases r with
    | finite r hr =>
      cases h
      rfl
    | infinity negative => cases h
  | bool b => cases h

example : isNumeral " -1_000.25e+3 " = true ∧ isNumeral "12abc" = false ∧ isNumeral "" = false := by decide +kernel

/-! ### A decimal numeral reads as its number -/

theorem readDigits_cons {c : Char} (hc : c.isDigit = true) (cs : List Char) (v n : ℕ) :
    readDigits (c :: cs) v n = readDigits cs (v * 10 + digit c) (n + 1) := by
  have hne : c ≠ '_' := by
    rintro rfl
    exact absurd hc (by decide)
  rw [readDigits.eq_def]
  split
  · simp_all
  · simp_all
  · simp_all

theorem readDigits_of_isDigit {cs : List Char} (h : ∀ c ∈ cs, c.isDigit = true) (v n : ℕ) :
    (readDigits cs v n).1 = Nat.ofDigitChars 10 cs v := by
  induction cs generalizing v n with
  | nil => simp [readDigits]
  | cons c cs ih =>
    rw [readDigits_cons (h c (List.mem_cons_self ..)), Nat.ofDigitChars_cons,
      ih fun c' h' => h c' (List.mem_cons_of_mem _ h'), digit, Nat.mul_comm]

theorem asciiSpace_of_isDigit {c : Char} (hc : c.isDigit = true) : asciiSpace c = false := by
  simp only [Char.isDigit, Bool.and_eq_true, decide_eq_true_eq, UInt32.le_iff_toNat_le] at hc
  have h : 48 ≤ c.toNat := hc.1
  simp only [asciiSpace, Bool.or_eq_false_iff, beq_eq_false_iff_ne, Bool.and_eq_false_iff, decide_eq_false_iff_not]
  omega

theorem skipRadix_of_isDigit {cs : List Char} (h : ∀ c ∈ cs, c.isDigit = true) : skipRadix cs = cs := by
  unfold skipRadix
  split
  · exact absurd (h 'd' (by simp)) (by decide)
  · exact absurd (h 'D' (by simp)) (by decide)
  · rfl

theorem readSign_of_isDigit {c : Char} (hc : c.isDigit = true) (cs : List Char) :
    readSign (c :: cs) = (1, c :: cs) := by
  unfold readSign
  split
  · rename_i heq
    cases heq
    exact absurd hc (by decide)
  · rename_i heq
    cases heq
    exact absurd hc (by decide)
  · rfl

/-- The numeral of a natural number: its digits, of which there is at least one. -/
theorem toDigits_eq_cons (n : ℕ) : ∃ c cs, Nat.toDigits 10 n = c :: cs ∧ ∀ c' ∈ c :: cs, c'.isDigit = true := by
  obtain ⟨c, cs, h⟩ := List.exists_cons_of_ne_nil (Nat.toDigits_ne_nil (n := n) (b := 10))
  exact ⟨c, cs, h, fun c' hc' => Nat.isDigit_of_mem_toDigits (by decide) le_rfl (h ▸ hc')⟩

/-- **`to_i` undoes `to_s`**, on integers. -/
theorem toI_toString (n : ℤ) : toI (toString n) = n := by
  have hread (m : ℕ) : ((readDigits (skipRadix (Nat.toDigits 10 m)) 0 0).1 : ℤ) = m := by
    obtain ⟨c, cs, h, hd⟩ := toDigits_eq_cons m
    rw [h, skipRadix_of_isDigit hd, readDigits_of_isDigit hd, ← h, Nat.ofDigitChars_ten_toDigits]
  cases n with
  | ofNat m =>
    obtain ⟨c, cs, h, hd⟩ := toDigits_eq_cons m
    have hc : c.isDigit = true := hd c (List.mem_cons_self ..)
    have hs : (toString (Int.ofNat m)).toList = c :: cs := by
      rw [show toString (Int.ofNat m) = toString m from rfl, Nat.toString_eq_ofList_toDigits, h, String.toList_ofList]
    rw [toI, hs, List.dropWhile_cons_of_neg (by simp [asciiSpace_of_isDigit hc]), readSign_of_isDigit hc, ← h]
    simp [hread]
  | negSucc m =>
    have hs : (toString (Int.negSucc m)).toList = '-' :: Nat.toDigits 10 (m + 1) := by
      rw [show toString (Int.negSucc m) = "-" ++ toString (m + 1) from rfl, String.toList_append,
        Nat.toString_eq_ofList_toDigits, String.toList_ofList, String.toList_ofList]
      rfl
    rw [toI, hs, List.dropWhile_cons_of_neg (by decide)]
    show -1 * ((readDigits (skipRadix (Nat.toDigits 10 (m + 1))) 0 0).1 : ℤ) = _
    rw [hread]
    omega

@[simp] theorem truncate_intCast (n : ℤ) : truncate n = n := by
  simp [truncate]

/-! ### The numeral of an integer reads as the same number -/

theorem readExponent_of_asciiSpace {cs : List Char} (h : cs.all asciiSpace = true) : readExponent cs = 0 := by
  cases cs with
  | nil => rfl
  | cons c cs =>
    have hc : asciiSpace c = true := (Bool.and_eq_true_iff.mp (List.all_cons ▸ h)).1
    have he : ¬ (c = 'e' ∨ c = 'E') := by
      rintro (rfl | rfl) <;> exact absurd hc (by decide)
    rw [readExponent, if_neg he]

theorem dropExponent_of_asciiSpace {cs : List Char} (h : cs.all asciiSpace = true) : dropExponent cs = cs := by
  cases cs with
  | nil => rfl
  | cons c cs =>
    have hc : asciiSpace c = true := (Bool.and_eq_true_iff.mp (List.all_cons ▸ h)).1
    have he : ¬ (c = 'e' ∨ c = 'E') := by
      rintro (rfl | rfl) <;> exact absurd hc (by decide)
    simp [dropExponent, he]

/-- A prefix that is skipped is not followed by white space only. -/
theorem skipRadix_of_asciiSpace {cs : List Char} (h : (readDigits cs 0 0).2.2.all asciiSpace = true) :
    skipRadix cs = cs := by
  unfold skipRadix
  split
  · simp [readDigits, asciiSpace] at h
  · simp [readDigits, asciiSpace] at h
  · rfl

theorem readFloat_of_isInteger {s : String} (h : isInteger s = true) : isNumeral s = true ∧ readFloat s = toI s := by
  unfold isInteger at h
  unfold isNumeral readFloat toI
  generalize readSign (s.toList.dropWhile asciiSpace) = r at h ⊢
  obtain ⟨sg, cs⟩ := r
  have hradix : skipRadix cs = cs := skipRadix_of_asciiSpace (Bool.and_eq_true_iff.mp h).2
  dsimp only at h ⊢
  rw [hradix]
  generalize readDigits cs 0 0 = r at h ⊢
  obtain ⟨v, n, rest⟩ := r
  obtain ⟨hn, hrest⟩ := Bool.and_eq_true_iff.mp h
  have hn : 0 < n := of_decide_eq_true hn
  -- what follows the digits is no point
  have hpoint : ∀ c cs', rest ≠ '.' :: c :: cs' := by
    rintro c cs' rfl
    simp [asciiSpace] at hrest
  dsimp only at hrest ⊢
  split
  · exact absurd rfl (hpoint _ _)
  · simp [hn, hn.ne', hrest, readExponent_of_asciiSpace hrest, dropExponent_of_asciiSpace hrest]

theorem Scalar.number_of_integer {x : Scalar} {n : ℤ} (h : x.integer = some n) : x.number = some (n : ℚ) := by
  cases x with
  | nil => cases h
  | str s =>
    rw [integer, Option.ite_none_right_eq_some, Option.some.injEq] at h
    obtain ⟨hs, rfl⟩ := h
    obtain ⟨hnum, hread⟩ := readFloat_of_isInteger hs
    rw [number, if_pos hnum, hread]
  | int m =>
    cases h
    rfl
  | flt r =>
    obtain ⟨q, hq, hn⟩ := Option.bind_eq_some_iff.mp h
    rw [Option.ite_none_right_eq_some, Option.some.injEq] at hn
    rw [number, hq, ← hn.2, Rat.coe_int_num_of_den_eq_one hn.1]
  | bool b => cases h

/-- An integer is converted to itself. -/
theorem Scalar.toI_of_integer {x : Scalar} {n : ℤ} (h : x.integer = some n) : x.toI = .ok n := by
  cases x with
  | nil => cases h
  | str s =>
    rw [integer, Option.ite_none_right_eq_some, Option.some.injEq] at h
    rw [toI, h.2]
  | int m =>
    cases h
    rfl
  | flt r =>
    have hr : r.toRat? = some (n : ℚ) := number_of_integer h
    simp [toI, floatToI, hr]
  | bool b => cases h

end FoodFactory.Ruby
