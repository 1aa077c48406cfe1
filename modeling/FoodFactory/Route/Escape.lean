import Mathlib.Data.List.Basic
import Mathlib.Tactic.Common

/-!
# Percent escapes

A segment of a path is written with escapes: what is not *safe* becomes the bytes of its UTF-8 encoding, each as a
percent sign and two hexadecimal digits. What is read is unescaped, and is then bytes, which need not be the encoding of
anything.

An escape that is read is a percent sign and any two letters or digits. If they are not hexadecimal digits both, as many
of them count as there are before the first that is not.

`unescape_escape`: what was escaped is read as it was, provided that a percent sign is not safe.
-/

namespace Route

/-! ### Hexadecimal digits -/

/-- The digit for a number below sixteen, in upper case. -/
def hexDigit (n : ℕ) : Char := n.digitChar.toUpper

/-- The value of a digit. -/
def hexValue (c : Char) : Option ℕ :=
  if c.isDigit then some (c.toNat - '0'.toNat)
  else if 'a' ≤ c ∧ c ≤ 'f' then some (c.toNat - 'a'.toNat + 10)
  else if 'A' ≤ c ∧ c ≤ 'F' then some (c.toNat - 'A'.toNat + 10)
  else none

/-- The value of two characters, as far as they are digits. -/
def hex (a b : Char) : ℕ :=
  match hexValue a, hexValue b with
  | some x, some y => 16 * x + y
  | some x, none => x
  | none, _ => 0

theorem hexDigit_spec : ∀ n < 16, (hexDigit n).isAlphanum = true ∧ hexValue (hexDigit n) = some n := by decide

theorem isAlphanum_hexDigit {n : ℕ} (h : n < 16) : (hexDigit n).isAlphanum = true := (hexDigit_spec n h).1

theorem hex_hexDigit {m n : ℕ} (hm : m < 16) (hn : n < 16) : hex (hexDigit m) (hexDigit n) = 16 * m + n := by
  rw [hex, (hexDigit_spec m hm).2, (hexDigit_spec n hn).2]

/-! ### Reading -/

/-- The bytes that a text with escapes stands for. -/
def unescapeBytes : List Char → List UInt8
  | [] => []
  | '%' :: a :: b :: cs =>
      if a.isAlphanum && b.isAlphanum then .ofNat (hex a b) :: unescapeBytes cs
      else String.utf8EncodeChar '%' ++ unescapeBytes (a :: b :: cs)
  | c :: cs => String.utf8EncodeChar c ++ unescapeBytes cs

/-- What a text with escapes stands for, if its bytes encode something. -/
def unescape (s : String) : Option String := String.fromUTF8? (unescapeBytes s.toList).toByteArray

theorem unescapeBytes_cons_of_ne {c : Char} (h : c ≠ '%') (cs : List Char) :
    unescapeBytes (c :: cs) = String.utf8EncodeChar c ++ unescapeBytes cs := by
  rw [unescapeBytes.eq_def]
  split <;> simp_all

theorem unescape_eq_some {s t : String} (h : unescapeBytes s.toList = t.toList.flatMap String.utf8EncodeChar) :
    unescape s = some t := by
  have hbytes : (unescapeBytes s.toList).toByteArray = t.toByteArray := by
    rw [h]
    exact String.utf8Encode_toList
  rw [unescape, hbytes, String.fromUTF8?, dif_pos t.isValidUTF8]
  rfl

/-- What has no escapes stands for itself. -/
theorem unescape_of_notMem {s : String} (h : '%' ∉ s.toList) : unescape s = some s := by
  refine unescape_eq_some ?_
  generalize s.toList = l at h
  induction l with
  | nil => rfl
  | cons c l ih =>
    have hc : c ≠ '%' := fun hc => h (hc ▸ List.mem_cons_self)
    rw [unescapeBytes_cons_of_ne hc, ih fun hl => h (List.mem_cons_of_mem _ hl), List.flatMap_cons]

/-! ### Writing -/

/-- The escape of a byte. -/
def escapeByte (b : UInt8) : List Char := ['%', hexDigit (b.toNat / 16), hexDigit (b.toNat % 16)]

/-- A text, with an escape for each byte of what is not safe. -/
def escapeChars (safe : Char → Bool) (l : List Char) : List Char :=
  l.flatMap fun c => if safe c then [c] else (String.utf8EncodeChar c).flatMap escapeByte

/-- A text, with escapes for what is not safe. -/
def escape (safe : Char → Bool) (s : String) : String := .ofList (escapeChars safe s.toList)

variable {safe : Char → Bool} {s : String}

theorem unescapeBytes_escapeByte (b : UInt8) (cs : List Char) :
    unescapeBytes (escapeByte b ++ cs) = b :: unescapeBytes cs := by
  have hb : b.toNat < 256 := b.toNat_lt
  have hhigh : b.toNat / 16 < 16 := by omega
  have hlow : b.toNat % 16 < 16 := by omega
  have hvalue : hex (hexDigit (b.toNat / 16)) (hexDigit (b.toNat % 16)) = b.toNat := by
    rw [hex_hexDigit hhigh hlow]
    omega
  simp only [escapeByte, List.cons_append, List.nil_append, unescapeBytes, isAlphanum_hexDigit hhigh,
    isAlphanum_hexDigit hlow, Bool.and_self, if_true, hvalue, UInt8.ofNat_toNat]

theorem unescapeBytes_escapeBytes (bs : List UInt8) (cs : List Char) :
    unescapeBytes (bs.flatMap escapeByte ++ cs) = bs ++ unescapeBytes cs := by
  induction bs with
  | nil => rfl
  | cons b bs ih => rw [List.flatMap_cons, List.append_assoc, unescapeBytes_escapeByte, ih, List.cons_append]

theorem unescapeBytes_escapeChars (hsafe : safe '%' = false) (l : List Char) :
    unescapeBytes (escapeChars safe l) = l.flatMap String.utf8EncodeChar := by
  induction l with
  | nil => rfl
  | cons c l ih =>
    unfold escapeChars at ih ⊢
    rw [List.flatMap_cons, List.flatMap_cons]
    split_ifs with hc
    · have hne : c ≠ '%' := by
        rintro rfl
        rw [hsafe] at hc
        contradiction
      rw [List.singleton_append, unescapeBytes_cons_of_ne hne, ih]
    · rw [unescapeBytes_escapeBytes, ih]

/-- **What was escaped is read as it was.** -/
theorem unescape_escape (hsafe : safe '%' = false) (s : String) : unescape (escape safe s) = some s := by
  refine unescape_eq_some ?_
  rw [escape, String.toList_ofList, unescapeBytes_escapeChars hsafe]

/-- What is not safe stands in no text that was escaped, but for what an escape is made of. -/
theorem mem_escape {c : Char} (h : c ∈ (escape safe s).toList) :
    safe c = true ∧ c ∈ s.toList ∨ c = '%' ∨ c.isAlphanum = true := by
  rw [escape, String.toList_ofList] at h
  obtain ⟨d, hd, hc⟩ := List.mem_flatMap.mp h
  split_ifs at hc with hs
  · obtain rfl := List.mem_singleton.mp hc
    exact .inl ⟨hs, hd⟩
  · obtain ⟨b, -, hb⟩ := List.mem_flatMap.mp hc
    have hlt : b.toNat < 256 := b.toNat_lt
    simp only [escapeByte, List.mem_cons, List.not_mem_nil, or_false] at hb
    obtain rfl | rfl | rfl := hb
    · exact .inr (.inl rfl)
    · exact .inr (.inr (isAlphanum_hexDigit (by omega)))
    · exact .inr (.inr (isAlphanum_hexDigit (by omega)))

theorem escape_ne_nil (hsafe : safe '%' = false) (h : s.toList ≠ []) : (escape safe s).toList ≠ [] := by
  intro hnil
  have hread := unescape_escape hsafe s
  rw [← String.ofList_toList (s := escape safe s), hnil, unescape_of_notMem (by simp)] at hread
  exact h (by rw [← Option.some.inj hread, String.toList_ofList])

end Route
