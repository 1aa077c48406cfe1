import Mathlib.Data.Int.Log
import Mathlib.Data.Rat.Floor
import Mathlib.Tactic.Linarith
import Mathlib.Tactic.NormNum
import Mathlib.Tactic.Positivity

/-!
# Floating-point numbers

The numbers of the format binary64, as rationals, and the infinities. A rational is rounded to the nearest number of
the format, and to the even one of two that are as near (`nearest`); what rounds to `2 ^ 1024` or more is infinite
(`Binary64.round`).

Near a rational `q` the numbers of the format are the multiples of `2 ^ ulp q`: a significand has 53 bits, and no
exponent is below `-1074`.

## What is proved

* `le_roundEven_iff`: what rounds to at least `n`.
* `nearest_nonneg_iff`: a rational rounds to at least `0` from `-2 ^ (-1075)` on.
* `two_zpow_le_nearest_iff`: a rational rounds to at least `2 ^ p` from `2 ^ p - 2 ^ (p - 54)` on.
* `IsBinary64.nearest_eq`: a number of the format is not changed.

## Honest scope

There is one zero, and there is no NaN: neither the reading of a numeral nor the conversion of an integer gives one.
-/

/-! ### Rounding to an integer -/

/-- The nearest integer, the even one of two. -/
def roundEven (x : ℚ) : ℤ :=
  let k := ⌊x⌋
  if x - k < 1 / 2 then k
  else if 1 / 2 < x - k then k + 1
  else k + k % 2

/-- **What rounds to at least `n`**: more than `n - 1 / 2`, and this itself if `n` is even. -/
theorem le_roundEven_iff {x : ℚ} {n : ℤ} : n ≤ roundEven x ↔ (n : ℚ) - 1 / 2 < x ∨ (n : ℚ) - 1 / 2 = x ∧ n % 2 = 0 := by
  have hlo : (⌊x⌋ : ℚ) ≤ x := Int.floor_le x
  have hhi : x < ⌊x⌋ + 1 := Int.lt_floor_add_one x
  generalize hk : ⌊x⌋ = k at hlo hhi
  have hround : roundEven x = if x - k < 1 / 2 then k else if 1 / 2 < x - k then k + 1 else k + k % 2 := by
    rw [roundEven, hk]
  rw [hround]
  -- below, at and above the integer after the floor
  rcases lt_trichotomy n (k + 1) with hn | rfl | hn
  · have hnk : (n : ℚ) ≤ k := by exact_mod_cast Int.lt_add_one_iff.mp hn
    refine iff_of_true ?_ (.inl (by linarith))
    split_ifs <;> omega
  · push_cast
    split_ifs with h h'
    · refine iff_of_false (by omega) ?_
      rintro (hx | ⟨hx, -⟩) <;> linarith
    · exact iff_of_true le_rfl (.inl (by linarith))
    · have hx : (k : ℚ) + 1 - 1 / 2 = x := by linarith
      simp only [hx, lt_self_iff_false, false_or, true_and]
      omega
  · have hnk : (k : ℚ) + 2 ≤ n := by exact_mod_cast (show k + 2 ≤ n by omega)
    refine iff_of_false ?_ ?_
    · split_ifs <;> omega
    · rintro (hx | ⟨hx, -⟩) <;> linarith

theorem abs_roundEven_le {x : ℚ} {n : ℤ} (h : |x| ≤ n) : |roundEven x| ≤ n := by
  obtain ⟨hlo, hhi⟩ := abs_le.mp h
  refine abs_le.mpr ⟨le_roundEven_iff.mpr (.inl (by push_cast; linarith)), ?_⟩
  by_contra hgt
  have hn : n + 1 ≤ roundEven x := by omega
  rcases le_roundEven_iff.mp hn with hx | ⟨hx, -⟩ <;> push_cast at hx <;> linarith

theorem roundEven_intCast (n : ℤ) : roundEven n = n := by
  simp [roundEven]

/-! ### Rounding to a number of the format -/

/-- The exponent of the last place of a significand for `q`. -/
def ulp (q : ℚ) : ℤ := max (Int.log 2 |q| - 52) (-1074)

/-- The nearest number of the format, if exponents had no upper bound. -/
def nearest (q : ℚ) : ℚ := roundEven (q / 2 ^ ulp q) * 2 ^ ulp q

variable {q : ℚ}

theorem two_zpow_pos (p : ℤ) : (0 : ℚ) < 2 ^ p := zpow_pos (by norm_num) p

theorem two_zpow_le {p r : ℤ} (h : p ≤ r) : (2 : ℚ) ^ p ≤ 2 ^ r := zpow_le_zpow_right₀ (by norm_num) h

theorem two_zpow_lt {p r : ℤ} (h : p < r) : (2 : ℚ) ^ p < 2 ^ r := zpow_lt_zpow_right₀ (by norm_num) h

theorem two_zpow_le_of_log (hq : q ≠ 0) : (2 : ℚ) ^ Int.log 2 |q| ≤ |q| := by
  exact_mod_cast Int.zpow_log_le_self (b := 2) (by norm_num) (abs_pos.mpr hq)

theorem lt_two_zpow_of_log (q : ℚ) : |q| < 2 ^ (Int.log 2 |q| + 1) := by
  exact_mod_cast Int.lt_zpow_succ_log_self (b := 2) (by norm_num) |q|

theorem abs_lt_two_zpow_ulp (q : ℚ) : |q| < 2 ^ (ulp q + 53) := by
  refine (lt_two_zpow_of_log q).trans_le (two_zpow_le ?_)
  rw [ulp]
  omega

/-- A rational that is not tiny has a significand of 53 bits. -/
theorem two_zpow_ulp_le_abs (hq : q ≠ 0) (h : ulp q ≠ -1074) : (2 : ℚ) ^ (ulp q + 52) ≤ |q| := by
  have hlog : ulp q = Int.log 2 |q| - 52 := by
    rw [ulp] at h ⊢
    omega
  rw [hlog, sub_add_cancel]
  exact two_zpow_le_of_log hq

/-- **What rounds to at least `0`.** -/
theorem nearest_nonneg_iff : 0 ≤ nearest q ↔ -2 ^ (-1075 : ℤ) ≤ q := by
  have hulp : 0 ≤ nearest q ↔ -2 ^ (ulp q - 1) ≤ q := by
    have hsplit : (2 : ℚ) ^ ulp q = 2 ^ (ulp q - 1) * 2 := by rw [← zpow_add_one₀ (by norm_num), sub_add_cancel]
    have hcast : 0 ≤ nearest q ↔ 0 ≤ roundEven (q / 2 ^ ulp q) := by
      rw [nearest, mul_nonneg_iff_of_pos_right (two_zpow_pos _), Int.cast_nonneg_iff]
    have hhalf : (0 : ℤ) - (1 : ℚ) / 2 ≤ q / 2 ^ ulp q ↔ -2 ^ (ulp q - 1) ≤ q := by
      rw [le_div_iff₀ (two_zpow_pos _), hsplit]
      constructor <;> intro h <;> push_cast at h ⊢ <;> linarith
    rw [hcast, le_roundEven_iff, ← hhalf, le_iff_lt_or_eq]
    simp
  rw [hulp]
  by_cases h : ulp q = -1074
  · rw [h]
    norm_num
  · have hp := two_zpow_pos (ulp q - 1)
    have ht := two_zpow_pos (-1075)
    rcases lt_or_ge q 0 with hq | hq
    · -- a negative number that is not tiny is below both bounds
      have hbig := two_zpow_ulp_le_abs hq.ne h
      rw [abs_of_neg hq] at hbig
      have hlo : (2 : ℚ) ^ (ulp q - 1) < 2 ^ (ulp q + 52) := two_zpow_lt (by omega)
      have htiny : (2 : ℚ) ^ (-1075 : ℤ) < 2 ^ (ulp q + 52) := two_zpow_lt (by rw [ulp]; omega)
      exact iff_of_false (by linarith) (by linarith)
    · exact iff_of_true (by linarith) (by linarith)

/-- A power of two with an exponent that is not negative is an integer. -/
theorem exists_cast_eq_two_zpow {k : ℤ} (hk : 0 ≤ k) : ∃ n : ℤ, (n : ℚ) = 2 ^ k := by
  lift k to ℕ using hk
  exact ⟨2 ^ k, by push_cast; rw [zpow_natCast]⟩

/-- What rounds to at least `2 ^ p`, in units of the last place. -/
theorem two_zpow_le_nearest (q : ℚ) (p : ℤ) :
    2 ^ p ≤ nearest q ↔ (2 : ℚ) ^ (p - ulp q) ≤ roundEven (q / 2 ^ ulp q) := by
  rw [zpow_sub₀ (by norm_num), div_le_iff₀ (two_zpow_pos _), nearest]

/-- What is not positive rounds to less. -/
theorem nearest_lt_of_nonpos (hq : q ≤ 0) (p : ℤ) : nearest q < 2 ^ p := by
  by_contra h
  rw [not_lt, two_zpow_le_nearest] at h
  have hone : 1 ≤ roundEven (q / 2 ^ ulp q) := by
    have hpos := (two_zpow_pos (p - ulp q)).trans_le h
    exact Int.add_one_le_iff.mpr (by exact_mod_cast hpos)
  have hdiv : q / 2 ^ ulp q ≤ 0 := div_nonpos_of_nonpos_of_nonneg hq (two_zpow_pos _).le
  rcases le_roundEven_iff.mp hone with h' | ⟨h', -⟩ <;> push_cast at h' <;> linarith

/-- What is below `2 ^ (p - 1)` rounds to less: the last place is too small. -/
theorem nearest_lt_of_lt {p : ℤ} (hulp : ulp q < p) (hq : q < 2 ^ (p - 1)) : nearest q < 2 ^ p := by
  by_contra h
  rw [not_lt, two_zpow_le_nearest] at h
  obtain ⟨n, hn⟩ := exists_cast_eq_two_zpow (k := p - ulp q) (by omega)
  rw [← hn, Int.cast_le] at h
  have hx : q / 2 ^ ulp q < n / 2 := by
    have hhalf : (n : ℚ) / 2 * 2 ^ ulp q = 2 ^ (p - 1) := by
      rw [hn, zpow_sub₀ (by norm_num), zpow_sub_one₀ (by norm_num)]
      field_simp
    rwa [div_lt_iff₀ (two_zpow_pos _), hhalf]
  have hone : (1 : ℚ) ≤ n := hn ▸ one_le_zpow₀ (by norm_num) (by omega)
  rcases le_roundEven_iff.mp h with h' | ⟨h', -⟩ <;> linarith

/-- Where the last place is `2 ^ (p - 53)`, half of it is missing. -/
theorem two_zpow_le_nearest_of_ulp {p : ℤ} (hulp : ulp q = p - 53) :
    2 ^ p ≤ nearest q ↔ 2 ^ p - 2 ^ (p - 54) ≤ q := by
  have hcast : (2 : ℚ) ^ (53 : ℤ) = ((2 ^ 53 : ℤ) : ℚ) := by norm_num
  have hp : (2 ^ 53 : ℤ) * 2 ^ ulp q = (2 : ℚ) ^ p := by
    rw [← hcast, ← zpow_add₀ (by norm_num), hulp, add_sub_cancel]
  have hhalf : 1 / 2 * (2 : ℚ) ^ ulp q = 2 ^ (p - 54) := by
    rw [hulp, show p - 53 = p - 54 + 1 by ring, zpow_add_one₀ (by norm_num)]
    ring
  have hiff : ((2 ^ 53 : ℤ) : ℚ) - 1 / 2 ≤ q / 2 ^ ulp q ↔ 2 ^ p - 2 ^ (p - 54) ≤ q := by
    rw [le_div_iff₀ (two_zpow_pos _), sub_mul, hp, hhalf]
  rw [two_zpow_le_nearest, hulp, sub_sub_cancel, hcast, Int.cast_le, ← hulp, le_roundEven_iff, ← hiff, le_iff_lt_or_eq]
  simp

/-- From a power of two on, which is a number of the format, nothing rounds to less. -/
theorem two_zpow_le_nearest_of_le {p : ℤ} (hulp : ulp q ≤ p) (hq : 2 ^ p ≤ q) : 2 ^ p ≤ nearest q := by
  obtain ⟨n, hn⟩ := exists_cast_eq_two_zpow (k := p - ulp q) (by omega)
  have hx : (n : ℚ) ≤ q / 2 ^ ulp q := by
    rwa [le_div_iff₀ (two_zpow_pos _), hn, ← zpow_add₀ (by norm_num), sub_add_cancel]
  rw [two_zpow_le_nearest, ← hn, Int.cast_le]
  exact le_roundEven_iff.mpr (.inl (by linarith))

/-- **What rounds to at least `2 ^ p`.** -/
theorem two_zpow_le_nearest_iff {p : ℤ} (hp : -1021 ≤ p) : 2 ^ p ≤ nearest q ↔ 2 ^ p - 2 ^ (p - 54) ≤ q := by
  have hmargin : (2 : ℚ) ^ (p - 54) < 2 ^ (p - 1) := two_zpow_lt (by omega)
  have hhalf : (2 : ℚ) ^ p = 2 ^ (p - 1) * 2 := by rw [← zpow_add_one₀ (by norm_num), sub_add_cancel]
  have hpos := two_zpow_pos (p - 1)
  have hpos' := two_zpow_pos (p - 54)
  rcases le_or_gt q 0 with hq | hq
  · exact iff_of_false (nearest_lt_of_nonpos hq p).not_ge (by linarith)
  have hlo : (2 : ℚ) ^ Int.log 2 q ≤ q := by simpa [abs_of_pos hq] using two_zpow_le_of_log hq.ne'
  have hhi : q < 2 ^ (Int.log 2 q + 1) := by simpa [abs_of_pos hq] using lt_two_zpow_of_log q
  have hulp : ulp q = max (Int.log 2 q - 52) (-1074) := by rw [ulp, abs_of_pos hq]
  rcases lt_trichotomy (Int.log 2 q) (p - 1) with hL | hL | hL
  · have hq' : q < 2 ^ (p - 1) := hhi.trans_le (two_zpow_le (by omega))
    exact iff_of_false (nearest_lt_of_lt (by omega) hq').not_ge (by linarith)
  · exact two_zpow_le_nearest_of_ulp (by omega)
  · have hp' : (2 : ℚ) ^ p ≤ 2 ^ Int.log 2 q := two_zpow_le (by omega)
    exact iff_of_true (hp'.trans (two_zpow_le_nearest_of_le (by omega) hlo)) (by linarith)

theorem nearest_of_eq_mul {n : ℤ} (h : q = n * 2 ^ ulp q) : nearest q = q := by
  have hdiv : q / 2 ^ ulp q = n := by
    rw [div_eq_iff (two_zpow_pos _).ne']
    exact h
  rw [nearest, hdiv, roundEven_intCast, ← h]

/-! ### Numbers and infinities -/

/-- A number of the format: a significand of 53 bits and an exponent. -/
def IsBinary64 (q : ℚ) : Prop := (∃ m e : ℤ, |m| ≤ 2 ^ 53 ∧ -1074 ≤ e ∧ q = m * 2 ^ e) ∧ |q| < 2 ^ 1024

theorem isBinary64_intCast {n : ℤ} (h : |n| ≤ 2 ^ 53) : IsBinary64 n := by
  refine ⟨⟨n, 0, h, by norm_num, by simp⟩, ?_⟩
  have hle : |(n : ℚ)| ≤ 2 ^ 53 := by exact_mod_cast h
  exact hle.trans_lt (pow_lt_pow_right₀ (by norm_num) (by norm_num))

/-- A number of the format that is not a multiple of its last place by its significand has the largest one. -/
theorem ulp_eq_of_lt {m e : ℤ} (hm : |m| ≤ 2 ^ 53) (he : -1074 ≤ e) (hq : q = m * 2 ^ e) (h0 : q ≠ 0) (hlt : e < ulp q) :
    ulp q = e + 1 ∧ |m| = 2 ^ 53 := by
  have hbig : (2 : ℚ) ^ (ulp q + 52) ≤ |q| := two_zpow_ulp_le_abs h0 (by omega)
  have habs : |q| = |m| * 2 ^ e := by rw [hq, abs_mul, abs_of_pos (two_zpow_pos e), Int.cast_abs]
  have hcast : ((2 ^ 53 : ℤ) : ℚ) * 2 ^ e = 2 ^ (e + 53) := by
    rw [add_comm, zpow_add₀ (by norm_num)]
    norm_num
  have hle : |q| ≤ 2 ^ (e + 53) := by
    rw [habs, ← hcast]
    exact mul_le_mul_of_nonneg_right (by exact_mod_cast hm) (two_zpow_pos e).le
  have hulp : ulp q = e + 1 := by
    by_contra hne
    have : (2 : ℚ) ^ (e + 53) < 2 ^ (ulp q + 52) := two_zpow_lt (by omega)
    linarith
  refine ⟨hulp, le_antisymm hm ?_⟩
  rw [hulp, show e + 1 + 52 = e + 53 by ring, habs, ← hcast] at hbig
  exact_mod_cast le_of_mul_le_mul_right hbig (two_zpow_pos e)

/-- **A number of the format is nearest to itself.** -/
theorem IsBinary64.nearest_eq (h : IsBinary64 q) : nearest q = q := by
  obtain ⟨⟨m, e, hm, he, hq⟩, -⟩ := h
  rcases eq_or_ne q 0 with h0 | h0
  · exact nearest_of_eq_mul (n := 0) (by simp [h0])
  rcases le_or_gt (ulp q) e with hle | hlt
  · obtain ⟨k, hk⟩ := exists_cast_eq_two_zpow (k := e - ulp q) (by omega)
    refine nearest_of_eq_mul (n := m * k) ?_
    rw [Int.cast_mul, hk, mul_assoc, ← zpow_add₀ (by norm_num), sub_add_cancel, hq]
  · obtain ⟨hulp, hmax⟩ := ulp_eq_of_lt hm he hq h0 hlt
    -- the largest significand is even
    have hhalf : m = m / 2 * 2 := by
      rcases abs_eq (by norm_num : (0 : ℤ) ≤ 2 ^ 53) |>.mp hmax with rfl | rfl <;> norm_num
    refine nearest_of_eq_mul (n := m / 2) ?_
    have hcast : (m : ℚ) = (m / 2 : ℤ) * 2 := by exact_mod_cast hhalf
    rw [hulp, add_comm, zpow_add₀ (by norm_num), zpow_one, ← mul_assoc, ← hcast, hq]

/-- A float: a number of the format, or an infinity. -/
inductive Binary64 where
  | finite (q : ℚ) (h : IsBinary64 q)
  | infinity (negative : Bool)
  deriving DecidableEq

namespace Binary64

theorem exists_nearest_eq (q : ℚ) : ∃ m e : ℤ, |m| ≤ 2 ^ 53 ∧ -1074 ≤ e ∧ nearest q = m * 2 ^ e := by
  refine ⟨roundEven (q / 2 ^ ulp q), ulp q, abs_roundEven_le ?_, le_max_right _ _, rfl⟩
  have h := (abs_lt_two_zpow_ulp q).le
  rw [zpow_add₀ (by norm_num)] at h
  rw [abs_div, abs_of_pos (two_zpow_pos _), div_le_iff₀ (two_zpow_pos _)]
  calc |q| ≤ 2 ^ ulp q * 2 ^ (53 : ℤ) := h
    _ = ((2 ^ 53 : ℤ) : ℚ) * 2 ^ ulp q := by norm_num [mul_comm]

/-- The float that a rational is rounded to. -/
def round (q : ℚ) : Binary64 :=
  if h : |nearest q| < 2 ^ 1024 then finite (nearest q) ⟨exists_nearest_eq q, h⟩ else infinity (q < 0)

instance (n : ℕ) : OfNat Binary64 n := ⟨round n⟩

/-- `0 <= x`. -/
def nonneg : Binary64 → Bool
  | finite q _ => 0 ≤ q
  | infinity negative => !negative

/-- The number that a float is, if it is finite. -/
def toRat? : Binary64 → Option ℚ
  | finite q _ => some q
  | infinity _ => none

theorem round_of_isBinary64 {q : ℚ} (h : IsBinary64 q) : round q = finite q h := by
  simp only [round, h.nearest_eq, h.2, dif_pos]

/-- **What rounds to a float that is at least `0`.** -/
theorem nonneg_round {q : ℚ} : (round q).nonneg = true ↔ -2 ^ (-1075 : ℤ) ≤ q := by
  rw [← nearest_nonneg_iff]
  unfold round
  split_ifs with h
  · simp [nonneg]
  · rcases lt_or_ge q 0 with hq | hq
    · -- what rounds to `-∞` is below `0`
      have hsmall : nearest q < 2 ^ 1024 := by exact_mod_cast nearest_lt_of_nonpos hq.le 1024
      have hneg : nearest q < 0 := by
        by_contra hge
        exact h (by rwa [abs_of_nonneg (not_lt.mp hge)])
      simp [nonneg, hq, hneg]
    · have hpos : 0 ≤ nearest q := nearest_nonneg_iff.mpr (by linarith [two_zpow_pos (-1075)])
      simp [nonneg, hq, hpos]

/-- Where a number rounds to a finite float, this is the nearest. -/
theorem toRat?_round {q r : ℚ} : (round q).toRat? = some r ↔ |nearest q| < 2 ^ 1024 ∧ nearest q = r := by
  unfold round
  split_ifs with h <;> simp [toRat?, h]

end Binary64
