import Mathlib.Data.Int.Log
import Mathlib.Data.Rat.Floor
import Mathlib.Tactic.NormNum
import Mathlib.Tactic.FieldSimp
import Mathlib.Tactic.Linarith
import Mathlib.Tactic.IntervalCases

/-!
# Binary64 rounding over the rationals

A finite binary64 number is the rational it denotes. Conversion of an integer and division round
to the nearest number with a 53-bit significand, ties to even. The exponent range is not bounded:
every use stays between the least normal number and the largest finite one.
-/

namespace CtrlMesh.Lib.Binary64

/-- Round to the nearest integer, ties to even. -/
def roundEven (x : ℚ) : ℤ :=
  let below := ⌊x⌋
  if x - below < 1 / 2 then below
  else if 1 / 2 < x - below then below + 1
  else if below % 2 = 0 then below else below + 1

/-- The distance between neighbouring binary64 numbers in the binade of `x`. -/
def ulp (x : ℚ) : ℚ := (2 : ℚ) ^ (Int.log 2 |x| - 52)

/-- The binary64 number nearest to a rational. -/
def ofRat (x : ℚ) : ℚ := roundEven (x / ulp x) * ulp x

/-- Conversion of an integer. -/
def ofInt (n : ℤ) : ℚ := ofRat n

/-- Division of two binary64 numbers. -/
def div (left right : ℚ) : ℚ := ofRat (left / right)

variable {n : ℤ} {x : ℚ}

/-- Rounding stays at or above every integer below the rational. -/
theorem le_roundEven (below : (n : ℚ) ≤ x) : n ≤ roundEven x := by
  have floor : n ≤ ⌊x⌋ := Int.le_floor.mpr below
  unfold roundEven
  dsimp only
  split
  · exact floor
  · split
    · omega
    · split <;> omega

/-- The spacing is positive. -/
theorem ulp_pos (x : ℚ) : 0 < ulp x := zpow_pos (by norm_num) _

/-- The least significand of a binade denotes its power of two. -/
theorem binade_scale (x : ℚ) : ((2 ^ 52 : ℤ) : ℚ) * ulp x = (2 : ℚ) ^ Int.log 2 |x| := by
  rw [ulp, show Int.log 2 |x| = 52 + (Int.log 2 |x| - 52) by ring, zpow_add₀ (by norm_num)]
  norm_num

/-- Rounding a positive rational does not leave its binade downwards. -/
theorem zpow_log_le_ofRat (positive : 0 < x) : (2 : ℚ) ^ Int.log 2 x ≤ ofRat x := by
  have scale := binade_scale x
  rw [abs_of_pos positive] at scale
  have low := Int.zpow_log_le_self (b := 2) (by norm_num) positive
  have significand : (2 ^ 52 : ℤ) ≤ roundEven (x / ulp x) := by
    apply le_roundEven
    rw [le_div_iff₀ (ulp_pos x), scale]
    exact_mod_cast low
  rw [← scale]
  exact mul_le_mul_of_nonneg_right (by exact_mod_cast significand) (ulp_pos x).le

/-- Rounding keeps a positive rational positive. -/
theorem ofRat_pos (positive : 0 < x) : 0 < ofRat x :=
  lt_of_lt_of_le (zpow_pos (by norm_num) _) (zpow_log_le_ofRat positive)

/-- Rounding stays at or below every integer above the rational. -/
theorem roundEven_le (above : x ≤ n) : roundEven x ≤ n := by
  have floor : ⌊x⌋ ≤ n := by exact_mod_cast (Int.floor_le x).trans above
  have room (fraction : 0 < x - ⌊x⌋) : ⌊x⌋ + 1 ≤ n := by
    have less : ((⌊x⌋ : ℤ) : ℚ) < n := by linarith
    exact_mod_cast less
  unfold roundEven
  dsimp only
  split
  · exact floor
  · next half =>
    have fraction : 0 < x - ⌊x⌋ := by linarith
    split
    · exact room fraction
    · split
      · exact floor
      · exact room fraction

/-- Rounding stays at or above every power of two below the rational. -/
theorem zpow_le_ofRat {m : ℤ} (below : 2 ^ m ≤ x) : 2 ^ m ≤ ofRat x := by
  have positive : 0 < x := lt_of_lt_of_le (zpow_pos (by norm_num) m) below
  have high := Int.lt_zpow_succ_log_self (b := 2) (by norm_num) x
  have exponent : m < Int.log 2 x + 1 := by
    have less : (2 : ℚ) ^ m < 2 ^ (Int.log 2 x + 1) := lt_of_le_of_lt below (by exact_mod_cast high)
    exact (zpow_lt_zpow_iff_right₀ (by norm_num)).mp less
  calc (2 : ℚ) ^ m ≤ 2 ^ Int.log 2 x := zpow_le_zpow_right₀ (by norm_num) (by omega)
    _ ≤ ofRat x := zpow_log_le_ofRat positive

/-- Rounding stays at or below every power of two above the rational. -/
theorem ofRat_le_zpow (positive : 0 < x) {m : ℤ} (above : x ≤ 2 ^ m) : ofRat x ≤ 2 ^ m := by
  have binade : Int.log 2 x ≤ m := by
    have low := Int.zpow_log_le_self (b := 2) (by norm_num) positive
    have both : (2 : ℚ) ^ Int.log 2 x ≤ 2 ^ m := le_trans (by exact_mod_cast low) above
    exact (zpow_le_zpow_iff_right₀ (by norm_num)).mp both
  have scale : ((2 ^ (m - Int.log 2 x + 52).toNat : ℤ) : ℚ) * ulp x = 2 ^ m := by
    rw [ulp, abs_of_pos positive]
    push_cast
    rw [← zpow_natCast, ← zpow_add₀ (by norm_num), Int.toNat_of_nonneg (by omega)]
    congr 1
    omega
  rw [ofRat, ← scale]
  refine mul_le_mul_of_nonneg_right ?_ (ulp_pos x).le
  rw [← scale] at above
  exact_mod_cast roundEven_le ((div_le_iff₀ (ulp_pos x)).mpr above)

/-- A rational more than one half above an integer is rounded above it. -/
theorem lt_roundEven (above : n + 1 / 2 < x) : n < roundEven x := by
  have floor : n ≤ ⌊x⌋ := Int.le_floor.mpr (by linarith)
  unfold roundEven
  dsimp only
  split
  · next below =>
    have less : (n : ℚ) < (⌊x⌋ : ℤ) := by linarith
    exact_mod_cast less
  · split
    · omega
    · next notBelow notAbove =>
      have tie : x - ⌊x⌋ = 1 / 2 := le_antisymm (not_lt.mp notAbove) (not_lt.mp notBelow)
      have less : (n : ℚ) < (⌊x⌋ : ℤ) := by linarith
      have less : n < ⌊x⌋ := by exact_mod_cast less
      split <;> omega

/-- Below `2 ^ 53` the spacing divides every integer. -/
theorem exists_scaled (positive : 0 < x) (small : x < 2 ^ 53) (n : ℤ) :
    ∃ m : ℤ, (m : ℚ) * ulp x = n := by
  have low := Int.zpow_log_le_self (b := 2) (by norm_num) positive
  have exponent : Int.log 2 x < 53 := by
    have less : (2 : ℚ) ^ Int.log 2 x < 2 ^ (53 : ℤ) := lt_of_le_of_lt (by exact_mod_cast low)
      (by exact_mod_cast small)
    exact (zpow_lt_zpow_iff_right₀ (by norm_num)).mp less
  refine ⟨n * 2 ^ (52 - Int.log 2 x).toNat, ?_⟩
  have scale : ((2 : ℚ) ^ (52 - Int.log 2 x).toNat) * ulp x = 1 := by
    rw [ulp, abs_of_pos positive, ← zpow_natCast, ← zpow_add₀ (by norm_num),
      Int.toNat_of_nonneg (by omega)]
    norm_num
  push_cast
  rw [mul_assoc, scale, mul_one]

/-- Rounding stays at or below every integer above a rational below `2 ^ 53`. -/
theorem ofRat_le_intCast (positive : 0 < x) (small : x < 2 ^ 53) (above : x ≤ n) : ofRat x ≤ n := by
  obtain ⟨m, scaled⟩ := exists_scaled positive small n
  rw [ofRat, ← scaled]
  refine mul_le_mul_of_nonneg_right ?_ (ulp_pos x).le
  exact_mod_cast roundEven_le ((div_le_iff₀ (ulp_pos x)).mpr (scaled ▸ above))

/-- A rational more than half the spacing above an integer is rounded above it. -/
theorem intCast_lt_ofRat (positive : 0 < x) (small : x < 2 ^ 53) (above : n + ulp x / 2 < x) :
    n < ofRat x := by
  obtain ⟨m, scaled⟩ := exists_scaled positive small n
  rw [ofRat, ← scaled]
  refine mul_lt_mul_of_pos_right ?_ (ulp_pos x)
  refine Int.cast_lt.mpr (lt_roundEven ((lt_div_iff₀ (ulp_pos x)).mpr ?_))
  calc ((m : ℚ) + 1 / 2) * ulp x = n + ulp x / 2 := by rw [← scaled]; ring
    _ < x := above

/-- Positive integers below `2 ^ 53` are binary64 numbers. -/
theorem ofInt_eq (positive : 0 < n) (small : n < 2 ^ 53) : ofInt n = n := by
  have positive' : (0 : ℚ) < n := by exact_mod_cast positive
  have small' : (n : ℚ) < 2 ^ 53 := by exact_mod_cast small
  refine le_antisymm (ofRat_le_intCast positive' small' le_rfl) ?_
  obtain ⟨m, scaled⟩ := exists_scaled positive' small' n
  rw [ofInt, ofRat]
  nth_rewrite 1 [← scaled]
  refine mul_le_mul_of_nonneg_right ?_ (ulp_pos _).le
  exact_mod_cast le_roundEven ((le_div_iff₀ (ulp_pos _)).mpr scaled.le)

/-- The spacing is at most the `2 ^ 52`th part of the rational. -/
theorem ulp_le (positive : 0 < x) : ulp x * 2 ^ 52 ≤ x := by
  have scale := binade_scale x
  have low := Int.zpow_log_le_self (b := 2) (by norm_num) positive
  rw [abs_of_pos positive] at scale
  calc ulp x * 2 ^ 52 = ((2 ^ 52 : ℤ) : ℚ) * ulp x := by push_cast; ring
    _ = (2 : ℚ) ^ Int.log 2 x := scale
    _ ≤ x := by exact_mod_cast low

/-- The rounded quotient of integers below `2 ^ 53` has the ceiling of the exact one, which is an
integer or further from the one below than rounding can reach. -/
theorem ceil_div {a b : ℤ} (a_pos : 0 < a) (a_small : a < 2 ^ 53) (b_pos : 0 < b)
    (b_small : b < 2 ^ 53) : ⌈div (ofInt a) (ofInt b)⌉ = ⌈(a : ℚ) / b⌉ := by
  rw [div, ofInt_eq a_pos a_small, ofInt_eq b_pos b_small]
  have b_pos' : (0 : ℚ) < b := by exact_mod_cast b_pos
  have b_ge : (1 : ℚ) ≤ b := by exact_mod_cast b_pos
  have a_pos' : (0 : ℚ) < a := by exact_mod_cast a_pos
  have a_small' : (a : ℚ) < 2 ^ 53 := by exact_mod_cast a_small
  have positive : (0 : ℚ) < a / b := div_pos a_pos' b_pos'
  have small : (a : ℚ) / b < 2 ^ 53 := lt_of_le_of_lt (div_le_self a_pos'.le b_ge) a_small'
  set k := ⌈(a : ℚ) / b⌉
  refine Int.ceil_eq_iff.mpr ⟨?_, ofRat_le_intCast positive small (Int.le_ceil _)⟩
  have gap : (k : ℚ) - 1 + 1 / b ≤ a / b := by
    have below : (k - 1) * b < a := by
      have less : ((k : ℚ) - 1) < a / b := by linarith [Int.ceil_lt_add_one ((a : ℚ) / b)]
      exact_mod_cast (lt_div_iff₀ b_pos').mp less
    have below : ((k : ℚ) - 1) * b + 1 ≤ a := by exact_mod_cast below
    rw [le_div_iff₀ b_pos', add_mul, one_div, inv_mul_cancel₀ b_pos'.ne']
    exact below
  have reach : ulp (a / b : ℚ) / 2 < 1 / b := by
    have bound := ulp_le positive
    rw [le_div_iff₀ b_pos'] at bound
    rw [lt_div_iff₀ b_pos']
    linarith
  have above : (((k - 1 : ℤ) : ℚ)) < ofRat (a / b) :=
    intCast_lt_ofRat positive small (by push_cast; linarith)
  exact_mod_cast above

end CtrlMesh.Lib.Binary64
