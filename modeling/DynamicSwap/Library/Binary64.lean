import Mathlib

/-!
# Naturals as double-precision numbers

Integer sizes that pass through a `double` are rounded to a 53-bit
significand, ties to even.  Scaling by a power of two commutes with the
rounding, so a dyadic number is handled through its integer numerator.
-/

namespace DynamicSwap.Library.Binary64

/-- The multiple of `2 ^ shift` nearest to `value`, ties to the even one. -/
def roundAt (shift value : ℕ) : ℕ :=
  let quotient := value / 2 ^ shift
  let twice := 2 * (value % 2 ^ shift)
  if twice < 2 ^ shift then quotient * 2 ^ shift
  else if 2 ^ shift < twice then (quotient + 1) * 2 ^ shift
  else (quotient + quotient % 2) * 2 ^ shift

/-- Conversion of an integer to `double`: the lowest bits that do not fit in
53 significant bits are rounded away. -/
def toDouble (value : ℕ) : ℕ :=
  roundAt (value.log2 - 52) value

theorem roundAt_zero (value : ℕ) : roundAt 0 value = value := by
  simp [roundAt, Nat.mod_one]

theorem floor_le_roundAt (shift value : ℕ) :
    value / 2 ^ shift * 2 ^ shift ≤ roundAt shift value := by
  unfold roundAt
  dsimp only
  split
  · exact le_rfl
  · split
    · exact Nat.mul_le_mul_right _ (Nat.le_succ _)
    · exact Nat.mul_le_mul_right _ (Nat.le_add_right _ _)

theorem toDouble_of_lt {value : ℕ} (hsmall : value < 2 ^ 53) :
    toDouble value = value := by
  have hlog : value.log2 - 52 = 0 := by
    by_cases hzero : value = 0
    · simp [hzero]
    · have := (Nat.log2_lt hzero).mpr hsmall
      omega
  rw [toDouble, hlog, roundAt_zero]

/-- Rounding keeps the leading bit. -/
theorem leading_le_toDouble {value : ℕ} (hpositive : value ≠ 0) :
    2 ^ value.log2 ≤ toDouble value := by
  refine le_trans ?_ (floor_le_roundAt _ _)
  have hlead : 2 ^ value.log2 ≤ value := Nat.log2_self_le hpositive
  have hsplit : 2 ^ value.log2 =
      2 ^ (value.log2 - (value.log2 - 52)) * 2 ^ (value.log2 - 52) := by
    rw [← pow_add]
    congr 1
    omega
  calc
    2 ^ value.log2 =
        2 ^ value.log2 / 2 ^ (value.log2 - 52) * 2 ^ (value.log2 - 52) := by
      conv_rhs => rw [hsplit, Nat.mul_div_cancel _ (by positivity)]
      exact hsplit
    _ ≤ value / 2 ^ (value.log2 - 52) * 2 ^ (value.log2 - 52) :=
      Nat.mul_le_mul_right _ (Nat.div_le_div_right hlead)

theorem toDouble_pos {value : ℕ} (hpositive : 0 < value) :
    0 < toDouble value :=
  lt_of_lt_of_le (by positivity) (leading_le_toDouble hpositive.ne')

/-- Every value that rounds below `2 ^ 53` was exact. -/
theorem toDouble_eq_of_lt {value : ℕ} (hsmall : toDouble value < 2 ^ 53) :
    toDouble value = value := by
  apply toDouble_of_lt
  by_contra hlarge
  have hpositive : value ≠ 0 := by
    intro hzero
    simp [hzero] at hlarge
  have hlog : 53 ≤ value.log2 := (Nat.le_log2 hpositive).mpr (not_lt.mp hlarge)
  have hlead := leading_le_toDouble hpositive
  have hpow : 2 ^ 53 ≤ 2 ^ value.log2 := Nat.pow_le_pow_right (by norm_num) hlog
  omega

end DynamicSwap.Library.Binary64
