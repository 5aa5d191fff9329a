import Mathlib.Data.Int.Log
import Mathlib.Data.Rat.Floor
import Mathlib.Tactic.FieldSimp
import Mathlib.Tactic.Linarith
import Mathlib.Tactic.Positivity

/-!
# Binary floating point

A rational number is rounded to the nearest one with a significand of `p` bits, and of two at
the same distance to the one whose last bit is zero.  The exponent is not bounded: numbers
between the least normal one and the greatest are rounded as in IEEE 754.

## Main definitions

* `Rounding.nearestEven` — to an integer.
* `Rounding.nearest p` — to a significand of `p` bits.
* `Rounding.abs_nearest_sub_le`, `Rounding.nearest_natCast` — how far, and what is exact.
-/

namespace Rounding

/-- The nearest integer, and of two the even one. -/
def nearestEven (x : ℚ) : ℤ :=
  if Int.fract x < 1 / 2 then ⌊x⌋
  else if 1 / 2 < Int.fract x then ⌊x⌋ + 1
  else if ⌊x⌋ % 2 = 0 then ⌊x⌋ else ⌊x⌋ + 1

/-- What the last bit of the significand stands for. -/
def quantum (p : ℕ) (x : ℚ) : ℚ := 2 ^ (Int.log 2 |x| + 1 - p)

/-- The nearest number with a significand of `p` bits. -/
def nearest (p : ℕ) (x : ℚ) : ℚ := nearestEven (x / quantum p x) * quantum p x

variable {p : ℕ} {x : ℚ}

theorem quantum_pos : 0 < quantum p x := zpow_pos (by norm_num) _

theorem abs_nearestEven_sub_le (x : ℚ) : |(nearestEven x : ℚ) - x| ≤ 1 / 2 := by
  have hsum := Int.floor_add_fract x
  have hlt := Int.fract_lt_one x
  have hpos := Int.fract_nonneg x
  rw [abs_le, nearestEven]
  split
  case isTrue h => constructor <;> linarith
  case isFalse h =>
    split
    case isTrue h' =>
      push_cast
      constructor <;> linarith
    case isFalse h' =>
      split
      case isTrue => constructor <;> linarith
      case isFalse =>
        push_cast
        constructor <;> linarith

@[simp] theorem nearestEven_intCast (n : ℤ) : nearestEven n = n := by
  simp [nearestEven]

@[simp] theorem nearest_zero : nearest p 0 = 0 := by
  have h : nearestEven 0 = 0 := nearestEven_intCast 0
  simp [nearest, h]

/-- The quantum is small beside the number. -/
theorem quantum_le (hx : x ≠ 0) : quantum p x ≤ 2 * |x| / 2 ^ p := by
  have hpow : (2 : ℚ) ^ Int.log 2 |x| ≤ |x| := by
    exact_mod_cast Int.zpow_log_le_self (b := 2) (by norm_num) (abs_pos.mpr hx)
  rw [quantum, zpow_sub₀ (by norm_num), zpow_add₀ (by norm_num), zpow_one, zpow_natCast,
    mul_comm]
  gcongr

/-- **How far a number moves.** -/
theorem abs_nearest_sub_le (p : ℕ) (x : ℚ) : |nearest p x - x| ≤ |x| / 2 ^ p := by
  by_cases hx : x = 0
  · simp [hx]
  have hq : 0 < quantum p x := quantum_pos
  have hround := abs_nearestEven_sub_le (x / quantum p x)
  have hmove : nearest p x - x =
      ((nearestEven (x / quantum p x) : ℚ) - x / quantum p x) * quantum p x := by
    rw [nearest, sub_mul, div_mul_cancel₀ _ hq.ne']
  calc |nearest p x - x|
      = |(nearestEven (x / quantum p x) : ℚ) - x / quantum p x| * quantum p x := by
        rw [hmove, abs_mul, abs_of_pos hq]
    _ ≤ 1 / 2 * (2 * |x| / 2 ^ p) := by
        gcongr
        exact quantum_le hx
    _ = |x| / 2 ^ p := by ring

/-- **Small integers are exact.** -/
theorem nearest_natCast {n : ℕ} (h : n < 2 ^ p) : nearest p n = n := by
  by_cases hn : n = 0
  · simp [hn]
  have hlog : Nat.log 2 n + 1 ≤ p := Nat.log_lt_of_lt_pow hn h
  obtain ⟨k, hk⟩ := Nat.exists_eq_add_of_le hlog
  have hquantum : quantum p (n : ℚ) = (2 ^ k)⁻¹ := by
    have hexp : ((Nat.log 2 n : ℕ) : ℤ) + 1 - p = -(k : ℤ) := by omega
    rw [quantum, abs_of_nonneg (Nat.cast_nonneg n), Int.log_natCast, hexp, zpow_neg,
      zpow_natCast]
  have hint : (n : ℚ) / quantum p n = ((n * 2 ^ k : ℕ) : ℤ) := by
    rw [hquantum, div_inv_eq_mul]
    push_cast
    rfl
  rw [nearest, hint, nearestEven_intCast, ← hint, div_mul_cancel₀ _ quantum_pos.ne']

/-- Positive numbers stay so. -/
theorem nearest_pos (hp : 0 < p) (hx : 0 < x) : 0 < nearest p x := by
  have hmove := abs_le.mp (abs_nearest_sub_le p x)
  have htwo : (2 : ℚ) ≤ 2 ^ p := by
    calc (2 : ℚ) = 2 ^ 1 := (pow_one 2).symm
      _ ≤ 2 ^ p := pow_le_pow_right₀ (by norm_num) hp
  have hsmall : |x| / 2 ^ p ≤ x / 2 := by
    rw [abs_of_pos hx]
    gcongr
  linarith [hmove.1]

end Rounding
