import Mathlib.Data.Int.Log
import Mathlib.Data.Rat.Floor
import Mathlib.Tactic.FieldSimp
import Mathlib.Tactic.Linarith
import Mathlib.Tactic.Positivity

/-!
# Rounding to binary64

A number is rounded to the nearest multiple of the spacing at its magnitude, and
between two of them to the even one, as arithmetic in `binary64` rounds its normal
results.  The error is at most one part in `2 ^ 53`, and small integers are exact.
-/

namespace MatchingEngine
namespace Binary64

/-- The nearest integer, and the even one between two. -/
def nearest (number : ℚ) : ℤ :=
  if number - ⌊number⌋ < 1 / 2 ∨ number - ⌊number⌋ = 1 / 2 ∧ ⌊number⌋ % 2 = 0 then
    ⌊number⌋
  else ⌊number⌋ + 1

/-- The distance between the numbers with 53 significant bits at a magnitude. -/
def spacing (number : ℚ) : ℚ := 2 ^ (Int.log 2 |number| - 52)

/-- The nearest number with 53 significant bits. -/
def round (number : ℚ) : ℚ := nearest (number / spacing number) * spacing number

theorem abs_nearest_sub_le (number : ℚ) : |(nearest number : ℚ) - number| ≤ 1 / 2 := by
  have lower := Int.floor_le number
  have upper := Int.lt_floor_add_one number
  rw [abs_le]
  unfold nearest
  split
  · next below =>
      have atMost : number - ⌊number⌋ ≤ 1 / 2 := by
        rcases below with less | ⟨equal, _⟩
        · exact less.le
        · exact equal.le
      constructor <;> linarith
  · next above =>
      have atLeast : 1 / 2 ≤ number - ⌊number⌋ := by
        rw [not_or] at above
        exact not_lt.mp above.1
      push_cast
      constructor <;> linarith

/-- An integer that is closer than a half is the nearest. -/
theorem nearest_of_close
    {number : ℚ} {integer : ℤ}
    (close : |number - integer| < 1 / 2) :
    nearest number = integer := by
  have rounded := abs_nearest_sub_le number
  have apart : |(nearest number : ℚ) - integer| < 1 := by
    calc |(nearest number : ℚ) - integer|
        = |((nearest number : ℚ) - number) + (number - integer)| := by ring_nf
      _ ≤ |(nearest number : ℚ) - number| + |number - integer| := abs_add_le _ _
      _ < 1 := by linarith
  have apartInt : |nearest number - integer| < 1 := by exact_mod_cast apart
  have same := Int.abs_lt_one_iff.mp apartInt
  omega

@[simp] theorem nearest_intCast (integer : ℤ) : nearest integer = integer :=
  nearest_of_close (by simp)

theorem spacing_pos (number : ℚ) : 0 < spacing number := by
  exact zpow_pos two_pos _

/-- The spacing at a number is one part in `2 ^ 52` of it at most. -/
theorem spacing_le
    {number : ℚ}
    (nonzero : number ≠ 0) :
    spacing number ≤ |number| / 2 ^ 52 := by
  have logarithm := Int.zpow_log_le_self Nat.one_lt_two (abs_pos.mpr nonzero)
  rw [spacing, zpow_sub₀ two_ne_zero]
  exact div_le_div_of_nonneg_right (by exact_mod_cast logarithm) (by positivity)

/-- Rounding errs by one part in `2 ^ 53` at most. -/
theorem abs_round_sub_le (number : ℚ) : |round number - number| ≤ |number| / 2 ^ 53 := by
  by_cases zero : number = 0
  · subst zero
    simp [round, nearest]
  have positive := spacing_pos number
  have scaled : number = number / spacing number * spacing number :=
    (div_mul_cancel₀ number positive.ne').symm
  calc |round number - number|
      = |(nearest (number / spacing number) : ℚ) - number / spacing number| * spacing number := by
        rw [round]
        conv => lhs; arg 1; arg 2; rw [scaled]
        rw [← sub_mul, abs_mul, abs_of_pos positive]
    _ ≤ 1 / 2 * spacing number :=
        mul_le_mul_of_nonneg_right (abs_nearest_sub_le _) positive.le
    _ ≤ 1 / 2 * (|number| / 2 ^ 52) :=
        mul_le_mul_of_nonneg_left (spacing_le zero) (by norm_num)
    _ = |number| / 2 ^ 53 := by ring

/-- Integers of less than 53 bits are exact. -/
theorem round_intCast
    {integer : ℤ}
    (small : |integer| < 2 ^ 53) :
    round integer = integer := by
  by_cases zero : integer = 0
  · subst zero
    have nearestZero : nearest 0 = 0 := by exact_mod_cast nearest_intCast 0
    simp [round, nearestZero]
  have nonzero : 0 < |(integer : ℚ)| := abs_pos.mpr (Int.cast_ne_zero.mpr zero)
  have logarithm : Int.log 2 |(integer : ℚ)| < 53 := by
    apply (Int.lt_zpow_iff_log_lt Nat.one_lt_two nonzero).mp
    exact_mod_cast small
  obtain ⟨bits, exponent⟩ : ∃ bits : ℕ, Int.log 2 |(integer : ℚ)| - 52 = -bits :=
    ⟨(52 - Int.log 2 |(integer : ℚ)|).toNat, by omega⟩
  have whole : (integer : ℚ) / spacing integer = (integer * 2 ^ bits : ℤ) := by
    rw [spacing, exponent, zpow_neg, div_inv_eq_mul]
    push_cast
    rw [zpow_natCast]
  rw [round, whole, nearest_intCast, ← whole, div_mul_cancel₀ _ (spacing_pos _).ne']

end Binary64
end MatchingEngine
