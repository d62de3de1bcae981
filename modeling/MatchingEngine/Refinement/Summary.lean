import MatchingEngine.Reference.Summary
import MatchingEngine.Refinement.Snapshot

/-!
# Prices are printed exactly

A price of less than 52 bits is off by less than half a ten thousandth of a dollar
when it has been converted and divided.
-/

namespace MatchingEngine
namespace Refinement

open Reference (writePrice)
open Replay (printFixed printPrice)

/-- A `double` close to a number of ten thousandths is printed as them. -/
theorem printFixed_of_close
    {number : ℚ} {price : Price}
    (negative : number < 0 ↔ price < 0)
    (close : |number * 10000 - price| < 1 / 2) :
    printFixed number = writePrice price := by
  have magnitude : |(|number| * 10000) - (price.natAbs : ℤ)| < 1 / 2 := by
    refine lt_of_le_of_lt ?_ close
    calc |(|number| * 10000) - (price.natAbs : ℤ)|
        = |(|number * 10000|) - (|(price : ℚ)|)| := by
          rw [abs_mul, abs_of_pos (show (0 : ℚ) < 10000 by norm_num), Int.natCast_natAbs,
            Int.cast_abs]
      _ ≤ |number * 10000 - price| := abs_abs_sub_abs_le _ _
  have units := Binary64.nearest_of_close magnitude
  simp only [printFixed, writePrice, negative, units, Int.toNat_natCast]

/-- A price of less than 52 bits is printed as its exact dollars. -/
theorem printPrice_eq
    {price : Price}
    (small : |price| < 2 ^ 52) :
    printPrice price = writePrice price := by
  have bound : |(price : ℚ)| < 2 ^ 52 := by exact_mod_cast small
  have exact : Binary64.round price = price :=
    Binary64.round_intCast (small.trans (by norm_num))
  have error := Binary64.abs_round_sub_le ((price : ℚ) / 10000)
  rw [abs_div, abs_of_pos (show (0 : ℚ) < 10000 by norm_num)] at error
  rw [printPrice, exact]
  apply printFixed_of_close
  · rcases lt_trichotomy price 0 with negative | zero | positive
    · have below : (price : ℚ) < 0 := by exact_mod_cast negative
      rw [abs_of_neg below] at error
      have upper := (abs_le.mp error).2
      exact iff_of_true (by linarith) negative
    · subst zero
      simp [Binary64.round, Binary64.nearest]
    · have above : 0 < (price : ℚ) := by exact_mod_cast positive
      rw [abs_of_pos above] at error
      have lower := (abs_le.mp error).1
      exact iff_of_false (by linarith) positive.not_gt
  · calc |Binary64.round ((price : ℚ) / 10000) * 10000 - price|
        = |Binary64.round ((price : ℚ) / 10000) - price / 10000| * 10000 := by
          rw [← abs_of_pos (show (0 : ℚ) < 10000 by norm_num), ← abs_mul,
            abs_of_pos (show (0 : ℚ) < 10000 by norm_num)]
          ring_nf
      _ ≤ |(price : ℚ)| / 10000 / 2 ^ 53 * 10000 :=
          mul_le_mul_of_nonneg_right error (by norm_num)
      _ = |(price : ℚ)| / 2 ^ 53 := by ring
      _ < 1 / 2 := by linarith

end Refinement
end MatchingEngine
