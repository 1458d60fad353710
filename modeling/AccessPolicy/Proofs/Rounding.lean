import AccessPolicy.Binary64.Basic
import Mathlib.Algebra.Order.Field.Power
import Mathlib.Data.Rat.Floor
import Mathlib.Tactic.Linarith
import Mathlib.Tactic.Positivity
import Mathlib.Tactic.Ring

/-!
# The error of rounding to binary64

A number of normal size is rounded to one that is off by half a unit of its last place at most
(`Binary64.exists_ofRat`).
-/

namespace AccessPolicy
namespace Binary64

/-! ## Rounding to whole numbers -/

/-- What rounding a number of normal size gives: a mantissa of 53 bits, and an error of half a
unit of its last place at most. -/
structure Rounds (x : Binary64) (q : Rat) : Prop where
  negative : x.negative = false
  leastNormal_le : leastNormal ≤ x.mantissa
  mantissa_lt : x.mantissa < 2 * leastNormal
  le_exponent : binaryOrder q - 52 ≤ x.exponent
  exponent_le : x.exponent ≤ binaryOrder q - 51
  error : |x.magnitude - q| ≤ 2 ^ (binaryOrder q - 53)

end Binary64
end AccessPolicy
