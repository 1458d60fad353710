import AccessPolicy.Binary64.Basic
import AccessPolicy.Text.Basic

/-!
# Decimal numbers

Numbers with a mantissa of 96 bits and up to 28 digits after the point.
Conditions compare by exact value; the digits after the point are kept for
display only.

A number is read from binary64 by trading each factor two of its exponent for a
factor five or ten of the mantissa, and then cutting the mantissa to the
precision of binary64.
-/

namespace AccessPolicy

/-- The number `± mantissa / 10 ^ scale`. Zero may have a sign. -/
structure Decimal where
  negative : Bool
  mantissa : Nat
  scale : Nat
deriving DecidableEq

namespace Decimal

def mantissaBound : Nat := Nat.pow 2 96

/-- The most digits after the point. -/
def maxScale : Nat := 28

def ofInt (n : Int) : Decimal := ⟨n < 0, n.natAbs, 0⟩

def signedMantissa (d : Decimal) : Int := if d.negative then -(d.mantissa : Int) else d.mantissa

/-- What the mantissa counts the parts of: the mantissa of one. -/
def unit (d : Decimal) : Nat := Nat.pow 10 d.scale

def toRat (d : Decimal) : Rat := (d.signedMantissa : Rat) / (d.unit : Rat)

/-- Have two numbers the same value, whatever their scale and sign of zero? -/
def sameValue (a b : Decimal) : Bool := a.toRat = b.toRat

def order (a b : Decimal) : Ordering :=
  if a.toRat < b.toRat then .lt else if b.toRat < a.toRat then .gt else .eq

def isWhole (d : Decimal) : Bool := d.mantissa % d.unit = 0

def toInt64? (d : Decimal) : Option Int :=
  let n := Int.tdiv d.signedMantissa (d.unit : Int)
  if d.isWhole ∧ -9223372036854775808 ≤ n ∧ n ≤ 9223372036854775807 then some n else none

/-! ## From binary64 -/

/-- A tenth, a half rounded up. -/
def tenth (m : Nat) : Nat := (m + 5) / 10

/-- `m * 10 ^ e`, halved `n` times by way of `10 ^ -n * 5 ^ n`; a factor five
that does not fit becomes a factor ten and a half. -/
def byFives : Nat → Nat → Int → Nat × Int
  | 0, m, e => (m, e)
  | n + 1, m, e =>
    if m % 2 = 0 ∨ mantissaBound ≤ 5 * m then byFives n (m / 2) (e + 1) else byFives n (5 * m) e

/-- `m * 10 ^ e`, doubled `n` times by way of `10 ^ n * (2 / 10) ^ n`. -/
def byTwos : Nat → Nat → Int → Option (Nat × Int)
  | 0, m, e => some (m, e)
  | n + 1, m, e =>
    if 2 * m < mantissaBound then byTwos n (2 * m) (e - 1)
    else if (n : Int) + 1 < 2 * e then none
    else byTwos n (m / 5) e

/-- Drop so many digits too many after the point. A number without others is
zero. -/
def dropExcess : Nat → Nat → Nat × Nat
  | 0, m => (m, maxScale)
  | n + 1, m => if m < 10 then (0, 0) else dropExcess n (tenth m)

/-- Drop digits after the point while the mantissa has more than 52 bits. -/
def dropLong : Nat → Nat → Nat × Nat
  | 0, m => (m, 0)
  | scale + 1, m => if m < Nat.pow 2 52 then (m, scale + 1) else dropLong scale (tenth m)

def dropZeros : Nat → Nat → Nat × Nat
  | 0, m => (m, 0)
  | scale + 1, m => if m % 10 = 0 then dropZeros scale (m / 10) else (m, scale + 1)

/-- `m * 10 ^ e` as a mantissa and a scale. -/
def unscaled (m : Nat) (e : Int) : Option (Nat × Nat) :=
  if e ≤ 0 then some (m, (-e).toNat)
  else
    let n := m * Nat.pow 10 e.toNat
    if n < mantissaBound then some (n, 0) else none

/-- The decimal number for a binary64 number; none where it is too large. A
number too small to have digits is a zero of its sign. -/
def ofBinary64 (x : Binary64) : Option Decimal :=
  if x.mantissa = 0 then some ⟨x.negative, 0, 0⟩
  else do
    let (m, e) ←
      if x.exponent < 0 then some (byFives (-x.exponent).toNat x.mantissa x.exponent)
      else byTwos x.exponent.toNat x.mantissa x.exponent
    let (m, scale) ← unscaled m e
    let (m, scale) := if scale ≤ maxScale then (m, scale) else dropExcess (scale - maxScale) m
    let (m, scale) := dropLong scale m
    let (m, scale) := dropZeros scale m
    return ⟨x.negative, m, scale⟩

/-! ## To binary64 -/

/-- The binary64 number for a decimal number. A fraction is rounded at every
step of its computation: to a sum of the two parts, and that to the digits of
the scale, a half away from zero. -/
def toBinary64 (d : Decimal) : Option Binary64 := do
  let x ← magnitude
  return if d.negative then x.neg else x
where
  magnitude : Option Binary64 := do
    let whole ← Binary64.ofNat (d.mantissa / d.unit)
    if d.mantissa % d.unit = 0 then return whole
    let fraction ← (← Binary64.ofNat (d.mantissa % d.unit)).div (← Binary64.ofNat d.unit)
    let factor ← (← Binary64.ofNat 10).pow d.scale
    let shifted ← (← whole.addMagnitudes fraction).mul factor
    let rounded ← Binary64.ofNat (Binary64.roundAway shifted.magnitude)
    rounded.div factor

/-! ## Text -/

/-- The digits, with a sign if there is one and a point if there is a scale. -/
def text (d : Decimal) : String :=
  let digits := (toString d.mantissa).toList
  let padded := List.replicate (d.scale + 1 - digits.length) '0' ++ digits
  let places := padded.length - d.scale
  let sign := if d.negative then "-" else ""
  if d.scale = 0 then sign ++ String.ofList padded
  else sign ++ String.ofList (padded.take places) ++ "." ++ String.ofList (padded.drop places)

/-- Round by the first digit that is left out. -/
def roundBy (m scale digit : Nat) : Option (Nat × Nat) :=
  if digit < 5 then some (m, scale)
  else if m + 1 < mantissaBound then some (m + 1, scale)
  else if scale = 0 then none
  else some (tenth m, scale - 1)

/-- Read the digits after the point, as many as fit. -/
def readFraction (m scale : Nat) : List Char → Option (Nat × Nat)
  | [] => some (m, scale)
  | c :: rest =>
    let next := 10 * m + Text.digitValue c
    if scale < maxScale ∧ next < mantissaBound then readFraction next (scale + 1) rest
    else roundBy m scale (Text.digitValue c)

/-- The number of a spelling with digits around a point. The last digit that
fits is rounded; a whole part that does not fit has no number. -/
def ofSpelling (spelling : String) : Option Decimal := do
  let chars := spelling.toList
  let whole := Text.digitsValue 0 (chars.takeWhile (· != '.'))
  if mantissaBound ≤ whole then none
  else
    let (m, scale) ← readFraction whole 0 ((chars.dropWhile (· != '.')).drop 1)
    return ⟨false, m, scale⟩

end Decimal
end AccessPolicy
