import AccessPolicy.Binary64.Basic

/-!
# Shortest decimal text of a binary64 number

The digits are the fewest that read back as the same number, and of those the
nearest to it. `Spelling` holds what is left to choose: where positional
notation gives way to an exponent.
-/

namespace AccessPolicy
namespace Binary64

/-- The exponent `k` with `10 ^ k ≤ q < 10 ^ (k + 1)`, for `0 < q`. -/
def decimalOrder (q : Rat) : Int :=
  let guess := binaryOrder q * 30103 / 100000
  if (10 : Rat) ^ (guess + 1) ≤ q then guess + 1
  else if q < (10 : Rat) ^ guess then guess - 1
  else guess

/-- The interval of magnitudes that round to `x`, and whether its ends do. -/
def roundingInterval (x : Binary64) : Rat × Rat × Bool :=
  let ulp := (2 : Rat) ^ x.exponent
  let narrow := x.mantissa = leastNormal ∧ leastExponent < x.exponent
  let below := if narrow then ulp / 4 else ulp / 2
  (x.magnitude - below, x.magnitude + ulp / 2, x.mantissa % 2 = 0)

def roundsTo (x : Binary64) (q : Rat) : Bool :=
  let (low, high, closed) := roundingInterval x
  if closed then low ≤ q ∧ q ≤ high else low < q ∧ q < high

/-- The multiple of `unit` nearest to the magnitude of `x` among those that
round to `x`; of two equally near, the even one. -/
def onGrid (x : Binary64) (unit : Rat) : Option Nat :=
  let below := (x.magnitude / unit).floor.toNat
  let above := below + 1
  let isBelow := roundsTo x ((below : Rat) * unit)
  let isAbove := roundsTo x ((above : Rat) * unit)
  let toBelow := x.magnitude - (below : Rat) * unit
  let toAbove := (above : Rat) * unit - x.magnitude
  if isBelow ∧ isAbove then
    if toBelow < toAbove then some below
    else if toAbove < toBelow then some above
    else some (if below % 2 = 0 then below else above)
  else if isBelow then some below
  else if isAbove then some above
  else none

/-- The shortest digits `d` and exponent `k` with `d * 10 ^ k` reading back as
the magnitude of `x`. Seventeen digits always suffice. -/
def shortestDigits (x : Binary64) : Nat × Int :=
  if x.mantissa = 0 then (0, 0)
  else
    let order := decimalOrder x.magnitude
    go x order 17 1
where
  go (x : Binary64) (order : Int) : Nat → Nat → Nat × Int
    | 0, _ => (0, 0)
    | fuel + 1, n =>
      let k := order - (n : Int) + 1
      match onGrid x ((10 : Rat) ^ k) with
      | some d => trimZeros 17 d k
      | none => go x order fuel (n + 1)
  trimZeros : Nat → Nat → Int → Nat × Int
    | 0, d, k => (d, k)
    | fuel + 1, d, k =>
      if d % 10 = 0 ∧ d ≠ 0 then trimZeros fuel (d / 10) (k + 1) else (d, k)

structure Spelling where
  leastPositional : Int
  firstExponential : Int

/-- Positional from `0.00001` up to below `1e+16`. -/
def plainSpelling : Spelling := ⟨-5, 16⟩

/-- The text of `digits * 10 ^ k`, whose leading digit has order `order`. -/
def spell (s : Spelling) (digits : Nat) (k : Int) : String :=
  let text := toString digits
  let order := k + (text.length : Int) - 1
  if digits = 0 then "0.0"
  else if s.leastPositional ≤ order ∧ order < s.firstExponential then
    if 0 ≤ k then text ++ String.ofList (List.replicate k.toNat '0') ++ ".0"
    else if 0 ≤ order then
      let whole := (order + 1).toNat
      String.ofList (text.toList.take whole) ++ "." ++ String.ofList (text.toList.drop whole)
    else
      "0." ++ String.ofList (List.replicate (-order - 1).toNat '0') ++ text
  else
    let lead := String.ofList (text.toList.take 1)
    let rest := text.toList.drop 1
    let fraction := if rest.isEmpty then "" else "." ++ String.ofList rest
    let sign := if order < 0 then "-" else "+"
    lead ++ fraction ++ "e" ++ sign ++ toString order.natAbs

/-- The number as text, a sign before negative ones and negative zero. -/
def text (x : Binary64) : String :=
  let (digits, k) := shortestDigits x
  (if x.negative then "-" else "") ++ spell plainSpelling digits k

end Binary64
end AccessPolicy
