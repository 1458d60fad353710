/-!
# Binary64 numbers

Finite binary64 numbers as exact dyadic rationals. Every operation computes the
exact rational result and rounds it once, to nearest with ties to the even
mantissa; a result past the largest finite number is `none`.
-/

namespace AccessPolicy

/-- A finite binary64 number, `± mantissa * 2 ^ exponent`. Numbers made by
`ofRat` are canonical: the mantissa has 53 bits, or fewer at the least
exponent. -/
structure Binary64 where
  negative : Bool
  mantissa : Nat
  exponent : Int
deriving DecidableEq, Inhabited

namespace Binary64

/-- The exponent of the subnormal numbers. -/
def leastExponent : Int := -1074

/-- The exponent of the largest finite numbers. -/
def greatestExponent : Int := 971

/-- The least mantissa of 53 bits. -/
def leastNormal : Nat := Nat.pow 2 52

def magnitude (x : Binary64) : Rat := (x.mantissa : Rat) * (2 : Rat) ^ x.exponent

def toRat (x : Binary64) : Rat := if x.negative then -x.magnitude else x.magnitude

def zero (negative : Bool) : Binary64 := ⟨negative, 0, leastExponent⟩

/-- The natural number nearest to a nonnegative rational, ties to even. -/
def roundEven (q : Rat) : Nat :=
  let below := q.floor.toNat
  let rest := q - (below : Rat)
  if rest < 1 / 2 then below
  else if 1 / 2 < rest then below + 1
  else if below % 2 = 0 then below else below + 1

/-- The natural number nearest to a nonnegative rational, ties away from zero. -/
def roundAway (q : Rat) : Nat := (q + 1 / 2).floor.toNat

/-- The exponent `k` with `2 ^ k ≤ q < 2 ^ (k + 1)`, for `0 < q`. -/
def binaryOrder (q : Rat) : Int :=
  let guess : Int := (q.num.natAbs.log2 : Int) - (q.den.log2 : Int)
  if (2 : Rat) ^ guess ≤ q then guess else guess - 1

/-- The binary64 number nearest to `± q`, for `0 ≤ q`. -/
def ofRat (negative : Bool) (q : Rat) : Option Binary64 :=
  if q ≤ 0 then some (zero negative)
  else
    let e := max (binaryOrder q - 52) leastExponent
    let m := roundEven (q * (2 : Rat) ^ (-e))
    let (m, e) := if m = 2 * leastNormal then (leastNormal, e + 1) else (m, e)
    if greatestExponent < e then none else some ⟨negative, m, e⟩

def ofNat (n : Nat) : Option Binary64 := ofRat false (n : Rat)

def neg (x : Binary64) : Binary64 := { x with negative := !x.negative }

def addMagnitudes (x y : Binary64) : Option Binary64 := ofRat false (x.magnitude + y.magnitude)

def mul (x y : Binary64) : Option Binary64 :=
  ofRat (x.negative != y.negative) (x.magnitude * y.magnitude)

def div (x y : Binary64) : Option Binary64 :=
  ofRat (x.negative != y.negative) (x.magnitude / y.magnitude)

/-- `x ^ n` by repeated squaring, each product rounded. -/
def pow (x : Binary64) (n : Nat) : Option Binary64 := do
  go n (← ofNat 1) x n
where
  go : Nat → Binary64 → Binary64 → Nat → Option Binary64
    | 0, acc, _, _ => some acc
    | fuel + 1, acc, square, n => do
      let acc ← if n % 2 = 1 then mul acc square else some acc
      if n / 2 = 0 then some acc else go fuel acc (← mul square square) (n / 2)

def isWhole (x : Binary64) : Bool := x.magnitude.den = 1

end Binary64
end AccessPolicy
