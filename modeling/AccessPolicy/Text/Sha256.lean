/-!
# SHA-256

The digest of a text in UTF-8. The constants are computed from what they are:
the first 32 bits of the fractions of roots of the first primes.
-/

namespace AccessPolicy
namespace Sha256

/-! ## Constants -/

def isPrime (n : Nat) : Bool := 2 ≤ n && (List.range n).all fun d => d < 2 || n % d ≠ 0

/-- The first primes; the sixty-fourth is 311. -/
def primes : List Nat := (List.range 312).filter isPrime

/-- The greatest number whose `k`-th power is at most `n`, for roots below
`2 ^ 40`. -/
def root (k n : Nat) : Nat :=
  (List.range 40).reverse.foldl (fun r bit =>
    if Nat.pow (r + Nat.pow 2 bit) k ≤ n then r + Nat.pow 2 bit else r) 0

/-- The first 32 bits of the fraction of the `k`-th root. -/
def rootFraction (k n : Nat) : UInt32 := (root k (n * Nat.pow 2 (32 * k)) % Nat.pow 2 32).toUInt32

/-- The constants of the rounds: cube roots. -/
def roundConstants : List UInt32 := primes.map (rootFraction 3)

/-! ## Compression -/

/-- The eight working words. -/
structure State where
  a : UInt32
  b : UInt32
  c : UInt32
  d : UInt32
  e : UInt32
  f : UInt32
  g : UInt32
  h : UInt32
deriving DecidableEq, Inhabited

namespace State

def words (s : State) : List UInt32 := [s.a, s.b, s.c, s.d, s.e, s.f, s.g, s.h]

def add (s t : State) : State :=
  ⟨s.a + t.a, s.b + t.b, s.c + t.c, s.d + t.d, s.e + t.e, s.f + t.f, s.g + t.g, s.h + t.h⟩

/-- The first state: square roots of the first eight primes. -/
def initial : State :=
  let r (n : Nat) := rootFraction 2 n
  ⟨r 2, r 3, r 5, r 7, r 11, r 13, r 17, r 19⟩

end State

def rotateRight (x n : UInt32) : UInt32 := (x >>> n) ||| (x <<< (32 - n))

/-- Extend a message schedule, whose words are listed from the last. -/
def extend : Nat → List UInt32 → List UInt32
  | 0, ws => ws
  | n + 1, ws =>
    let x := ws.getD 14 0
    let y := ws.getD 1 0
    let s0 := rotateRight x 7 ^^^ rotateRight x 18 ^^^ (x >>> 3)
    let s1 := rotateRight y 17 ^^^ rotateRight y 19 ^^^ (y >>> 10)
    extend n ((ws.getD 15 0 + s0 + ws.getD 6 0 + s1) :: ws)

/-- The sixty-four words of the schedule of a block of sixteen. -/
def schedule (block : List UInt32) : List UInt32 := (extend 48 block.reverse).reverse

def round (s : State) (k w : UInt32) : State :=
  let s1 := rotateRight s.e 6 ^^^ rotateRight s.e 11 ^^^ rotateRight s.e 25
  let choice := (s.e &&& s.f) ^^^ (~~~s.e &&& s.g)
  let t1 := s.h + s1 + choice + k + w
  let s0 := rotateRight s.a 2 ^^^ rotateRight s.a 13 ^^^ rotateRight s.a 22
  let majority := (s.a &&& s.b) ^^^ (s.a &&& s.c) ^^^ (s.b &&& s.c)
  ⟨t1 + s0 + majority, s.a, s.b, s.c, s.d + t1, s.e, s.f, s.g⟩

def compress (s : State) (block : List UInt32) : State :=
  s.add ((roundConstants.zip (schedule block)).foldl (fun t kw => round t kw.1 kw.2) s)

/-! ## Messages -/

/-- Bytes in words of four, the first byte highest. -/
def wordsOfBytes : List UInt8 → List UInt32
  | a :: b :: c :: d :: rest =>
    ((a.toUInt32 <<< 24) ||| (b.toUInt32 <<< 16) ||| (c.toUInt32 <<< 8) ||| d.toUInt32)
      :: wordsOfBytes rest
  | _ => []

/-- The bytes with a bit, zeros and the length in bits after them, in blocks of
64 bytes. -/
def pad (bytes : List UInt8) : List UInt8 :=
  let bits := 8 * bytes.length
  let zeros := (119 - bytes.length % 64) % 64
  let length := (List.range 8).reverse.map fun i => (bits >>> (8 * i)).toUInt8
  bytes ++ [0x80] ++ List.replicate zeros 0 ++ length

/-- Take in words, sixteen at a time. -/
def absorb (s : State) : List UInt32 → State
  | [] => s
  | w :: ws => absorb (compress s ((w :: ws).take 16)) (ws.drop 15)
termination_by ws => ws.length
decreasing_by simp only [List.length_drop, List.length_cons]; omega

def hexWord (w : UInt32) : String :=
  String.ofList ((List.range 8).reverse.map fun i => Nat.digitChar (w.toNat >>> (4 * i) % 16))

def digest (text : String) : String :=
  String.join ((absorb State.initial (wordsOfBytes (pad text.toUTF8.data.toList))).words.map hexWord)

end Sha256
end AccessPolicy
