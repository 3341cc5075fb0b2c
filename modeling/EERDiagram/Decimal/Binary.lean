/-! The exact value of a double. A finite double is an integer times a power of two; taking it
apart lets rounding and printing work with whole numbers only. -/
namespace EERDiagram.Decimal

abbrev twoTo (n : Nat) : Nat := Nat.pow 2 n

abbrev tenTo (n : Nat) : Nat := Nat.pow 10 n

/-- The number `mantissa * 2 ^ exponent`, negated when `negative`. -/
structure Binary where
  negative : Bool
  mantissa : Nat
  exponent : Int
  /-- The gap to the next number toward zero is half the gap to the next one away from it. -/
  narrowBelow : Bool
  deriving DecidableEq, Repr

/-- What a bit pattern says when its exponent field is not the one of infinities and NaN. -/
def Binary.ofBits (bits : UInt64) : Binary :=
  let biased := ((bits >>> 52) &&& 0x7FF).toNat
  let fraction := (bits &&& 0xFFFFFFFFFFFFF).toNat
  let negative := bits >>> 63 == 1
  if biased = 0 then ⟨negative, fraction, -1074, false⟩
  else ⟨negative, twoTo 52 + fraction, biased - 1075, fraction == 0 && 1 < biased⟩

def isNegative (x : Float) : Bool := x.toBits >>> 63 == 1

/-- Neither infinite nor NaN. -/
def isFinite (x : Float) : Bool := !x.isNaN && !x.isInf

def Binary.ofFloat (x : Float) : Binary := .ofBits x.toBits

def Binary.signed (b : Binary) : Int := if b.negative then -b.mantissa else b.mantissa

def Binary.isWhole (b : Binary) : Bool :=
  0 ≤ b.exponent || b.mantissa % twoTo (-b.exponent).toNat == 0

/-- The least magnitude of an integer that no double is near enough to stand for. -/
def overflowBound : Nat := twoTo 1024 - twoTo 970

/-- The double nearest to an integer, ties to even; `none` beyond the range of doubles. -/
def ofInt? (n : Int) : Option Float :=
  if n.natAbs < overflowBound then some (Float.ofInt n) else none

/-! A value is rounded by taking the floor of its sum with one half, so halves go up. The sum is a
double, and where doubles are too coarse for it the sum is rounded before the floor is taken. -/

/-- The greatest integer that is not above `n * 2 ^ exponent`. -/
def floorScaled (n exponent : Int) : Int :=
  if 0 ≤ exponent then n * twoTo exponent.toNat else n.fdiv (twoTo (-exponent).toNat)

/-- The integer nearest to `n / 2 ^ bits`; halfway it is the even one. -/
def nearestEven (n bits : Nat) : Nat :=
  let quotient := n / twoTo bits
  let rest := n % twoTo bits
  if 2 * rest < twoTo bits ∨ 2 * rest = twoTo bits ∧ quotient % 2 = 0 then quotient
  else quotient + 1

/-- How many bits of a whole number do not fit a mantissa of 53 bits. -/
def excessBits (n : Nat) : Nat := if n = 0 then 0 else n.log2 + 1 - 53

/-- The number and one half as multiples of one power of two; the sum of the two multiples. -/
def Binary.sumWithHalf (b : Binary) : Int × Int :=
  let exponent := min b.exponent (-1)
  (b.signed * twoTo (b.exponent - exponent).toNat + twoTo (-1 - exponent).toNat, exponent)

/-- The floor of the double nearest to the sum with one half. -/
def Binary.roundHalfUp (b : Binary) : Int :=
  let (sum, exponent) := b.sumWithHalf
  let excess := excessBits sum.natAbs
  let mantissa : Int := nearestEven sum.natAbs excess
  floorScaled (if sum < 0 then -mantissa else mantissa) (exponent + excess)

inductive RoundingError where
  | notANumber
  | infinite
  deriving DecidableEq, Repr

def RoundingError.message : RoundingError → String
  | .notANumber => "cannot convert float NaN to integer"
  | .infinite => "cannot convert float infinity to integer"

def roundHalfUp (x : Float) : Except RoundingError Int :=
  if x.isNaN then .error .notANumber
  else if x.isInf then .error .infinite
  else .ok (Binary.ofFloat x).roundHalfUp

end EERDiagram.Decimal
