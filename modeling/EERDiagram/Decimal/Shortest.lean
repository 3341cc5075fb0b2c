import EERDiagram.Decimal.Binary

/-! The shortest decimal that stands for a double: of all decimals that round to the double,
those with the fewest digits, and of these the nearest. All comparisons are between products
of whole numbers, so nothing is lost on the way. -/
namespace EERDiagram.Decimal

structure Scaled where
  digits : Nat
  exponent : Int
  deriving DecidableEq, Repr

def Scaled.compareBinary (d : Scaled) (n : Nat) (k : Int) : Ordering :=
  compare (d.digits * tenTo d.exponent.toNat * twoTo (-k).toNat)
    (n * twoTo k.toNat * tenTo (-d.exponent).toNat)

/-- Whether the decimal lies among the numbers that round to `b`: those up to halfway to the
next double on either side, the ends included when the mantissa is even. -/
def Binary.readsBack (b : Binary) (d : Scaled) : Bool :=
  let low := if b.narrowBelow then 4 * b.mantissa - 1 else 4 * b.mantissa - 2
  let even := b.mantissa % 2 == 0
  let atLow := d.compareBinary low (b.exponent - 2)
  let atHigh := d.compareBinary (4 * b.mantissa + 2) (b.exponent - 2)
  (atLow == .gt || even && atLow == .eq) && (atHigh == .lt || even && atHigh == .eq)

/-- The greatest multiple of `10 ^ place` that is not above the number. -/
def Binary.floorAt (b : Binary) (place : Int) : Scaled :=
  ⟨b.mantissa * twoTo b.exponent.toNat * tenTo (-place).toNat /
    (twoTo (-b.exponent).toNat * tenTo place.toNat), place⟩

/-- The least `k` for which the number is below `10 ^ k`. The binary logarithm gives it up to
one step. -/
def Binary.scale (b : Binary) : Int :=
  let estimate := (((b.mantissa.log2 : Int) + b.exponent) * 30103).fdiv 100000
  let below (k : Int) : Bool := Scaled.compareBinary ⟨1, k⟩ b.mantissa b.exponent == .gt
  if below (estimate - 1) then estimate - 1
  else if below estimate then estimate
  else if below (estimate + 1) then estimate + 1
  else estimate + 2

/-- The nearer of a decimal not above the number and the next one on its grid, of those that
stand for the number; a tie goes to the even digit. -/
def Binary.nearestAt? (b : Binary) (place : Int) : Option Scaled :=
  let low := b.floorAt place
  let high := { low with digits := low.digits + 1 }
  match b.readsBack low, b.readsBack high with
  | false, false => none
  | true, false => some low
  | false, true => some high
  | true, true =>
    match Scaled.compareBinary ⟨2 * low.digits + 1, place⟩ (2 * b.mantissa) b.exponent with
    | .lt => some high
    | .gt => some low
    | .eq => some (if low.digits % 2 = 0 then low else high)

/-- Seventeen digits are enough for every double. -/
def Binary.shortest (b : Binary) : Scaled :=
  if b.mantissa = 0 then ⟨0, 0⟩
  else
    ((List.range 17).findSome? fun (n : Nat) => b.nearestAt? (b.scale - (n + 1))).getD
      (b.floorAt (b.scale - 17))

end EERDiagram.Decimal
