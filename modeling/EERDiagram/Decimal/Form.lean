import EERDiagram.Decimal.Shortest

/-! The text of a number. A form fixes where positional writing ends and which words stand for
infinity and NaN; the digits are the fewest that identify the double. -/
namespace EERDiagram.Decimal

/-- Numbers from `10 ^ positionalFrom` up to, not including, `10 ^ positionalBelow` are written
positionally, the others with an exponent of at least two digits. -/
structure Form where
  positionalFrom : Int
  positionalBelow : Int
  infinity : String
  notANumber : String

/-- How numbers appear in messages. -/
def plainForm : Form := ⟨-4, 16, "inf", "nan"⟩

def signText (negative : Bool) : List Char := if negative then ['-'] else []

/-- The digits with a point after the first `point` of them, never an empty side. -/
def positional (digits : List Char) (point : Int) : List Char :=
  if point ≤ 0 then '0' :: '.' :: (List.replicate (-point).toNat '0' ++ digits)
  else if digits.length ≤ point.toNat then
    digits ++ List.replicate (point.toNat - digits.length) '0' ++ ['.', '0']
  else digits.take point.toNat ++ '.' :: digits.drop point.toNat

def exponentText (exponent : Int) : List Char :=
  let digits := Nat.toDigits 10 exponent.natAbs
  (if exponent < 0 then '-' else '+') :: (List.replicate (2 - digits.length) '0' ++ digits)

/-- One digit before the point, and no point when there is only one digit. -/
def scientific (digits : List Char) (exponent : Int) : List Char :=
  match digits with
  | [] => []
  | [d] => d :: 'e' :: exponentText exponent
  | d :: rest => d :: '.' :: (rest ++ 'e' :: exponentText exponent)

def stripZeros (digits : List Char) : List Char :=
  match (digits.reverse.dropWhile (· == '0')).reverse with
  | [] => ['0']
  | kept => kept

def Form.finite (form : Form) (b : Binary) : List Char :=
  let shortest := b.shortest
  let written := Nat.toDigits 10 shortest.digits
  let digits := stripZeros written
  let point : Int := written.length + shortest.exponent
  signText b.negative ++
    if b.mantissa = 0 then ['0', '.', '0']
    else if form.positionalFrom < point ∧ point ≤ form.positionalBelow then
      positional digits point
    else scientific digits (point - 1)

def Form.render (form : Form) (x : Float) : List Char :=
  if x.isNaN then form.notANumber.toList
  else if x.isInf then signText (isNegative x) ++ form.infinity.toList
  else form.finite (.ofFloat x)

def text (x : Float) : String := String.ofList (plainForm.render x)

end EERDiagram.Decimal
