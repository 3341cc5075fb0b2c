import EERDiagram.Text.Basic
import EERDiagram.Decimal.Binary

/-! Coordinate pairs in a line: two whole numbers in parentheses with a comma between them.
Blanks may stand after the opening parenthesis, after the comma and before the closing
parenthesis. The first pair of a line is its position. -/
namespace EERDiagram.Coordinates

/-- A whole number as written, by the values of its digits. -/
structure Numeral where
  negative : Bool
  digits : List Nat
  deriving DecidableEq, Repr

def maxDigits : Nat := 4300

def Numeral.value (n : Numeral) : Int :=
  let magnitude : Int := Text.digitsValue n.digits
  if n.negative then -magnitude else magnitude

def Numeral.read? (s : List Char) : Option (Numeral × List Char) :=
  let (negative, s) := match s with
    | '-' :: rest => (true, rest)
    | _ => (false, s)
  let digits := (s.takeWhile Text.isDigit).filterMap Text.digitValue?
  if digits = [] then none else some (⟨negative, digits⟩, s.dropWhile Text.isDigit)

structure Pair where
  x : Numeral
  y : Numeral
  deriving DecidableEq, Repr

def after? (mark : Char) : List Char → Option (List Char)
  | c :: rest => if c = mark then some rest else none
  | [] => none

def Pair.read? (s : List Char) : Option (Pair × List Char) := do
  let s ← after? '(' s
  let (x, s) ← Numeral.read? (Text.trimStart s)
  let s ← after? ',' s
  let (y, s) ← Numeral.read? (Text.trimStart s)
  let s ← after? ')' (Text.trimStart s)
  return (⟨x, y⟩, s)

structure Cut where
  before : List Char
  pair : Pair
  after : List Char

def Cut.rest (cut : Cut) : List Char := cut.before ++ cut.after

def cut? : List Char → Option Cut
  | [] => none
  | c :: rest =>
    match Pair.read? (c :: rest) with
    | some (pair, after) => some ⟨[], pair, after⟩
    | none => (cut? rest).map fun cut => { cut with before := c :: cut.before }

def erase (s : List Char) : List Char :=
  match cut? s with
  | some cut => cut.rest
  | none => s

def writeInteger (n : Int) : List Char := (toString n).toList

def write (x y : Int) : List Char :=
  '(' :: writeInteger x ++ ',' :: ' ' :: writeInteger y ++ [')']

def format (x y : Float) : Except Decimal.RoundingError (List Char) := do
  return write (← Decimal.roundHalfUp x) (← Decimal.roundHalfUp y)

end EERDiagram.Coordinates
