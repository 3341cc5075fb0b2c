import EERDiagram.Decimal.Literal
import EERDiagram.Decimal.Binary
import EERDiagram.Diagram.Basic
import EERDiagram.Json.Value

/-! Typed fields from JSON values. A field takes a value of its type, and a number field also
what can stand for a number: a truth value, or a text that spells one. -/
namespace EERDiagram.Artifact.Field

open Json (Value)

/-- The most characters a whole number in a text may have, its sign counted. -/
def maxNumeral : Nat := 4300

def text : Value → Except FieldFault String
  | .text s => .ok s
  | _ => .error .notText

def optionalText : Value → Except FieldFault (Option String)
  | .null => .ok none
  | .text s => .ok (some s)
  | _ => .error .notText

/-- Whether the character stands beside itself somewhere. -/
def isDoubled (c : Char) : List Char → Bool
  | a :: b :: rest => a == c && b == c || isDoubled c (b :: rest)
  | _ => false

/-- Leaves out underscores, when none stands at an end or beside another. -/
def joinGroups? (s : List Char) : Option (List Char) :=
  if s.head? = some '_' ∨ s.getLast? = some '_' ∨ '_' ∉ s ∨ isDoubled '_' s then none
  else some (s.filter (· ≠ '_'))

def spelledNumber? (s : List Char) : Option Float :=
  (Decimal.literal? (Decimal.trimNumeral s)).or ((joinGroups? s).bind Decimal.literal?)

def number : Value → Except FieldFault Float
  | .real x => .ok x
  | .integer n =>
    match Decimal.ofInt? n with
    | some x => .ok x
    | none => .error .notNumber
  | .bool b => .ok (if b then 1.0 else 0.0)
  | .text s =>
    match spelledNumber? s.toList with
    | some x => .ok x
    | none => .error .numberText
  | _ => .error .notNumber

/-- The whole numbers strictly between these bounds may come from a double. -/
def wordBound : Int := Decimal.twoTo 63

def wholeNumber (x : Float) : Except FieldFault Int :=
  if x.isNaN ∨ x.isInf then .error .notFinite
  else
    let b := Decimal.Binary.ofFloat x
    if ¬ b.isWhole then .error .fraction
    else
      let n := Decimal.floorScaled b.signed b.exponent
      if -wordBound < n ∧ n < wordBound then .ok n else .error .tooLarge

/-- Leading zeros, with underscores among them, go as far as something is left for the number. -/
def dropZeros? : List Char → Option (List Char)
  | [] => none
  | '0' :: rest =>
    let isZero (c : Char) := c == '0' || c == '_'
    let last := (rest.takeWhile isZero).getLastD '0'
    match rest.dropWhile isZero with
    | [] => some [last]
    | c :: tail =>
      if c = '.' then some (last :: c :: tail)
      else if Decimal.isAsciiDigit c then some (c :: tail)
      else none
  | c :: rest => if Decimal.isAsciiDigit c ∨ c = '-' then some (c :: rest) else none

/-- A fraction of zeros says nothing. -/
def dropFraction (s : List Char) : List Char :=
  let whole := s.takeWhile (· ≠ '.')
  match s.dropWhile (· ≠ '.') with
  | '.' :: fraction => if fraction.all (· == '0') then whole else s
  | _ => s

/-- What is left of a spelled whole number once everything that says nothing is gone. -/
def tidy? (s : List Char) : Option (List Char) := do
  let s := Decimal.trimNumeral s
  let s ← match s with
    | '+' :: '-' :: _ => none
    | '+' :: rest => some rest
    | _ => some s
  let s := dropFraction (← dropZeros? s)
  return (joinGroups? s).getD s

/-- A minus sign or none, then a zero or digits that start with none. -/
def spelledInteger (s : List Char) : Except FieldFault Int :=
  let (negative, digits) := match s with
    | '-' :: rest => (true, rest)
    | _ => (false, s)
  let run := digits.takeWhile Decimal.isAsciiDigit
  let size := s.length - digits.length + run.length
  match run with
  | [] => .error .integerText
  | first :: _ =>
    if first ≠ '0' ∧ maxNumeral < size then .error .tooLarge
    else if run ≠ digits ∨ first = '0' ∧ 1 < run.length then .error .integerText
    else
      let value : Int := Decimal.asciiValue run
      .ok (if negative then -value else value)

def integer : Value → Except FieldFault Int
  | .integer n => .ok n
  | .bool b => .ok (if b then 1 else 0)
  | .real x => wholeNumber x
  | .text s => spelledInteger ((tidy? s.toList).getD s.toList)
  | _ => .error .notInteger

def faults (field : String) (check : Value → Except FieldFault α) (value : Value) :
    List (FieldError Value) :=
  match check value with
  | .ok _ => []
  | .error fault => [⟨field, fault, value⟩]

end EERDiagram.Artifact.Field
