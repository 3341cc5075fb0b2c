import EERDiagram.Text.Basic

/-! Reading decimal numbers. A literal is a sign, digits with at most one point among or around
them, and an exponent; or one of the words for infinity and NaN. -/
namespace EERDiagram.Decimal

/-- The double nearest to `mantissa * 10 ^ exponent`. Beyond the range of doubles the answer
does not depend on the digits, so no large power is computed there. -/
def ofScaled (mantissa : Nat) (exponent : Int) : Float :=
  let magnitude : Int := (Nat.toDigits 10 mantissa).length + exponent
  if mantissa = 0 ∨ magnitude < -330 then 0.0
  else if 320 < magnitude then 1.0 / 0.0
  else if 0 ≤ exponent then Float.ofScientific mantissa false exponent.toNat
  else Float.ofScientific mantissa true (-exponent).toNat

def signed (negative : Bool) (x : Float) : Float := if negative then -x else x

def isAsciiDigit (c : Char) : Bool := '0' ≤ c && c ≤ '9'

def asciiValue (digits : List Char) : Nat :=
  Text.digitsValue (digits.map fun c => c.toNat - '0'.toNat)

def splitSign : List Char → Bool × List Char
  | '-' :: rest => (true, rest)
  | '+' :: rest => (false, rest)
  | s => (false, s)

/-- The exponent part, which must be the rest of the text; an empty text is the exponent 0. -/
def exponent? : List Char → Option Int
  | [] => some 0
  | mark :: rest =>
    if mark = 'e' ∨ mark = 'E' then
      let (negative, digits) := splitSign rest
      if digits ≠ [] ∧ digits.all isAsciiDigit then
        some (if negative then -asciiValue digits else asciiValue digits)
      else none
    else none

def magnitude? (s : List Char) : Option Float :=
  let whole := s.takeWhile isAsciiDigit
  let rest := s.dropWhile isAsciiDigit
  let (fraction, rest) := match rest with
    | '.' :: tail => (tail.takeWhile isAsciiDigit, tail.dropWhile isAsciiDigit)
    | _ => ([], rest)
  if whole = [] ∧ fraction = [] then none
  else (exponent? rest).map fun e => ofScaled (asciiValue (whole ++ fraction)) (e - fraction.length)

def word? (s : List Char) : Option Float :=
  let s := s.map Char.toLower
  if s = "inf".toList ∨ s = "infinity".toList then some (1.0 / 0.0)
  else if s = "nan".toList then some (0.0 / 0.0)
  else none

/-- Reads a literal in the characters of ASCII that is the whole text. -/
def literal? (s : List Char) : Option Float :=
  let (negative, rest) := splitSign s
  ((word? rest).or (magnitude? rest)).map (signed negative)

/-- Leaves out the underscores that stand between two digits; any other one is an error. -/
def joinDigitGroups? : List Char → Option (List Char)
  | [] => some []
  | '_' :: _ => none
  | [c] => some [c]
  | c :: '_' :: d :: rest =>
    if isAsciiDigit c ∧ isAsciiDigit d then (joinDigitGroups? (d :: rest)).map (c :: ·) else none
  | c :: rest => (joinDigitGroups? rest).map (c :: ·)

/-- The information separators are blank inside a line but not around a numeral. -/
def isNumeralBlank (c : Char) : Bool := Text.isBlank c && !(28 ≤ c.toNat && c.toNat ≤ 31)

def trimNumeral (s : List Char) : List Char :=
  Text.dropEndWhile isNumeralBlank (s.dropWhile isNumeralBlank)

def asciiDigit (c : Char) : Char :=
  match Text.digitValue? c with
  | some d => Char.ofNat ('0'.toNat + d)
  | none => c

/-- Reads a number as people type it: blanks around it, the digits of any script, and
underscores between digits. -/
def typed? (s : List Char) : Option Float := do
  literal? (← joinDigitGroups? ((trimNumeral s).map asciiDigit))

end EERDiagram.Decimal
