import EERDiagram.Decimal.Literal
import EERDiagram.Json.Value
import EERDiagram.Text.Basic

/-! Reading JSON. Besides the standard grammar the words for NaN and the infinities are
numbers. A whole number is read exactly, up to a fixed count of digits. -/
namespace EERDiagram.Json

def maxDigits : Nat := 4300

inductive ReadError where
  | malformed
  /-- A whole number of `digits` digits, more than `maxDigits`. -/
  | tooManyDigits (digits : Nat)
  deriving DecidableEq, Repr

abbrev Rest := List Char

def isSpace (c : Char) : Bool := c == ' ' || c == '\t' || c == '\n' || c == '\r'

def skipSpace (s : List Char) : Rest := s.dropWhile isSpace

def simpleEscape? : Char → Option Char
  | '"' => some '"'
  | '\\' => some '\\'
  | '/' => some '/'
  | 'b' => some '\x08'
  | 'f' => some '\x0c'
  | 'n' => some '\n'
  | 'r' => some '\r'
  | 't' => some '\t'
  | _ => none

def codeUnit? : List Char → Option (Nat × Rest)
  | a :: b :: c :: d :: rest => (Text.hexNumber? [a, b, c, d]).map (·, rest)
  | _ => none

def isHighUnit (n : Nat) : Bool := 0xD800 ≤ n && n < 0xDC00

def isLowUnit (n : Nat) : Bool := 0xDC00 ≤ n && n < 0xE000

/-- The character a numeric escape stands for; two units make one character when the first is a
high and the second a low one. A unit without its partner is no character and reads as the
replacement character. -/
def escapedChar? (s : List Char) : Option (Char × Rest) := do
  let (unit, rest) ← codeUnit? s
  let single := if isHighUnit unit || isLowUnit unit then '\uFFFD' else Char.ofNat unit
  if isHighUnit unit then
    match rest with
    | '\\' :: 'u' :: more =>
      let (next, rest') ← codeUnit? more
      if isLowUnit next then
        return (Char.ofNat (0x10000 + (unit - 0xD800) * 0x400 + (next - 0xDC00)), rest')
      else return (single, rest)
    | _ => return (single, rest)
  else return (single, rest)

/-- The characters before the closing mark, with the escapes as they are written, and the text
after the mark. -/
def cutText? : List Char → Option (List Char × Rest)
  | [] => none
  | '"' :: rest => some ([], rest)
  | '\\' :: mark :: rest => (cutText? rest).map fun (raw, rest) => ('\\' :: mark :: raw, rest)
  | c :: rest => (cutText? rest).map fun (raw, rest) => (c :: raw, rest)

/-- The text that the characters between the marks stand for, with `fuel` at least their number. -/
def unescape? : Nat → List Char → Option (List Char)
  | _, [] => some []
  | 0, _ :: _ => none
  | fuel + 1, '\\' :: 'u' :: rest => do
    let (c, rest) ← escapedChar? rest
    return c :: (← unescape? fuel rest)
  | fuel + 1, '\\' :: mark :: rest => do
    let c ← simpleEscape? mark
    return c :: (← unescape? fuel rest)
  | fuel + 1, c :: rest =>
    if c.toNat < 0x20 ∨ c = '\\' then none else (unescape? fuel rest).map (c :: ·)

/-- The digits after a point, when there is a point and at least one digit. -/
def splitFraction (s : List Char) : List Char × Rest :=
  match s with
  | '.' :: tail =>
    let digits := tail.takeWhile Decimal.isAsciiDigit
    if digits = [] then ([], s) else (digits, tail.dropWhile Decimal.isAsciiDigit)
  | _ => ([], s)

/-- The exponent, when there is a mark and at least one digit after it. -/
def splitExponent (s : List Char) : Option Int × Rest :=
  match s with
  | mark :: tail =>
    if mark = 'e' ∨ mark = 'E' then
      let (negative, after) := Decimal.splitSign tail
      let digits := after.takeWhile Decimal.isAsciiDigit
      if digits = [] then (none, s)
      else
        let value : Int := Decimal.asciiValue digits
        (some (if negative then -value else value), after.dropWhile Decimal.isAsciiDigit)
    else (none, s)
  | [] => (none, s)

/-- A number without its sign: a zero, or digits that start with none. -/
def readMagnitude (negative : Bool) (s : List Char) : Except ReadError (Value × Rest) :=
  let digits := match s with
    | '0' :: _ => ['0']
    | _ => s.takeWhile Decimal.isAsciiDigit
  if digits = [] then .error .malformed
  else
    let (fraction, rest) := splitFraction (s.drop digits.length)
    let (exponent, rest) := splitExponent rest
    if fraction = [] ∧ exponent = none then
      if maxDigits < digits.length then .error (.tooManyDigits digits.length)
      else
        let value : Int := Decimal.asciiValue digits
        .ok (.integer (if negative then -value else value), rest)
    else
      let mantissa := Decimal.asciiValue (digits ++ fraction)
      let x := Decimal.ofScaled mantissa (exponent.getD 0 - fraction.length)
      .ok (.real (Decimal.signed negative x), rest)

def afterWord? : (word s : List Char) → Option Rest
  | [], s => some s
  | _ :: _, [] => none
  | c :: word, d :: s => if c = d then afterWord? word s else none

def words : List (List Char × Value) :=
  [("null".toList, .null), ("true".toList, .bool true), ("false".toList, .bool false),
    ("NaN".toList, .real (0.0 / 0.0)), ("Infinity".toList, .real (1.0 / 0.0)),
    ("-Infinity".toList, .real (-1.0 / 0.0))]

def readWord? (s : List Char) : Option (Value × Rest) :=
  words.findSome? fun (word, value) => (afterWord? word s).map (value, ·)

def readScalar (s : List Char) : Except ReadError (Value × Rest) :=
  match readWord? s with
  | some result => .ok result
  | none =>
    match s with
    | '-' :: rest => readMagnitude true rest
    | _ => readMagnitude false s

def readName (s : List Char) : Except ReadError (String × Rest) :=
  match s with
  | '"' :: rest =>
    match cutText? rest with
    | none => .error .malformed
    | some (raw, rest) =>
      match unescape? raw.length raw with
      | none => .error .malformed
      | some text => .ok (String.ofList text, rest)
  | _ => .error .malformed

def expect (mark : Char) (s : List Char) : Except ReadError Rest :=
  match s with
  | c :: rest => if c = mark then .ok rest else .error .malformed
  | [] => .error .malformed

/-! The three readers below call each other with less fuel; two units for each character of
the input are enough. -/

mutual

def readValue : Nat → List Char → Except ReadError (Value × Rest)
  | 0, _ => .error .malformed
  | fuel + 1, s =>
    match s with
    | '"' :: _ => do
      let (text, rest) ← readName s
      return (.text text, rest)
    | '[' :: rest =>
      match skipSpace rest with
      | ']' :: rest => .ok (.array [], rest)
      | rest => do
        let (items, rest) ← readItems fuel rest
        return (.array items, rest)
    | '\x7b' :: rest =>
      match skipSpace rest with
      | '\x7d' :: rest => .ok (.object [], rest)
      | rest => do
        let (members, rest) ← readMembers fuel [] rest
        return (.object members, rest)
    | _ => readScalar s

def readItems : Nat → List Char → Except ReadError (List Value × Rest)
  | 0, _ => .error .malformed
  | fuel + 1, s => do
    let (item, rest) ← readValue fuel s
    match skipSpace rest with
    | ']' :: rest => return ([item], rest)
    | ',' :: rest =>
      let (items, rest) ← readItems fuel (skipSpace rest)
      return (item :: items, rest)
    | _ => throw .malformed

/-- One or more members and the closing brace, added to those already read. -/
def readMembers : Nat → Members → List Char → Except ReadError (Members × Rest)
  | 0, _, _ => .error .malformed
  | fuel + 1, members, s => do
    let (name, rest) ← readName s
    let rest ← expect ':' (skipSpace rest)
    let (value, rest) ← readValue fuel (skipSpace rest)
    let members := Members.insert name value members
    match skipSpace rest with
    | '\x7d' :: rest => return (members, rest)
    | ',' :: rest => readMembers fuel members (skipSpace rest)
    | _ => throw .malformed

end

def read (s : List Char) : Except ReadError Value := do
  let (value, rest) ← readValue (2 * s.length + 2) (skipSpace s)
  if skipSpace rest = [] then return value else throw .malformed

end EERDiagram.Json
