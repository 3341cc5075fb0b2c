import EERDiagram.Decimal.Literal

/-! Types of YAML nodes. A plain scalar without a tag has the type that its text spells, and is
text if it spells no other. -/
namespace EERDiagram.Yaml

/-- `merge` and `value` are the types of the keys `<<` and `=`. -/
inductive Tag where
  | null
  | bool
  | int
  | float
  | timestamp
  | binary
  | str
  | seq
  | map
  | set
  | orderedMap
  | pairs
  | merge
  | value
  | unknown
  deriving DecidableEq, Repr

namespace Tag

def names : List (String × Tag) :=
  [("null", .null), ("bool", .bool), ("int", .int), ("float", .float), ("timestamp", .timestamp),
    ("binary", .binary), ("str", .str), ("seq", .seq), ("map", .map), ("set", .set),
    ("omap", .orderedMap), ("pairs", .pairs), ("merge", .merge), ("value", .value)]

def ofUri (uri : String) : Tag :=
  ((names.map fun (name, tag) => ("tag:yaml.org,2002:" ++ name, tag)).lookup uri).getD .unknown

def isDigit : Char → Bool := Decimal.isAsciiDigit

def isDigitOrGroup (c : Char) : Bool := isDigit c || c == '_'

def isHexDigit (c : Char) : Bool := isDigit c || ('a' ≤ c && c ≤ 'f') || ('A' ≤ c && c ≤ 'F')

/-- Not empty, and every character satisfies the test. -/
def isRun (p : Char → Bool) (s : List Char) : Bool := !s.isEmpty && s.all p

def unsigned (s : List Char) : List Char := (Decimal.splitSign s).2

def splitOn (mark : Char) (s : List Char) : List (List Char) :=
  s.foldr (fun c parts =>
    if c = mark then [] :: parts
    else match parts with
      | part :: rest => (c :: part) :: rest
      | [] => [[c]]) [[]]

/-- A digit of a number in base 60, in one or two decimal digits. -/
def isPlace : List Char → Bool
  | [c] => isDigit c
  | [a, b] => '0' ≤ a && a ≤ '5' && isDigit b
  | _ => false

/-- A first number and at least one more place, separated by colons. -/
def isSexagesimal (firstDigit : Char → Bool) (s : List Char) : Bool :=
  match splitOn ':' s with
  | (c :: first) :: place :: places =>
    firstDigit c && first.all isDigitOrGroup && (place :: places).all isPlace
  | _ => false

def isInteger (s : List Char) : Bool :=
  match unsigned s with
  | [] => false
  | '0' :: 'b' :: rest => isRun (fun c => c == '0' || c == '1' || c == '_') rest
  | '0' :: 'x' :: rest => isRun (fun c => isHexDigit c || c == '_') rest
  | '0' :: rest => rest.all fun c => '0' ≤ c && c ≤ '7' || c == '_'
  | c :: rest =>
    isDigit c && rest.all isDigitOrGroup || isSexagesimal (fun c => '1' ≤ c && c ≤ '9') (c :: rest)

/-- Empty, or an exponent with a sign. -/
def isExponent : List Char → Bool
  | [] => true
  | mark :: sign :: digits => (mark == 'e' || mark == 'E') && (sign == '+' || sign == '-') && isRun isDigit digits
  | _ => false

def isFraction (s : List Char) : Bool := isExponent (s.dropWhile isDigitOrGroup)

def infinityWords : List (List Char) := [".inf".toList, ".Inf".toList, ".INF".toList]

def nanWords : List (List Char) := [".nan".toList, ".NaN".toList, ".NAN".toList]

def isFloat (s : List Char) : Bool :=
  unsigned s ∈ infinityWords || s ∈ nanWords ||
    match s with
    | '.' :: c :: rest => isDigit c && isFraction rest
    | _ =>
      let whole := (unsigned s).takeWhile (· != '.')
      match (unsigned s).dropWhile (· != '.') with
      | '.' :: rest =>
        whole.head?.any isDigit && whole.all isDigitOrGroup && isFraction rest ||
          isSexagesimal isDigit whole && rest.all isDigitOrGroup
      | _ => false

/-- A part of a date or time: from `least` to `most` digits, and the text after them. -/
def field? (least most : Nat) (s : List Char) : Option (Nat × List Char) :=
  let digits := (s.take most).takeWhile isDigit
  if digits.length < least then none else some (Decimal.asciiValue digits, s.drop digits.length)

def after? (mark : Char) : List Char → Option (List Char)
  | c :: rest => if c = mark then some rest else none
  | [] => none

def isSpace (c : Char) : Bool := c == ' ' || c == '\t'

/-- A time of day with its offset from universal time in minutes. -/
structure TimeOfDay where
  hour : Nat
  minute : Nat
  second : Nat
  offset : Option Int
  deriving DecidableEq, Repr

structure Moment where
  year : Nat
  month : Nat
  day : Nat
  time : Option TimeOfDay
  deriving DecidableEq, Repr

/-- The offset at the end of a time: nothing, a `Z`, or hours and perhaps minutes. -/
def offset? (s : List Char) : Option (Option Int) :=
  match s.dropWhile isSpace with
  | [] => if s.isEmpty then some none else none
  | ['Z'] => some none
  | sign :: rest => do
    if sign ≠ '+' ∧ sign ≠ '-' then none
    let (hours, rest) ← field? 1 2 rest
    let (minutes, rest) ← match rest with
      | ':' :: rest => field? 2 2 rest
      | _ => some (0, rest)
    if rest ≠ [] then none
    let span : Int := 60 * hours + minutes
    return some (if sign = '-' then -span else span)

def timeOfDay? (s : List Char) : Option TimeOfDay := do
  let s ← match s with
    | 'T' :: rest => some rest
    | 't' :: rest => some rest
    | c :: rest => if isSpace c then some (rest.dropWhile isSpace) else none
    | [] => none
  let (hour, s) ← field? 1 2 s
  let (minute, s) ← field? 2 2 (← after? ':' s)
  let (second, s) ← field? 2 2 (← after? ':' s)
  let s := match s with
    | '.' :: rest => rest.dropWhile isDigit
    | _ => s
  return ⟨hour, minute, second, ← offset? s⟩

/-- A date, alone with exactly two digits for month and day if `strict`, or a date and a time. -/
def moment? (strict : Bool) (s : List Char) : Option Moment := do
  let (year, s) ← field? 4 4 s
  let monthAndDay ← after? '-' s
  let (month, s) ← field? 1 2 monthAndDay
  let (day, s) ← field? 1 2 (← after? '-' s)
  if s.isEmpty then
    if strict ∧ monthAndDay.length ≠ 5 then none
    return ⟨year, month, day, none⟩
  else return ⟨year, month, day, some (← timeOfDay? s)⟩

def booleans : List (String × Bool) :=
  [("yes", true), ("no", false), ("true", true), ("false", false), ("on", true), ("off", false)]

/-- A word in lower case, in upper case, or with a capital. -/
def isWordForm (word : String) (s : List Char) : Bool :=
  match word.toList with
  | [] => s.isEmpty
  | c :: rest =>
    s == c :: rest || s == (c :: rest).map Char.toUpper || s == c.toUpper :: rest

def isNull (s : List Char) : Bool := s.isEmpty || s == ['~'] || isWordForm "null" s

/-- The type that the text of a plain scalar spells. -/
def ofSpelling (s : List Char) : Tag :=
  if booleans.any fun (word, _) => isWordForm word s then .bool
  else if isFloat s then .float
  else if isInteger s then .int
  else if s == ['<', '<'] then .merge
  else if isNull s then .null
  else if (moment? true s).isSome then .timestamp
  else if s == ['='] then .value
  else .str

/-- A line feed at the end of the text does not count. -/
def ofPlain (s : List Char) : Tag :=
  if s.getLast? = some '\n' ∧ s ≠ ['\n'] then ofSpelling s.dropLast else ofSpelling s

end Tag
end EERDiagram.Yaml
