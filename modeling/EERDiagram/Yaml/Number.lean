import EERDiagram.Decimal.Binary
import EERDiagram.Text.Basic
import EERDiagram.Yaml.Fault
import EERDiagram.Yaml.Tag

/-! Numbers from the texts of scalars. A text with a colon is a number in base 60; otherwise the
beginning of an integer says its base. Underscores do not count. -/
namespace EERDiagram.Yaml.Number

def maxDigits : Nat := 4300

/-- The letter that may stand after a leading zero to say the base. -/
def baseMark? : Nat → Option Char
  | 2 => some 'b'
  | 8 => some 'o'
  | 16 => some 'x'
  | _ => none

def afterBaseMark (base : Nat) (s : List Char) : List Char :=
  match s with
  | '0' :: mark :: rest =>
    if some mark.toLower = baseMark? base then
      match rest with
      | '_' :: rest => rest
      | _ => rest
    else s
  | _ => s

def digit? (base : Nat) (c : Char) : Option Nat :=
  ((Text.hexValue? c).filter (· < base))

/-- The digits at the front of the text, underscores between them left out. -/
def digitRun (base : Nat) : List Char → List Nat
  | '_' :: c :: rest =>
    match digit? base c with
    | some d => d :: digitRun base rest
    | none => []
  | c :: rest =>
    match digit? base c with
    | some d => d :: digitRun base rest
    | none => []
  | [] => []

/-- Leaves out the underscores that stand before another character than an underscore. -/
def joinDigits? : List Char → Option (List Char)
  | [] => some []
  | ['_'] => none
  | '_' :: '_' :: _ => none
  | '_' :: rest => joinDigits? rest
  | c :: rest => (joinDigits? rest).map (c :: ·)

/-- An integer with blanks around it, a sign, a mark of its base, and underscores between its
digits. -/
def integer (base : Nat) (s : List Char) : Except Fault Int :=
  let wrong : Except Fault Int := .error (.integerText base (String.ofList s))
  let (negative, body) := Decimal.splitSign ((Decimal.trimNumeral s).map Decimal.asciiDigit)
  let body := afterBaseMark base body
  let run := digitRun base body
  if body.head? = some '_' ∨ run = [] then wrong
  else if base = 10 ∧ maxDigits < run.length then .error (.tooManyDigits run.length)
  else
    match (joinDigits? body).bind (List.mapM (digit? base)) with
    | none => wrong
    | some digits =>
      let n : Int := (digits.foldl (fun n d => base * n + d) 0 : Nat)
      .ok (if negative then -n else n)

/-- The value of places in base 60, most significant first. -/
def sexagesimal (places : List Int) : Int := places.foldl (fun n d => 60 * n + d) 0

def ungrouped (s : List Char) : List Char := s.filter (· ≠ '_')

def toInteger (s : List Char) : Except Fault Int := do
  let (negative, s) := Decimal.splitSign (ungrouped s)
  let n ← match s with
    | [] => throw .emptyNumber
    | ['0'] => pure 0
    | '0' :: 'b' :: rest => integer 2 rest
    | '0' :: 'x' :: rest => integer 16 rest
    | '0' :: _ => integer 8 s
    | _ => if ':' ∈ s then sexagesimal <$> (Tag.splitOn ':' s).mapM (integer 10) else integer 10 s
  return if negative then -n else n

def float (s : List Char) : Except Fault Float :=
  match Decimal.typed? s with
  | some x => .ok x
  | none => .error (.floatText (String.ofList s))

def placeWeight (weight : Nat) : Except Fault Float :=
  (Decimal.ofInt? weight).elim (.error .placeOverflow) .ok

/-- Adds up places of a number in base 60, least significant first, the first one having the
given weight. -/
def sumPlaces (weight : Nat) (sum : Float) : List Float → Except Fault Float
  | [] => .ok sum
  | place :: places => do sumPlaces (60 * weight) (sum + place * (← placeWeight weight)) places

def toFloat (s : List Char) : Except Fault Float := do
  let s := (ungrouped s).map Text.lowerChar
  if s = [] then throw .emptyNumber
  let (negative, s) := Decimal.splitSign s
  let x ←
    if s = ".inf".toList then pure (1.0 / 0.0)
    else if s = ".nan".toList then pure (0.0 / 0.0)
    else if ':' ∈ s then do sumPlaces 1 0.0 (← (Tag.splitOn ':' s).mapM float).reverse
    else float s
  return Decimal.signed negative x

def toBoolean (s : List Char) : Except Fault Bool :=
  let word := String.ofList (s.map Text.lowerChar)
  match Tag.booleans.lookup word with
  | some b => .ok b
  | none => .error (.booleanText word)

def isLeap (year : Nat) : Bool := year % 4 == 0 && (year % 100 != 0 || year % 400 == 0)

def daysIn (year month : Nat) : Nat :=
  if month = 2 then if isLeap year then 29 else 28
  else if month = 4 ∨ month = 6 ∨ month = 9 ∨ month = 11 then 30
  else 31

def checkDate (m : Tag.Moment) : Except DateFault Unit :=
  if m.year = 0 then .error (.year 0)
  else if m.month = 0 ∨ 12 < m.month then .error .month
  else if m.day = 0 ∨ daysIn m.year m.month < m.day then .error .day
  else .ok ()

/-- The offset is checked first, then the date, then the time. -/
def checkMoment (m : Tag.Moment) : Except DateFault Unit := do
  match m.time with
  | none => checkDate m
  | some time =>
    if let some offset := time.offset then
      if 1440 ≤ offset.natAbs then throw (.offset offset)
    checkDate m
    if 23 < time.hour then throw .hour
    if 59 < time.minute then throw .minute
    if 59 < time.second then throw .second

def toMoment (s : List Char) : Except Fault Unit :=
  let s := if s.getLast? = some '\n' then s.dropLast else s
  match Tag.moment? false s with
  | none => .error .dateText
  | some m =>
    match checkMoment m with
    | .ok _ => .ok ()
    | .error e => .error (.date e)

/-- Whether the text is base 64: characters outside the alphabet do not count, and what does
makes whole groups of four, unless padding ends it. -/
def isBase64 (s : List Char) : Bool :=
  go 0 0 s
where
  go : Nat → Nat → List Char → Bool
    | count, _, [] => count == 0
    | count, pads, c :: rest =>
      if c = '=' then
        if 2 ≤ count ∧ 4 ≤ count + (pads + 1) then true
        else go count (if 2 ≤ count then pads + 1 else pads) rest
      else if c.isAlphanum || c == '+' || c == '/' then go ((count + 1) % 4) 0 rest
      else go count pads rest

end EERDiagram.Yaml.Number
