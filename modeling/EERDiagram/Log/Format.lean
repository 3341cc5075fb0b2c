import EERDiagram.Text.Basic

/-! Log records and the formats of their lines. A record has a level, the name of the logger that
wrote it and a message. A format is text with directives in it, each of which names a field of the
record and says how to show it. A format must have a directive that is well formed somewhere; one
that names no field, or shows a text as a number, makes a format that fits no record. -/
namespace EERDiagram.Log

inductive Level where
  | debug
  | info
  | warning
  | error
  | critical
  deriving DecidableEq, Repr

def Level.number : Level → Nat
  | .debug => 10
  | .info => 20
  | .warning => 30
  | .error => 40
  | .critical => 50

def Level.name : Level → String
  | .debug => "DEBUG"
  | .info => "INFO"
  | .warning => "WARNING"
  | .error => "ERROR"
  | .critical => "CRITICAL"

structure Record where
  level : Level
  logger : String
  message : String
  deriving DecidableEq, Repr

/-- A directive as it is written after its percent sign. -/
structure Directive where
  key : Option (List Char)
  flags : List Char
  width : List Char
  precision : Option (List Char)
  conversion : Char
  deriving DecidableEq, Repr

namespace Directive

def isFlag (c : Char) : Bool := "#0+ -".toList.contains c

/-- A key stands in parentheses. -/
def splitKey : List Char → Option (List Char) × List Char
  | '(' :: s => (some (s.takeWhile (· ≠ ')')), (s.dropWhile (· ≠ ')')).drop 1)
  | s => (none, s)

/-- A count is a number, or a star for one given elsewhere. -/
def splitCount : List Char → List Char × List Char
  | '*' :: s => (['*'], s)
  | s => (s.takeWhile Text.isDigit, s.dropWhile Text.isDigit)

/-- A directive needs a conversion, which is the first character that cannot be anything else. -/
def read (s : List Char) : Option (Directive × List Char) :=
  let (key, s) := splitKey s
  let flags := s.takeWhile isFlag
  let (width, s) := splitCount (s.dropWhile isFlag)
  let (precision, s) := match s with
    | '.' :: s => let (precision, s) := splitCount s; (some precision, s)
    | s => (none, s)
  match s with
  | [] => none
  | conversion :: rest => some (⟨key, flags, width, precision, conversion⟩, rest)

/-- Letters outside ASCII count as they print. -/
def isKeyChar (c : Char) : Bool :=
  c.isAlphanum || c == '_' || Text.isDigit c || 0x80 ≤ c.toNat && Text.isPrintable c

/-- The conversions in either case; two letters of other alphabets pass for an i and one for an s.
-/
def isConversion (c : Char) : Bool :=
  "diouxefgcrsa%\u0130\u0131\u017F".toList.contains c.toLower

def isWellFormed (d : Directive) : Bool :=
  (match d.key with
    | some key => !key.isEmpty && key.all isKeyChar
    | none => false) &&
  d.precision != some [] && isConversion d.conversion

end Directive

inductive Field where
  | time
  | logger
  | levelName
  | levelNumber
  | message
  deriving DecidableEq, Repr

def Field.key : Field → String
  | .time => "asctime"
  | .logger => "name"
  | .levelName => "levelname"
  | .levelNumber => "levelno"
  | .message => "message"

def Field.all : List Field := [.time, .logger, .levelName, .levelNumber, .message]

def Field.ofKey? (key : List Char) : Option Field := Field.all.find? (·.key.toList = key)

inductive Conversion where
  | plain
  | quoted
  | decimal
  deriving DecidableEq, Repr

def Conversion.ofChar? (c : Char) : Option Conversion :=
  if c = 's' then some .plain
  else if c = 'r' then some .quoted
  else if c = 'd' ∨ c = 'i' ∨ c = 'u' then some .decimal
  else none

structure Slot where
  field : Field
  conversion : Conversion
  flags : List Char
  width : Nat
  precision : Option Nat
  deriving DecidableEq, Repr

inductive Piece where
  | text (c : Char)
  | slot (slot : Slot)
  /-- A directive that no record fills. -/
  | unknown
  deriving DecidableEq, Repr

def count? (digits : List Char) : Option Nat :=
  if digits.all fun c => '0' ≤ c ∧ c ≤ '9' then
    some (Text.digitsValue (digits.map fun c => c.toNat - '0'.toNat))
  else none

/-- Two percent signs stand for one. -/
def Piece.ofDirective (d : Directive) : Piece :=
  if d = ⟨none, [], [], none, '%'⟩ then .text '%'
  else
    match d.key.bind Field.ofKey?, Conversion.ofChar? d.conversion, count? d.width,
        count? (d.precision.getD []) with
    | some field, some conversion, some width, some precision =>
      .slot ⟨field, conversion, d.flags, width, d.precision.map fun _ => precision⟩
    | _, _, _, _ => .unknown

/-- A format that some directive makes well formed. -/
structure Format where
  pieces : List Piece
  deriving DecidableEq, Repr

namespace Format

/-- Reads with `fuel` at least the length of the text. -/
def piecesFrom : Nat → List Char → List Piece
  | _, [] => []
  | 0, _ :: _ => []
  | fuel + 1, c :: rest =>
    if c ≠ '%' then .text c :: piecesFrom fuel rest
    else
      match Directive.read rest with
      | none => [.unknown]
      | some (d, rest) => .ofDirective d :: piecesFrom fuel rest

def hasWellFormed : List Char → Bool
  | [] => false
  | c :: rest =>
    c == '%' && ((Directive.read rest).map fun found => found.1.isWellFormed).getD false ||
      hasWellFormed rest

def ofText? (text : String) : Option Format :=
  if hasWellFormed text.toList then some ⟨piecesFrom text.length text.toList⟩ else none

/-- The time, the logger, the level and the message, with dashes between them. -/
def standard : String := "%(asctime)s - %(name)s - %(levelname)s - %(message)s"

end Format

namespace Slot

def padding (width size : Nat) (c : Char) : List Char := List.replicate (width - size) c

/-- Brings a text to its width; zeros go between a sign and its digits. -/
def fit (s : Slot) (sign body : List Char) (isNumber : Bool) : List Char :=
  let size := sign.length + body.length
  if '-' ∈ s.flags then sign ++ body ++ padding s.width size ' '
  else if isNumber ∧ '0' ∈ s.flags then sign ++ padding s.width size '0' ++ body
  else padding s.width size ' ' ++ sign ++ body

def showText (s : Slot) (text : List Char) : List Char :=
  s.fit [] (match s.precision with
    | some most => text.take most
    | none => text) false

def showNumber (s : Slot) (n : Nat) : List Char :=
  let digits := Nat.toDigits 10 n
  let sign := if '+' ∈ s.flags then ['+'] else if ' ' ∈ s.flags then [' '] else []
  s.fit sign (padding (s.precision.getD 0) digits.length '0' ++ digits) true

def value (time : String) (record : Record) : Field → String × Option Nat
  | .time => (time, none)
  | .logger => (record.logger, none)
  | .levelName => (record.level.name, none)
  | .levelNumber => (toString record.level.number, some record.level.number)
  | .message => (record.message, none)

/-- A text has no decimal form. -/
def show? (s : Slot) (time : String) (record : Record) : Option (List Char) :=
  match s.conversion, value time record s.field with
  | .plain, (text, _) => some (s.showText text.toList)
  | .quoted, (text, none) => some (s.showText (Text.quoted text).toList)
  | .quoted, (text, some _) => some (s.showText text.toList)
  | .decimal, (_, number) => number.map s.showNumber

end Slot

def Piece.show? (time : String) (record : Record) : Piece → Option (List Char)
  | .text c => some [c]
  | .slot s => s.show? time record
  | .unknown => none

/-- The line of a record, `none` when the format fits no record. -/
def Format.show? (f : Format) (time : String) (record : Record) : Option String :=
  (f.pieces.mapM (Piece.show? time record)).map fun shown => String.ofList shown.flatten

end EERDiagram.Log
