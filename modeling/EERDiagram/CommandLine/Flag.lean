import EERDiagram.Text.Basic

/-! Flags among the arguments of a command line. An argument is taken for a flag by the way it is
written, before anything is known of its neighbours. Long names may be cut short as long as only
one is meant. -/
namespace EERDiagram.CommandLine

inductive Key where
  | help
  | config
  | logLevel
  | force
  | output
  deriving DecidableEq, Repr

structure Flag where
  key : Key
  names : List String
  takesValue : Bool
  deriving DecidableEq, Repr

inductive Misuse where
  | ambiguous (argument : String)
  | missingValue (argument : String)
  | unexpectedValue (argument : String)
  | notNumber (argument : String)
  | unknownCommand (name : String)
  | missingOperands
  | unrecognized
  deriving DecidableEq, Repr

def Misuse.message : Misuse → String
  | .ambiguous argument => s!"'{argument}' is short for more than one option"
  | .missingValue argument => s!"'{argument}' needs a value"
  | .unexpectedValue argument => s!"'{argument}' has a value for an option that takes none"
  | .notNumber argument => s!"'{argument}' is not a number"
  | .unknownCommand name => s!"'{name}' is not a command"
  | .missingOperands => "some arguments are missing"
  | .unrecognized => "some arguments were not recognized"

structure Attached where
  afterEquals : Bool
  text : List Char
  deriving DecidableEq, Repr

/-- What an argument is taken for. The divider ends the flags; a flag may be unknown. -/
inductive Mark where
  | operand (text : String)
  | divider
  | flag (text : String) (isShort : Bool) (flag : Option Flag) (attached : Option Attached)
  deriving DecidableEq, Repr

namespace Flag

def named? (flags : List Flag) (name : List Char) : Option Flag :=
  flags.find? fun f => f.names.any (·.toList == name)

/-- The flags with a name that begins so, once for each such name. -/
def abbreviated (flags : List Flag) (stem : List Char) : List Flag :=
  flags.flatMap fun f => (f.names.filter (stem.isPrefixOf ·.toList)).map fun _ => f

end Flag

namespace Mark

def dividerText : String := "--"

def text : Mark → String
  | .operand text => text
  | .divider => dividerText
  | .flag text _ _ _ => text

def isLong : List Char → Bool
  | '-' :: '-' :: _ => true
  | _ => false

/-- The text after a minus sign that makes it a negative number: digits, or a point before the
last of them. A line feed may follow. -/
def isMagnitude (s : List Char) : Bool :=
  let s := if s.getLast? = some '\n' then s.dropLast else s
  match s.dropWhile Text.isDigit with
  | [] => !s.isEmpty
  | '.' :: fraction => !fraction.isEmpty && fraction.all Text.isDigit
  | _ => false

/-- A text that no flag accounts for is an operand if it is a number or has a space in it. -/
def unmatched (argument : String) (rest : List Char) : Mark :=
  if isMagnitude rest ∨ ' ' ∈ rest then .operand argument
  else .flag argument (!isLong argument.toList) none none

def splitEquals (s : List Char) : List Char × Option Attached :=
  (s.takeWhile (· ≠ '='), match s.dropWhile (· ≠ '=') with
    | '=' :: value => some ⟨true, value⟩
    | _ => none)

def full? (flags : List Flag) (argument : String) : Option Mark :=
  let s := argument.toList
  let (stem, attached) := splitEquals s
  let found := match Flag.named? flags s with
    | some known => some (known, none)
    | none => attached.bind fun value => (Flag.named? flags stem).map (·, some value)
  found.map fun (known, attached) => .flag argument (!isLong s) (some known) attached

/-- A flag by the beginning of a long name, or by a short name with its value right after it. -/
def partial? (flags : List Flag) (argument : String) : Except Misuse (Option Mark) :=
  let s := argument.toList
  let (stem, attached) := splitEquals s
  if isLong s then
    match Flag.abbreviated flags stem with
    | [] => .ok none
    | [known] => .ok (some (.flag argument false (some known) attached))
    | _ => .error (.ambiguous argument)
  else
    .ok ((Flag.named? flags (s.take 2)).map fun known =>
      .flag argument true (some known) (some ⟨false, s.drop 2⟩))

def ofText (flags : List Flag) (argument : String) : Except Misuse Mark :=
  match argument.toList with
  | '-' :: rest =>
    match full? flags argument with
    | some mark => .ok mark
    | none =>
      if rest = [] then .ok (.operand argument)
      else (partial? flags argument).map (·.getD (unmatched argument rest))
  | _ => .ok (.operand argument)

/-- Everything after the divider is an operand. -/
def ofTexts (flags : List Flag) : List String → Except Misuse (List Mark)
  | [] => .ok []
  | argument :: rest =>
    if argument = dividerText then .ok (.divider :: rest.map .operand)
    else
      match ofText flags argument with
      | .error e => .error e
      | .ok mark => (ofTexts flags rest).map (mark :: ·)

end Mark
end EERDiagram.CommandLine
