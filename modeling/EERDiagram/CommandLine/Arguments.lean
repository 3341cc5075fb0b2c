import EERDiagram.CommandLine.Flag
import EERDiagram.Decimal.Literal

/-! The arguments of a command line, told apart as values of flags and operands. They are taken in
order, so that a request for help counts unless something before it is wrong. -/
namespace EERDiagram.CommandLine

inductive Stop where
  | help
  | misuse (misuse : Misuse)
  deriving DecidableEq, Repr

/-- The kinds of operands. A command takes all arguments after it. -/
inductive Operand where
  | text
  | number
  | command
  deriving DecidableEq, Repr

def Operand.accepts : Operand → String → Bool
  | .number, argument => (Decimal.typed? argument.toList).isSome
  | _, _ => true

/-- What one argument says of flags: those without a value, then at most one with a value, which
may be in the next argument; and whether part of it says nothing. -/
structure Spelling where
  plain : List Key := []
  valued : Option (Key × Option (List Char)) := none
  isExtra : Bool := false

namespace Spelling

/-- Reads short names written in one argument, up to one that takes a value. -/
def ofShort (flags : List Flag) (argument : String) : List Char → Except Misuse Spelling
  | [] => .ok {}
  | c :: rest =>
    match Flag.named? flags ['-', c] with
    | none => .ok { isExtra := true }
    | some flag =>
      if flag.takesValue then
        .ok { valued := some (flag.key, match rest with
          | [] => none
          | '=' :: value => some value
          | value => some value) }
      else if rest.head? = some '=' ∨ rest.head? = some '-' then .error (.unexpectedValue argument)
      else (ofShort flags argument rest).map fun s => { s with plain := flag.key :: s.plain }

/-- What follows the short name of a flag without a value is the next flag. -/
def ofFlag (flags : List Flag) (argument : String) (isShort : Bool) (flag : Flag) :
    Option Attached → Except Misuse Spelling
  | none =>
    .ok (if flag.takesValue then { valued := some (flag.key, none) } else { plain := [flag.key] })
  | some ⟨afterEquals, text⟩ =>
    if flag.takesValue then .ok { valued := some (flag.key, some text) }
    else if isShort ∧ ¬ afterEquals ∧ text ≠ [] ∧ text.head? ≠ some '-' then
      (ofShort flags argument text).map fun s => { s with plain := flag.key :: s.plain }
    else .error (.unexpectedValue argument)

end Spelling

structure Arguments where
  values : List (Key × String) := []
  operands : List String := []
  /-- Some argument is of no use. -/
  hasExtra : Bool := false
  deriving DecidableEq, Repr

namespace Arguments

/-- The last value given is the one that counts. -/
def value? (a : Arguments) (key : Key) : Option String :=
  ((a.values.filter (·.1 = key)).getLast?).map (·.2)

def withExtra (a : Arguments) : Arguments := { a with hasExtra := true }

def withOperand (operand : String) (a : Arguments) : Arguments :=
  { a with operands := operand :: a.operands }

def withSpelling (s : Spelling) (valued : List (Key × String)) (a : Arguments) : Arguments :=
  { a with
    values := s.plain.map (·, "") ++ valued ++ a.values
    hasExtra := s.isExtra || a.hasExtra }

/-- Takes the arguments in order. The divider goes with an operand next to it that is taken,
which `besideOperand` says of the one before it. -/
def take (flags : List Flag) : List Operand → Bool → List Mark → Except Stop Arguments
  | _, _, [] => .ok {}
  | [], _, .operand _ :: rest => (take flags [] false rest).map withExtra
  | kind :: wanted, _, .operand text :: rest =>
    if kind = .command then .ok { operands := text :: rest.map Mark.text }
    else if kind.accepts text then (take flags wanted true rest).map (withOperand text)
    else .error (.misuse (.notNumber text))
  | wanted, besideOperand, .divider :: rest =>
    if wanted.head? = some .command ∧ rest ≠ [] then
      .ok { operands := Mark.dividerText :: rest.map Mark.text }
    else if besideOperand ∨ wanted ≠ [] ∧ rest ≠ [] then take flags wanted false rest
    else (take flags wanted false rest).map withExtra
  | wanted, _, .flag _ _ none _ :: rest => (take flags wanted false rest).map withExtra
  | wanted, _, .flag argument isShort (some flag) attached :: rest =>
    match Spelling.ofFlag flags argument isShort flag attached with
    | .error e => .error (.misuse e)
    | .ok s =>
      match s.valued, rest with
      | some (key, none), .operand value :: rest =>
        if .help ∈ s.plain then .error .help
        else (take flags wanted false rest).map (withSpelling s [(key, value)])
      | some (_, none), _ => .error (.misuse (.missingValue argument))
      | some (key, some value), rest =>
        if .help ∈ s.plain then .error .help
        else (take flags wanted false rest).map (withSpelling s [(key, String.ofList value)])
      | none, rest =>
        if .help ∈ s.plain then .error .help
        else (take flags wanted false rest).map (withSpelling s [])

def read (flags : List Flag) (operands : List Operand) (arguments : List String) :
    Except Stop Arguments :=
  match Mark.ofTexts flags arguments with
  | .error e => .error (.misuse e)
  | .ok marks => take flags operands false marks

end Arguments
end EERDiagram.CommandLine
