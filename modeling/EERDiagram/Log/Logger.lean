import EERDiagram.Log.Format
import EERDiagram.Text.Basic

/-! The logger of the program. Before it is set up it has no level and no handler, and warnings
are shown by their message alone. Setting it up gives it one handler in place of those before. -/
namespace EERDiagram.Log

def rootName : String := "eerstudio"

/-- Every logger is the root logger or one below it. -/
def loggerName (name : String) : String :=
  if name = rootName ∨ (rootName ++ ".").toList.isPrefixOf name.toList then name
  else rootName ++ "." ++ name

/-- The least level that is shown, `none` when that is left to others. -/
abbrev Threshold := Option Level

namespace Threshold

def number (t : Threshold) : Nat := (t.map Level.number).getD 0

/-- The names by which thresholds are known, in capitals. -/
def names : List (String × Threshold) := [
  ("CRITICAL", some .critical), ("FATAL", some .critical), ("ERROR", some .error),
  ("WARN", some .warning), ("WARNING", some .warning), ("INFO", some .info),
  ("DEBUG", some .debug), ("NOTSET", none)]

def ofName? (name : String) : Option Threshold := names.lookup (Text.upper name)

end Threshold

structure Handler where
  threshold : Threshold
  format : Format
  deriving DecidableEq, Repr

/-- A logger that propagates leaves its records to the outer program as well, which shows none. -/
structure Logger where
  threshold : Threshold := none
  handler : Option Handler := none
  propagates : Bool := true
  deriving DecidableEq, Repr

inductive SetupError where
  | unknownLevel (name : String)
  | invalidFormat (format : String)
  deriving DecidableEq, Repr

def SetupError.message : SetupError → String
  | .unknownLevel name => "Unknown log level: " ++ Text.quoted name
  | .invalidFormat format => s!"Invalid format '{format}' for '%' style"

namespace Logger

/-- Sets the level and the handler. A level that is not known changes nothing; a format that is
not well formed leaves the logger with its new level and without a handler. -/
def setUp (l : Logger) (level : String) (format : Option String) :
    Logger × Except SetupError Unit :=
  match Threshold.ofName? level with
  | none => (l, .error (.unknownLevel level))
  | some threshold =>
    let text := match format with
      | none | some "" => Format.standard
      | some text => text
    match Format.ofText? text with
    | none => ({ l with threshold, handler := none }, .error (.invalidFormat text))
    | some format => ({ threshold, handler := some ⟨threshold, format⟩, propagates := false }, .ok ())

/-- Without a level of its own the logger takes the usual one. -/
def passes (l : Logger) (level : Level) : Bool :=
  (l.threshold.getD .warning).number ≤ level.number

/-- The text shown for a record: its line, or without a handler its message, if it is worth a
warning. -/
def show? (l : Logger) (time : String) (record : Record) : Option String :=
  if l.passes record.level then
    match l.handler with
    | some handler =>
      if handler.threshold.number ≤ record.level.number then
        (handler.format.show? time record).map (· ++ "\n")
      else none
    | none => if Level.warning.number ≤ record.level.number then some (record.message ++ "\n") else none
  else none

end Logger
end EERDiagram.Log
