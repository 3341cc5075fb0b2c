import EERDiagram.CommandLine.Arguments
import EERDiagram.Storage.Basic

/-! Requests: what a command line asks for. -/
namespace EERDiagram.CommandLine

inductive Verb where
  | new
  | parse
  | check
  | move
  deriving DecidableEq, Repr

namespace Verb

def name : Verb → String
  | .new => "new"
  | .parse => "parse"
  | .check => "check"
  | .move => "move"

def all : List Verb := [.new, .parse, .check, .move]

def ofName? (name : String) : Option Verb := all.find? (·.name = name)

end Verb

def Flag.help : Flag := ⟨.help, ["-h", "--help"], false⟩

def Flag.general : List Flag := [
  .help,
  ⟨.config, ["--config"], true⟩,
  ⟨.logLevel, ["--log-level"], true⟩]

def Verb.flags : Verb → List Flag
  | .new => [.help, ⟨.force, ["--force"], false⟩]
  | .parse => [.help, ⟨.output, ["--output", "-o"], true⟩]
  | .check | .move => [.help]

def Verb.operands : Verb → List Operand
  | .new | .parse | .check => [.text]
  | .move => [.text, .text, .number, .number]

inductive Request where
  | new (file : Path) (force : Bool)
  | parse (file : Path) (output : Option Path)
  | check (file : Path)
  | move (file : Path) (id : String) (x y : Float)
  deriving DecidableEq, Repr

def Verb.request? (verb : Verb) (a : Arguments) : Option Request :=
  match verb, a.operands with
  | .new, [file] => some (.new (.ofText file) (a.value? .force).isSome)
  | .parse, [file] => some (.parse (.ofText file) ((a.value? .output).map .ofText))
  | .check, [file] => some (.check (.ofText file))
  | .move, [file, id, x, y] => do
    return .move (.ofText file) id (← Decimal.typed? x.toList) (← Decimal.typed? y.toList)
  | _, _ => none

/-- A command line as a whole. Without a request there is nothing to do but to explain. -/
structure Invocation where
  config : Option Path
  logLevel : String
  request : Option Request
  deriving DecidableEq, Repr

namespace Invocation

def defaultLogLevel : String := "WARNING"

def ofArguments (general : Arguments) (request : Option Request) : Invocation where
  config := (general.value? .config).map .ofText
  logLevel := (general.value? .logLevel).getD defaultLogLevel
  request := request

/-- Reads a command line. Arguments of no use are reported last. -/
def read (arguments : List String) : Except Stop Invocation := do
  let general ← Arguments.read Flag.general [.command] arguments
  match general.operands with
  | [] =>
    if general.hasExtra then throw (.misuse .unrecognized)
    return ofArguments general none
  | name :: rest =>
    match Verb.ofName? name with
    | none => throw (.misuse (.unknownCommand name))
    | some verb =>
      let own ← Arguments.read verb.flags verb.operands rest
      match verb.request? own with
      | none => throw (.misuse .missingOperands)
      | some request =>
        if general.hasExtra ∨ own.hasExtra then throw (.misuse .unrecognized)
        return ofArguments general (some request)

end Invocation
end EERDiagram.CommandLine
