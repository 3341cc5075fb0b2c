import EERDiagram.CommandLine.Flag
import EERDiagram.Diagram.Reading
import EERDiagram.Log.Logger
import EERDiagram.Settings.Basic

/-! Reports: what a run of the program shows, in order, and how it ends. -/
namespace EERDiagram.CommandLine

/-- What a run shows. A record is shown as the logger sees fit. -/
inductive Output where
  | out (text : String)
  | err (text : String)
  | log (record : Log.Record)
  deriving DecidableEq, Repr

/-- A failure that the program has no words of its own for. -/
inductive Failure where
  | storage (error : StorageError)
  | settings (error : Settings.LoadError)
  | reading (error : ReadingError)
  deriving DecidableEq, Repr

def Failure.message : Failure → String
  | .storage error => error.message
  | .settings error => error.message
  | .reading error => error.message

inductive Ending where
  | exit (code : Nat)
  | failure (failure : Failure)
  deriving DecidableEq, Repr

structure Report where
  logger : Log.Logger := {}
  output : List Output
  ending : Ending
  deriving DecidableEq, Repr

namespace Report

def outText : Output → String
  | .out text => text
  | _ => ""

def errText (logger : Log.Logger) (time : String) : Output → String
  | .out _ => ""
  | .err text => text
  | .log record => (logger.show? time record).getD ""

def standardOutput (r : Report) : String := String.join (r.output.map outText)

def standardError (r : Report) (time : String) : String :=
  String.join (r.output.map (errText r.logger time))

def usage : String := String.intercalate "\n" [
  "usage: eerstudio [-h] [--config FILE] [--log-level LEVEL] COMMAND ...",
  "",
  "EER diagrams as text",
  "",
  "commands:",
  "  new FILE [--force]           write the example document to a new file",
  "  parse FILE [-o OUTPUT]       print the diagram of a document as JSON",
  "  check FILE                   report what has no effect on the diagram",
  "  move FILE NODE_ID X Y        set the position of a node in the document",
  "",
  "options:",
  "  -h, --help                   show this text",
  "  --config FILE                the settings, in place of those next to the document",
  "  --log-level LEVEL            DEBUG, INFO, WARNING or ERROR",
  ""]

def help : Report := ⟨{}, [.out usage], .exit 0⟩

def misuse (misuse : Misuse) : Report :=
  ⟨{}, [.err s!"{usage}\neerstudio: error: {misuse.message}\n"], .exit 2⟩

def complaintText (message : String) : String := s!"Error: {message}\n"

end Report
end EERDiagram.CommandLine
