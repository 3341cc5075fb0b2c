import EERDiagram.Artifact.Format
import EERDiagram.CommandLine.Report
import EERDiagram.CommandLine.Request
import EERDiagram.Diagram.Check
import EERDiagram.Diagram.Move
import EERDiagram.Document.Sample

/-! The commands. Each of them runs to its end or is halted, by a complaint to the user or by a
failure that it leaves to its caller; what it showed before stays shown. -/
namespace EERDiagram.CommandLine

inductive Halt where
  | complaint (message : String)
  | failure (failure : Failure)
  deriving DecidableEq, Repr

abbrev Run (m : Type → Type) := ExceptT Halt (StateT (List Output) m)

namespace Run

variable {m : Type → Type} [Monad m] [Storage m] [Yaml.Loader]

def put (output : List Output) : Run m Unit := modify (· ++ output)

def say (line : String) : Run m Unit := put [.out (line ++ "\n")]

def log (records : List Log.Record) : Run m Unit := put (records.map .log)

def complain (message : String) : Run m α := throw (.complaint message)

def fail (failure : Failure) : Run m α := throw (.failure failure)

def kind? (path : Path) : Run m (Option EntryKind) := monadLift (Storage.kind? path : m _)

def writeText (path : Path) (text : String) : Run m Unit := do
  match ← monadLift (Storage.writeText path text.toList : m _) with
  | .ok () => return ()
  | .error e => fail (.storage e)

def readDocument (path : Path) : Run m String := do
  if (← kind? path) ≠ some .file then
    complain s!"document '{path.text}' does not exist."
  else
    match ← monadLift (Storage.readText path : m _) with
    | .ok text => return String.ofList text
    | .error e => complain s!"cannot read '{path.text}': {e.message}"

def besideDocument (file : Path) : Path := file.parent.child Settings.fileName

def loadSettings (path : Path) : Run m Settings := do
  match ← monadLift (Settings.load path : m _) with
  | .ok settings => return settings
  | .error e => if e.isRefusal then complain e.message else fail (.settings e)

/-- The settings for a document: those asked for, or those beside it, or the defaults. -/
def settingsFor (config : Option Path) (file : Path) : Run m Settings := do
  match config with
  | some path => loadSettings path
  | none =>
    if (← kind? (besideDocument file)) = some .file then loadSettings (besideDocument file)
    else return {}

def readDiagram (settings : Settings) (document : String) : Run m Diagram := do
  let reading := Reading.ofDocument settings.layout document
  log reading.log
  match reading.diagram with
  | .ok diagram => return diagram
  | .error e => fail (.reading e)

def loadDiagram (config : Option Path) (file : Path) : Run m Diagram := do
  let document ← readDocument file
  let settings ← settingsFor config file
  readDiagram settings document

/-- Writes the example to a file that is not there yet, unless told to write it anyway. -/
def new (file : Path) (force : Bool) : Run m Unit := do
  if (← kind? file).isSome ∧ ¬ force then
    complain s!"'{file.text}' already exists. Use --force to overwrite it."
  else if (← kind? file.parent).isNone then
    complain s!"directory '{file.parent.text}' does not exist."
  else
    writeText file Document.sample
    say s!"Created '{file.text}'."

def saved (d : Diagram) (output : Path) : String :=
  s!"Wrote {d.nodes.length} node(s) and {d.links.length} link(s) to '{output.text}'."

def parse (config : Option Path) (file : Path) (output : Option Path) : Run m Unit := do
  let d ← loadDiagram config file
  match output with
  | none => say (String.ofList (Artifact.write d))
  | some output =>
    match ← monadLift (Artifact.save d output : m _) with
    | .ok () => say (saved d output)
    | .error e => fail (.storage e)

def check (config : Option Path) (file : Path) : Run m Unit := do
  let d ← loadDiagram config file
  match d.messages with
  | [] => say "No issues found."
  | messages => put (messages.map fun message => .out s!"Warning: {message}\n")

def moveRecord (node : Node) (file : Path) : Log.Record :=
  ⟨.info, "eerstudio.cli.main", s!"Moved '{node.id}' on line {node.line + 1} of {file.text}"⟩

def refusals : Except MoveRefusal String → List Log.Record
  | .ok _ => []
  | .error refusal => [refusal.record]

def move (config : Option Path) (file : Path) (id : String) (x y : Float) : Run m Unit := do
  if ¬ (Decimal.isFinite x ∧ Decimal.isFinite y) then
    complain s!"position ({Decimal.text x}, {Decimal.text y}) must be finite."
  else
    let document ← readDocument file
    let settings ← settingsFor config file
    let d ← readDiagram settings document
    match d.find? id with
    | none => complain s!"no node with id '{id}' in '{file.text}'."
    | some node =>
      let result := Document.moveNode document d id x y
      log (refusals result)
      writeText file (Document.afterMove document result)
      log [moveRecord node file]
      say s!"Moved '{node.id}' (line {node.line + 1})."

def request (config : Option Path) : Request → Run m Unit
  | .new file force => new file force
  | .parse file output => parse config file output
  | .check file => check config file
  | .move file id x y => move config file id x y

def report (logger : Log.Logger) (run : Run m Unit) : m Report := do
  match ← run.run [] with
  | (.ok (), output) => return ⟨logger, output, .exit 0⟩
  | (.error (.complaint message), output) =>
    return ⟨logger, output ++ [.err (Report.complaintText message)], .exit 1⟩
  | (.error (.failure failure), output) => return ⟨logger, output, .failure failure⟩

end Run

variable {m : Type → Type} [Monad m] [Storage m] [Yaml.Loader]

/-- Carries out what a command line asks for. The logger is set up before anything else, so a
level that is not known is reported first. -/
def Invocation.run (i : Invocation) : m Report :=
  match ({} : Log.Logger).setUp i.logLevel none with
  | (logger, .error e) =>
    return ⟨logger, [.err (Report.complaintText e.message)], .exit 1⟩
  | (logger, .ok ()) =>
    match i.request with
    | none => return .help
    | some request => (Run.request i.config request).report logger

def run (arguments : List String) : m Report :=
  match Invocation.read arguments with
  | .error .help => return .help
  | .error (.misuse misuse) => return .misuse misuse
  | .ok invocation => invocation.run

end EERDiagram.CommandLine
