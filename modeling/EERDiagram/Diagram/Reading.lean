import EERDiagram.Decimal.Binary
import EERDiagram.Diagram.Basic
import EERDiagram.Document.Line
import EERDiagram.Document.Statement
import EERDiagram.Layout.Spiral
import EERDiagram.Log.Format
import EERDiagram.Text.Lines

/-! Reading a document into a diagram. Lines are read in order. Each one adds at most one entry,
and what it adds depends on the lines before it only through the ids they took and the angle the
spiral has reached. -/
namespace EERDiagram

inductive ReadingError where
  | line (error : LineError)
  | placement (error : PlacementError)
  /-- Coordinates that no double is near enough to stand for. -/
  | fields (errors : List (FieldError Int))
  deriving DecidableEq, Repr

def ReadingError.message : ReadingError → String
  | .line error => error.message
  | .placement error => error.message
  | .fields errors => FieldError.messages errors

inductive Entry where
  | node (node : Node) (shorthand : Option Link)
  | link (link : Link)
  | ignored (line : IgnoredLine)
  deriving DecidableEq, Repr

namespace Entry

def node? : Entry → Option Node
  | .node declared _ => some declared
  | _ => none

def link? : Entry → Option Link
  | .node _ shorthand => shorthand
  | .link written => some written
  | .ignored _ => none

def ignored? : Entry → Option IgnoredLine
  | .ignored line => some line
  | _ => none

end Entry

def Diagram.ofEntries (entries : List Entry) : Diagram :=
  ⟨entries.filterMap Entry.node?, entries.filterMap Entry.link?, entries.filterMap Entry.ignored?⟩

/-- What the lines read so far leave to the lines after them. -/
structure Draft where
  taken : List String := []
  angle : Float := 0.0

namespace Draft

/-- Whole coordinates as a position; both are checked before either is refused. -/
def wholePosition (x y : Int) : Except ReadingError Position :=
  match Decimal.ofInt? x, Decimal.ofInt? y with
  | some x, some y => .ok ⟨x, y⟩
  | nearX, nearY =>
    .error (.fields ((if nearX.isNone then [⟨"Node.x", .notNumber, x⟩] else []) ++
      if nearY.isNone then [⟨"Node.y", .notNumber, y⟩] else []))

/-- A line's own position, or the next one on the spiral. -/
def position (spiral : Spiral) (draft : Draft) (line : Line) :
    Except ReadingError (Position × Draft) :=
  match line.coordinates with
  | some (x, y) => (wholePosition x y).map (·, draft)
  | none =>
    let angle := spiral.turn draft.angle
    match spiral.point angle with
    | .error e => .error (.placement e)
    | .ok (x, y) => (wholePosition x y).map (·, { draft with angle })

/-- The node that a line declares. The wish is what its id is made from. -/
def declare (spiral : Spiral) (draft : Draft) (index : Nat) (line : Line) (kind : Kind)
    (wish : Option String) (label : String) (discriminator : Option String) :
    Except ReadingError (Node × Draft) :=
  let (id, taken) := Identifier.register draft.taken wish kind index
  match draft.position spiral line with
  | .error e => .error e
  | .ok (position, draft) =>
    .ok (⟨id, kind, label, position, discriminator, index⟩, { draft with taken })

def enter (spiral : Spiral) (draft : Draft) (index : Nat) (line : Line) :
    Except ReadingError (Entry × Draft) :=
  match Statement.read line.text with
  | .node kind label owner =>
    (draft.declare spiral index line kind (some label) label none).map fun (node, draft) =>
      (.node node (owner.map fun owner => ⟨owner, node.id, none, .solid⟩), draft)
  | .hierarchy kind name superclass =>
    let discriminator := name.getD (Statement.defaultDiscriminator kind)
    (draft.declare spiral index line kind name discriminator (some discriminator)).map
      fun (node, draft) =>
        (.node node (superclass.map fun superclass => ⟨superclass, node.id, none, .double⟩), draft)
  | .link source target label style => .ok (.link ⟨source, target, label, style⟩, draft)
  | .ignored reason => .ok (.ignored ⟨index, String.ofList line.text, reason.message⟩, draft)

/-- What a raw line adds, nothing when it is blank or a comment. -/
def step (spiral : Spiral) (draft : Draft) (index : Nat) (raw : List Char) :
    Except ReadingError (Option Entry × Draft) :=
  match Line.read raw with
  | .error e => .error (.line e)
  | .ok none => .ok (none, draft)
  | .ok (some line) => (draft.enter spiral index line).map fun (entry, draft) => (some entry, draft)

end Draft

/-- The entries of the lines before the first one that fails, and its failure. -/
structure Reading where
  entries : List Entry
  failure : Option ReadingError

namespace Reading

def ofLines (spiral : Spiral) (draft : Draft) (index : Nat) : List (List Char) → Reading
  | [] => ⟨[], none⟩
  | raw :: rest =>
    match draft.step spiral index raw with
    | .error e => ⟨[], some e⟩
    | .ok (entry, draft) =>
      let reading := ofLines spiral draft (index + 1) rest
      { reading with entries := entry.toList ++ reading.entries }

def ofDocument (spiral : Spiral) (document : String) : Reading :=
  ofLines spiral {} 0 (Text.splitLines document.toList)

def diagram (r : Reading) : Except ReadingError Diagram :=
  match r.failure with
  | some e => .error e
  | none => .ok (.ofEntries r.entries)

def loggerName : String := "eerstudio.compiler.builder"

def ignoredRecord (line : IgnoredLine) : Log.Record :=
  ⟨.debug, loggerName, s!"Ignoring line {line.line}: {line.reason}"⟩

def summaryRecord (d : Diagram) : Log.Record :=
  ⟨.debug, loggerName,
    s!"Parsed {d.nodes.length} node(s), {d.links.length} link(s), {d.ignored.length} ignored line(s)"⟩

/-- The records of a reading: one for each ignored line, and a summary if it did not fail. -/
def log (r : Reading) : List Log.Record :=
  (r.entries.filterMap Entry.ignored?).map ignoredRecord ++
    match r.diagram with
    | .ok d => [summaryRecord d]
    | .error _ => []

end Reading

def Diagram.read (spiral : Spiral) (document : String) : Except ReadingError Diagram :=
  (Reading.ofDocument spiral document).diagram

end EERDiagram
