import EERDiagram.Artifact.Field
import EERDiagram.Diagram.Basic
import EERDiagram.Json.Reader
import EERDiagram.Json.Value
import EERDiagram.Storage.Basic

/-! The artifact format: a diagram as JSON. Writing gives the members in a fixed order and leaves
out the optional ones that have no value. Reading looks members up by name, in a fixed order of
its own, and stops at the first that is missing or makes no sense. -/
namespace EERDiagram.Artifact

open Json (Value)

def version : String := "1"

def suffix : String := ".eer.json"

def ofNode (n : Node) : Value :=
  .object ([("id", .text n.id), ("kind", .text n.kind.name), ("label", .text n.label),
    ("x", .real n.position.x), ("y", .real n.position.y), ("line", .integer n.line)] ++
    match n.discriminator with
    | some d => [("discriminator", .text d)]
    | none => [])

def ofLink (l : Link) : Value :=
  .object ([("source", .text l.source), ("target", .text l.target), ("style", .text l.style.name)] ++
    match l.label with
    | some label => [("label", .text label)]
    | none => [])

def ofIgnored (i : IgnoredLine) : Value :=
  .object [("line", .integer i.line), ("text", .text i.text), ("reason", .text i.reason)]

def ofDiagram (d : Diagram) : Value :=
  .object [("v", .text version), ("nodes", .array (d.nodes.map ofNode)),
    ("links", .array (d.links.map ofLink)), ("ignored", .array (d.ignored.map ofIgnored))]

def write (d : Diagram) : List Char := (ofDiagram d).render

inductive ReadError where
  | json (error : Json.ReadError)
  | noMembers (value : Value)
  | version (value : Option Value)
  | notIterable (value : Value)
  | notIndexed (value : Value)
  | missing (name : String)
  | unknownKind (value : Value)
  | unknownStyle (value : Value)
  | fields (errors : List (FieldError Value))

def typeName : Value → String
  | .null => "NoneType"
  | .bool _ => "bool"
  | .integer _ => "int"
  | .real _ => "float"
  | .text _ => "str"
  | .array _ => "list"
  | .object _ => "dict"

def indexMessage : Value → String
  | .text _ => "string indices must be integers, not 'str'"
  | .array _ => "list indices must be integers or slices, not str"
  | value => s!"'{typeName value}' object is not subscriptable"

def ReadError.message : ReadError → String
  | .json .malformed => ""
  | .json (.tooManyDigits n) =>
    s!"Exceeds the limit (4300 digits) for integer string conversion: value has {n} digits; use sys.set_int_max_str_digits() to increase the limit"
  | .noMembers value => s!"'{typeName value}' object has no attribute 'get'"
  | .version value =>
    let shown := (value.map Value.shown).getD "None"
    s!"Unsupported artifact format version: {shown}"
  | .notIterable value => s!"'{typeName value}' object is not iterable"
  | .notIndexed value => indexMessage value
  | .missing name => Text.quoted name
  | .unknownKind value => value.shown ++ " is not a valid NodeKind"
  | .unknownStyle value => value.shown ++ " is not a valid LinkStyle"
  | .fields errors => FieldError.messages errors

def require (record : Value) (name : String) : Except ReadError Value :=
  match record with
  | .object members =>
    match Json.Members.find? name members with
    | some value => .ok value
    | none => .error (.missing name)
  | value => .error (.notIndexed value)

def lookup (record : Value) (name : String) (default : Value) : Value :=
  match record with
  | .object members => (Json.Members.find? name members).getD default
  | _ => default

def toKind (value : Value) : Except ReadError Kind :=
  match value with
  | .text name =>
    match Kind.ofName? name with
    | some kind => .ok kind
    | none => .error (.unknownKind value)
  | _ => .error (.unknownKind value)

def toStyle (value : Value) : Except ReadError LinkStyle :=
  match value with
  | .text name =>
    match LinkStyle.ofName? name with
    | some style => .ok style
    | none => .error (.unknownStyle value)
  | _ => .error (.unknownStyle value)

/-- The members are looked up before any of them is checked, the kind apart. -/
def toNode (record : Value) : Except ReadError Node := do
  let id ← require record "id"
  let kind ← toKind (← require record "kind")
  let label ← require record "label"
  let x ← require record "x"
  let y ← require record "y"
  let discriminator := lookup record "discriminator" .null
  let line ← require record "line"
  match Field.text id, Field.text label, Field.number x, Field.number y,
      Field.optionalText discriminator, Field.integer line with
  | .ok id, .ok label, .ok x, .ok y, .ok discriminator, .ok line =>
    return ⟨id, kind, label, ⟨x, y⟩, discriminator, line⟩
  | _, _, _, _, _, _ =>
    throw (.fields (Field.faults "Node.id" Field.text id ++
      Field.faults "Node.label" Field.text label ++ Field.faults "Node.x" Field.number x ++
      Field.faults "Node.y" Field.number y ++
      Field.faults "Node.discriminator" Field.optionalText discriminator ++
      Field.faults "Node.origin_line" Field.integer line))

def toLink (record : Value) : Except ReadError Link := do
  let source ← require record "source"
  let target ← require record "target"
  let label := lookup record "label" .null
  let style ← toStyle (lookup record "style" (.text LinkStyle.solid.name))
  match Field.text source, Field.text target, Field.optionalText label with
  | .ok source, .ok target, .ok label => return ⟨source, target, label, style⟩
  | _, _, _ =>
    throw (.fields (Field.faults "Link.source_id" Field.text source ++
      Field.faults "Link.target_id" Field.text target ++
      Field.faults "Link.label" Field.optionalText label))

def toIgnored (record : Value) : Except ReadError IgnoredLine := do
  let line ← require record "line"
  let text ← require record "text"
  let reason ← require record "reason"
  match Field.integer line, Field.text text, Field.text reason with
  | .ok line, .ok text, .ok reason => return ⟨line, text, reason⟩
  | _, _, _ =>
    throw (.fields (Field.faults "IgnoredLine.line_index" Field.integer line ++
      Field.faults "IgnoredLine.text" Field.text text ++
      Field.faults "IgnoredLine.reason" Field.text reason))

/-- The values that a list member holds. A text counts as the list of its characters and an
object as the list of its names. -/
def toItems : Value → Except ReadError (List Value)
  | .array items => .ok items
  | .text s => .ok (s.toList.map fun c => .text (String.singleton c))
  | .object members => .ok (members.map fun member => .text member.1)
  | value => .error (.notIterable value)

def toDiagram (value : Value) : Except ReadError Diagram := do
  match value with
  | .object members =>
    match Json.Members.find? "v" members with
    | some (.text v) => if v ≠ version then throw (.version (some (.text v)))
    | other => throw (.version other)
    let nodes ← (← toItems (lookup value "nodes" (.array []))).mapM toNode
    let links ← (← toItems (lookup value "links" (.array []))).mapM toLink
    let ignored ← (← toItems (lookup value "ignored" (.array []))).mapM toIgnored
    return ⟨nodes, links, ignored⟩
  | _ => throw (.noMembers value)

def read (s : List Char) : Except ReadError Diagram :=
  match Json.read s with
  | .ok value => toDiagram value
  | .error e => .error (.json e)

/-! Artifacts in files. -/

variable {m : Type → Type} [Monad m] [Storage m]

/-- Writes a diagram to a file, making the directories above it. -/
def save (d : Diagram) (path : Path) : m (Except StorageError Unit) := do
  match ← Storage.makeDirectories path.parent with
  | .error e => return .error e
  | .ok () => Storage.writeText path (write d)

inductive LoadError where
  | file (error : FileError)
  | content (error : ReadError)

def LoadError.message : LoadError → String
  | .file error => error.message
  | .content error => error.message

def load (path : Path) : m (Except LoadError Diagram) := do
  match ← Storage.readText path with
  | .error e => return .error (.file e)
  | .ok text =>
    match read (Text.unifyEndings text) with
    | .error e => return .error (.content e)
    | .ok d => return .ok d

end EERDiagram.Artifact
