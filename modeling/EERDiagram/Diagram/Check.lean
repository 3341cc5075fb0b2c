import EERDiagram.Diagram.Basic

/-! Warnings about a diagram. Reading refuses hardly anything, so a diagram may hold lines, links
and nodes that have no effect on the drawing; each of them gets a warning. -/
namespace EERDiagram

inductive Warning where
  | ignoredLine (line : IgnoredLine)
  | dangling (link : Link) (missing : List String)
  | detached (node : Node)
  | emptyHierarchy (node : Node)
  deriving DecidableEq, Repr

def Kind.title : Kind → String
  | .specialization => "Specialization"
  | .union => "Union"
  | kind => kind.name

def Warning.message : Warning → String
  | .ignoredLine line => s!"Line {line.line + 1} ignored ({line.reason}): {line.text}"
  | .dangling link missing =>
    let names := String.intercalate ", " (missing.map fun id => s!"'{id}'")
    s!"Link '{link.source}' -> '{link.target}' refers to undeclared node(s) {names}."
  | .detached node => s!"Attribute '{node.label}' ({node.id}) is not attached to anything."
  | .emptyHierarchy node => s!"{node.kind.title} '{node.id}' has no subclass or member links."

namespace Diagram

/-- The ends of the resolvable links, a link that joins a node to itself counted at both. -/
def ends (d : Diagram) : List String :=
  d.resolvableLinks.flatMap fun link => [link.source, link.target]

/-- The ends of a link that name no node, each once. -/
def missingEnds (d : Diagram) (link : Link) : List String :=
  let source := if link.source ∈ d.ids then [] else [link.source]
  let target := if link.target ∈ d.ids ∨ link.target ∈ source then [] else [link.target]
  source ++ target

/-- An attribute with no link at it, the links being given by their ends. -/
def isDetached (ends : List String) (node : Node) : Bool := node.kind.isAttribute && node.id ∉ ends

/-- A hierarchy with less than two link ends at it. The link to its superclass accounts for one. -/
def isEmptyHierarchy (ends : List String) (node : Node) : Bool :=
  node.kind.isHierarchy && ends.count node.id < 2

def warnings (d : Diagram) : List Warning :=
  let ends := d.ends
  d.ignored.map .ignoredLine ++
    d.danglingLinks.map (fun link => .dangling link (d.missingEnds link)) ++
    (d.nodes.filter (isDetached ends)).map .detached ++
    (d.nodes.filter (isEmptyHierarchy ends)).map .emptyHierarchy

def messages (d : Diagram) : List String := d.warnings.map Warning.message

end Diagram
end EERDiagram
