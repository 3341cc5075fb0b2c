import EERDiagram.Diagram.Basic
import EERDiagram.Document.Token
import EERDiagram.Text.Basic

/-! Statements. The first token is the command, in either case. A statement that is no
declaration is ignored for a stated reason, never refused: documents are read while they are
being written. -/
namespace EERDiagram

inductive IgnoreReason where
  | empty
  | unlabelled (command : String)
  | endsMissing
  | unknownCommand (word : String)
  deriving DecidableEq, Repr

def IgnoreReason.message : IgnoreReason → String
  | .empty => "empty statement"
  | .unlabelled command => s!"'{command}' without a label"
  | .endsMissing => "'link' needs a source and a target id"
  | .unknownCommand word => "unknown command " ++ Text.quoted word

/-- The owner of a node and the superclass of a hierarchy are linked to it by shorthand. -/
inductive Statement where
  | node (kind : Kind) (label : String) (owner : Option String)
  | hierarchy (kind : Kind) (name : Option String) (superclass : Option String)
  | link (source target : String) (label : Option String) (style : LinkStyle)
  | ignored (reason : IgnoreReason)
  deriving DecidableEq, Repr

namespace Statement

def nodeCommands : List (String × Kind) :=
  [("ent", .entity), ("weak_ent", .weakEntity), ("rel", .relationship),
    ("ident_rel", .identifyingRelationship), ("att", .attribute), ("key_att", .keyAttribute),
    ("derived_att", .derivedAttribute), ("multivalued_attribute", .multivaluedAttribute)]

def hierarchyCommands : List (String × Kind) := [("spec", .specialization), ("union", .union)]

/-- The letter drawn in a hierarchy that is declared without a name. -/
def defaultDiscriminator (kind : Kind) : String := if kind = .union then "u" else "d"

def doubleMarkers : List String := ["[total]", "[double]"]

/-- The id after an arrow at the front of the tokens. -/
def arrowTarget : List Token → Option String
  | .arrow :: .word id :: _ => some id
  | _ => none

def readNode (command : String) (kind : Kind) : List Token → Statement
  | .word label :: rest => .node kind label (arrowTarget rest)
  | _ => .ignored (.unlabelled command)

def readHierarchy (kind : Kind) : List Token → Statement
  | .word name :: rest => .hierarchy kind (some name) (arrowTarget rest)
  | rest => .hierarchy kind none (arrowTarget rest)

def labelOf? : Token → Option String
  | .quotation content => if content = "" then none else some content
  | _ => none

def isDoubleMarker : Token → Bool
  | .marker text => text ∈ doubleMarkers
  | _ => false

def readLink : List Token → Statement
  | .word source :: .word target :: rest =>
    .link source target (rest.findSome? labelOf?) (if rest.any isDoubleMarker then .double else .solid)
  | _ => .ignored .endsMissing

def ofTokens : List Token → Statement
  | [] => .ignored .empty
  | first :: rest =>
    let command := Text.lower first.text
    match nodeCommands.lookup command with
    | some kind => readNode command kind rest
    | none =>
      match hierarchyCommands.lookup command with
      | some kind => readHierarchy kind rest
      | none => if command = "link" then readLink rest else .ignored (.unknownCommand first.text)

def read (text : List Char) : Statement := ofTokens (Token.scan text)

end Statement
end EERDiagram
