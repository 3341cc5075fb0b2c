/-! The diagram: nodes, links between node ids, and the lines that said nothing. Everything is
in the order of declaration. A link may name an id that no node has. -/
namespace EERDiagram

inductive Kind where
  | entity
  | weakEntity
  | relationship
  | identifyingRelationship
  | attribute
  | keyAttribute
  | multivaluedAttribute
  | derivedAttribute
  | specialization
  | union
  deriving DecidableEq, Repr

def Kind.name : Kind → String
  | .entity => "entity"
  | .weakEntity => "weak_entity"
  | .relationship => "relationship"
  | .identifyingRelationship => "identifying_relationship"
  | .attribute => "attribute"
  | .keyAttribute => "key_attribute"
  | .multivaluedAttribute => "multivalued_attribute"
  | .derivedAttribute => "derived_attribute"
  | .specialization => "specialization"
  | .union => "union"

def Kind.all : List Kind :=
  [.entity, .weakEntity, .relationship, .identifyingRelationship, .attribute, .keyAttribute,
    .multivaluedAttribute, .derivedAttribute, .specialization, .union]

def Kind.ofName? (name : String) : Option Kind := Kind.all.find? (·.name = name)

def Kind.isAttribute : Kind → Bool
  | .attribute | .keyAttribute | .multivaluedAttribute | .derivedAttribute => true
  | _ => false

def Kind.isHierarchy : Kind → Bool
  | .specialization | .union => true
  | _ => false

def Kind.isEntity : Kind → Bool
  | .entity | .weakEntity => true
  | _ => false

/-- A double line marks total participation. -/
inductive LinkStyle where
  | solid
  | double
  deriving DecidableEq, Repr

def LinkStyle.name : LinkStyle → String
  | .solid => "solid"
  | .double => "double"

def LinkStyle.all : List LinkStyle := [.solid, .double]

def LinkStyle.ofName? (name : String) : Option LinkStyle := LinkStyle.all.find? (·.name = name)

structure Position where
  x : Float
  y : Float
  deriving DecidableEq, Repr

/-- The line is the index of the line that declared the node when the diagram was read. An edit
above it makes the index wrong. -/
structure Node where
  id : String
  kind : Kind
  label : String
  position : Position
  discriminator : Option String
  line : Int
  deriving DecidableEq, Repr

structure Link where
  source : String
  target : String
  label : Option String
  style : LinkStyle
  deriving DecidableEq, Repr

structure IgnoredLine where
  line : Int
  text : String
  reason : String
  deriving DecidableEq, Repr

structure Diagram where
  nodes : List Node
  links : List Link
  ignored : List IgnoredLine
  deriving DecidableEq, Repr

namespace Diagram

def find? (d : Diagram) (id : String) : Option Node := d.nodes.find? (·.id = id)

def ids (d : Diagram) : List String := d.nodes.map (·.id)

def Resolves (d : Diagram) (link : Link) : Prop := link.source ∈ d.ids ∧ link.target ∈ d.ids

instance (d : Diagram) : DecidablePred d.Resolves :=
  fun link => inferInstanceAs (Decidable (link.source ∈ d.ids ∧ link.target ∈ d.ids))

def resolvableLinks (d : Diagram) : List Link := d.links.filter (d.Resolves ·)

def danglingLinks (d : Diagram) : List Link := d.links.filter (¬ d.Resolves ·)

/-- A link from a specialization or union to an entity is drawn with the subset symbol. -/
def isSubclassLink (d : Diagram) (link : Link) : Bool :=
  match d.find? link.source, d.find? link.target with
  | some source, some target => source.kind.isHierarchy && target.kind.isEntity
  | _, _ => false

/-- Puts the first node with the id at another position. -/
def place (d : Diagram) (id : String) (position : Position) : Diagram :=
  { d with nodes := go d.nodes }
where
  go : List Node → List Node
    | [] => []
    | node :: rest => if node.id = id then { node with position } :: rest else node :: go rest

end Diagram

/-! The wish for a node's id is the label, and lengthening it by the line number as often as needed
makes it one that no earlier node has. An attribute's id always has the line number, since
attributes of different owners share names. -/

namespace Identifier

def suffix (line : Int) : String := "_" ++ toString line

/-- Nodes declared without a label go by their line. -/
def base (label : Option String) (line : Int) : String :=
  match label with
  | none => "spec" ++ suffix line
  | some label => if label = "" then "spec" ++ suffix line else label

/-- Lengthens the id while it is taken, for at most the given number of rounds. -/
def lengthen (taken : List String) (suffix : String) : Nat → String → String
  | 0, id => id
  | rounds + 1, id =>
    if id ∈ taken then lengthen taken suffix rounds (id ++ suffix) else id

/-- The id of a new node. Every round but the last meets another taken id, so their number
bounds the rounds. -/
def allocate (taken : List String) (label : Option String) (kind : Kind) (line : Int) : String :=
  let first := base label line
  let first := if kind.isAttribute then first ++ suffix line else first
  lengthen taken (suffix line) taken.length first

def register (taken : List String) (label : Option String) (kind : Kind) (line : Int) :
    String × List String :=
  let id := allocate taken label kind line
  (id, id :: taken)

end Identifier

/-! A record is checked as a whole: all its faulty fields are reported together, in the order of its
fields. -/

inductive FieldFault where
  | notText
  | notNumber
  | numberText
  | notInteger
  | fraction
  | notFinite
  | tooLarge
  | integerText
  deriving DecidableEq, Repr

def FieldFault.name : FieldFault → String
  | .notText => "string_type"
  | .notNumber => "float_type"
  | .numberText => "float_parsing"
  | .notInteger => "int_type"
  | .fraction => "int_from_float"
  | .notFinite => "finite_number"
  | .tooLarge => "int_parsing_size"
  | .integerText => "int_parsing"

/-- The field is named by its record and its own name, and has the value that it was given. -/
structure FieldError (α : Type) where
  field : String
  fault : FieldFault
  value : α
  deriving DecidableEq, Repr

def FieldError.message (e : FieldError α) : String := e.field ++ ": " ++ e.fault.name

def FieldError.messages (errors : List (FieldError α)) : String :=
  String.intercalate "; " (errors.map FieldError.message)

end EERDiagram
