import EERDiagram.Yaml.Stream
import EERDiagram.Yaml.Tag

/-! The nodes of a YAML document. An alias is another way to a node that is there already, even
to one around it, so the nodes form a graph: they are numbered, and collections hold numbers. -/
namespace EERDiagram.Yaml

inductive Content where
  | scalar (text : List Char)
  | sequence (items : List Nat)
  | mapping (entries : List (Nat × Nat))
  deriving DecidableEq, Repr

structure Node where
  tag : Tag
  content : Content
  deriving DecidableEq, Repr

abbrev Graph := Array Node

/-- Reading of nodes: the tokens left, the fault that stands after them, the nodes read so far,
the anchors and the tag handles of the document. -/
structure Reader where
  tokens : List Token
  fault : Option Fault
  graph : Graph := #[]
  anchors : List (String × Nat) := []
  handles : List (String × String) := []

abbrev ReaderM := StateT Reader (Except Fault)

namespace Reader

def defaultHandles : List (String × String) := [("!", "!"), ("!!", "tag:yaml.org,2002:")]

def peek : ReaderM Token := do
  match (← get).tokens with
  | t :: _ => return t
  | [] => throw ((← get).fault.getD .malformed)

def take : ReaderM Token := do
  let t ← peek
  modify fun r => { r with tokens := r.tokens.tail }
  return t

def accept (t : Token) : ReaderM Bool := do
  if (← peek) = t then
    let _ ← take
    return true
  else return false

def expect (t : Token) : ReaderM Unit := do
  if ¬ (← accept t) then throw .malformed

def add (node : Node) : ReaderM Nat := do
  let r ← get
  set { r with graph := r.graph.push node }
  return r.graph.size

def fill (number : Nat) (content : Content) : ReaderM Unit :=
  modify fun r => { r with graph := r.graph.modify number fun node => { node with content } }

def empty : ReaderM Nat := add ⟨Tag.ofPlain [], .scalar []⟩

def bind (anchor : Option String) (number : Nat) : ReaderM Unit := do
  if let some name := anchor then
    modify fun r => { r with anchors := (name, number) :: r.anchors }

/-- The anchor and the tag before a node, in either order, each at most once. -/
def properties : ReaderM (Option String × Option (Option String × String)) := do
  match ← peek with
  | .anchor name =>
    let _ ← take
    match ← peek with
    | .tag handle suffix =>
      let _ ← take
      return (some name, some (handle, suffix))
    | _ => return (some name, none)
  | .tag handle suffix =>
    let _ ← take
    match ← peek with
    | .anchor name =>
      let _ ← take
      return (some name, some (handle, suffix))
    | _ => return (none, some (handle, suffix))
  | _ => return (none, none)

def uri : Option String × String → ReaderM String
  | (none, suffix) => return suffix
  | (some handle, suffix) => do
    match (← get).handles.lookup handle with
    | some start => return start ++ suffix
    | none => throw .malformed

/-- The type that a tag gives; the tag `!` alone gives none. -/
def explicitTag (uri : Option String) : Option Tag :=
  match uri with
  | none => none
  | some "!" => none
  | some uri => some (.ofUri uri)

/-- What may stand around a node: block collections, and a sequence that is indented no more than
the mapping it is in. -/
structure Place where
  block : Bool
  indentless : Bool

def flowPlace : Place := ⟨false, false⟩

def blockPlace : Place := ⟨true, false⟩

def valuePlace : Place := ⟨true, true⟩

mutual

def node : Nat → Place → ReaderM Nat
  | 0, _ => throw .malformed
  | fuel + 1, place => do
    if let .alias name ← peek then
      let _ ← take
      match (← get).anchors.lookup name with
      | some number => return number
      | none => throw .malformed
    else
      let (anchor, tag) ← properties
      let uri ← tag.mapM uri
      if let some name := anchor then
        if ((← get).anchors.lookup name).isSome then throw .malformed
      let explicit := explicitTag uri
      let open_ (default : Tag) (content : Content) : ReaderM Nat := do
        let number ← add ⟨explicit.getD default, content⟩
        bind anchor number
        return number
      match ← peek with
      | .scalar text plain =>
        let _ ← take
        let text := text.toList
        open_ (if plain ∨ uri = some "!" then Tag.ofPlain text else .str) (.scalar text)
      | .flowSequenceStart =>
        let _ ← take
        let number ← open_ .seq (.sequence [])
        fill number (.sequence (← flowItems fuel true))
        return number
      | .flowMappingStart =>
        let _ ← take
        let number ← open_ .map (.mapping [])
        fill number (.mapping (← flowEntries fuel true))
        return number
      | .blockEntry =>
        if place.indentless then
          let number ← open_ .seq (.sequence [])
          fill number (.sequence (← indentlessItems fuel))
          return number
        else bare anchor uri
      | .blockSequenceStart =>
        if place.block then
          let _ ← take
          let number ← open_ .seq (.sequence [])
          fill number (.sequence (← blockItems fuel))
          return number
        else bare anchor uri
      | .blockMappingStart =>
        if place.block then
          let _ ← take
          let number ← open_ .map (.mapping [])
          fill number (.mapping (← blockEntries fuel))
          return number
        else bare anchor uri
      | _ => bare anchor uri

/-- A node with nothing but its anchor or tag is an empty scalar. -/
def bare (anchor : Option String) (uri : Option String) : ReaderM Nat := do
  if anchor.isNone ∧ uri.isNone then throw .malformed
  let number ← add ⟨(explicitTag uri).getD (Tag.ofPlain []), .scalar []⟩
  bind anchor number
  return number

def nodeUnless : Nat → Place → List Token → ReaderM Nat
  | 0, _, _ => throw .malformed
  | fuel + 1, place, ends => do
    if (← peek) ∈ ends then empty else node fuel place

def blockItems : Nat → ReaderM (List Nat)
  | 0 => throw .malformed
  | fuel + 1 => do
    if ← accept .blockEntry then
      let item ← nodeUnless fuel blockPlace [.blockEntry, .blockEnd]
      return item :: (← blockItems fuel)
    else
      expect .blockEnd
      return []

def indentlessItems : Nat → ReaderM (List Nat)
  | 0 => throw .malformed
  | fuel + 1 => do
    if ← accept .blockEntry then
      let item ← nodeUnless fuel blockPlace [.blockEntry, .key, .value, .blockEnd]
      return item :: (← indentlessItems fuel)
    else return []

def blockEntries : Nat → ReaderM (List (Nat × Nat))
  | 0 => throw .malformed
  | fuel + 1 => do
    if ← accept .key then
      let key ← nodeUnless fuel valuePlace [.key, .value, .blockEnd]
      let value ←
        if ← accept .value then nodeUnless fuel valuePlace [.key, .value, .blockEnd] else empty
      return (key, value) :: (← blockEntries fuel)
    else
      expect .blockEnd
      return []

/-- The items of a sequence in brackets. An item may be a mapping of one entry without braces. -/
def flowItems : Nat → Bool → ReaderM (List Nat)
  | 0, _ => throw .malformed
  | fuel + 1, first => do
    if ← accept .flowSequenceEnd then return []
    if ¬ first then expect .flowEntry
    if ← accept .flowSequenceEnd then return []
    if ← accept .key then
      let number ← add ⟨.map, .mapping []⟩
      let key ← nodeUnless fuel flowPlace [.value, .flowEntry, .flowSequenceEnd]
      let value ←
        if ← accept .value then nodeUnless fuel flowPlace [.flowEntry, .flowSequenceEnd] else empty
      fill number (.mapping [(key, value)])
      return number :: (← flowItems fuel false)
    else
      let item ← node fuel flowPlace
      return item :: (← flowItems fuel false)

def flowEntries : Nat → Bool → ReaderM (List (Nat × Nat))
  | 0, _ => throw .malformed
  | fuel + 1, first => do
    if ← accept .flowMappingEnd then return []
    if ¬ first then expect .flowEntry
    if ← accept .flowMappingEnd then return []
    if ← accept .key then
      let key ← nodeUnless fuel flowPlace [.value, .flowEntry, .flowMappingEnd]
      let value ←
        if ← accept .value then nodeUnless fuel flowPlace [.flowEntry, .flowMappingEnd] else empty
      return (key, value) :: (← flowEntries fuel false)
    else
      let key ← node fuel flowPlace
      let value ← empty
      return (key, value) :: (← flowEntries fuel false)

end

/-- The directives before a document. Each handle may be set once, and the version given once. -/
def directives : Nat → Bool → ReaderM Unit
  | 0, _ => throw .malformed
  | fuel + 1, versioned => do
    match ← peek with
    | .directive (.version major) =>
      let _ ← take
      if versioned ∨ major ≠ 1 then throw .malformed
      directives fuel true
    | .directive (.tag handle uri) =>
      let _ ← take
      if ((← get).handles.lookup handle).isSome then throw .malformed
      modify fun r => { r with handles := (handle, uri) :: r.handles }
      directives fuel versioned
    | .directive .reserved =>
      let _ ← take
      directives fuel versioned
    | _ => return ()

def isDirective : Token → Bool
  | .directive _ => true
  | _ => false

def skipDocumentEnds : Nat → ReaderM Unit
  | 0 => throw .malformed
  | fuel + 1 => do
    if ← accept .documentEnd then skipDocumentEnds fuel

def setDefaultHandles : ReaderM Unit :=
  modify fun r => { r with handles := r.handles ++ defaultHandles }

/-- The one document of a text, none when the text has no document at all. -/
def document (fuel : Nat) : ReaderM (Option Nat) := do
  let first ← peek
  if first = .streamEnd then return none
  let root ←
    if isDirective first ∨ first = .documentStart then do
      directives fuel false
      setDefaultHandles
      expect .documentStart
      let next ← peek
      if isDirective next ∨ next ∈ [.documentStart, .documentEnd, .streamEnd] then empty
      else node fuel blockPlace
    else do
      setDefaultHandles
      node fuel blockPlace
  skipDocumentEnds fuel
  expect .streamEnd
  return some root

end Reader

def Graph.ofText (s : List Char) : Except Fault (Option (Graph × Nat)) :=
  let stream := TokenStream.ofText s
  let fuel := 3 * stream.tokens.length + 3
  match (Reader.document fuel).run { tokens := stream.tokens, fault := stream.fault } with
  | .error e => .error e
  | .ok (none, _) => .ok none
  | .ok (some root, r) => .ok (some (r.graph, root))

end EERDiagram.Yaml
