import EERDiagram.Yaml.Node
import EERDiagram.Yaml.Number

/-! The values of a YAML document. Scalars get the value their type and text say; a collection is
built after the values around it, so a collection may hold itself. Merge keys are resolved before
a mapping is built: what they bring comes before the mapping's own entries. -/
namespace EERDiagram.Yaml

namespace Graph

def node (g : Graph) (number : Nat) : Node := g[number]?.getD ⟨.unknown, .scalar []⟩

def entries (g : Graph) (number : Nat) : List (Nat × Nat) :=
  match (g.node number).content with
  | .mapping entries => entries
  | _ => []

def isMapping (g : Graph) (number : Nat) : Bool := (g.node number).content matches .mapping _

def setEntries (g : Graph) (number : Nat) (entries : List (Nat × Nat)) : Graph :=
  g.modify number fun node => { node with content := .mapping entries }

def setTag (g : Graph) (number : Nat) (tag : Tag) : Graph :=
  g.modify number fun node => { node with tag }

/-- The text of a scalar. A mapping with a key `=` stands for the scalar there, which takes no
more steps than there are nodes unless it comes back to itself. -/
def scalarText (g : Graph) : Nat → Nat → Except Fault (List Char)
  | 0, _ => .error .endless
  | fuel + 1, number =>
    match (g.node number).content with
    | .scalar text => .ok text
    | .sequence _ => .error .malformed
    | .mapping entries =>
      match entries.find? fun entry => (g.node entry.1).tag = .value with
      | some entry => g.scalarText fuel entry.2
      | none => .error .malformed

/-! Merge keys. Each step of the functions below takes fuel; a step either goes on to the next
entry or takes a merge key out for good. -/

mutual

def merge : Nat → Graph → Nat → Except Fault Graph
  | 0, _, _ => .error .malformed
  | fuel + 1, g, number => do
    let (g, merged) ← mergeFrom fuel g number 0
    return if merged = [] then g else g.setEntries number (merged ++ g.entries number)

/-- Takes out the merge keys from an index on; the entries that they bring. -/
def mergeFrom : Nat → Graph → Nat → Nat → Except Fault (Graph × List (Nat × Nat))
  | 0, _, _, _ => .error .malformed
  | fuel + 1, g, number, index =>
    match (g.entries number)[index]? with
    | none => .ok (g, [])
    | some (key, value) =>
      match (g.node key).tag with
      | .merge => do
        let g := g.setEntries number ((g.entries number).eraseIdx index)
        let (g, brought) ←
          match (g.node value).content with
          | .mapping _ => do
            let g ← merge fuel g value
            pure (g, g.entries value)
          | .sequence items => do
            let (g, parts) ← mergeItems fuel g items
            pure (g, parts.reverse.flatten)
          | .scalar _ => throw .malformed
        let (g, more) ← mergeFrom fuel g number index
        return (g, brought ++ more)
      | .value => mergeFrom fuel (g.setTag key .str) number (index + 1)
      | _ => mergeFrom fuel g number (index + 1)

def mergeItems : Nat → Graph → List Nat → Except Fault (Graph × List (List (Nat × Nat)))
  | _, g, [] => .ok (g, [])
  | 0, _, _ :: _ => .error .malformed
  | fuel + 1, g, item :: items => do
    match (g.node item).content with
    | .mapping _ =>
      let g ← merge fuel g item
      let part := g.entries item
      let (g, parts) ← mergeItems fuel g items
      return (g, part :: parts)
    | _ => throw .malformed

end

def entryCount (g : Graph) : Nat :=
  g.foldl (fun n node => n + match node.content with
    | .mapping entries => entries.length
    | .sequence items => items.length
    | .scalar _ => 0) 0

def mergeCount (g : Graph) : Nat :=
  g.foldl (fun n node => n + match node.content with
    | .mapping entries => entries.countP fun entry => (g.node entry.1).tag = .merge
    | _ => 0) 0

/-- Each merge key that is taken out may bring as many entries for every item as there are. -/
def mergeFuel (g : Graph) : Nat := Nat.pow (g.entryCount + 4) (g.mergeCount + 2)

end Graph

/-- Building of values: the nodes, the values built so far, and the collections still to be
filled, latest first. -/
structure Building where
  graph : Graph
  values : List (Nat × Value) := []
  waiting : List Nat := []

namespace Building

def value? (b : Building) (number : Nat) : Option Value := b.values.lookup number

def keep (b : Building) (number : Nat) (v : Value) : Building :=
  { b with values := (number, v) :: b.values }

def later (b : Building) (number : Nat) (v : Value) : Building :=
  { b.keep number v with waiting := number :: b.waiting }

def isAscii (s : List Char) : Bool := s.all (·.toNat < 128)

def atom (tag : Tag) (text : List Char) : Except Fault Atom :=
  match tag with
  | .null => .ok .null
  | .bool => (Number.toBoolean text).map .bool
  | .int => (Number.toInteger text).map .integer
  | .float => (Number.toFloat text).map .real
  | .timestamp => (Number.toMoment text).map fun _ => .moment
  | .binary => if isAscii text ∧ Number.isBase64 text then .ok .bytes else .error .malformed
  | .str => .ok (.text (String.ofList text))
  | _ => .error .malformed

/-- The value of a node; a collection is empty until its turn comes. -/
def build (b : Building) (number : Nat) : Except Fault (Value × Building) :=
  match b.value? number with
  | some v => .ok (v, b)
  | none =>
    match (b.graph.node number).tag with
    | .seq | .orderedMap | .pairs => .ok (.sequence, b.later number .sequence)
    | .set => .ok (.set, b.later number .set)
    | .map => .ok (.mapping [], b.later number (.mapping []))
    | tag => do
      let text ← b.graph.scalarText (b.graph.size + 1) number
      if tag = .timestamp ∧ b.graph.isMapping number then throw .dateMapping
      let a ← atom tag text
      return (.atom a, b.keep number (.atom a))

/-- Only an atom can be a key. -/
def buildKey (b : Building) (number : Nat) : Except Fault (Atom × Building) := do
  match ← b.build number with
  | (.atom a, b) => return (a, b)
  | _ => throw .malformed

def buildAll (b : Building) : List Nat → Except Fault Building
  | [] => .ok b
  | number :: rest => do
    let (_, b) ← b.build number
    b.buildAll rest

def buildEntries (b : Building) : List (Nat × Nat) → Except Fault (List (Atom × Nat) × Building)
  | [] => .ok ([], b)
  | (key, value) :: rest => do
    let (a, b) ← b.buildKey key
    let (_, b) ← b.build value
    let (entries, b) ← b.buildEntries rest
    return ((a, value) :: entries, b)

/-- The items of a list of pairs, each a mapping of one entry. -/
def buildPairs (b : Building) : List Nat → Except Fault Building
  | [] => .ok b
  | item :: rest => do
    match (b.graph.node item).content with
    | .mapping [(key, value)] =>
      let (_, b) ← b.build key
      let (_, b) ← b.build value
      b.buildPairs rest
    | _ => throw .malformed

def mergedEntries (b : Building) (number : Nat) : Except Fault (List (Atom × Nat) × Building) := do
  match (b.graph.node number).content with
  | .mapping _ =>
    let graph ← Graph.merge b.graph.mergeFuel b.graph number
    { b with graph }.buildEntries (graph.entries number)
  | _ => throw .malformed

def fill (b : Building) (number : Nat) : Except Fault Building := do
  match (b.graph.node number).tag, (b.graph.node number).content with
  | .seq, .sequence items => b.buildAll items
  | .orderedMap, .sequence items => b.buildPairs items
  | .pairs, .sequence items => b.buildPairs items
  | .set, _ => return (← b.mergedEntries number).2
  | .map, _ =>
    let (entries, b) ← b.mergedEntries number
    return b.keep number (.mapping entries)
  | _, _ => throw .malformed

def fillEach (b : Building) : List Nat → Except Fault Building
  | [] => .ok b
  | number :: rest => do (← b.fill number).fillEach rest

/-- Fills the waiting collections, those that came first before those they brought. Each node
waits once, so their number bounds the rounds. -/
def fillAll : Nat → Building → Except Fault Building
  | 0, b => .ok b
  | rounds + 1, b =>
    if b.waiting = [] then .ok b
    else do fillAll rounds (← { b with waiting := [] }.fillEach b.waiting.reverse)

end Building

namespace Document

/-- The values of the one document in a text; a text without any is the null value. -/
def ofText (s : List Char) : Except Fault Document := do
  match ← Graph.ofText s with
  | none => return ⟨.atom .null, []⟩
  | some (graph, root) =>
    let (_, b) ← Building.build { graph } root
    let b ← b.fillAll (graph.size + 1)
    return ⟨(b.value? root).getD (.atom .null), b.values⟩

end Document

instance : Loader where
  load s := (Document.ofText s).mapError Fault.error

end EERDiagram.Yaml
