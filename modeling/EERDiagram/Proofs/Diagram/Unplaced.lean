import EERDiagram.Diagram.Reading
import Mathlib.Data.List.Basic

/-! Diagrams without the positions of their nodes. Two diagrams that are the same without them
have the same nodes in the same order, the same links and the same ignored lines. -/
namespace EERDiagram

def Node.unplaced (node : Node) : Node := { node with position := ⟨0, 0⟩ }

def Entry.unplaced : Entry → Entry
  | .node declared shorthand => .node declared.unplaced shorthand
  | .link written => .link written
  | .ignored line => .ignored line

def Diagram.unplaced (d : Diagram) : Diagram := { d with nodes := d.nodes.map Node.unplaced }

namespace Node

theorem line_of_unplaced {a b : Node} (same : a.unplaced = b.unplaced) : a.line = b.line :=
  (Node.mk.inj same).2.2.2.2.2

end Node

namespace Entry

theorem node?_unplaced (entry : Entry) : entry.unplaced.node? = entry.node?.map Node.unplaced := by
  cases entry <;> rfl

theorem link?_unplaced (entry : Entry) : entry.unplaced.link? = entry.link? := by
  cases entry <;> rfl

theorem ignored?_unplaced (entry : Entry) : entry.unplaced.ignored? = entry.ignored? := by
  cases entry <;> rfl

end Entry

namespace Diagram

theorem unplaced_ofEntries (entries : List Entry) :
    (ofEntries entries).unplaced = ofEntries (entries.map Entry.unplaced) := by
  simp only [unplaced, ofEntries, List.filterMap_map, List.map_filterMap, Function.comp_def,
    Entry.node?_unplaced, Entry.link?_unplaced, Entry.ignored?_unplaced]

variable {d m : Diagram}

theorem ids_of_unplaced (same : d.unplaced = m.unplaced) : d.ids = m.ids := by
  have nodes := congrArg (fun d => d.nodes.map Node.id) same
  simpa [unplaced, ids, Function.comp_def, Node.unplaced] using nodes

theorem links_of_unplaced (same : d.unplaced = m.unplaced) : d.links = m.links :=
  (Diagram.mk.inj same).2.1

theorem length_of_unplaced (same : d.unplaced = m.unplaced) : d.nodes.length = m.nodes.length := by
  simpa [unplaced] using congrArg (fun d => d.nodes.length) same

theorem node_of_unplaced (same : d.unplaced = m.unplaced) {i : Nat} {a b : Node}
    (left : d.nodes[i]? = some a) (right : m.nodes[i]? = some b) : a.unplaced = b.unplaced := by
  have nodes := congrArg (fun d => d.nodes[i]?) same
  simpa [unplaced, left, right] using nodes

theorem find?_id {id : String} {node : Node} (found : d.find? id = some node) :
    node.id = id := by
  simpa using List.find?_some found

theorem find?_of_mem (distinct : d.ids.Nodup) {node : Node} (member : node ∈ d.nodes) :
    d.find? node.id = some node := by
  rw [ids] at distinct
  rw [find?]
  generalize d.nodes = nodes at *
  induction nodes with
  | nil => contradiction
  | cons first rest ih =>
    rw [List.map_cons, List.nodup_cons] at distinct
    rcases List.mem_cons.mp member with rfl | member
    · simp
    · have other : first.id ≠ node.id := fun same =>
        distinct.1 (same ▸ List.mem_map_of_mem member)
      rw [List.find?_cons_of_neg (by simpa using other)]
      exact ih distinct.2 member

theorem find?_of_unplaced (same : d.unplaced = m.unplaced) (id : String) :
    (d.find? id).map Node.unplaced = (m.find? id).map Node.unplaced := by
  have found : ∀ d : Diagram, (d.find? id).map Node.unplaced =
      (d.nodes.map Node.unplaced).find? (·.id = id) := by
    intro d
    rw [List.find?_map]
    rfl
  rw [found, found]
  exact congrArg (List.find? (·.id = id)) (Diagram.mk.inj same).1

theorem place_go_getElem? (id : String) (position : Position) (nodes : List Node) (i : Nat) :
    ∃ chosen, (place.go id position nodes)[i]? =
        nodes[i]?.map (fun node => if chosen then { node with position } else node) ∧
      (chosen = true → ∀ node, nodes[i]? = some node → node.id = id) := by
  induction nodes generalizing i with
  | nil => exact ⟨false, rfl, by simp⟩
  | cons first rest ih =>
    rw [place.go]
    by_cases same : first.id = id
    · rw [if_pos same]
      cases i with
      | zero => exact ⟨true, rfl, by simp [same]⟩
      | succ i => exact ⟨false, by simp, by simp⟩
    · rw [if_neg same]
      cases i with
      | zero => exact ⟨false, rfl, by simp⟩
      | succ i => exact ih i

theorem place_getElem? (d : Diagram) (id : String) (position : Position) (i : Nat) :
    ∃ chosen, (d.place id position).nodes[i]? =
        d.nodes[i]?.map (fun node => if chosen then { node with position } else node) ∧
      (chosen = true → ∀ node, d.nodes[i]? = some node → node.id = id) :=
  place_go_getElem? id position d.nodes i

theorem unplaced_place (d : Diagram) (id : String) (position : Position) :
    (d.place id position).unplaced = d.unplaced := by
  have nodes : (d.place id position).nodes.map Node.unplaced = d.nodes.map Node.unplaced := by
    apply List.ext_getElem?
    intro i
    obtain ⟨chosen, same, -⟩ := place_getElem? d id position i
    rw [List.getElem?_map, List.getElem?_map, same, Option.map_map]
    cases chosen <;> rfl
  simp only [unplaced, nodes]
  rfl

theorem find?_place (d : Diagram) (id : String) (position : Position) :
    (d.place id position).find? id = (d.find? id).map fun node => { node with position } := by
  have found : ∀ nodes : List Node, (place.go id position nodes).find? (·.id = id) =
      (nodes.find? (·.id = id)).map fun node => { node with position } := by
    intro nodes
    induction nodes with
    | nil => rfl
    | cons first rest ih =>
      rw [place.go]
      by_cases same : first.id = id
      · simp [same]
      · simpa [same] using ih
  exact found d.nodes

/-- The diagrams differ at most in where the nodes with these ids stand. -/
structure AgreesExcept (moved : List String) (d m : Diagram) : Prop where
  unplaced : d.unplaced = m.unplaced
  unmoved : ∀ (i : Nat) a b, d.nodes[i]? = some a → m.nodes[i]? = some b → a.id ∉ moved → a = b

theorem AgreesExcept.refl (d : Diagram) : AgreesExcept [] d d where
  unplaced := rfl
  unmoved _ _ _ left right _ := Option.some.inj (left.symm.trans right)

theorem AgreesExcept.mono (agrees : AgreesExcept moved d m) (more : moved ⊆ all) :
    AgreesExcept all d m where
  unplaced := agrees.unplaced
  unmoved i a b left right other := agrees.unmoved i a b left right (mt (@more a.id) other)

theorem AgreesExcept.place (agrees : AgreesExcept moved d m) (id : String) (position : Position) :
    AgreesExcept (id :: moved) (d.place id position) m where
  unplaced := (unplaced_place d id position).trans agrees.unplaced
  unmoved i a b left right := by
    intro other
    rw [List.mem_cons, not_or] at other
    obtain ⟨chosen, same, own⟩ := place_getElem? d id position i
    rw [same] at left
    obtain ⟨old, stood, rfl⟩ := Option.map_eq_some_iff.mp left
    cases chosen with
    | true => exact absurd (own rfl old stood) other.1
    | false => exact agrees.unmoved i old b stood right other.2

end Diagram
end EERDiagram
