import EERDiagram.Diagram.Check
import Mathlib.Data.List.Count

/-! Warnings about a diagram. Each thing that has no effect on the drawing is told once, in the
order of the diagram; what is told of links and nodes follows from which ends of links name a node.
Nothing is assumed of the diagram, so ids may be given twice. -/
namespace EERDiagram

/-- Two lists put together into one, each in its own order. -/
inductive Interleaved {α : Type} : List α → List α → List α → Prop where
  | nil : Interleaved [] [] []
  | left : Interleaved one other all → Interleaved (a :: one) other (a :: all)
  | right : Interleaved one other all → Interleaved one (a :: other) (a :: all)

theorem interleaved_filter (p : α → Bool) (all : List α) :
    Interleaved (all.filter p) (all.filter (!p ·)) all := by
  induction all with
  | nil => exact .nil
  | cons a rest ih =>
    cases holds : p a with
    | true => simpa [holds] using ih.left
    | false => simpa [holds] using ih.right

namespace Link

/-- One of the link's ends is at the id. -/
def Meets (link : Link) (id : String) : Prop := link.source = id ∨ link.target = id

instance (link : Link) (id : String) : Decidable (link.Meets id) :=
  inferInstanceAs (Decidable (link.source = id ∨ link.target = id))

/-- The ends that the links have at an id. A link from a node to itself has two there. -/
def endsAt (links : List Link) (id : String) : Nat :=
  links.countP (·.source = id) + links.countP (·.target = id)

variable {links : List Link} {id : String}

theorem endsAt_append (links others : List Link) (id : String) :
    endsAt (links ++ others) id = endsAt links id + endsAt others id := by
  simp only [endsAt, List.countP_append]
  omega

theorem endsAt_perm {others : List Link} (same : links.Perm others) :
    endsAt links id = endsAt others id := by
  rw [endsAt, endsAt, same.countP_eq, same.countP_eq]

theorem endsAt_eq_zero_iff : endsAt links id = 0 ↔ ∀ link ∈ links, ¬ link.Meets id := by
  simp only [endsAt, Nat.add_eq_zero_iff, List.countP_eq_zero, decide_eq_true_eq, Meets, not_or]
  exact ⟨fun none link member => ⟨none.1 link member, none.2 link member⟩,
    fun none => ⟨fun link member => (none link member).1, fun link member => (none link member).2⟩⟩

/-- The ends of all links, written one after the other, have an id as often as links end there. -/
theorem count_flatMap_ends (links : List Link) (id : String) :
    (links.flatMap fun link => [link.source, link.target]).count id = endsAt links id := by
  induction links with
  | nil => rfl
  | cons link rest ih =>
    rw [← List.singleton_append, endsAt_append, List.flatMap_append, List.count_append, ih]
    congr 1
    simp only [List.flatMap_singleton, endsAt, List.countP_singleton, List.count_cons,
      List.count_nil, beq_iff_eq, decide_eq_true_eq]
    omega

end Link

namespace Diagram

variable {d : Diagram} {node : Node} {id : String}

theorem count_ends (d : Diagram) (id : String) :
    d.ends.count id = Link.endsAt d.resolvableLinks id :=
  Link.count_flatMap_ends d.resolvableLinks id

theorem mem_ends_iff : id ∈ d.ends ↔ ∃ link ∈ d.resolvableLinks, link.Meets id := by
  rw [← List.count_pos_iff, count_ends, Nat.pos_iff_ne_zero, ne_eq, Link.endsAt_eq_zero_iff]
  simp

/-- What a dangling link is told to miss: the ids at its ends that no node has, each once, its
source first. -/
structure Missing (d : Diagram) (link : Link) (missing : List String) : Prop where
  ordered : missing.Sublist [link.source, link.target]
  once : missing.Nodup
  exact : ∀ id, id ∈ missing ↔ link.Meets id ∧ id ∉ d.ids

theorem missing_missingEnds (d : Diagram) (link : Link) : d.Missing link (d.missingEnds link) where
  ordered := by
    simp only [missingEnds]
    split <;> split <;> simp
  once := by
    simp only [missingEnds]
    split
    next => split <;> simp
    next =>
      split
      next => simp
      next apart =>
        simp only [List.mem_singleton, not_or] at apart
        simpa using Ne.symm apart.2
  exact := by
    intro id
    simp only [missingEnds, Link.Meets, List.mem_append, List.mem_ite_nil_left,
      List.mem_singleton, not_or, not_and]
    constructor
    · rintro (⟨absent, rfl⟩ | ⟨⟨absent, -⟩, rfl⟩)
      · exact ⟨.inl rfl, absent⟩
      · exact ⟨.inr rfl, absent⟩
    · rintro ⟨rfl | rfl, absent⟩
      · exact .inl ⟨absent, rfl⟩
      · -- an end that is missing at both sides is told of as the source
        by_cases same : link.target = link.source
        · exact .inl ⟨same ▸ absent, same⟩
        · exact .inr ⟨⟨absent, fun _ => same⟩, rfl⟩

theorem isDetached_iff : isDetached d.ends node = true ↔
    node.kind.isAttribute = true ∧ ∀ link ∈ d.resolvableLinks, ¬ link.Meets node.id := by
  simp only [isDetached, Bool.and_eq_true, decide_eq_true_eq, mem_ends_iff, not_exists, not_and]

theorem isEmptyHierarchy_iff : isEmptyHierarchy d.ends node = true ↔
    node.kind.isHierarchy = true ∧ Link.endsAt d.resolvableLinks node.id < 2 := by
  simp only [isEmptyHierarchy, Bool.and_eq_true, decide_eq_true_eq, count_ends]

theorem mem_warnings_emptyHierarchy (d : Diagram) (node : Node) :
    Warning.emptyHierarchy node ∈ d.warnings ↔ node ∈ d.nodes ∧ node.kind.isHierarchy = true ∧
      Link.endsAt d.resolvableLinks node.id < 2 := by
  simp [warnings, isEmptyHierarchy_iff]

theorem danglingLinks_eq (d : Diagram) :
    d.danglingLinks = d.links.filter fun link => !decide (d.Resolves link) := by
  simp [danglingLinks]

theorem warnings_eq_nil_iff (d : Diagram) : d.warnings = [] ↔
    d.ignored = [] ∧ d.danglingLinks = [] ∧
    (∀ node ∈ d.nodes, node.kind.isAttribute = true →
      ∃ link ∈ d.resolvableLinks, link.Meets node.id) ∧
    ∀ node ∈ d.nodes, node.kind.isHierarchy = true →
      2 ≤ Link.endsAt d.resolvableLinks node.id := by
  have detached : d.nodes.filter (isDetached d.ends) = [] ↔ ∀ node ∈ d.nodes,
      node.kind.isAttribute = true → ∃ link ∈ d.resolvableLinks, link.Meets node.id := by
    rw [List.filter_eq_nil_iff]
    simp only [isDetached_iff, not_and, not_forall, not_not, exists_prop]
  have empty : d.nodes.filter (isEmptyHierarchy d.ends) = [] ↔ ∀ node ∈ d.nodes,
      node.kind.isHierarchy = true → 2 ≤ Link.endsAt d.resolvableLinks node.id := by
    rw [List.filter_eq_nil_iff]
    simp only [isEmptyHierarchy_iff, not_and, Nat.not_lt]
  simp only [warnings, List.append_eq_nil_iff, List.map_eq_nil_iff, detached, empty, and_assoc]

theorem messages_eq (d : Diagram) : d.messages =
    d.ignored.map (Warning.ignoredLine · |>.message) ++
    d.danglingLinks.map (fun link => (Warning.dangling link (d.missingEnds link)).message) ++
    (d.nodes.filter fun node => node.kind.isAttribute ∧
      ∀ link ∈ d.resolvableLinks, ¬ link.Meets node.id).map (Warning.detached · |>.message) ++
    (d.nodes.filter fun node => node.kind.isHierarchy ∧
      Link.endsAt d.resolvableLinks node.id < 2).map (Warning.emptyHierarchy · |>.message) := by
  have detached : d.nodes.filter (isDetached d.ends) = d.nodes.filter fun node =>
      node.kind.isAttribute ∧ ∀ link ∈ d.resolvableLinks, ¬ link.Meets node.id :=
    List.filter_congr fun node _ => by rw [Bool.eq_iff_iff, isDetached_iff, decide_eq_true_eq]
  have empty : d.nodes.filter (isEmptyHierarchy d.ends) = d.nodes.filter fun node =>
      node.kind.isHierarchy ∧ Link.endsAt d.resolvableLinks node.id < 2 :=
    List.filter_congr fun node _ => by rw [Bool.eq_iff_iff, isEmptyHierarchy_iff, decide_eq_true_eq]
  simp only [messages, warnings, detached, empty, List.map_append, List.map_map]
  rfl

/-- A link with one end missing, one from an id to itself that no node has, and a union with a link
to itself. -/
example : messages ⟨[⟨"A", .entity, "A", ⟨1, 2⟩, none, 0⟩, ⟨"u", .union, "u", ⟨3, 4⟩, some "u", 1⟩],
      [⟨"A", "x", none, .solid⟩, ⟨"y", "y", none, .solid⟩, ⟨"u", "u", none, .solid⟩], []⟩ =
    ["Link 'A' -> 'x' refers to undeclared node(s) 'x'.",
      "Link 'y' -> 'y' refers to undeclared node(s) 'y'."] := by decide +kernel

end Diagram
end EERDiagram
