import EERDiagram.Proofs.Diagram.Reading
import EERDiagram.Proofs.Document.Writing

/-! The nodes of a reading. Their ids are distinct and their lines increase; a node stands at its
line's own pair or, without one, at the place that the spiral has for it. -/
namespace EERDiagram

open Coordinates (cut?)

namespace Document

/-- The line that declared the node holds a pair. -/
def hasPair (document : String) (node : Node) : Bool := (cut? (line document node.line)).isSome

/-- How many nodes before one have no pair. -/
def spiralIndex (document : String) (d : Diagram) (i : Nat) : Nat :=
  (d.nodes.take i).countP (!hasPair document ·)

end Document

/-- The position is the spiral's, after `index` others without a pair. -/
def Spiral.Places (spiral : Spiral) (index : Nat) (position : Position) : Prop :=
  ∃ x y, spiral.place index = .ok (x, y) ∧ Draft.wholePosition x y = .ok position

theorem Spiral.places_iff {spiral : Spiral} {index : Nat} {position : Position} :
    spiral.Places index position ↔
      spiral.positionAt (spiral.turn (spiral.angleAfter index)) = .ok position := by
  simp only [Places, positionAt, place, angleAfter]
  cases spiral.point (spiral.turn (spiral.angleAfter index)) with
  | error e => simp
  | ok found => simp [Prod.ext_iff]

theorem Spiral.Places.unique {spiral : Spiral} {index : Nat} {p q : Position}
    (left : spiral.Places index p) (right : spiral.Places index q) : p = q := by
  rw [places_iff] at left right
  exact Except.ok.inj (left.symm.trans right)

namespace Draft

theorem wholePosition_of_exact {x y : Int} (exactX : Decimal.ofInt? x = some p)
    (exactY : Decimal.ofInt? y = some q) : wholePosition x y = .ok ⟨p, q⟩ := by
  unfold wholePosition
  split
  next left right =>
    obtain rfl := Option.some.inj (left.symm.trans exactX)
    obtain rfl := Option.some.inj (right.symm.trans exactY)
    rfl
  next absent => exact absurd exactY (absent p q exactX)

theorem wholePosition_of_isFinite {x y : Float} (finiteX : Decimal.isFinite x = true)
    (finiteY : Decimal.isFinite y = true) :
    ∃ wholeX wholeY point, Decimal.roundHalfUp x = .ok wholeX ∧
      Decimal.roundHalfUp y = .ok wholeY ∧ wholeX.natAbs < Decimal.overflowBound ∧
      wholeY.natAbs < Decimal.overflowBound ∧ wholePosition wholeX wholeY = .ok point := by
  obtain ⟨wholeX, p, roundX, exactX, smallX⟩ := Decimal.roundHalfUp_of_isFinite x finiteX
  obtain ⟨wholeY, q, roundY, exactY, smallY⟩ := Decimal.roundHalfUp_of_isFinite y finiteY
  have whole := wholePosition_of_exact exactX exactY
  exact ⟨wholeX, wholeY, ⟨p, q⟩, roundX, roundY, smallX, smallY, whole⟩

theorem step_nodes (steps : step spiral draft index raw = .ok (entry, next)) :
    (entry.toList.filterMap Entry.node? = [] ∧ next = draft) ∨
      ∃ node shorthand, entry = some (.node node shorthand) := by
  cases entry with
  | none => exact .inl ⟨rfl, step_other steps rfl⟩
  | some entry =>
    cases entry with
    | node node shorthand => exact .inr ⟨node, shorthand, rfl⟩
    | link | ignored => exact .inl ⟨rfl, step_other steps rfl⟩

end Draft

namespace Reading

variable {spiral : Spiral} {draft final : Draft} {index : Nat} {lines : List (List Char)}
  {entries : List Entry}

theorem Runs.ids (run : Runs spiral draft index lines entries final) :
    ((entries.filterMap Entry.node?).map Node.id).Nodup ∧
      ∀ node ∈ entries.filterMap Entry.node?, node.id ∉ draft.taken := by
  induction run with
  | nil => simp
  | @cons draft next final index raw rest entry entries steps run ih =>
    rw [List.filterMap_append]
    rcases Draft.step_nodes steps with ⟨none, rfl⟩ | ⟨node, shorthand, rfl⟩
    · rwa [none, List.nil_append]
    · obtain ⟨line, placed, -, declared, found, -, id, -, rfl⟩ := Draft.step_node steps
      have fresh : node.id ∉ draft.taken := id ▸ Statement.newId_not_mem declared draft.taken index
      simp only [Draft.taken_of_position found, List.mem_cons, not_or] at ih
      refine ⟨List.nodup_cons.mpr ⟨?_, ih.1⟩, List.forall_mem_cons.mpr ⟨fresh, ?_⟩⟩
      · intro member
        obtain ⟨other, member, same⟩ := List.mem_map.mp member
        exact (ih.2 other member).1 same
      · exact fun other member => (ih.2 other member).2

theorem Runs.lines_increase (run : Runs spiral draft index lines entries final) :
    (entries.filterMap Entry.node?).Pairwise (·.line < ·.line) ∧
      ∀ node ∈ entries.filterMap Entry.node?,
        (index : Int) ≤ node.line ∧ node.line < (index + lines.length : Nat) := by
  induction run with
  | nil => simp
  | @cons draft next final index raw rest entry entries steps run ih =>
    rw [List.filterMap_append, List.length_cons]
    rcases Draft.step_nodes steps with ⟨none, rfl⟩ | ⟨node, shorthand, rfl⟩
    · rw [none, List.nil_append]
      refine ⟨ih.1, fun node member => ?_⟩
      have := ih.2 node member
      omega
    · obtain ⟨line, placed, -, -, -, -, -, own, -⟩ := Draft.step_node steps
      refine ⟨List.pairwise_cons.mpr ⟨?_, ih.1⟩, List.forall_mem_cons.mpr ⟨?_, ?_⟩⟩
      · intro other member
        have := ih.2 other member
        omega
      · omega
      · intro other member
        have := ih.2 other member
        omega

theorem Runs.taken (run : Runs spiral draft index lines entries final) :
    final.taken = ((entries.filterMap Entry.node?).map Node.id).reverse ++ draft.taken := by
  induction run with
  | nil => rfl
  | @cons draft next final index raw rest entry entries steps run ih =>
    rw [List.filterMap_append]
    rcases Draft.step_nodes steps with ⟨none, rfl⟩ | ⟨node, shorthand, rfl⟩
    · rwa [none, List.nil_append]
    · obtain ⟨line, placed, -, -, found, -, -, -, rfl⟩ := Draft.step_node steps
      rw [ih, Draft.taken_of_position found]
      simp [Entry.node?]

def Flags (paired : Node → Bool) (index : Nat) (lines : List (List Char)) : Prop :=
  ∀ offset raw node, lines[offset]? = some raw → node.line = ((index + offset : Nat) : Int) →
    paired node = (cut? raw).isSome

theorem Flags.tail (flags : Flags paired index (raw :: rest)) : Flags paired (index + 1) rest := by
  intro offset raw node found own
  apply flags (offset + 1) raw node found
  omega

theorem Flags.left (flags : Flags paired index (before ++ after)) : Flags paired index before := by
  intro offset raw node found own
  apply flags offset raw node _ own
  rw [List.getElem?_append_left (List.getElem?_eq_some_iff.mp found).1, found]

theorem Runs.angle (run : Runs spiral draft index lines entries final)
    (start : draft.angle = spiral.angleAfter turns) (flags : Flags paired index lines) :
    final.angle =
      spiral.angleAfter (turns + (entries.filterMap Entry.node?).countP (!paired ·)) := by
  induction run generalizing turns with
  | nil => exact start
  | @cons draft next final index raw rest entry entries steps run ih =>
    rw [List.filterMap_append]
    rcases Draft.step_nodes steps with ⟨none, rfl⟩ | ⟨node, shorthand, rfl⟩
    · rw [none, List.nil_append]
      exact ih start flags.tail
    · obtain ⟨line, placed, speaks, -, found, -, -, own, rfl⟩ := Draft.step_node steps
      have flag : paired node = (cut? raw).isSome := flags 0 raw node rfl own
      have absent := Line.coordinates_eq_none_iff speaks
      rcases Draft.position_cases found with ⟨x, y, pair, -, rfl⟩ | ⟨pair, -, rfl⟩
      · have kept : paired node = true := by
          rw [flag, Option.isSome_iff_ne_none, ne_eq, ← absent, pair]
          simp
        rw [ih start flags.tail]
        simp [kept, Entry.node?]
      · have gone : paired node = false := by
          rw [flag, absent.mp pair]
          rfl
        rw [ih (show _ = spiral.angleAfter (turns + 1) by rw [start]; rfl) flags.tail]
        simp [gone, Entry.node?, Nat.add_assoc, Nat.add_comm 1]

end Reading

theorem Document.flags_hasPair (document : String) :
    Reading.Flags (Document.hasPair document) 0 (Text.splitLines document.toList) := by
  intro offset raw node found own
  simp [hasPair, line, own, found]

namespace Diagram

variable {spiral : Spiral} {document : String} {d : Diagram} {i : Nat} {node : Node}

theorem ids_nodup (reads : read spiral document = .ok d) : d.ids.Nodup := by
  obtain ⟨entries, final, run, rfl⟩ := Reading.read_eq_ok_iff.mp reads
  exact run.ids.1

theorem lines_increase (reads : read spiral document = .ok d) :
    d.nodes.Pairwise (·.line < ·.line) := by
  obtain ⟨entries, final, run, rfl⟩ := Reading.read_eq_ok_iff.mp reads
  exact run.lines_increase.1

theorem line_range (reads : read spiral document = .ok d) (member : node ∈ d.nodes) :
    0 ≤ node.line ∧ node.line < (Text.splitLines document.toList).length := by
  obtain ⟨entries, final, run, rfl⟩ := Reading.read_eq_ok_iff.mp reads
  have := run.lines_increase.2 node member
  omega

theorem index_of_line (reads : read spiral document = .ok d) {j : Nat} {other : Node}
    (left : d.nodes[i]? = some node) (right : d.nodes[j]? = some other)
    (same : node.line = other.line) : i = j := by
  obtain ⟨first, rfl⟩ := List.getElem?_eq_some_iff.mp left
  obtain ⟨second, rfl⟩ := List.getElem?_eq_some_iff.mp right
  have increase := List.pairwise_iff_getElem.mp (lines_increase reads)
  rcases Nat.lt_trichotomy i j with before | same | after
  · have := increase i j first second before
    omega
  · exact same
  · have := increase j i second first after
    omega

theorem eq_of_line (reads : read spiral document = .ok d) {other : Node} (left : node ∈ d.nodes)
    (right : other ∈ d.nodes) (same : node.line = other.line) : node = other := by
  obtain ⟨i, atLeft⟩ := List.mem_iff_getElem?.mp left
  obtain ⟨j, atRight⟩ := List.mem_iff_getElem?.mp right
  obtain rfl := index_of_line reads atLeft atRight same
  exact Option.some.inj (atLeft.symm.trans atRight)

/-- The document around the line of a node, and what is read before the line, from it and after
it. -/
theorem read_split (reads : read spiral document = .ok d) (atIndex : d.nodes[i]? = some node) :
    ∃ before after added middle shorthand next others final,
      Text.splitLines document.toList = before ++ Document.line document node.line :: after ∧
      node.line = before.length ∧ Reading.Runs spiral {} 0 before added middle ∧
      middle.step spiral before.length (Document.line document node.line) =
        .ok (some (.node node shorthand), next) ∧
      Reading.Runs spiral next (before.length + 1) after others final ∧
      d = ofEntries (added ++ .node node shorthand :: others) ∧
      added.filterMap Entry.node? = d.nodes.take i := by
  obtain ⟨entries, final, run, rfl⟩ := Reading.read_eq_ok_iff.mp reads
  obtain ⟨before, raw, after, added, middle, shorthand, next, others, split, first, steps, second,
    rfl, rfl⟩ := run.node_split atIndex
  rw [Nat.zero_add] at steps second
  obtain ⟨-, -, -, -, -, -, -, own, -⟩ := Draft.step_node steps
  have same : Document.line document node.line = raw := by
    simp [Document.line, own, split]
  refine ⟨before, after, added, middle, shorthand, next, others, final, same ▸ split, own, first,
    same ▸ steps, second, rfl, ?_⟩
  simp [ofEntries, List.filterMap_append]

/-- Where a node stands is told by its line, and without a pair by the nodes before it. -/
theorem placed (reads : read spiral document = .ok d) (atIndex : d.nodes[i]? = some node) :
    ∃ line, Line.read (Document.line document node.line) = .ok (some line) ∧
      (Statement.read line.text).declares = true ∧
      ((∃ x y, line.coordinates = some (x, y) ∧ Draft.wholePosition x y = .ok node.position) ∨
       (line.coordinates = none ∧
        spiral.Places (Document.spiralIndex document d i) node.position)) := by
  obtain ⟨before, after, added, middle, shorthand, next, others, final, split, -, first, steps, -,
    -, earlier⟩ := read_split reads atIndex
  obtain ⟨line, placed, speaks, declared, found, -⟩ := Draft.step_node steps
  have flags := Document.flags_hasPair document
  rw [split] at flags
  refine ⟨line, speaks, declared, ?_⟩
  rcases Draft.position_cases found with ⟨x, y, pair, whole, -⟩ | ⟨pair, point, -⟩
  · exact .inl ⟨x, y, pair, whole⟩
  · right
    have turned := first.angle (show _ = spiral.angleAfter 0 from rfl) flags.left
    rw [turned, Nat.zero_add, earlier] at point
    exact ⟨pair, Spiral.places_iff.mpr point⟩

theorem places_of_not_hasPair (reads : read spiral document = .ok d)
    (atIndex : d.nodes[i]? = some node) (absent : Document.hasPair document node = false) :
    spiral.Places (Document.spiralIndex document d i) node.position := by
  obtain ⟨line, speaks, -, ⟨x, y, pair, -⟩ | ⟨-, place⟩⟩ := placed reads atIndex
  · have := (Line.coordinates_eq_none_iff speaks).mpr (by simpa [Document.hasPair] using absent)
    rw [pair] at this
    contradiction
  · exact place

end Diagram
end EERDiagram
