import EERDiagram.Proofs.Diagram.Following
import EERDiagram.Proofs.Document.Declaration

/-! Moving a node and reading again. The rewritten line declares the same node at the new
position; what is read after it differs only where the spiral has one node less to place. -/
namespace EERDiagram

open Coordinates (cut? erase)

/-- A line with a pair of its own declares a node that stands at it. If its statement makes the
id that the line gave before, it leaves the same to the lines after it, or a turn of the spiral
less. -/
theorem Draft.step_given_pair {spiral : Spiral} {draft next : Draft} {index : Nat}
    {raw changed text : List Char} {node : Node} {shorthand : Option Link}
    (steps : draft.step spiral index raw = .ok (some (.node node shorthand), next))
    (rewritten : Line.read changed = .ok (some ⟨some (x, y), text⟩))
    (declared : (Statement.read text).declares = true)
    (id : (Statement.read text).newId draft.taken index = node.id)
    (whole : wholePosition x y = .ok point) :
    ∃ follower, draft.step spiral index changed =
        .ok (some ((Statement.read text).entry index text node.id point), follower) ∧
      (follower = next ∨ Behind spiral next follower) := by
  obtain ⟨line, placed, -, -, found, -, -, -, rfl⟩ := step_node steps
  have given : draft.position spiral ⟨some (x, y), text⟩ = .ok (point, draft) := by
    rw [position_of_coordinates rfl, whole]
    rfl
  refine ⟨{ draft with taken := node.id :: draft.taken }, ?_, ?_⟩
  · rw [step_of_declares rewritten declared given, id]
  · rcases position_cases found with ⟨-, -, -, -, rfl⟩ | ⟨-, last, rfl⟩
    · exact .inl rfl
    · exact .inr ⟨rfl, rfl, node.position, last⟩

/-- What is read from the lines after a rewritten one is what was read, up to positions. -/
theorem Reading.Runs.resume {spiral : Spiral} {next follower final : Draft} {index : Nat}
    {lines : List (List Char)} {entries : List Entry}
    (run : Runs spiral next index lines entries final)
    (continues : follower = next ∨ Draft.Behind spiral next follower) :
    ∃ others last, Runs spiral follower index lines others last ∧
      others.map Entry.unplaced = entries.map Entry.unplaced := by
  rcases continues with rfl | behind
  · exact ⟨entries, final, run, rfl⟩
  · exact run.behind behind

namespace Diagram

variable {spiral : Spiral} {document : String} {d m : Diagram} {i : Nat} {node : Node}
  {wholeX wholeY : Int}

theorem read_line_withPair (reads : read spiral document = .ok d)
    (atIndex : d.nodes[i]? = some node)
    (single : cut? (erase (Document.line document node.line)) = none)
    (smallX : wholeX.natAbs < Decimal.overflowBound)
    (smallY : wholeY.natAbs < Decimal.overflowBound) :
    ∃ line, Line.read (Document.line document node.line) = .ok (some line) ∧
      Line.read (Line.withPair (Document.line document node.line)
        (Coordinates.write wholeX wholeY)) = .ok (some ⟨some (wholeX, wholeY), line.text⟩) := by
  obtain ⟨line, speaks, declared, -⟩ := placed reads atIndex
  have front := Statement.front_of_declares declared (Line.trimmed_text speaks)
  exact ⟨line, speaks, Line.read_withPair speaks single front smallX smallY⟩

theorem lines_setPair_split (split : Text.splitLines document.toList = before ++ raw :: after)
    (own : node.line = before.length) :
    Text.splitLines (Document.setPair document node.line.toNat
      (Coordinates.write wholeX wholeY)).toList =
      before ++ Line.withPair raw (Coordinates.write wholeX wholeY) :: after := by
  rw [Document.lines_setPair (Coordinates.feed_not_mem_write wholeX wholeY), own, split]
  simp [List.modify_eq_take_cons_drop]

theorem read_setPair (reads : read spiral document = .ok d) (atIndex : d.nodes[i]? = some node)
    (single : cut? (erase (Document.line document node.line)) = none)
    (smallX : wholeX.natAbs < Decimal.overflowBound)
    (smallY : wholeY.natAbs < Decimal.overflowBound)
    (whole : Draft.wholePosition wholeX wholeY = .ok point) :
    ∃ m, read spiral (Document.setPair document node.line.toNat
        (Coordinates.write wholeX wholeY)) = .ok m ∧ m.unplaced = d.unplaced := by
  obtain ⟨line, speaks, rewritten⟩ := read_line_withPair reads atIndex single smallX smallY
  obtain ⟨before, after, added, middle, shorthand, next, others, final, split, own, first, steps,
    second, rfl, -⟩ := read_split reads atIndex
  obtain ⟨other, -, reads', declared, -, entered, id, -⟩ := Draft.step_node steps
  obtain rfl : line = other := Option.some.inj (Except.ok.inj (speaks.symm.trans reads'))
  obtain ⟨follower, replaced, continues⟩ :=
    Draft.step_given_pair steps rewritten declared id.symm whole
  obtain ⟨others', last, rest, similar⟩ := second.resume continues
  rw [← Nat.zero_add before.length] at replaced rest
  have again := first.append (.cons replaced rest)
  rw [← lines_setPair_split split own] at again
  refine ⟨_, Reading.read_eq_ok_iff.mpr ⟨_, last, again, rfl⟩, ?_⟩
  rw [unplaced_ofEntries, unplaced_ofEntries, entered]
  simp [similar, Statement.unplaced_entry _ _ _ _ point node.position]

variable {text : String}

theorem hasPair_setPair (reads : read spiral document = .ok d)
    (atIndex : d.nodes[i]? = some node)
    (single : cut? (erase (Document.line document node.line)) = none)
    (smallX : wholeX.natAbs < Decimal.overflowBound)
    (smallY : wholeY.natAbs < Decimal.overflowBound) {j : Nat} {a b : Node}
    (left : d.nodes[j]? = some a) (same : b.unplaced = a.unplaced) :
    Document.hasPair (Document.setPair document node.line.toNat
      (Coordinates.write wholeX wholeY)) b = (decide (i = j) || Document.hasPair document a) := by
  obtain ⟨lower, upper⟩ := line_range reads (List.mem_of_getElem? atIndex)
  have feed := Coordinates.feed_not_mem_write wholeX wholeY
  rw [Document.hasPair, Document.hasPair, Node.line_of_unplaced same]
  by_cases moved : i = j
  · subst moved
    obtain rfl := Option.some.inj (atIndex.symm.trans left)
    obtain ⟨line, -, rewritten⟩ := read_line_withPair reads atIndex single smallX smallY
    have pair := Line.coordinates_eq_none_iff rewritten
    rw [Document.line_setPair_same feed lower upper, Option.isSome_iff_ne_none.mpr fun absent =>
      absurd (pair.mpr absent) (by simp)]
    simp
  · have other : a.line.toNat ≠ node.line.toNat := by
      have := (line_range reads (List.mem_of_getElem? left)).1
      intro lines
      exact moved (index_of_line reads atIndex left (by omega))
    rw [Document.line_setPair_other feed other]
    simp [moved]

theorem countP_set_true {flags : List Bool} (atIndex : flags[i]? = some flag) :
    flags.countP (!·) = (flags.set i true).countP (!·) + if flag = false then 1 else 0 := by
  obtain ⟨inside, rfl⟩ := List.getElem?_eq_some_iff.mp atIndex
  have counted := List.boole_getElem_le_countP (p := (!·)) inside
  rw [List.countP_set inside]
  cases flag : flags[i] <;> simp_all

/-- Nodes after the moved one have one node less before them on the spiral, if the moved one was
on it. -/
theorem spiralIndex_of_flags (same : m.unplaced = d.unplaced) (atIndex : d.nodes[i]? = some node)
    (flags : ∀ j a b, d.nodes[j]? = some a → b.unplaced = a.unplaced →
      Document.hasPair text b = (decide (i = j) || Document.hasPair document a)) (j : Nat) :
    Document.spiralIndex document d j = Document.spiralIndex text m j +
      if i < j ∧ Document.hasPair document node = false then 1 else 0 := by
  have counted : ∀ (document : String) (d : Diagram), Document.spiralIndex document d j =
      ((d.nodes.map (Document.hasPair document)).take j).countP (!·) := by
    intro document d
    rw [Document.spiralIndex, ← List.map_take, List.countP_map]
    rfl
  have pairs : m.nodes.map (Document.hasPair text) =
      (d.nodes.map (Document.hasPair document)).set i true := by
    apply List.ext_getElem (by simp [length_of_unplaced same])
    intro k left right
    simp only [List.length_map, List.length_set] at left right
    have alike := node_of_unplaced same (List.getElem?_eq_getElem left)
      (List.getElem?_eq_getElem right)
    rw [List.getElem_map, flags k _ _ (List.getElem?_eq_getElem right) alike, List.getElem_set]
    split <;> simp_all
  rw [counted, counted, pairs]
  rcases Nat.lt_or_ge i j with after | before
  · have flag : ((d.nodes.map (Document.hasPair document)).take j)[i]? =
        some (Document.hasPair document node) := by
      rw [List.getElem?_take_of_lt after, List.getElem?_map, atIndex]
      rfl
    rw [List.take_set, countP_set_true flag]
    simp [after]
  · rw [List.take_set_of_le before]
    simp [Nat.not_lt.mpr before]

theorem position_eq (reads : read spiral document = .ok d) (again : read spiral text = .ok m)
    {j : Nat} {a b : Node} (left : d.nodes[j]? = some a) (right : m.nodes[j]? = some b)
    (same : Document.line document a.line = Document.line text b.line)
    (turns : Document.hasPair document a = true ∨
      Document.spiralIndex document d j = Document.spiralIndex text m j) :
    b.position = a.position := by
  obtain ⟨line, speaks, -, found⟩ := placed reads left
  obtain ⟨line', speaks', -, found'⟩ := placed again right
  obtain rfl : line = line' := by
    rw [same, speaks'] at speaks
    exact (Option.some.inj (Except.ok.inj speaks)).symm
  rcases found with ⟨x, y, pair, whole⟩ | ⟨absent, place⟩
  · rcases found' with ⟨x', y', pair', whole'⟩ | ⟨absent, -⟩
    · obtain ⟨rfl, rfl⟩ := Prod.mk.inj (Option.some.inj (pair.symm.trans pair'))
      exact Except.ok.inj (whole'.symm.trans whole)
    · exact absurd (pair.symm.trans absent) (by simp)
  · rcases found' with ⟨x', y', pair', -⟩ | ⟨-, place'⟩
    · exact absurd (pair'.symm.trans absent) (by simp)
    · have gone := (Line.coordinates_eq_none_iff speaks).mp absent
      have turns : Document.spiralIndex document d j = Document.spiralIndex text m j := by
        simpa [Document.hasPair, gone] using turns
      exact Spiral.Places.unique (turns ▸ place') place

theorem moveNode_eq_setPair (reads : read spiral document = .ok d) (member : node ∈ d.nodes)
    (finiteX : Decimal.isFinite x = true) (finiteY : Decimal.isFinite y = true)
    (roundX : Decimal.roundHalfUp x = .ok wholeX) (roundY : Decimal.roundHalfUp y = .ok wholeY) :
    Document.moveNode document d node.id x y =
      .ok (Document.setPair document node.line.toNat (Coordinates.write wholeX wholeY)) := by
  obtain ⟨lower, upper⟩ := line_range reads member
  rw [Document.moveNode, find?_of_mem (ids_nodup reads) member]
  exact Document.writePosition_of_isFinite finiteX finiteY roundX roundY lower upper

end Diagram
end EERDiagram
