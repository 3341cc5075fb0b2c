import EERDiagram.Proofs.Diagram.Moving

/-! Lines with a second coordinate pair. A move takes out the first pair and writes the new one at
the end of the line, so a second pair comes to stand before the written one and is read in its
place. -/
namespace EERDiagram

open Coordinates (cut? maxDigits)

/-- The statement of a line whose second pair is read as its position: what stands around that
pair, and the pair that was written at the end. -/
def Coordinates.Cut.restWith (cut : Cut) (pair : List Char) : List Char :=
  Text.trim (cut.rest ++ ' ' :: pair)

theorem Line.read_withPair_second (reads : read raw = .ok (some line))
    (front : ∃ c rest, line.text = c :: rest ∧ c ≠ byteOrderMark ∧ c ≠ '/')
    (second : cut? line.text = some cut) (x y : Int) :
    read (withPair raw (Coordinates.write x y)) = .ok (some changed) ↔
      cut.pair.x.digits.length ≤ maxDigits ∧ cut.pair.y.digits.length ≤ maxDigits ∧
      changed = ⟨some (cut.pair.x.value, cut.pair.y.value),
        cut.restWith (Coordinates.write x y)⟩ := by
  obtain ⟨content, speaks⟩ := content_withPair reads front x y
  have found : cut? (line.text ++ ' ' :: Coordinates.write x y) =
      some { cut with after := cut.after ++ ' ' :: Coordinates.write x y } :=
    Coordinates.cut?_append_of_some second
  rw [← content] at speaks found
  rw [read_of_cut speaks found]
  simp [Coordinates.Cut.restWith, Coordinates.Cut.rest]

namespace Diagram

/-- Moving the node to a position and reading again finds it on its line, at that position
rounded. -/
def Returns (spiral : Spiral) (document : String) (d : Diagram) (node : Node) (x y : Float) :
    Prop :=
  ∃ text m new wholeX wholeY, Document.moveNode document d node.id x y = .ok text ∧
    read spiral text = .ok m ∧ new ∈ m.nodes ∧ new.line = node.line ∧ new.id = node.id ∧
    Decimal.roundHalfUp x = .ok wholeX ∧ Decimal.roundHalfUp y = .ok wholeY ∧
    Draft.wholePosition wholeX wholeY = .ok new.position

/-- A second pair in the statement of a node changes nothing: it stands for the position that is
written, and the statement without it still declares the id. -/
structure Harmless (taken : List String) (node : Node) (x y : Int) (cut : Coordinates.Cut) :
    Prop where
  short : cut.pair.x.digits.length ≤ maxDigits ∧ cut.pair.y.digits.length ≤ maxDigits
  position : Draft.wholePosition cut.pair.x.value cut.pair.y.value = Draft.wholePosition x y
  declared : (Statement.read (cut.restWith (Coordinates.write x y))).declares = true
  id : (Statement.read (cut.restWith (Coordinates.write x y))).newId taken node.line.toNat = node.id

variable {spiral : Spiral} {document text : String} {d m : Diagram} {i : Nat} {node new : Node}
  {wholeX wholeY : Int} {middle : Draft} {before after : List (List Char)} {added : List Entry}

/-- The line of a node declares it, with an id that the nodes before it leave free. -/
theorem line_of_node (reads : read spiral document = .ok d) (atIndex : d.nodes[i]? = some node) :
    ∃ line, Line.read (Document.line document node.line) = .ok (some line) ∧
      (Statement.read line.text).declares = true ∧
      (Statement.read line.text).newId ((d.nodes.take i).map Node.id).reverse node.line.toNat =
        node.id := by
  obtain ⟨before, -, added, middle, shorthand, next, -, -, -, own, first, steps, -, -, earlier⟩ :=
    read_split reads atIndex
  obtain ⟨line, placed, speaks, declared, -, -, id, -⟩ := Draft.step_node steps
  refine ⟨line, speaks, declared, ?_⟩
  rw [← earlier, own, Int.toNat_natCast, id, first.taken, List.append_nil]

theorem step_of_setPair (split : Text.splitLines document.toList = before ++ raw :: after)
    (own : node.line = before.length) (first : Reading.Runs spiral {} 0 before added middle)
    (again : read spiral (Document.setPair document node.line.toNat
      (Coordinates.write wholeX wholeY)) = .ok m)
    (member : new ∈ m.nodes) (same : new.line = node.line) :
    ∃ shorthand next, middle.step spiral before.length
      (Line.withPair raw (Coordinates.write wholeX wholeY)) =
        .ok (some (.node new shorthand), next) := by
  obtain ⟨j, atIndex⟩ := List.mem_iff_getElem?.mp member
  obtain ⟨before', after', added', middle', shorthand, next, -, -, split', own', first', steps, -⟩ :=
    read_split again atIndex
  rw [lines_setPair_split split own] at split'
  have length : before.length = before'.length := by omega
  obtain ⟨rfl, rest⟩ := List.append_inj split' length
  obtain ⟨-, rfl⟩ := first.unique first'
  exact ⟨shorthand, next, (List.cons.inj rest).1 ▸ steps⟩

theorem read_setPair_of_given (reads : read spiral document = .ok d)
    (atIndex : d.nodes[i]? = some node)
    (rewritten : Line.read (Line.withPair (Document.line document node.line)
      (Coordinates.write wholeX wholeY)) = .ok (some ⟨some (x, y), statement⟩))
    (declared : (Statement.read statement).declares = true)
    (id : (Statement.read statement).newId ((d.nodes.take i).map Node.id).reverse
      node.line.toNat = node.id)
    (whole : Draft.wholePosition x y = .ok point) :
    ∃ m new, read spiral (Document.setPair document node.line.toNat
        (Coordinates.write wholeX wholeY)) = .ok m ∧ new ∈ m.nodes ∧ new.line = node.line ∧
      new.id = node.id ∧ new.position = point := by
  obtain ⟨before, after, added, middle, shorthand, next, others, final, split, own, first, steps,
    second, -, earlier⟩ := read_split reads atIndex
  have taken : middle.taken = ((d.nodes.take i).map Node.id).reverse := by
    rw [first.taken, earlier, List.append_nil]
  rw [own, Int.toNat_natCast, ← taken] at id
  obtain ⟨follower, replaced, continues⟩ :=
    Draft.step_given_pair steps rewritten declared id whole
  obtain ⟨others', last, rest, -⟩ := second.resume continues
  obtain ⟨new, link, entered, ids, positions, lines⟩ := Statement.entry_of_declares declared
    before.length statement node.id point
  rw [entered] at replaced
  rw [← Nat.zero_add before.length] at replaced rest
  have again := first.append (.cons replaced rest)
  rw [← lines_setPair_split split own] at again
  refine ⟨_, new, Reading.read_eq_ok_iff.mpr ⟨_, last, again, rfl⟩, ?_, lines.trans own.symm, ids,
    positions⟩
  simp [ofEntries, Entry.node?]

theorem harmless_of_read (reads : read spiral document = .ok d) (atIndex : d.nodes[i]? = some node)
    (speaks : Line.read (Document.line document node.line) = .ok (some line))
    (second : cut? line.text = some cut)
    (again : read spiral (Document.setPair document node.line.toNat
      (Coordinates.write wholeX wholeY)) = .ok m)
    (member : new ∈ m.nodes) (lines : new.line = node.line) (ids : new.id = node.id)
    (whole : Draft.wholePosition wholeX wholeY = .ok new.position) :
    Harmless ((d.nodes.take i).map Node.id).reverse node wholeX wholeY cut := by
  obtain ⟨before, after, added, middle, link, next, -, -, split, own, first, steps, -, -, earlier⟩ :=
    read_split reads atIndex
  obtain ⟨line', _, speaks', declared, -⟩ := Draft.step_node steps
  obtain rfl : line = line' := Option.some.inj (Except.ok.inj (speaks.symm.trans speaks'))
  have front := Statement.front_of_declares declared (Line.trimmed_text speaks)
  obtain ⟨shorthand, follower, changes⟩ := step_of_setPair split own first again member lines
  obtain ⟨changed, placed, rewritten, declared', found, -, id, -⟩ := Draft.step_node changes
  obtain ⟨shortX, shortY, rfl⟩ := (Line.read_withPair_second speaks front second _ _).mp rewritten
  refine ⟨⟨shortX, shortY⟩, ?_, declared', ?_⟩
  · rcases Draft.position_cases found with ⟨a, b, pair, given, -⟩ | ⟨absent, -⟩
    · obtain ⟨rfl, rfl⟩ := Prod.mk.inj (Option.some.inj pair)
      exact given.trans whole.symm
    · exact absurd absent (Option.some_ne_none _)
  · rw [← earlier, own, Int.toNat_natCast, ← ids, id, first.taken, List.append_nil]

/-- Moving a node comes back as the position it was moved to exactly when its line has no second
pair, or one that changes nothing. -/
theorem returns_iff (reads : read spiral document = .ok d) (atIndex : d.nodes[i]? = some node)
    (finiteX : Decimal.isFinite x = true) (finiteY : Decimal.isFinite y = true) :
    d.Returns spiral document node x y ↔ ∀ line cut wholeX wholeY,
      Line.read (Document.line document node.line) = .ok (some line) →
      cut? line.text = some cut →
      Decimal.roundHalfUp x = .ok wholeX → Decimal.roundHalfUp y = .ok wholeY →
      Harmless ((d.nodes.take i).map Node.id).reverse node wholeX wholeY cut := by
  obtain ⟨wholeX, wholeY, point, roundX, roundY, smallX, smallY, whole⟩ :=
    Draft.wholePosition_of_isFinite finiteX finiteY
  have moved := moveNode_eq_setPair reads (List.mem_of_getElem? atIndex) finiteX finiteY roundX
    roundY
  constructor
  · rintro ⟨text, m, new, a, b, written, again, member, lines, ids, roundA, roundB, position⟩
    intro line cut c e speaks second roundC roundE
    obtain ⟨rfl, rfl⟩ : c = wholeX ∧ e = wholeY :=
      ⟨Except.ok.inj (roundC.symm.trans roundX), Except.ok.inj (roundE.symm.trans roundY)⟩
    obtain ⟨rfl, rfl⟩ : a = c ∧ b = e :=
      ⟨Except.ok.inj (roundA.symm.trans roundX), Except.ok.inj (roundB.symm.trans roundY)⟩
    obtain rfl := Except.ok.inj (moved.symm.trans written)
    exact harmless_of_read reads atIndex speaks second again member lines ids position
  · intro harmless
    obtain ⟨line, speaks, declared, id⟩ := line_of_node reads atIndex
    have front := Statement.front_of_declares declared (Line.trimmed_text speaks)
    have comes : ∃ m new, read spiral (Document.setPair document node.line.toNat
        (Coordinates.write wholeX wholeY)) = .ok m ∧ new ∈ m.nodes ∧ new.line = node.line ∧
        new.id = node.id ∧ new.position = point := by
      cases second : cut? line.text with
      | none =>
        have single := (Line.cut?_text_eq_none_iff speaks).mp second
        have rewritten := Line.read_withPair speaks single front smallX smallY
        exact read_setPair_of_given reads atIndex rewritten declared id whole
      | some cut =>
        obtain ⟨⟨shortX, shortY⟩, position, declared, id⟩ :=
          harmless line cut wholeX wholeY speaks second roundX roundY
        have rewritten := (Line.read_withPair_second speaks front second wholeX wholeY).mpr
          ⟨shortX, shortY, rfl⟩
        exact read_setPair_of_given reads atIndex rewritten declared id (position.trans whole)
    obtain ⟨m, new, again, member, lines, ids, rfl⟩ := comes
    exact ⟨_, m, new, wholeX, wholeY, moved, again, member, lines, ids, roundX, roundY, whole⟩

/-- The second pair already stands for the position that the node is moved to. -/
theorem returns_to_second_pair :
    Returns {} "ent A (1, 1) (2, 3)" ⟨[⟨"A", .entity, "A", ⟨1, 1⟩, none, 0⟩], [], []⟩
      ⟨"A", .entity, "A", ⟨1, 1⟩, none, 0⟩ 1.75 3.25 := by
  have reads : read {} "ent A (1, 1) (2, 3)" =
      .ok ⟨[⟨"A", .entity, "A", ⟨1, 1⟩, none, 0⟩], [], []⟩ := by decide +kernel
  refine (returns_iff (i := 0) reads rfl (by decide +kernel) (by decide +kernel)).mpr ?_
  intro line cut wholeX wholeY speaks second roundX roundY
  have own : Line.read (Document.line "ent A (1, 1) (2, 3)" 0) =
      .ok (some ⟨some (1, 1), "ent A  (2, 3)".toList⟩) := by decide +kernel
  obtain rfl := Option.some.inj (Except.ok.inj (own.symm.trans speaks))
  have first : cut? "ent A  (2, 3)".toList = some ⟨"ent A  ".toList, ⟨⟨false, [2]⟩, ⟨false, [3]⟩⟩, []⟩ :=
    by rfl
  obtain rfl := Option.some.inj (first.symm.trans second)
  have whole : Decimal.roundHalfUp 1.75 = .ok 2 ∧ Decimal.roundHalfUp 3.25 = .ok 3 := by
    decide +kernel
  obtain rfl := Except.ok.inj (whole.1.symm.trans roundX)
  obtain rfl := Except.ok.inj (whole.2.symm.trans roundY)
  exact ⟨by decide, rfl, by decide +kernel, by decide +kernel⟩

/-- A node that is moved from its first pair goes to its second one. -/
theorem not_returns_second_pair :
    read {} "ent A (1, 1) (5, 5)" = .ok ⟨[⟨"A", .entity, "A", ⟨1, 1⟩, none, 0⟩], [], []⟩ ∧
    ¬ Returns {} "ent A (1, 1) (5, 5)" ⟨[⟨"A", .entity, "A", ⟨1, 1⟩, none, 0⟩], [], []⟩
      ⟨"A", .entity, "A", ⟨1, 1⟩, none, 0⟩ 2 2 := by
  refine ⟨by decide +kernel, ?_⟩
  rintro ⟨text, m, new, wholeX, wholeY, moved, again, member, -, -, roundX, roundY, position⟩
  have written : Document.moveNode "ent A (1, 1) (5, 5)"
      ⟨[⟨"A", .entity, "A", ⟨1, 1⟩, none, 0⟩], [], []⟩ "A" 2 2 = .ok "ent A  (5, 5) (2, 2)" := by
    decide +kernel
  have reads : read {} "ent A  (5, 5) (2, 2)" =
      .ok ⟨[⟨"A", .entity, "A", ⟨5, 5⟩, none, 0⟩], [], []⟩ := by decide +kernel
  have whole : Decimal.roundHalfUp 2 = .ok 2 := by decide +kernel
  obtain rfl := Except.ok.inj (written.symm.trans moved)
  obtain rfl := Except.ok.inj (reads.symm.trans again)
  obtain rfl := List.mem_singleton.mp member
  obtain rfl := Except.ok.inj (whole.symm.trans roundX)
  obtain rfl := Except.ok.inj (whole.symm.trans roundY)
  have other : Draft.wholePosition 2 2 ≠ .ok ⟨5, 5⟩ := by decide +kernel
  exact other position

end Diagram
end EERDiagram
