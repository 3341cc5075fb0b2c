import EERDiagram.Proofs.Diagram.Placement

/-! What is drawn of a diagram: the kinds, labels and positions of its nodes, in their order. It
comes from the declaring lines alone, so edits of other lines leave it as it is, although they
change the indexes of lines and the ids that are made from them. -/
namespace EERDiagram

structure Figure where
  kind : Kind
  label : String
  discriminator : Option String
  position : Position
  deriving DecidableEq, Repr

def Node.figure (node : Node) : Figure :=
  ⟨node.kind, node.label, node.discriminator, node.position⟩

/-- What a declaration has drawn at a position. -/
def Statement.figure? (position : Position) : Statement → Option Figure
  | .node kind label _ => some ⟨kind, label, none, position⟩
  | .hierarchy kind name _ =>
    let discriminator := name.getD (defaultDiscriminator kind)
    some ⟨kind, discriminator, some discriminator, position⟩
  | _ => none

/-- What a raw line says if it declares a node. -/
def Line.declaration? (raw : List Char) : Option Line :=
  match read raw with
  | .ok (some line) => if (Statement.read line.text).declares then some line else none
  | _ => none

/-- What the declaring lines of a document say, in their order. -/
def Document.declarations (document : String) : List Line :=
  (Text.splitLines document.toList).filterMap Line.declaration?

/-- How many of the first declarations have no coordinates. -/
def Line.unplaced (declarations : List Line) (count : Nat) : Nat :=
  (declarations.take count).countP (·.coordinates.isNone)

/-- The figure of a declaration stands at the line's own coordinates or, if it has none, where the
spiral puts the node that comes after `turns` others. -/
structure Line.Draws (spiral : Spiral) (turns : Nat) (line : Line) (figure : Figure) : Prop where
  shown : (Statement.read line.text).figure? figure.position = some figure
  own : ∀ x y, line.coordinates = some (x, y) → Draft.wholePosition x y = .ok figure.position
  next : line.coordinates = none → spiral.Places turns figure.position

variable {spiral : Spiral} {draft next final : Draft} {index turns : Nat} {line : Line}
  {raw : List Char} {lines : List (List Char)} {entries : List Entry} {entry : Option Entry}
  {node : Node} {shorthand : Option Link}

theorem Line.Draws.unique (left : line.Draws spiral turns figure)
    (right : line.Draws spiral turns other) : figure = other := by
  have same : figure.position = other.position := by
    cases pair : line.coordinates with
    | none => exact (left.next pair).unique (right.next pair)
    | some own => exact Except.ok.inj ((left.own _ _ pair).symm.trans (right.own _ _ pair))
  have shown := left.shown
  rw [same, right.shown] at shown
  exact (Option.some.inj shown).symm

theorem Line.unplaced_cons (line : Line) (rest : List Line) (count : Nat) :
    unplaced (line :: rest) (count + 1) =
      (if line.coordinates.isNone then 1 else 0) + unplaced rest count := by
  rw [unplaced, List.take_succ_cons, List.countP_cons, unplaced, Nat.add_comm]

theorem Statement.figure?_of_entry {s : Statement} {id : String}
    (entered : s.entry index text id position = .node node shorthand) :
    s.figure? position = some node.figure := by
  cases s with
  | node | hierarchy =>
    obtain ⟨rfl, -⟩ := Entry.node.inj entered
    rfl
  | link | ignored => contradiction

theorem Draft.step_declaration (steps : draft.step spiral index raw = .ok (entry, next)) :
    (Line.declaration? raw = none ∧ entry.toList.filterMap Entry.node? = [] ∧ next = draft) ∨
    ∃ line node shorthand placed, Line.declaration? raw = some line ∧
      entry = some (.node node shorthand) ∧
      draft.position spiral line = .ok (node.position, placed) ∧
      (Statement.read line.text).figure? node.position = some node.figure ∧
      next.angle = placed.angle := by
  rcases step_cases steps with ⟨reads, rfl, rfl⟩ | ⟨line, reads, declared, entered, rfl⟩ |
    ⟨line, point, placed, reads, declared, found, rfl, rfl⟩
  · left
    simp [Line.declaration?, reads]
  · left
    have other := Statement.node?_entry declared index line.text "" ⟨0, 0⟩
    rw [entered "" ⟨0, 0⟩]
    simp [Line.declaration?, reads, declared, other]
  · right
    obtain ⟨node, shorthand, entered, -, positions, -⟩ := Statement.entry_of_declares declared index
      line.text ((Statement.read line.text).newId draft.taken index) point
    subst positions
    refine ⟨line, node, shorthand, placed, ?_, congrArg some entered, found,
      Statement.figure?_of_entry entered, rfl⟩
    simp [Line.declaration?, reads, declared]

theorem Line.draws_of_position (placed : draft.position spiral line = .ok (node.position, next))
    (shown : (Statement.read line.text).figure? node.position = some node.figure)
    (start : draft.angle = spiral.angleAfter turns) : line.Draws spiral turns node.figure ∧
      next.angle = spiral.angleAfter (turns + if line.coordinates.isNone then 1 else 0) := by
  rcases Draft.position_cases placed with ⟨x, y, pair, whole, rfl⟩ | ⟨pair, point, rfl⟩
  · refine ⟨⟨shown, ?_, ?_⟩, ?_⟩
    · intro a b given
      obtain ⟨rfl, rfl⟩ := Prod.mk.inj (Option.some.inj (pair.symm.trans given))
      exact whole
    · simp [pair]
    · simpa [pair] using start
  · rw [start] at point
    refine ⟨⟨shown, ?_, fun _ => Spiral.places_iff.mpr point⟩, ?_⟩
    · simp [pair]
    · simp only [pair, Option.isNone_none, if_true, start]
      rfl

theorem Reading.Runs.drawn (run : Runs spiral draft index lines entries final)
    (start : draft.angle = spiral.angleAfter turns) :
    (entries.filterMap Entry.node?).length = (lines.filterMap Line.declaration?).length ∧
    ∀ (j : Nat) line node, (lines.filterMap Line.declaration?)[j]? = some line →
      (entries.filterMap Entry.node?)[j]? = some node →
      line.Draws spiral (turns + Line.unplaced (lines.filterMap Line.declaration?) j)
        node.figure := by
  induction run generalizing turns with
  | nil => simp
  | @cons draft next final index raw rest entry entries steps run ih =>
    rw [List.filterMap_append]
    rcases Draft.step_declaration steps with ⟨none, empty, rfl⟩ |
      ⟨line, node, shorthand, placed, declares, rfl, found, shown, angle⟩
    · rw [empty, List.nil_append, List.filterMap_cons_none none]
      exact ih start
    · obtain ⟨draws, turned⟩ := Line.draws_of_position found shown start
      obtain ⟨length, drawn⟩ := ih (angle.trans turned)
      rw [List.filterMap_cons_some declares]
      refine ⟨by simp [Entry.node?, length], fun j other later atDeclaration atNode => ?_⟩
      cases j with
      | zero =>
        obtain rfl := Option.some.inj atDeclaration
        obtain rfl := Option.some.inj atNode
        exact draws
      | succ j =>
        rw [Line.unplaced_cons, ← Nat.add_assoc]
        exact drawn j other later atDeclaration atNode

namespace Diagram

variable {document other : String} {d m : Diagram}

end Diagram
end EERDiagram
