import EERDiagram.Proofs.Session.Dragging

/-! A drag in a session that waits for nothing. Until it is released it changes one position of
the diagram only, and releasing it does to the text what moving the node does. -/
namespace EERDiagram.Session

/-- What a drag of one node leaves as it was when the drag began. -/
structure Grasps (s : Session) (id : String) (during : Session) : Prop where
  dragged : during.dragged = some id
  settings : during.settings = s.settings
  clock : during.clock = s.clock
  text : during.text = s.text
  pending : during.pending = s.pending
  published : during.published = s.published
  diagram : during.diagram.AgreesExcept [id] s.diagram

def moves (positions : List Position) : List Step := positions.map fun p => .dragTo p.x p.y

variable {s during : Session} {steps : List Step} {settings : Settings} {text id : String}

theorem grasps_begin (starts : (s.beginDrag id).2 = true) : s.Grasps id (s.beginDrag id).1 := by
  obtain ⟨same, -⟩ := beginDrag_of_starts starts
  rw [same]
  exact ⟨rfl, rfl, rfl, rfl, rfl, rfl, (Diagram.AgreesExcept.refl s.diagram).mono (by simp)⟩

theorem Grasps.draggedNode (grasps : s.Grasps id during) :
    during.draggedNode.map Node.unplaced = (s.diagram.find? id).map Node.unplaced := by
  rw [Session.draggedNode, grasps.dragged]
  exact Diagram.find?_of_unplaced grasps.diagram.unplaced id

theorem Grasps.dragTo (grasps : s.Grasps id during) (x y : Float) :
    s.Grasps id (during.dragTo x y) := by
  simp only [Session.dragTo]
  cases found : during.draggedNode with
  | none => exact grasps
  | some node =>
    rw [Session.draggedNode, grasps.dragged, Option.bind_some] at found
    obtain rfl := Diagram.find?_id found
    refine ⟨grasps.dragged, grasps.settings, grasps.clock, grasps.text, grasps.pending,
      grasps.published, ?_⟩
    exact (grasps.diagram.place node.id ⟨x, y⟩).mono (by simp)

theorem Grasps.run (grasps : s.Grasps id during) (positions : List Position) :
    s.Grasps id (during.run (moves positions)) := by
  induction positions generalizing during with
  | nil => exact grasps
  | cons p positions ih => exact ih (grasps.dragTo p.x p.y)

theorem Grasps.position_dragTo (grasps : s.Grasps id during)
    (present : s.diagram.find? id = some old) (p : Position) :
    ∃ node, (during.dragTo p.x p.y).draggedNode = some node ∧ node.line = old.line ∧
      node.position = p := by
  have same := grasps.draggedNode
  rw [present, Option.map_some, Option.map_eq_some_iff] at same
  obtain ⟨held, found, alike⟩ := same
  have lookup := found
  rw [Session.draggedNode, grasps.dragged, Option.bind_some] at lookup
  obtain rfl := Diagram.find?_id lookup
  refine ⟨{ held with position := p }, ?_, Node.line_of_unplaced alike, rfl⟩
  simp only [Session.dragTo, found]
  rw [Session.draggedNode, grasps.dragged, Option.bind_some, Diagram.find?_place, lookup]
  rfl

theorem Grasps.timed (grasps : s.Grasps id during) (timed : s.Timed) : during.Timed := by
  rw [Timed, live, grasps.clock, grasps.pending]
  exact timed

/-- Once every step succeeded and nothing is pending, the diagram that a drag works on declares the
same nodes on the same lines as the text. -/
theorem Synced.find? (synced : s.Synced r) (idle : s.pending = none)
    (found : s.diagram.find? id = some node) :
    ∃ m old, Diagram.read s.settings.layout s.text = .ok m ∧ m.find? id = some old ∧
      old.line = node.line := by
  obtain ⟨m, reads, agrees⟩ := synced.diagram
  have same := Diagram.find?_of_unplaced agrees.unplaced id
  rw [found, Option.map_some, eq_comm, Option.map_eq_some_iff] at same
  obtain ⟨old, lookup, alike⟩ := same
  rw [synced.idle idle] at reads
  exact ⟨m, old, reads, lookup, Node.line_of_unplaced alike⟩

/-- A drag that ends at a position, with whatever moves before, writes what moving the node there
writes; until its release it only changes where that node stands. -/
theorem endDrag_eq_moveNode {clock : Clock}
    (begins : begin? settings (some clock) text = .ok s) (fresh : clock.live = [])
    (stays : Step.close ∉ steps) (succeeds : s.succeeds steps = true)
    (idle : (s.run steps).pending = none) (starts : ((s.run steps).beginDrag id).2 = true)
    (positions : List Position) (last : Position) :
    let before := s.run steps
    let begun := (before.beginDrag id).1
    let released := (begun.run (moves (positions ++ [last]))).endDrag
    (∃ m, Diagram.read settings.layout before.text = .ok m ∧
      let moved := Document.afterMove before.text
        (Document.moveNode before.text m id last.x last.y)
      released.2 = .ok moved ∧ released.1.text = moved) ∧
    released.1.dragged = none ∧ released.1.pending ≠ none ∧
    ∀ part, part <+: positions ++ [last] → before.Grasps id (begun.run (moves part)) := by
  intro before begun released
  obtain ⟨synced, rfl⟩ := synced_begin begins (by simpa using fresh)
  have after : before.Synced _ := synced.run steps stays succeeds
  have kept := stays_run synced.timed steps
  have present : before.clock ≠ none := by
    obtain ⟨d, -, same⟩ := begin?_eq_ok.mp begins
    have given : some clock = s.clock := congrArg Session.clock same
    rw [ne_eq, kept.clock, ← given]
    simp
  obtain ⟨-, node, found⟩ := beginDrag_of_starts starts
  obtain ⟨m, old, reads, lookup, line⟩ := after.find? idle found
  rw [kept.settings] at reads
  have grasps : before.Grasps id (begun.run (moves positions)) := (grasps_begin starts).run positions
  have ends : begun.run (moves (positions ++ [last])) =
      (begun.run (moves positions)).dragTo last.x last.y := by
    rw [moves, List.map_append, run_append]
    rfl
  have grasps' := grasps.dragTo last.x last.y
  obtain ⟨held, dragged, stands, position⟩ := grasps.position_dragTo found last
  obtain ⟨clock', handle, outcome⟩ := endDrag_released (grasps'.timed after.timed)
    (by rwa [grasps'.clock]) dragged
  have moved : Document.moveNode before.text m id last.x last.y =
      Document.writePosition before.text held.line last.x last.y := by
    simp only [Document.moveNode, lookup, stands, line]
  rw [grasps'.text, position, ← moved, ← ends] at outcome
  refine ⟨⟨m, reads, ?_⟩, ?_, ?_, fun part _ => (grasps_begin starts).run part⟩
  · exact ⟨congrArg Prod.snd outcome, congrArg (fun o => o.1.text) outcome⟩
  · exact congrArg (fun o => o.1.dragged) outcome
  · have waits := congrArg (fun o => o.1.pending) outcome
    rw [ne_eq, show released.1.pending = some handle from waits]
    simp

/-- A drag that is given up for another one, which passes through a place at infinity. -/
theorem endDrag_eq_moveNode_second :
    let steps := [.beginDrag "B", .dragTo 9 9]
    let begun := ((sample.run steps).beginDrag "A").1
    (begun.run (moves ([⟨1.0 / 0.0, 2⟩] ++ [⟨5.5, -6⟩]))).endDrag.2 =
      .ok "ent A (6, -6)\nent B (3, 4)" := by
  intro steps begun
  have starts : ((sample.run steps).beginDrag "A").2 = true := by decide +kernel
  obtain ⟨⟨m, reads, released, -⟩, -⟩ := endDrag_eq_moveNode begin?_sample rfl
    (by decide : Step.close ∉ steps) (by decide +kernel) rfl starts [⟨1.0 / 0.0, 2⟩] ⟨5.5, -6⟩
  obtain rfl : sample.diagram = m := Except.ok.inj (read_sample.symm.trans reads)
  have moved : Document.afterMove sample.text (Document.moveNode sample.text sample.diagram "A"
      5.5 (-6)) = "ent A (6, -6)\nent B (3, 4)" := by decide +kernel
  exact released.trans (congrArg Except.ok moved)

end EERDiagram.Session
