import EERDiagram.Proofs.Session.Agreement

/-! A drag with readings in the middle of it. The dragged position lives in the diagram, so a
reading after the last move puts the node back where the text has it. -/
namespace EERDiagram.Session

def Step.keepsDrag : Step → Bool
  | .dragTo .. | .parseNow | .advance _ => true
  | _ => false

def Step.drags : Step → Bool
  | .dragTo .. => true
  | _ => false

variable {s : Session} {step : Step} {steps : List Step} {text id : String} {line : Int}
  {m : Diagram} {new : Node}

theorem parse_frame (s : Session) :
    s.parse.1.text = s.text ∧ s.parse.1.dragged = s.dragged := by
  rcases parse_cases s with ⟨d, -, parsed⟩ | ⟨e, -, parsed⟩ <;> rw [parsed] <;> exact ⟨rfl, rfl⟩

theorem perform_frame (timed : s.Timed) (keeps : step.keepsDrag = true) :
    (s.perform step).1.text = s.text ∧ (s.perform step).1.dragged = s.dragged := by
  cases step with
  | setText | beginDrag | endDrag | close => simp [Step.keepsDrag] at keeps
  | dragTo x y =>
    simp only [perform, dragTo]
    split <;> simp
  | parseNow =>
    obtain ⟨text, dragged⟩ := parse_frame s.cancelPending
    exact ⟨text.trans (by rw [cancelPending_eq]), dragged.trans (by rw [cancelPending_eq])⟩
  | advance seconds =>
    simp only [perform]
    rcases advance_cases timed seconds with ⟨-, clock, -, -, same⟩ | ⟨timer, clock, -, -, -, same⟩
    · rw [same]
      exact ⟨rfl, rfl⟩
    · obtain ⟨text, dragged⟩ := parse_frame { s with clock, pending := none }
      rw [same]
      exact ⟨text, dragged⟩

/-- A drag of the node that stands on a line, in the text as it was when the drag began. -/
structure Holds (s : Session) (settings : Settings) (text id : String) (line : Int) : Prop where
  timed : s.Timed
  settings : s.settings = settings
  clock : s.clock ≠ none
  text : s.text = text
  dragged : s.dragged = some id
  node : ∃ node, s.diagram.find? id = some node ∧ node.line = line

variable {settings : Settings}

theorem Holds.perform (holds : s.Holds settings text id line)
    (reads : Diagram.read settings.layout text = .ok m) (own : m.find? id = some new)
    (same : new.line = line) (keeps : step.keepsDrag = true) :
    (s.perform step).1.Holds settings text id line := by
  obtain ⟨sameText, dragged⟩ := perform_frame holds.timed keeps
  obtain ⟨stays, effect⟩ := perform_effect holds.timed step
  refine ⟨stays.timed, stays.settings.trans holds.settings, mt stays.clock.mp holds.clock,
    sameText.trans holds.text, dragged.trans holds.dragged, ?_⟩
  cases effect with
  | kept _ diagram | written diagram | failed _ _ diagram =>
    rw [diagram]
    exact holds.node
  | moved node position found _ diagram =>
    obtain ⟨held, lookup, stands⟩ := holds.node
    rw [Session.draggedNode, holds.dragged, Option.bind_some, lookup] at found
    obtain rfl := Option.some.inj found
    obtain rfl := Diagram.find?_id lookup
    refine ⟨{ held with position }, ?_, stands⟩
    rw [diagram, Diagram.find?_place, lookup]
    rfl
  | parsed _ read =>
    rw [holds.settings, holds.text, reads] at read
    rw [← Except.ok.inj read]
    exact ⟨new, own, same⟩

theorem Holds.run (holds : s.Holds settings text id line)
    (reads : Diagram.read settings.layout text = .ok m) (own : m.find? id = some new)
    (same : new.line = line) (keep : ∀ step ∈ steps, step.keepsDrag = true) :
    (s.run steps).Holds settings text id line := by
  induction steps generalizing s with
  | nil => exact holds
  | cons step steps ih =>
    rw [List.forall_mem_cons] at keep
    exact ih (holds.perform reads own same keep.1) keep.2

theorem events_of_rests (rests : step.drags = false) :
    ∀ event ∈ s.events step, event = .parsed s.text := by
  cases step with
  | dragTo => simp [Step.drags] at rests
  | setText | beginDrag | endDrag | close => simp [events]
  | parseNow | advance => simp +contextual [events]

theorem Holds.diagram_perform (holds : s.Holds settings text id line)
    (reads : Diagram.read settings.layout text = .ok m)
    (rests : step.drags = false) :
    (s.events step = [] ∧ (s.perform step).1.diagram = s.diagram) ∨
      (s.events step ≠ [] ∧ (s.perform step).1.diagram = m) := by
  obtain ⟨-, effect⟩ := perform_effect holds.timed step
  cases effect with
  | kept _ diagram _ events | written diagram _ events => exact .inl ⟨events, diagram⟩
  | moved node _ _ _ _ _ events =>
    have member : .moved node.id ∈ s.events step := by simp [events]
    have parsed := events_of_rests rests _ member
    contradiction
  | parsed _ read _ events =>
    rw [holds.settings, holds.text, reads] at read
    exact .inr ⟨by simp [events], (Except.ok.inj read).symm⟩
  | failed _ _ _ fails =>
    rw [holds.settings, holds.text, reads] at fails
    contradiction

theorem Holds.diagram_run (holds : s.Holds settings text id line)
    (reads : Diagram.read settings.layout text = .ok m) (own : m.find? id = some new)
    (same : new.line = line) (keep : ∀ step ∈ steps, step.keepsDrag = true)
    (rest : ∀ step ∈ steps, step.drags = false) :
    (s.history steps = [] ∧ (s.run steps).diagram = s.diagram) ∨
      (s.history steps ≠ [] ∧ (s.run steps).diagram = m) := by
  induction steps generalizing s with
  | nil => exact .inl ⟨rfl, rfl⟩
  | cons step steps ih =>
    rw [List.forall_mem_cons] at keep rest
    have first := holds.diagram_perform reads rest.1
    have later := ih (holds.perform reads own same keep.1) keep.2 rest.2
    rw [history, ne_eq, List.append_eq_nil_iff, Session.run]
    rcases later with ⟨none, diagram⟩ | ⟨some, diagram⟩
    · rw [diagram]
      simpa [none] using first
    · exact .inr ⟨fun empty => some empty.2, diagram⟩

theorem Holds.endDrag (holds : s.Holds settings text id line)
    (found : s.diagram.find? id = some new) (stands : new.line = line) :
    s.endDrag.2 = .ok (Document.afterMove text
      (Document.writePosition text line new.position.x new.position.y)) := by
  have dragged : s.draggedNode = some new := by
    rw [Session.draggedNode, holds.dragged, Option.bind_some, found]
  obtain ⟨clock, handle, released⟩ := endDrag_released holds.timed holds.clock dragged
  rw [released, holds.text, stands]

theorem Holds.dragTo (holds : s.Holds settings text id line) (x y : Float) :
    ∃ node, (s.dragTo x y).diagram.find? id = some node ∧ node.line = line ∧
      node.position = ⟨x, y⟩ := by
  obtain ⟨held, lookup, stands⟩ := holds.node
  obtain rfl := Diagram.find?_id lookup
  have dragged : s.draggedNode = some held := by
    rw [Session.draggedNode, holds.dragged, Option.bind_some, lookup]
  refine ⟨{ held with position := ⟨x, y⟩ }, ?_, stands, rfl⟩
  simp only [Session.dragTo, dragged]
  rw [Diagram.find?_place, lookup]
  rfl

theorem beginDrag_of_starts (starts : (s.beginDrag id).2 = true) :
    (s.beginDrag id).1 = { s with dragged := some id } ∧
      ∃ node, s.diagram.find? id = some node := by
  simp only [beginDrag] at starts ⊢
  split at starts
  · contradiction
  next node found => exact ⟨rfl, node, found⟩

/-- What releasing answers after a drag: the last dragged position is written if no reading came
after it, and otherwise the position that the text has. -/
theorem Holds.endDrag_run (holds : s.Holds settings text id new.line)
    (reads : Diagram.read settings.layout text = .ok m) (own : m.find? id = some new)
    (keep : ∀ step ∈ before ++ .dragTo x y :: after, step.keepsDrag = true)
    (last : ∀ step ∈ after, step.drags = false) :
    let final := s.run (before ++ .dragTo x y :: after)
    let write (p : Position) :=
      Document.afterMove text (Document.writePosition text new.line p.x p.y)
    ((s.run (before ++ [.dragTo x y])).history after = [] ∧ final.endDrag.2 = .ok (write ⟨x, y⟩)) ∨
      ((s.run (before ++ [.dragTo x y])).history after ≠ [] ∧
        final.endDrag.2 = .ok (write new.position)) := by
  intro final write
  -- up to the last move the drag only has to hold the node on its line
  rw [List.forall_mem_append, List.forall_mem_cons] at keep
  have first := holds.run reads own rfl keep.1
  have moved := first.perform reads own rfl keep.2.1
  have done := moved.run reads own rfl keep.2.2
  have whole : final = ((s.run before).dragTo x y).run after := run_append s before _
  have split : s.run (before ++ [.dragTo x y]) = (s.run before).dragTo x y := run_append s before _
  obtain ⟨node, found, stands, position⟩ := first.dragTo x y
  rw [split, whole]
  rcases moved.diagram_run reads own rfl keep.2.2 last with ⟨none, diagram⟩ | ⟨some, diagram⟩
  · refine .inl ⟨none, ?_⟩
    have released := done.endDrag (diagram ▸ found) stands
    rwa [position] at released
  · exact .inr ⟨some, done.endDrag (diagram ▸ own) rfl⟩

/-- A drag is released where it was last dragged exactly when no reading came after that, or when
the position that the text has is written the same. -/
theorem endDrag_eq_dragged_iff {clock : Clock}
    (begins : begin? settings (some clock) first = .ok s) (fresh : clock.live = [])
    (steps : List Step)
    (starts : ((s.run steps).beginDrag id).2 = true)
    (reads : Diagram.read settings.layout (s.run steps).text = .ok m)
    (own : m.find? id = some new)
    (same : ∀ node, (s.run steps).diagram.find? id = some node → node.line = new.line)
    (keep : ∀ step ∈ before ++ .dragTo x y :: after, step.keepsDrag = true)
    (last : ∀ step ∈ after, step.drags = false) :
    let text := (s.run steps).text
    let dragging := ((s.run steps).beginDrag id).1
    (dragging.run (before ++ .dragTo x y :: after)).endDrag.2 =
        .ok (Document.afterMove text (Document.writePosition text new.line x y)) ↔
      (dragging.run (before ++ [.dragTo x y])).history after = [] ∨
        Document.afterMove text
            (Document.writePosition text new.line new.position.x new.position.y) =
          Document.afterMove text (Document.writePosition text new.line x y) := by
  intro text dragging
  obtain ⟨synced, rfl⟩ := synced_begin begins (by simpa using fresh)
  obtain ⟨started, node, found⟩ := beginDrag_of_starts starts
  have present : s.clock ≠ none := by
    obtain ⟨d, -, same⟩ := begin?_eq_ok.mp begins
    have given : some clock = s.clock := congrArg Session.clock same
    simp [← given]
  have holds : dragging.Holds s.settings text id new.line := by
    rw [show dragging = _ from started]
    have stays := stays_run synced.timed steps
    exact ⟨stays.timed, stays.settings, mt stays.clock.mp present, rfl, rfl, node, found,
      same node found⟩
  rcases holds.endDrag_run reads own keep last with ⟨none, released⟩ | ⟨some, released⟩
  · exact ⟨fun _ => .inl none, fun _ => released⟩
  · rw [released]
    constructor
    · exact fun equal => .inr (Except.ok.inj equal)
    · exact fun either => congrArg Except.ok (either.resolve_left some)

/-- A reading before the last move, and time that passes after it. -/
theorem endDrag_after_early_parse :
    ((sample.beginDrag "A").1.run
      ([.dragTo 3 4, .parseNow] ++ .dragTo 5 6 :: [.advance 1])).endDrag.2 =
      .ok (Document.afterMove sample.text (Document.writePosition sample.text 0 5 6)) := by
  have own : sample.diagram.find? "A" = some ⟨"A", .entity, "A", ⟨1, 2⟩, none, 0⟩ := rfl
  have same : ∀ node, sample.diagram.find? "A" = some node → node.line = 0 := by
    intro node found
    rw [← Option.some.inj (own.symm.trans found)]
  have quiet : ((sample.beginDrag "A").1.run ([.dragTo 3 4, .parseNow] ++ [.dragTo 5 6])).history
      [.advance 1] = [] := by decide +kernel
  exact (endDrag_eq_dragged_iff begin?_sample rfl [] rfl read_sample own same (by decide)
    (by decide)).mpr (.inl quiet)

/-- A reading after the last move puts the node back, and releasing writes that. -/
theorem endDrag_loses_drag :
    begin? {} (some {}) sample.text = .ok sample ∧ (sample.beginDrag "A").2 = true ∧
      Diagram.read {} sample.text = .ok sample.diagram ∧
      sample.diagram.find? "A" = some ⟨"A", .entity, "A", ⟨1, 2⟩, none, 0⟩ ∧
      ((sample.beginDrag "A").1.run [.dragTo 5 6, .parseNow]).endDrag.2 ≠
        .ok (Document.afterMove sample.text (Document.writePosition sample.text 0 5 6)) :=
  ⟨begin?_sample, rfl, read_sample, rfl, by decide +kernel⟩

end EERDiagram.Session
