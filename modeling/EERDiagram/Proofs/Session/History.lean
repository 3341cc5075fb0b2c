import EERDiagram.Proofs.Session.Timing

/-! What a session has done, beside what it is: the texts that it read, and the nodes that it
moved in its diagram since the last of them. -/
namespace EERDiagram.Session

/-- What a step does to the diagram: it tries to read the text, or it moves a node. -/
inductive Event where
  | parsed (text : String)
  | moved (id : String)
  deriving DecidableEq, Repr

def events (s : Session) : Step → List Event
  | .parseNow => [.parsed s.text]
  | .dragTo _ _ => s.draggedNode.toList.map fun node => .moved node.id
  | .advance seconds => (s.liveDue seconds).map fun _ => .parsed s.text
  | _ => []

def history (s : Session) : List Step → List Event
  | [] => []
  | step :: steps => s.events step ++ (s.perform step).1.history steps

/-- The text that the diagram was last read from, the nodes moved since, and all texts whose
reading was tried since the session began. -/
structure Record where
  text : String
  moved : List String := []
  parsed : List String := []

/-- A text that has no diagram leaves the old one, and what was moved in it. -/
def Record.note (spiral : Spiral) (r : Record) : Event → Record
  | .parsed text =>
    if (Diagram.read spiral text).isOk then ⟨text, [], r.parsed ++ [text]⟩
    else { r with parsed := r.parsed ++ [text] }
  | .moved id => { r with moved := id :: r.moved }

def Record.noteAll (spiral : Spiral) (r : Record) (events : List Event) : Record :=
  events.foldl (Record.note spiral) r

def record (s : Session) (text : String) (steps : List Step) : Record :=
  Record.noteAll s.settings.layout ⟨text, [], []⟩ (s.history steps)

/-- Everything a step can do to a session whose live timer is the pending one. -/
inductive Effect (s : Session) (step : Step) (s' : Session) : Prop where
  | kept (text : s'.text = s.text) (diagram : s'.diagram = s.diagram)
      (published : s'.published = s.published) (events : s.events step = [])
      (pending : s'.pending = s.pending ∨ step = .close)
  | written (diagram : s'.diagram = s.diagram) (published : s'.published = s.published)
      (events : s.events step = [])
      (pending : s'.pending ≠ none ∨ ∃ e, (s.perform step).2 = .error e)
  | moved (node : Node) (position : Position) (dragged : s.draggedNode = some node)
      (text : s'.text = s.text) (diagram : s'.diagram = s.diagram.place node.id position)
      (published : s'.published = s.published) (events : s.events step = [.moved node.id])
      (pending : s'.pending = s.pending)
  | parsed (text : s'.text = s.text)
      (reads : Diagram.read s.settings.layout s.text = .ok s'.diagram)
      (published : s'.published = s.published ++ [s'.diagram])
      (events : s.events step = [.parsed s.text])
  | failed (error : ReadingError) (text : s'.text = s.text) (diagram : s'.diagram = s.diagram)
      (reads : Diagram.read s.settings.layout s.text = .error error)
      (published : s'.published = s.published) (events : s.events step = [.parsed s.text])
      (refused : (s.perform step).2 = .error (.reading error))

variable {s : Session}

theorem parse_cases (s : Session) :
    (∃ d, Diagram.read s.settings.layout s.text = .ok d ∧
      s.parse = ({ s with diagram := d, published := s.published ++ [d] }, .ok d)) ∨
    ∃ e, Diagram.read s.settings.layout s.text = .error e ∧ s.parse = (s, .error (.reading e)) := by
  cases reads : Diagram.read s.settings.layout s.text with
  | ok d => exact .inl ⟨d, rfl, by simp only [parse, reads]⟩
  | error e => exact .inr ⟨e, rfl, by simp only [parse, reads]⟩

theorem setText_eq (s : Session) (text : String) :
    (s.setText text).1 =
      { s with text, clock := (s.setText text).1.clock, pending := (s.setText text).1.pending } :=
  schedule_eq { s with text }

theorem setText_pending (timed : s.Timed) (text : String) :
    (s.setText text).1.pending ≠ none ∨ (s.setText text).2 = .error .noClock := by
  by_cases absent : s.clock = none
  · right
    rw [setText, schedule_of_no_clock (s := { s with text }) absent]
  · left
    obtain ⟨clock, handle, -, scheduled⟩ := schedule_of_clock (s := { s with text }) timed absent
    rw [setText, scheduled]
    simp

theorem endDrag_of_not_dragged (absent : s.draggedNode = none) :
    s.endDrag = ({ s with dragged := none }, .ok s.text) := by
  simp only [endDrag, absent]

theorem endDrag_of_dragged (found : s.draggedNode = some node) :
    s.endDrag = (({ s with dragged := none }.setText (Document.afterMove s.text
        (Document.writePosition s.text node.line node.position.x node.position.y))).1,
      ({ s with dragged := none }.setText (Document.afterMove s.text
        (Document.writePosition s.text node.line node.position.x node.position.y))).2.map
        fun _ => Document.afterMove s.text
          (Document.writePosition s.text node.line node.position.x node.position.y)) := by
  simp only [endDrag, found]
  rw [setText_eq]

/-- With a clock a release succeeds, and the text that it writes waits to be read. -/
theorem endDrag_released (timed : s.Timed) (present : s.clock ≠ none)
    (found : s.draggedNode = some node) :
    ∃ clock handle, s.endDrag =
      ({ s with
          dragged := none
          text := Document.afterMove s.text
            (Document.writePosition s.text node.line node.position.x node.position.y)
          clock := some clock
          pending := some handle },
        .ok (Document.afterMove s.text
          (Document.writePosition s.text node.line node.position.x node.position.y))) := by
  obtain ⟨clock, handle, -, scheduled⟩ := schedule_of_clock
    (s := { s with
      dragged := none
      text := Document.afterMove s.text
        (Document.writePosition s.text node.line node.position.x node.position.y) })
    timed present
  refine ⟨clock, handle, ?_⟩
  rw [endDrag_of_dragged found, setText, scheduled]
  rfl

structure Stays (s s' : Session) : Prop where
  timed : s'.Timed
  settings : s'.settings = s.settings
  clock : s'.clock = none ↔ s.clock = none

theorem Stays.refl (timed : s.Timed) : s.Stays s := ⟨timed, rfl, .rfl⟩

theorem parse_effect {step : Step} {clock : Option Clock} (present : clock = none ↔ s.clock = none)
    (timed : { s with clock, pending := none }.Timed) (asks : s.events step = [.parsed s.text])
    (outcome : ∀ e, { s with clock, pending := none }.parse.2 = .error e →
      (s.perform step).2 = .error e) :
    s.Stays { s with clock, pending := none }.parse.1 ∧
      Effect s step { s with clock, pending := none }.parse.1 := by
  rcases parse_cases { s with clock, pending := none } with ⟨d, reads, parsed⟩ | ⟨e, reads, parsed⟩
  · rw [parsed]
    exact ⟨⟨timed, rfl, present⟩, .parsed rfl reads rfl asks⟩
  · have refused := outcome (.reading e) (by rw [parsed])
    rw [parsed]
    exact ⟨⟨timed, rfl, present⟩, .failed e rfl rfl reads rfl asks refused⟩

theorem setText_effect (timed : s.Timed) {step : Step} {dragged : Option String} {text : String}
    (events : s.events step = [])
    (outcome : ∀ e, ({ s with dragged }.setText text).2 = .error e →
      ∃ e, (s.perform step).2 = .error e) :
    s.Stays ({ s with dragged }.setText text).1 ∧
      Effect s step ({ s with dragged }.setText text).1 := by
  have pending := (setText_pending (s := { s with dragged }) timed text).imp_right (outcome _)
  have after := timed_schedule (s := { s with dragged, text }) timed
  have present := clock_schedule (s := { s with dragged, text }) timed
  have same := setText_eq { s with dragged } text
  refine ⟨⟨after, ?_, present⟩, .written ?_ ?_ events pending⟩ <;> rw [same]

theorem perform_effect (timed : s.Timed) (step : Step) :
    s.Stays (s.perform step).1 ∧ Effect s step (s.perform step).1 := by
  cases step with
  | setText text =>
    exact setText_effect timed rfl fun e failed => ⟨e, by simp only [perform]; rw [failed]; rfl⟩
  | parseNow =>
    have same := cancelPending_eq s
    have cancelled := timed_cancelPending timed
    simp only [perform, parseNow]
    rw [same] at cancelled ⊢
    apply parse_effect clock_cancelPending cancelled rfl
    intro e failed
    simp only [perform, parseNow]
    rw [same, failed]
    rfl
  | beginDrag id =>
    simp only [perform, beginDrag]
    split <;> exact ⟨⟨timed, rfl, .rfl⟩, .kept rfl rfl rfl rfl (.inl rfl)⟩
  | dragTo x y =>
    simp only [perform, dragTo]
    cases found : s.draggedNode with
    | none => exact ⟨.refl timed, .kept rfl rfl rfl (by simp [events, found]) (.inl rfl)⟩
    | some node =>
      exact ⟨⟨timed, rfl, .rfl⟩,
        .moved node ⟨x, y⟩ found rfl rfl rfl (by simp [events, found]) rfl⟩
  | endDrag =>
    simp only [perform]
    cases found : s.draggedNode with
    | none =>
      rw [endDrag_of_not_dragged found]
      exact ⟨⟨timed, rfl, .rfl⟩, .kept rfl rfl rfl rfl (.inl rfl)⟩
    | some node =>
      rw [endDrag_of_dragged found]
      refine setText_effect timed rfl fun e failed => ⟨e, ?_⟩
      simp only [perform]
      rw [endDrag_of_dragged found, failed]
      rfl
  | close =>
    have stays : s.Stays s.cancelPending :=
      ⟨timed_cancelPending timed, by rw [cancelPending_eq], clock_cancelPending⟩
    refine ⟨stays, ?_⟩
    simp only [perform, close]
    rw [cancelPending_eq]
    exact .kept rfl rfl rfl rfl (.inr rfl)
  | advance seconds =>
    simp only [perform]
    rcases advance_cases timed seconds with
      ⟨due, clock, present, timed, same⟩ | ⟨timer, clock, due, present, timed, same⟩
    · rw [same]
      exact ⟨⟨timed, rfl, present⟩, .kept rfl rfl rfl (by simp [events, due]) (.inl rfl)⟩
    · rw [same]
      apply parse_effect present timed (by simp [events, due])
      intro e failed
      simp only [perform]
      rw [same, failed]
      rfl

theorem run_append (s : Session) (before after : List Step) :
    s.run (before ++ after) = (s.run before).run after := by
  induction before generalizing s with
  | nil => rfl
  | cons step before ih => exact ih _

theorem stays_run (timed : s.Timed) (steps : List Step) : s.Stays (s.run steps) := by
  induction steps generalizing s with
  | nil => exact .refl timed
  | cons step steps ih =>
    have first := (perform_effect timed step).1
    have later := ih first.timed
    exact ⟨later.timed, later.settings.trans first.settings, later.clock.trans first.clock⟩

end EERDiagram.Session
