import EERDiagram.Proofs.Session.Debounce
import EERDiagram.Proofs.Session.Dragging
import Mathlib.Algebra.Group.Int.Defs

/-! Readings that fail. A text without a diagram costs a session the timer that was to read it and
nothing else, and a later text is read as if the session had begun with it. -/
namespace EERDiagram.Session

/-- Steps that read the text, on demand or by a timer that comes due. -/
def asks (s : Session) : Step → Bool
  | .parseNow => true
  | step => s.fired step != []

def Step.answer (m : Diagram) : Step → Answer
  | .parseNow => .parsed m
  | _ => .done

/-- Everything stays as it was, except that no reading waits any more. -/
structure Unharmed (s s' : Session) : Prop where
  same : ∃ clock, s' = { s with clock, pending := none }
  quiet : s'.running = []

/-- A session in which any text that has a diagram can be set, and is then read as a session that
begins with it reads it. -/
structure Recovers (s : Session) : Prop where
  /-- The timer of the new text comes due one delay after it was set. -/
  due : ∀ text clock seconds, s.clock = some clock →
    ((s.perform (.setText text)).1.asks (.advance seconds) = true ↔
      clock.now + s.settings.debounceSeconds ≤ clock.now + seconds)
  /-- Whatever else was done since the text was set, reading it publishes the diagram that a session
  begins with, and nothing is left of the text before it. -/
  reads : ∀ text m waiting step,
    let set := (s.perform (.setText text)).1
    Diagram.read s.settings.layout text = .ok m → set.setsTextIn waiting = false →
    (set.run waiting).asks step = true →
    ∃ clock fresh, begin? s.settings clock text = .ok fresh ∧
      (set.run waiting).perform step =
        ({ fresh with
            dragged := (set.run waiting).dragged
            published := (set.run waiting).published ++ [fresh.diagram] },
          .ok (step.answer fresh.diagram))

variable {s : Session} {alarm : Option Timer} {step : Step} {steps : List Step}
  {settings : Settings} {clock : Option Clock} {text : String}

/-- A step that asks for a reading ends the wait for it, whatever becomes of it. -/
theorem perform_of_asks (timed : s.Timed) (asked : s.asks step = true) :
    ∃ clock, s.perform step = ({ s with clock, pending := none }.parse.1,
      { s with clock, pending := none }.parse.2.map step.answer) := by
  cases step with
  | parseNow =>
    refine ⟨s.cancelPending.clock, ?_⟩
    rw [← cancelPending_eq]
    rfl
  | advance seconds =>
    rcases advance_cases timed seconds with ⟨due, -⟩ | ⟨timer, clock, -, -, -, same⟩
    · simp [asks, fired, due] at asked
    · refine ⟨clock, ?_⟩
      simp only [perform]
      rw [same]
      cases { s with clock, pending := none }.parse.2 <;> rfl
  | setText | beginDrag | dragTo | endDrag | close => simp [asks, fired] at asked

theorem perform_of_fails (timed : s.Timed) (asked : s.asks step = true)
    (fails : Diagram.read s.settings.layout s.text = .error e) :
    ∃ clock, s.perform step = ({ s with clock, pending := none }, .error (.reading e)) := by
  obtain ⟨clock, same⟩ := perform_of_asks timed asked
  have parsed : { s with clock, pending := none }.parse =
      ({ s with clock, pending := none }, .error (.reading e)) := by
    simp only [parse, fails]
  refine ⟨clock, ?_⟩
  rw [same, parsed]
  rfl

theorem perform_of_reads (timed : s.Timed) (asked : s.asks step = true)
    (reads : Diagram.read s.settings.layout s.text = .ok m) :
    ∃ clock, s.perform step =
      ({ s with clock, pending := none, diagram := m, published := s.published ++ [m] },
        .ok (step.answer m)) := by
  obtain ⟨clock, same⟩ := perform_of_asks timed asked
  have parsed : { s with clock, pending := none }.parse =
      ({ s with clock, pending := none, diagram := m, published := s.published ++ [m] },
        .ok m) := by
    simp only [parse, reads]
  refine ⟨clock, ?_⟩
  rw [same, parsed]
  rfl

theorem disarms_of_asks (asked : s.asks step = true) :
    s.setsText step = false ∧ s.disarms step = true := by
  cases step with
  | parseNow => exact ⟨rfl, rfl⟩
  | advance seconds => exact ⟨rfl, asked⟩
  | setText | beginDrag | dragTo | endDrag | close => simp [asks, fired] at asked

theorem Armed.unharmed (armed : s.Armed alarm) (asked : s.asks step = true)
    (fails : Diagram.read s.settings.layout s.text = .error e) :
    (s.perform step).2 = .error (.reading e) ∧ s.Unharmed (s.perform step).1 := by
  obtain ⟨clock, same⟩ := perform_of_fails armed.timed asked fails
  have next := armed.perform step
  obtain ⟨keeps, stops⟩ := disarms_of_asks asked
  rw [keeps, if_neg Bool.false_ne_true, stops, if_pos rfl] at next
  exact ⟨by rw [same], ⟨clock, by rw [same]⟩, next.running⟩

theorem text_perform (timed : s.Timed) (keeps : s.setsText step = false) :
    (s.perform step).1.text = s.text := by
  cases step with
  | setText => simp [setsText] at keeps
  | beginDrag id =>
    simp only [perform, beginDrag]
    split <;> rfl
  | endDrag =>
    have absent : s.draggedNode = none := by simpa [setsText] using keeps
    simp only [perform]
    rw [endDrag_of_not_dragged absent]
  | close =>
    simp only [perform, close]
    rw [cancelPending_eq]
  | dragTo | parseNow | advance => exact (perform_frame timed rfl).1

theorem text_run (timed : s.Timed) (keeps : s.setsTextIn steps = false) :
    (s.run steps).text = s.text := by
  induction steps generalizing s with
  | nil => rfl
  | cons step steps ih =>
    rw [setsTextIn, Bool.or_eq_false_iff] at keeps
    have first := text_perform timed keeps.1
    have later := ih (perform_effect timed step).1.timed keeps.2
    exact later.trans first

theorem mem_liveDue_iff {clock : Clock} (present : s.clock = some clock) :
    timer ∈ s.liveDue seconds ↔
      timer ∈ s.running ∧ timer.deadline ≤ clock.now + seconds := by
  simp only [liveDue, running, present, Clock.advance, Clock.live, Clock.isDue, List.mem_filter,
    List.mem_mergeSort, decide_eq_true_eq, Option.map_some, Option.getD_some]
  exact and_right_comm

theorem asks_advance_iff {clock : Clock} (present : s.clock = some clock)
    (single : s.running = [timer]) (seconds : Float) :
    s.asks (.advance seconds) = true ↔ timer.deadline ≤ clock.now + seconds := by
  simp only [asks, fired, bne_iff_ne, ne_eq]
  constructor
  · intro fires
    obtain ⟨due, member⟩ := List.exists_mem_of_ne_nil _ fires
    obtain ⟨runs, late⟩ := (mem_liveDue_iff present).mp member
    rw [single, List.mem_singleton] at runs
    exact runs ▸ late
  · intro late
    have runs : timer ∈ s.running := by simp [single]
    exact List.ne_nil_of_mem ((mem_liveDue_iff present).mpr ⟨runs, late⟩)

theorem clock_perform_advance (s : Session) (seconds : Float) :
    (s.perform (.advance seconds)).1.clock =
      s.clock.map fun clock => (clock.advance seconds).1 :=
  clock_advance s seconds

theorem now_setText {clock : Clock} (present : s.clock = some clock) (text : String) :
    ∃ clock', (s.setText text).1.clock = some clock' ∧ clock'.now = clock.now := by
  cases pending : s.pending <;>
    simp [setText, schedule, cancelPending, pending, present, Clock.schedule, Clock.cancel]

theorem Armed.recovers (armed : s.Armed alarm) : s.Recovers where
  due text clock seconds present := by
    have next := (armed.perform (.setText text)).running
    simp only [setsText, if_true, nextTimer?, present, Option.map_some, Option.toList_some] at next
    obtain ⟨clock', found, now⟩ := now_setText present text
    have iff := asks_advance_iff found next seconds
    rwa [now] at iff
  reads text m waiting step := by
    intro set reads keeps asked
    have timed : set.Timed := (armed.perform (.setText text)).timed
    have stays := stays_run timed waiting
    have same : set.text = text ∧ set.settings = s.settings := by
      constructor <;> rw [show set = (s.setText text).1 from rfl, setText_eq]
    have own : (set.run waiting).text = text := (text_run timed keeps).trans same.1
    have layout : (set.run waiting).settings = s.settings := stays.settings.trans same.2
    have again : Diagram.read (set.run waiting).settings.layout (set.run waiting).text = .ok m := by
      rw [layout, own]
      exact reads
    obtain ⟨clock, result⟩ := perform_of_reads stays.timed asked again
    refine ⟨clock, _, begin?_eq_ok.mpr ⟨m, reads, rfl⟩, ?_⟩
    rw [result, layout, own]

/-- A reading that fails, in whatever state, raises its error and leaves the session as it was but
for the wait; and from there any text can be set and read that has a diagram. -/
theorem failed_reading_harmless (begins : begin? settings clock text = .ok s)
    (fresh : ∀ c ∈ clock, c.live = []) (steps : List Step)
    (fails : Diagram.read settings.layout (s.run steps).text = .error e)
    (asked : (s.run steps).asks step = true) :
    ((s.run steps).perform step).2 = .error (.reading e) ∧
      (s.run steps).Unharmed ((s.run steps).perform step).1 ∧
      ((s.run steps).perform step).1.Recovers := by
  have armed := armed_begin begins fresh
  obtain ⟨alarm, before⟩ := armed.run steps
  have given : (s.run steps).settings = settings := by
    rw [(stays_run armed.timed steps).settings]
    exact (synced_begin begins fresh).2
  rw [← given] at fails
  obtain ⟨raised, unharmed⟩ := before.unharmed asked fails
  exact ⟨raised, unharmed, (before.perform step).recovers⟩

/-- In the middle of a drag a timer fires on a coordinate beyond the doubles, and the text that is
set after it is read when its own timer fires. -/
theorem failed_reading_harmless_dragging :
    let far := String.ofList ("ent A (1".toList ++ List.replicate 309 '0' ++ ", 2)".toList)
    let before := sample.run [.beginDrag "A", .dragTo 5 6, .setText far]
    let failed := (before.perform (.advance 1)).1
    let set := (failed.perform (.setText "ent C (7, 8)")).1
    (before.perform (.advance 1)).2 =
      .error (.reading (.fields [⟨"Node.x", .notNumber, 10 ^ 309⟩])) ∧
      failed.text = far ∧ failed.dragged = some "A" ∧ failed.diagram = before.diagram ∧
      (set.perform (.advance 1)).1.diagram = ⟨[⟨"C", .entity, "C", ⟨7, 8⟩, none, 0⟩], [], []⟩ := by
  intro far before failed set
  have text : before.text = far := by
    rw [show before = ((sample.run [.beginDrag "A", .dragTo 5 6]).setText far).1 from rfl,
      setText_eq]
  have fails : Diagram.read ({} : Settings).layout before.text =
      .error (.fields [⟨"Node.x", .notNumber, 10 ^ 309⟩]) := by
    rw [text, Diagram.read, Reading.ofDocument, String.toList_ofList]
    decide +kernel
  have asked : before.asks (.advance 1) = true := by decide +kernel
  obtain ⟨raised, ⟨⟨clock, same⟩, -⟩, recovers⟩ :=
    failed_reading_harmless begin?_sample fresh_sample _ fails asked
  have same : failed = { before with clock, pending := none } := same
  have given : before.settings = {} := by decide +kernel
  have settings : failed.settings = {} := by
    rw [same]
    exact given
  have clocked : failed.clock = some ⟨1, 1, []⟩ := by
    rw [show failed.clock = _ from clock_perform_advance before 1]
    decide +kernel
  have due : (set.run []).asks (.advance 1) = true := by
    rw [run]
    apply (recovers.due "ent C (7, 8)" _ 1 clocked).mpr
    rw [show Session.settings _ = {} from settings]
    decide +kernel
  obtain ⟨clock', fresh, begins, result⟩ :=
    recovers.reads "ent C (7, 8)" ⟨[⟨"C", .entity, "C", ⟨7, 8⟩, none, 0⟩], [], []⟩ [] (.advance 1)
      (by rw [show Session.settings _ = {} from settings]; decide +kernel) rfl due
  rw [show Session.settings _ = {} from settings] at begins
  obtain ⟨d, reads, rfl⟩ := begin?_eq_ok.mp begins
  have own : d = ⟨[⟨"C", .entity, "C", ⟨7, 8⟩, none, 0⟩], [], []⟩ := by
    apply Except.ok.inj
    rw [← reads]
    decide +kernel
  have dragged : before.dragged = some "A" := by decide +kernel
  refine ⟨raised, ?_, ?_, by rw [same], ?_⟩
  · rw [same]
    exact text
  · rw [same]
    exact dragged
  · rw [run] at result
    rw [show set.perform _ = _ from result]
    exact own

end EERDiagram.Session
