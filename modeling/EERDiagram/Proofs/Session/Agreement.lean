import EERDiagram.Proofs.Diagram.Unplaced
import EERDiagram.Proofs.Session.History

/-! Text and diagram of a session. The diagram is the one of the text that was last read, with
the nodes moved that were dragged since; when nothing is pending that text is the text. -/
namespace EERDiagram.Session

variable {s : Session} {r : Record} {step : Step} {steps : List Step} {settings : Settings}
  {clock : Option Clock} {text : String}

/-- Holds of every session, whatever its steps answered. -/
structure Tracks (s : Session) (r : Record) : Prop where
  timed : s.Timed
  diagram : ∃ m, Diagram.read s.settings.layout r.text = .ok m ∧
    s.diagram.AgreesExcept r.moved m

/-- Holds of a session as long as every step succeeds and it is not closed. -/
structure Synced (s : Session) (r : Record) : Prop extends Tracks s r where
  idle : s.pending = none → r.text = s.text
  published : s.published.map Except.ok = r.parsed.map (Diagram.read s.settings.layout)

def succeeds (s : Session) : List Step → Bool
  | [] => true
  | step :: steps => (s.perform step).2.isOk && (s.perform step).1.succeeds steps

theorem note_parsed (reads : Diagram.read spiral text = .ok d) (r : Record) :
    r.noteAll spiral [.parsed text] = ⟨text, [], r.parsed ++ [text]⟩ := by
  simp [Record.noteAll, Record.note, reads, Except.isOk, Except.toBool]

theorem note_failed (fails : Diagram.read spiral text = .error e) (r : Record) :
    r.noteAll spiral [.parsed text] = { r with parsed := r.parsed ++ [text] } := by
  simp [Record.noteAll, Record.note, fails, Except.isOk, Except.toBool]

theorem Tracks.perform (tracks : s.Tracks r) (step : Step) :
    (s.perform step).1.Tracks (r.noteAll s.settings.layout (s.events step)) := by
  obtain ⟨timed, m, reads, agrees⟩ := tracks
  obtain ⟨stays, effect⟩ := perform_effect timed step
  refine ⟨stays.timed, ?_⟩
  rw [stays.settings]
  cases effect with
  | kept _ diagram _ events =>
    rw [events, diagram]
    exact ⟨m, reads, agrees⟩
  | written diagram _ events =>
    rw [events, diagram]
    exact ⟨m, reads, agrees⟩
  | moved node position _ _ diagram _ events =>
    rw [events, diagram]
    exact ⟨m, reads, agrees.place node.id position⟩
  | parsed _ read _ events =>
    rw [events, note_parsed read]
    exact ⟨_, read, .refl _⟩
  | failed error _ diagram fails _ events =>
    rw [events, note_failed fails, diagram]
    exact ⟨m, reads, agrees⟩

theorem Synced.perform (synced : s.Synced r) (stays : step ≠ .close)
    (succeeds : (s.perform step).2.isOk = true) :
    (s.perform step).1.Synced (r.noteAll s.settings.layout (s.events step)) := by
  have tracks := synced.toTracks.perform step
  obtain ⟨kept, effect⟩ := perform_effect synced.timed step
  refine ⟨tracks, ?_, ?_⟩
  · cases effect with
    | kept text _ _ events pending =>
      rw [events, text, pending.resolve_right stays]
      exact synced.idle
    | written _ _ _ pending =>
      intro none
      rcases pending with waits | ⟨e, failed⟩
      · exact absurd none waits
      · simp [failed, Except.isOk, Except.toBool] at succeeds
    | moved node _ _ text _ _ events pending =>
      rw [events, text, pending]
      exact synced.idle
    | parsed text read _ events =>
      rw [events, note_parsed read, text]
      exact fun _ => rfl
    | failed _ _ _ _ _ _ refused => simp [refused, Except.isOk, Except.toBool] at succeeds
  · rw [kept.settings]
    cases effect with
    | kept _ _ published events =>
      rw [events, published]
      exact synced.published
    | written _ published events =>
      rw [events, published]
      exact synced.published
    | moved node _ _ _ _ published events =>
      rw [events, published]
      exact synced.published
    | parsed _ read published events =>
      rw [events, note_parsed read, published, List.map_append, List.map_append,
        synced.published]
      simp [read]
    | failed _ _ _ _ _ _ refused => simp [refused, Except.isOk, Except.toBool] at succeeds

theorem noteAll_append (spiral : Spiral) (r : Record) (left right : List Event) :
    r.noteAll spiral (left ++ right) = (r.noteAll spiral left).noteAll spiral right :=
  List.foldl_append

theorem Tracks.run (tracks : s.Tracks r) (steps : List Step) :
    (s.run steps).Tracks (r.noteAll s.settings.layout (s.history steps)) := by
  induction steps generalizing s r with
  | nil => exact tracks
  | cons step steps ih =>
    have next := ih (tracks.perform step)
    rw [(perform_effect tracks.timed step).1.settings] at next
    rw [history, noteAll_append]
    exact next

theorem Synced.run (synced : s.Synced r) (steps : List Step) (stays : Step.close ∉ steps)
    (succeeds : s.succeeds steps = true) :
    (s.run steps).Synced (r.noteAll s.settings.layout (s.history steps)) := by
  induction steps generalizing s r with
  | nil => exact synced
  | cons step steps ih =>
    rw [List.mem_cons, not_or] at stays
    rw [Session.succeeds, Bool.and_eq_true] at succeeds
    have next := ih (synced.perform (Ne.symm stays.1) succeeds.1) stays.2 succeeds.2
    rw [(perform_effect synced.timed step).1.settings] at next
    rw [history, noteAll_append]
    exact next

theorem begin?_eq_ok : begin? settings clock text = .ok s ↔
    ∃ diagram, Diagram.read settings.layout text = .ok diagram ∧
      { settings, clock, text, diagram } = s := by
  cases reads : Diagram.read settings.layout text <;> simp [begin?, reads]

theorem synced_begin (begins : begin? settings clock text = .ok s)
    (fresh : ∀ c ∈ clock, c.live = []) :
    s.Synced ⟨text, [], []⟩ ∧ s.settings = settings := by
  obtain ⟨m, reads, rfl⟩ := begin?_eq_ok.mp begins
  refine ⟨⟨⟨?_, m, reads, .refl m⟩, fun _ => rfl, rfl⟩, rfl⟩
  cases clock with
  | none => rfl
  | some clock => simp [Timed, live, fresh clock rfl]

/-- The diagram of a session is the one of the text that it last read, up to the nodes dragged
since; that text is the text when no reading is pending; and every reading was published. -/
theorem run_agrees (begins : begin? settings clock text = .ok s)
    (fresh : ∀ c ∈ clock, c.live = []) (stays : Step.close ∉ steps)
    (succeeds : s.succeeds steps = true) :
    ∃ m, Diagram.read settings.layout (s.record text steps).text = .ok m ∧
      (s.run steps).diagram.AgreesExcept (s.record text steps).moved m ∧
      ((s.run steps).pending = none → (s.record text steps).text = (s.run steps).text) ∧
      (s.run steps).published.map Except.ok =
        (s.record text steps).parsed.map (Diagram.read settings.layout) := by
  obtain ⟨synced, rfl⟩ := synced_begin begins fresh
  have after := synced.run steps stays succeeds
  obtain ⟨m, reads, agrees⟩ := after.diagram
  have idle := after.idle
  have published := after.published
  rw [(stays_run synced.timed steps).settings] at reads published
  exact ⟨m, reads, agrees, idle, published⟩

def sample : Session where
  settings := {}
  clock := some {}
  text := "ent A (1, 2)\nent B (3, 4)"
  diagram := ⟨[⟨"A", .entity, "A", ⟨1, 2⟩, none, 0⟩, ⟨"B", .entity, "B", ⟨3, 4⟩, none, 1⟩], [], []⟩

theorem read_sample : Diagram.read {} sample.text = .ok sample.diagram := by decide +kernel

theorem begin?_sample : begin? {} (some {}) sample.text = .ok sample :=
  begin?_eq_ok.mpr ⟨_, read_sample, rfl⟩

theorem fresh_sample : ∀ c ∈ some ({} : Clock), c.live = [] := by simp [Clock.live]

/-- A drag that is released and read, and one that is given up for another text. -/
theorem run_agrees_dragged :
    let steps := [.beginDrag "A", .dragTo 5 6, .endDrag, .advance 1, .dragTo 9 9,
      .beginDrag "B", .dragTo 7 8, .setText "ent C"]
    ∃ m, Diagram.read {} "ent A (5, 6)\nent B (3, 4)" = .ok m ∧
      (sample.run steps).diagram.AgreesExcept ["B"] m := by
  intro steps
  have succeeds : sample.succeeds steps = true := by decide +kernel
  obtain ⟨m, read, agrees, -⟩ := run_agrees begin?_sample fresh_sample (by decide) succeeds
  have text : (sample.record sample.text steps).text = "ent A (5, 6)\nent B (3, 4)" := by
    decide +kernel
  have moved : (sample.record sample.text steps).moved = ["B"] := by decide +kernel
  rw [text] at read
  rw [moved] at agrees
  exact ⟨m, read, agrees⟩

end EERDiagram.Session
