import EERDiagram.Proofs.Document.Writing
import EERDiagram.Proofs.Session.Agreement

/-! Releasing a drag. The line that is rewritten is the one that declared the node in the text
that was last read; when the text has changed since, that line may be another statement's. -/
namespace EERDiagram.Session

variable {s : Session} {r : Record} {steps : List Step} {settings : Settings}
  {clock : Option Clock} {text id : String} {m past : Diagram} {old : Node}

/-- Releasing changes no line but those that declare the id in the diagram of the text, and it
changes nothing when no line does. -/
structure ReleaseIntact (s : Session) (id : String) (m : Diagram) : Prop where
  others : ∀ k : Nat, (∀ node ∈ m.nodes, node.id = id → node.line ≠ k) →
    (Text.splitLines s.endDrag.1.text.toList)[k]? = (Text.splitLines s.text.toList)[k]?
  undeclared : (∀ node ∈ m.nodes, node.id ≠ id) → s.endDrag.1.text = s.text

theorem text_endDrag_of_not_dragged (absent : s.draggedNode = none) :
    s.endDrag.1.text = s.text := by
  rw [endDrag_of_not_dragged absent]

theorem text_endDrag (found : s.draggedNode = some node) :
    s.endDrag.1.text = Document.afterMove s.text
      (Document.writePosition s.text node.line node.position.x node.position.y) := by
  rw [endDrag_of_dragged found, setText_eq]

theorem Tracks.draggedNode (tracks : s.Tracks r) (dragged : s.dragged = some id)
    (reads : Diagram.read s.settings.layout r.text = .ok past) :
    s.draggedNode.map Node.unplaced = (past.find? id).map Node.unplaced := by
  obtain ⟨-, m, again, agrees⟩ := tracks
  obtain rfl : m = past := Except.ok.inj (again.symm.trans reads)
  rw [Session.draggedNode, dragged]
  exact Diagram.find?_of_unplaced agrees.unplaced id

theorem ReleaseIntact.of_same (same : s.endDrag.1.text = s.text) : s.ReleaseIntact id m :=
  ⟨fun k _ => by rw [same], fun _ => same⟩

theorem releaseIntact_iff (found : s.draggedNode = some node) :
    s.ReleaseIntact id m ↔
      s.endDrag.1.text = s.text ∨ ∃ other ∈ m.nodes, other.id = id ∧ other.line = node.line := by
  constructor
  · intro intact
    by_cases declared : ∃ other ∈ m.nodes, other.id = id ∧ other.line = node.line
    · exact .inr declared
    · -- the written line declares no such node, so it must be as it was, like all others
      left
      apply Document.eq_of_lines
      intro k
      by_cases written : node.line = k
      · apply intact.others k
        intro other member own line
        exact declared ⟨other, member, own, line.trans written.symm⟩
      · rw [text_endDrag found]
        exact Document.writePosition_frame s.text _ _ written
  · rintro (same | ⟨other, member, own, line⟩)
    · exact .of_same same
    · refine ⟨fun k undeclared => ?_, fun none => absurd own (none other member)⟩
      rw [text_endDrag found]
      exact Document.writePosition_frame s.text _ _ (line ▸ undeclared other member own)

/-- Releasing a drag is safe exactly when it changes nothing or the line that declared the node
in the text last read declares it in the text, so it is safe before the text is changed. -/
theorem release_intact_iff (begins : begin? settings clock text = .ok s)
    (fresh : ∀ c ∈ clock, c.live = []) (steps : List Step)
    (reads : Diagram.read settings.layout (s.run steps).text = .ok m)
    (dragged : (s.run steps).dragged = some id) :
    ∃ past, Diagram.read settings.layout (s.record text steps).text = .ok past ∧
      ((s.run steps).ReleaseIntact id m ↔ ∀ old, past.find? id = some old →
        (s.run steps).endDrag.1.text = (s.run steps).text ∨
          ∃ node ∈ m.nodes, node.id = id ∧ node.line = old.line) ∧
      ((s.run steps).text = (s.record text steps).text → (s.run steps).ReleaseIntact id m) := by
  obtain ⟨synced, rfl⟩ := synced_begin begins fresh
  have tracks := synced.toTracks.run steps
  obtain ⟨past, again, -⟩ := tracks.diagram
  have same := tracks.draggedNode dragged again
  rw [(stays_run synced.timed steps).settings] at again
  refine ⟨past, again, ?_⟩
  cases found : (s.run steps).draggedNode with
  | none =>
    rw [found, Option.map_none, eq_comm, Option.map_eq_none_iff] at same
    have intact : (s.run steps).ReleaseIntact id m :=
      .of_same (text_endDrag_of_not_dragged found)
    refine ⟨⟨fun _ old lookup => ?_, fun _ => intact⟩, fun _ => intact⟩
    rw [same] at lookup
    contradiction
  | some node =>
    rw [found, Option.map_some, eq_comm, Option.map_eq_some_iff] at same
    obtain ⟨old, lookup, alike⟩ := same
    have line := Node.line_of_unplaced alike
    refine ⟨?_, ?_⟩
    · rw [releaseIntact_iff found, ← line]
      constructor
      · intro safe old' lookup'
        obtain rfl := Option.some.inj (lookup.symm.trans lookup')
        exact safe
      · exact fun safe => safe old lookup
    · intro unchanged
      have one : past = m := by
        rw [unchanged] at reads
        exact Except.ok.inj (again.symm.trans reads)
      rw [releaseIntact_iff found, ← line, ← one]
      exact .inr ⟨old, List.mem_of_find?_eq_some lookup, by simpa using List.find?_some lookup, rfl⟩

theorem release_intact_unedited :
    let steps := [.beginDrag "B", .dragTo 5 6]
    (sample.run steps).ReleaseIntact "B" sample.diagram := by
  intro steps
  have reads : Diagram.read {} (sample.run steps).text = .ok sample.diagram := by decide +kernel
  have dragged : (sample.run steps).dragged = some "B" := by decide +kernel
  have unchanged : (sample.run steps).text = (sample.record sample.text steps).text := by
    decide +kernel
  obtain ⟨past, -, -, intact⟩ := release_intact_iff begin?_sample fresh_sample steps reads dragged
  exact intact unchanged

/-- The line of the dragged node was replaced by another statement, which gets its position. -/
theorem release_overwrites :
    let edited := sample.run [.beginDrag "A", .dragTo 5 6, .setText "ent C (7, 8)"]
    begin? {} (some {}) sample.text = .ok sample ∧ edited.dragged = some "A" ∧
      ∃ m, Diagram.read {} edited.text = .ok m ∧ ¬ edited.ReleaseIntact "A" m := by
  intro edited
  refine ⟨begin?_sample, by decide +kernel, ⟨[⟨"C", .entity, "C", ⟨7, 8⟩, none, 0⟩], [], []⟩,
    by decide +kernel, fun intact => ?_⟩
  have released : edited.endDrag.1.text = "ent C (5, 6)" := by decide +kernel
  have kept : edited.endDrag.1.text = "ent C (7, 8)" := intact.undeclared (by simp)
  exact absurd (released.symm.trans kept) (by decide)

end EERDiagram.Session
