import EERDiagram.Proofs.CommandLine.Opening

/-! What a command comes to over a tree of files: which files it leaves as they were, and when it
fails in a way of which it has nothing to say. -/
namespace EERDiagram.CommandLine

open Run (Yields)

section Written

variable {t after : Tree} {file path : Path} {x : Run (StateM Tree) Unit}

namespace Run

theorem yields_writeText (located : t.locate path = .ok place)
    (free : t.entry? place ≠ some .directory) (text : String) : ∃ after,
      Yields (writeText path text) t (.ok ()) after ∧
        Tree.Wrote t path (Text.encode text.toList) place after := by
  have write := yields_lift (t := t) (Storage.writeText path text.toList)
  simp only [Tree.run_writeText, located, free, if_false] at write
  exact ⟨_, write.bind (yields_pure ()), Tree.wrote_put located free _⟩

theorem yields_writeText_error
    (blocked : ∀ place, t.locate path = .ok place → t.entry? place = some .directory)
    (text : String) : ∃ failure,
      Yields (writeText path text) t (.error (.failure failure)) t := by
  have write := yields_lift (t := t) (Storage.writeText path text.toList)
  rw [Tree.run_writeText] at write
  cases located : t.locate path with
  | error fault =>
    rw [located] at write
    exact ⟨_, write.bind (yields_fail _)⟩
  | ok place =>
    simp only [located, blocked place located, if_true] at write
    exact ⟨_, write.bind (yields_fail _)⟩

theorem yields_new (permitted : t.kind? file = none ∨ force = true)
    (above : t.kind? file.parent ≠ none)
    (write : Yields (writeText file Document.sample) t result after) :
    Yields (new file force) t result after := by
  have first : ¬ ((t.kind? file).isSome = true ∧ ¬ force = true) := by
    rintro ⟨found, unforced⟩
    rcases permitted with missing | forced
    · simp [missing] at found
    · exact unforced forced
  refine (yields_kind? file).bind ?_
  rw [if_neg first]
  refine (yields_kind? file.parent).bind ?_
  rw [if_neg (by simpa using above)]
  cases result with
  | ok done => exact write.bind (yields_put _)
  | error halt => exact write.bind_error

theorem yields_new_complaint
    (refused : t.kind? file ≠ none ∧ force = false ∨ t.kind? file.parent = none) :
    ∃ message, Yields (new file force) t (.error (.complaint message)) t := by
  by_cases first : (t.kind? file).isSome = true ∧ ¬ force = true
  · exact ⟨_, (yields_kind? file).bind (by
      rw [if_pos first]
      exact yields_complain _)⟩
  · have nowhere : (t.kind? file.parent).isNone = true := by
      rcases refused with ⟨found, unforced⟩ | missing
      · exact absurd ⟨Option.isSome_iff_ne_none.mpr found, by simp [unforced]⟩ first
      · simp [missing]
    exact ⟨_, (yields_kind? file).bind (by
      rw [if_neg first]
      exact (yields_kind? file.parent).bind (by
        rw [if_pos nowhere]
        exact yields_complain _))⟩

end Run

def Ending.ofResult : Except Halt Unit → Ending
  | .ok () => .exit 0
  | .error (.complaint _) => .exit 1
  | .error (.failure reason) => .failure reason

def Report.Complains (r : Report) : Prop :=
  ∃ (before : List Output) (message : String), r.output = before ++ [.err s!"Error: {message}\n"]

theorem run_report (yields : Yields x t result after) (logger : Log.Logger) : ∃ report,
    (Run.report logger x : StateM Tree Report).run t = (report, after) ∧
      report.ending = .ofResult result ∧ (report.ending = .exit 1 → report.Complains) := by
  obtain ⟨shown, ran⟩ := yields []
  change StateT.run (ExceptT.run x []) t = _ at ran
  rcases result with (message | failure) | _
  · exact ⟨⟨logger, shown ++ [.err (Report.complaintText message)], .exit 1⟩,
      by rw [Run.report, StateT.run_bind, ran]; rfl, rfl, fun _ => ⟨shown, message, rfl⟩⟩
  · exact ⟨⟨logger, shown, .failure failure⟩,
      by rw [Run.report, StateT.run_bind, ran]; rfl, rfl, nofun⟩
  · exact ⟨⟨logger, shown, .exit 0⟩, by rw [Run.report, StateT.run_bind, ran]; rfl, rfl, nofun⟩

end Written

/-- The document that a request reads. A position that is not finite is refused before that. -/
def Request.document? : Request → Option Path
  | .new _ _ => none
  | .parse file _ | .check file => some file
  | .move file _ x y => if Decimal.isFinite x ∧ Decimal.isFinite y then some file else none

variable [Yaml.Loader]

/-- A request fails without a word when what it has to write to cannot be written, or when its
document is unreadable. -/
inductive Escapes (config : Option Path) (t : Tree) : Request → Prop where
  | overDirectory : t.kind? file = some .directory → Escapes config t (.new file true)
  | belowFile : t.kind? file = none → t.kind? file.parent = some .file →
      Escapes config t (.new file force)
  | unreadable : request.document? = some file → t.Unreadable config file →
      Escapes config t request
  | blocked : t.Opens config file text d → t.Blocks output →
      Escapes config t (.parse file (some output))

/-- What a request can come to. -/
inductive Outcome (config : Option Path) (t : Tree) : Request → Except Halt Unit → Tree → Prop where
  | complained (message : String) : Outcome config t request (.error (.complaint message)) t
  | failed (failure : Failure) : Tree.SameFiles t after →
      Outcome config t request (.error (.failure failure)) after
  | created : (force = false → t.file? place = none) →
      Tree.Wrote t file (Text.encode Document.sample.toList) place after →
      Outcome config t (.new file force) (.ok ()) after
  | shown : Outcome config t (.parse file none) (.ok ()) t
  | saved : Tree.Wrote t output bytes place after →
      Outcome config t (.parse file (some output)) (.ok ()) after
  | checked : Outcome config t (.check file) (.ok ()) t
  | moved {id : String} : t.Opens config file text d → d.find? id = some node →
      t.locate file = .ok place →
      Tree.Wrote t file (Text.encode
        (Document.afterMove text (Document.writePosition text node.line x y)).toList) place after →
      Outcome config t (.move file id x y) (.ok ()) after

/-- A run has an outcome of the request, and fails if the request escapes. -/
def Serves (config : Option Path) (t : Tree) (request : Request) (x : Run (StateM Tree) Unit) :
    Prop :=
  ∃ result after, Yields x t result after ∧ Outcome config t request result after ∧
    ((∃ failure, result = .error (.failure failure)) ↔ Escapes config t request)

variable {t after : Tree} {config : Option Path} {file path : Path} {request : Request}
  {x : Run (StateM Tree) Unit}

theorem Serves.of_complaint {message : String}
    (complains : Yields x t (.error (.complaint message)) t)
    (quiet : ¬ Escapes config t request) : Serves config t request x :=
  ⟨_, t, complains, .complained message, iff_of_false (by simp) quiet⟩

theorem Serves.of_failure {failure : Failure} (fails : Yields x t (.error (.failure failure)) after)
    (kept : Tree.SameFiles t after) (escapes : Escapes config t request) :
    Serves config t request x :=
  ⟨_, after, fails, .failed failure kept, iff_of_true ⟨failure, rfl⟩ escapes⟩

theorem Serves.of_done (done : Yields x t (.ok ()) after)
    (outcome : Outcome config t request (.ok ()) after) (quiet : ¬ Escapes config t request) :
    Serves config t request x :=
  ⟨_, after, done, outcome, iff_of_false (by simp) quiet⟩

theorem escapes_new_iff : Escapes config t (.new file force) ↔
    t.kind? file = some .directory ∧ force = true ∨
      t.kind? file = none ∧ t.kind? file.parent = some .file := by
  constructor
  · rintro (directory | ⟨missing, above⟩ | ⟨⟨⟩⟩ | _)
    · exact .inl ⟨directory, rfl⟩
    · exact .inr ⟨missing, above⟩
  · rintro (⟨directory, rfl⟩ | ⟨missing, above⟩)
    · exact .overDirectory directory
    · exact .belowFile missing above

theorem serves_new (config : Option Path) (t : Tree) (file : Path) (force : Bool) :
    Serves config t (.new file force) (Run.new file force) := by
  by_cases refused : t.kind? file ≠ none ∧ force = false ∨ t.kind? file.parent = none
  · obtain ⟨message, complains⟩ := Run.yields_new_complaint refused
    refine .of_complaint complains ?_
    rw [escapes_new_iff]
    rintro (⟨directory, rfl⟩ | ⟨missing, above⟩)
    · have there : t.kind? file.parent ≠ none := Tree.kind?_parent_ne_none (by simp [directory])
      simp [there] at refused
    · rcases refused with ⟨found, -⟩ | nowhere
      · exact found missing
      · simp [nowhere] at above
  · rw [not_or, not_and, Bool.not_eq_false] at refused
    obtain ⟨permitted, above⟩ := refused
    have new {result after} (write : Yields (Run.writeText file Document.sample) t result after) :
        Yields (Run.new file force) t result after :=
      Run.yields_new (Decidable.or_iff_not_imp_left.mpr permitted) above write
    -- What is above the file is there. If it is a directory, the path leads to a place.
    cases located : t.locate file with
    | error fault =>
      have missing := Tree.kind?_of_stopped located
      have below : t.kind? file.parent = some .file := by
        rcases kind : t.kind? file.parent with _ | (_ | _)
        · exact absurd kind above
        · rfl
        · obtain ⟨place, reached⟩ := Tree.locate_of_parent kind
          simp [located] at reached
      have nowhere : ∀ place, t.locate file = .ok place → t.entry? place = some .directory := by
        simp [located]
      obtain ⟨failure, fails⟩ := Run.yields_writeText_error nowhere Document.sample
      exact .of_failure (new fails) (.refl t) (.belowFile missing below)
    | ok place =>
      have kind := Tree.kind?_of_locate located
      by_cases directory : t.entry? place = some .directory
      · have only : ∀ other, t.locate file = .ok other → t.entry? other = some .directory :=
          fun other reached => Except.ok.inj (located.symm.trans reached) ▸ directory
        obtain ⟨failure, fails⟩ := Run.yields_writeText_error only Document.sample
        rw [directory] at kind
        obtain rfl := permitted (by simp [kind])
        exact .of_failure (new fails) (.refl t) (.overDirectory kind)
      · obtain ⟨after, writes, wrote⟩ := Run.yields_writeText located directory Document.sample
        refine .of_done (new writes) (.created ?_ wrote) ?_
        · intro unforced
          have missing : t.kind? file = none := by
            by_contra found
            simp [permitted found] at unforced
          rw [kind, Option.map_eq_none_iff] at missing
          rw [Tree.file?, missing]
        · rw [escapes_new_iff]
          rintro (⟨overDirectory, -⟩ | ⟨missing, below⟩)
          · rw [kind] at overDirectory
            obtain ⟨e, found, isDirectory⟩ := Option.map_eq_some_iff.mp overDirectory
            cases e with
            | file bytes => contradiction
            | directory => exact directory found
          · rcases Tree.parent_of_locate located with same | above
            · simp [same, missing] at below
            · simp [above] at below

/-- A request that reads a document fails if that is unreadable, or if there is something in the
way of what it writes. -/
theorem escapes_document_iff (reads : request.document? = some file) :
    Escapes config t request ↔ t.Unreadable config file ∨
      ∃ output text d, request = .parse file (some output) ∧ t.Opens config file text d ∧
        t.Blocks output := by
  constructor
  · rintro (_ | _ | ⟨same, unreadable⟩ | ⟨opens, blocked⟩)
    · contradiction
    · contradiction
    · obtain rfl := Option.some.inj (reads.symm.trans same)
      exact .inl unreadable
    · obtain rfl := Option.some.inj reads
      exact .inr ⟨_, _, _, rfl, opens, blocked⟩
  · rintro (unreadable | ⟨output, text, d, rfl, opens, blocked⟩)
    · exact .unreadable reads unreadable
    · exact .blocked opens blocked

theorem Serves.of_opening {f : String × Diagram → Run (StateM Tree) Unit}
    (reads : request.document? = some file)
    (goesOn : ∀ text d, t.Opens config file text d → ¬ t.Unreadable config file →
      Serves config t request (f (text, d))) :
    Serves config t request (Run.opening config file >>= f) := by
  rcases Run.yields_opening t config file with ⟨text, d, opens, readable, opened⟩ |
    ⟨closed, readable, message, complains⟩ | ⟨unreadable, failure, fails⟩
  · obtain ⟨result, after, continued, outcome⟩ := goesOn text d opens readable
    exact ⟨result, after, opened.bind continued, outcome⟩
  · refine .of_complaint complains.bind_error ?_
    rw [escapes_document_iff reads]
    rintro (unreadable | ⟨output, text, d, -, opens, -⟩)
    · exact readable unreadable
    · exact closed text d opens
  · exact .of_failure fails.bind_error (.refl t) (.unreadable reads unreadable)

theorem serves_check (config : Option Path) (t : Tree) (file : Path) :
    Serves config t (.check file) (Run.check config file) := by
  rw [Run.check, Run.loadDiagram_eq, bind_assoc]
  refine .of_opening rfl fun text d _ readable => ?_
  have quiet : ¬ Escapes config t (.check file) := by
    rw [escapes_document_iff rfl]
    simp [readable]
  refine .of_done ?_ .checked quiet
  rw [pure_bind]
  split <;> exact Run.yields_put _

theorem serves_parse (config : Option Path) (t : Tree) (file : Path) (output : Option Path) :
    Serves config t (.parse file output) (Run.parse config file output) := by
  rw [Run.parse, Run.loadDiagram_eq, bind_assoc]
  refine .of_opening rfl fun text d opens readable => ?_
  rw [pure_bind]
  cases output with
  | none =>
    have quiet : ¬ Escapes config t (.parse file none) := by
      rw [escapes_document_iff rfl]
      simp [readable]
    exact .of_done (Run.yields_put _) .shown quiet
  | some output =>
    have save := Run.yields_lift (t := t) (Artifact.save d output)
    rcases Artifact.save_cases d output t with
      ⟨blocked, e, after, ran, kept⟩ | ⟨clear, after, ran, wrote⟩
    · rw [ran] at save
      exact .of_failure (save.bind (Run.yields_fail _)) kept (.blocked opens blocked)
    · rw [ran] at save
      refine .of_done (save.bind (Run.yields_put _)) (.saved wrote) ?_
      rw [escapes_document_iff rfl]
      rintro (unreadable | ⟨output, text, d, same, -, blocked⟩)
      · exact readable unreadable
      · obtain rfl := Option.some.inj (Request.parse.inj same).2
        exact clear blocked

def Run.moveIn (file : Path) (id : String) (x y : Float) (found : String × Diagram) :
    Run (StateM Tree) Unit := do
  match found.2.find? id with
  | none => complain s!"no node with id '{id}' in '{file.text}'."
  | some node =>
    let result := Document.moveNode found.1 found.2 id x y
    log (refusals result)
    writeText file (Document.afterMove found.1 result)
    log [moveRecord node file]
    say s!"Moved '{node.id}' (line {node.line + 1})."

theorem Run.move_eq {x y : Float} (config : Option Path) (file : Path) (id : String)
    (finite : Decimal.isFinite x ∧ Decimal.isFinite y) :
    move config file id x y = opening config file >>= moveIn file id x y := by
  simp only [move, finite, opening, bind_assoc, pure_bind, not_true_eq_false, if_false, and_self]
  rfl

theorem serves_move (config : Option Path) (t : Tree) (file : Path) (id : String) (x y : Float) :
    Serves config t (.move file id x y) (Run.move config file id x y) := by
  by_cases finite : Decimal.isFinite x ∧ Decimal.isFinite y
  · rw [Run.move_eq config file id finite]
    have reads : Request.document? (.move file id x y) = some file := if_pos finite
    refine .of_opening reads fun text d opens readable => ?_
    have quiet : ¬ Escapes config t (.move file id x y) := by
      simp [escapes_document_iff reads, readable]
    rw [Run.moveIn]
    cases found : d.find? id with
    | none => simpa only [found] using Serves.of_complaint (Run.yields_complain _) quiet
    | some node =>
      obtain ⟨place, located, bytes, -⟩ := Tree.file_of_text? opens.document
      have free : t.entry? place ≠ some .directory := by
        simp [Tree.file?_eq_some_iff.mp bytes]
      obtain ⟨after, writes, wrote⟩ := Run.yields_writeText located free
        (Document.afterMove text (Document.moveNode text d id x y))
      have done : Outcome config t (.move file id x y) (.ok ()) after := by
        rw [Document.moveNode, found] at wrote
        exact .moved opens found located wrote
      refine .of_done ?_ done quiet
      dsimp only
      exact (Run.yields_put _).bind (writes.bind ((Run.yields_put _).bind (Run.yields_put _)))
  · have quiet : ¬ Escapes config t (.move file id x y) := by
      rintro (_ | _ | ⟨reads, -⟩ | _)
      simp [Request.document?, finite] at reads
    rw [Run.move, if_pos finite]
    exact .of_complaint (Run.yields_complain _) quiet

/-- Every run of a request has one of its outcomes, and it fails exactly if the request escapes. -/
theorem serves_request (config : Option Path) (t : Tree) (request : Request) :
    Serves config t request (Run.request config request) := by
  cases request with
  | new file force => exact serves_new config t file force
  | parse file output => exact serves_parse config t file output
  | check file => exact serves_check config t file
  | move file id x y => exact serves_move config t file id x y

/-- A program with a level that is not known complains of it. With another one it carries out the
request. -/
theorem run_invocation (i : Invocation) (t : Tree) (asked : i.request = some request) :
    ∃ report after, (i.run : StateM Tree Report).run t = (report, after) ∧
      (report.ending = .exit 1 → report.Complains) ∧
      ((Log.Threshold.ofName? i.logLevel = none ∧ report.ending = .exit 1 ∧ after = t) ∨
        (Log.Threshold.ofName? i.logLevel ≠ none ∧ ∃ result,
          Outcome i.config t request result after ∧ report.ending = .ofResult result ∧
          ((∃ failure, result = .error (.failure failure)) ↔ Escapes i.config t request))) := by
  cases level : Log.Threshold.ofName? i.logLevel with
  | none =>
    refine ⟨⟨{}, [.err (Report.complaintText (Log.SetupError.message (.unknownLevel i.logLevel)))],
      .exit 1⟩, t, ?_, fun _ => ⟨[], _, rfl⟩, .inl ⟨rfl, rfl, rfl⟩⟩
    rw [Invocation.run]
    unfold Log.Logger.setUp
    rw [level]
    rfl
  | some threshold =>
    obtain ⟨result, after, yields, outcome, fails⟩ := serves_request i.config t request
    have known : (Log.Format.ofText? Log.Format.standard).isSome = true := by decide
    obtain ⟨format, standard⟩ := Option.isSome_iff_exists.mp known
    obtain ⟨report, ran, ending, complains⟩ :=
      run_report yields ⟨threshold, some ⟨threshold, format⟩, false⟩
    refine ⟨report, after, ?_, complains, .inr ⟨by simp, result, outcome, ending, fails⟩⟩
    rw [← ran, Invocation.run]
    unfold Log.Logger.setUp
    simp only [level, standard, asked]

theorem run_of_accepted {arguments : List String} (accepted : Invocation.read arguments = .ok i) :
    (run arguments : StateM Tree Report) = i.run := by
  rw [run, accepted]

end EERDiagram.CommandLine
