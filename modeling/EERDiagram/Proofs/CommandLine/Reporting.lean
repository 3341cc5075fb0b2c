import EERDiagram.Proofs.CommandLine.Outcome

/-! What is reported. A command ends well or says what is wrong, unless its request escapes: then
it ends in a failure that only its caller sees. -/
namespace EERDiagram.CommandLine

/-- The program has ended well, or with an error that it has told. -/
def Report.Reported (r : Report) : Prop :=
  r.ending = .exit 0 ∨ r.ending = .exit 1 ∧ r.Complains

variable {t : Tree} {arguments : List String} {i : Invocation} {request : Request}

theorem Report.reported_iff {report : Report} {result : Except Halt Unit}
    (ending : report.ending = .ofResult result)
    (complains : report.ending = .exit 1 → report.Complains) :
    report.Reported ↔ ¬ ∃ failure, result = .error (.failure failure) := by
  rcases result with (message | failure) | _
  · have stopped : report.ending = .exit 1 := ending
    exact iff_of_true (.inr ⟨stopped, complains stopped⟩) (by simp)
  · refine iff_of_false ?_ (by simp)
    rintro (done | ⟨stopped, -⟩)
    · simp [ending, Ending.ofResult] at done
    · simp [ending, Ending.ofResult] at stopped
  · exact iff_of_true (.inl ending) (by simp)

/-- Whatever the loader, a command that is accepted ends well or tells its error, unless its level
is known and its request escapes. Then it ends in a failure. -/
theorem run_reported_iff [Yaml.Loader] (t : Tree) (accepted : Invocation.read arguments = .ok i)
    (asked : i.request = some request) : ∃ report after,
      (run arguments : StateM Tree Report).run t = (report, after) ∧
      (report.Reported ↔
        (Log.Threshold.ofName? i.logLevel ≠ none → ¬ Escapes i.config t request)) ∧
      (report.Reported ∨ ∃ failure, report.ending = .failure failure) := by
  obtain ⟨report, after, ran, complains, ⟨unknown, stopped, -⟩ | ⟨known, result, -, ending, fails⟩⟩ :=
    run_invocation i t asked
  · refine ⟨report, after, by rw [run_of_accepted accepted, ran], ?_⟩
    have told : report.Reported := .inr ⟨stopped, complains stopped⟩
    exact ⟨iff_of_true told (absurd unknown), .inl told⟩
  · refine ⟨report, after, by rw [run_of_accepted accepted, ran], ?_⟩
    have told := Report.reported_iff ending complains
    refine ⟨by rw [told, fails, forall_prop_of_true known], ?_⟩
    by_cases failed : ∃ failure, result = .error (.failure failure)
    · obtain ⟨failure, rfl⟩ := failed
      exact .inr ⟨failure, ending⟩
    · exact .inl (told.mpr failed)

/-- Of a document that is no text the program tells, and of settings that are no text it does
not. -/
theorem run_reported_iff_no_text :
    let t : Tree := ⟨["w"], [(["w"], .directory), (["w", "a.eer"], .file [0xFF]),
      (["w", "b.eer"], .file (Text.encode "ent B".toList)), (["w", ".eerstudio.yaml"], .file [0xFF])]⟩
    (∃ report after, (run ["check", "a.eer"] : StateM Tree Report).run t = (report, after) ∧
      report.Reported) ∧
    ∃ report after, (run ["check", "b.eer"] : StateM Tree Report).run t = (report, after) ∧
      ¬ report.Reported := by
  intro t
  have first : Invocation.read ["check", "a.eer"] =
      .ok ⟨none, "WARNING", some (.check ⟨.here, ["a.eer"]⟩)⟩ := by decide +kernel
  have second : Invocation.read ["check", "b.eer"] =
      .ok ⟨none, "WARNING", some (.check ⟨.here, ["b.eer"]⟩)⟩ := by decide +kernel
  constructor
  · obtain ⟨report, after, ran, reported, -⟩ := run_reported_iff t first rfl
    refine ⟨report, after, ran, reported.mpr fun _ escapes => ?_⟩
    have unread : t.text? ⟨.here, ["a.eer"]⟩ = none := by decide +kernel
    rcases (escapes_document_iff rfl).mp escapes with
      (⟨found, -, -⟩ | ⟨found, -, -⟩) | ⟨_, _, _, same, -⟩
    · simp [unread] at found
    · simp [unread] at found
    · contradiction
  · obtain ⟨report, after, ran, reported, -⟩ := run_reported_iff t second rfl
    refine ⟨report, after, ran, fun told => reported.mp told (by decide) (.unreadable rfl ?_)⟩
    have bytes : t.read ⟨.here, [".eerstudio.yaml"]⟩ = .ok [0xFF] := by decide +kernel
    have undecoded : Text.decode [0xFF] = .error ⟨.startByte, 0xFF, 0, 1⟩ := by decide +kernel
    have document : t.text? ⟨.here, ["b.eer"]⟩ = some "ent B" := by decide +kernel
    have settings : t.settingsFile? none ⟨.here, ["b.eer"]⟩ =
        some ⟨.here, [".eerstudio.yaml"]⟩ := by decide +kernel
    exact .garbled document settings (.bytes bytes undecoded)

/-- A diagram that is to be written over a directory is not written, and nothing is said. -/
theorem parse_over_directory_not_reported :
    let t : Tree := ⟨["w"], [(["w"], .directory), (["w", "out"], .directory),
      (["w", "a.eer"], .file (Text.encode "ent A (1, 2)".toList))]⟩
    let arguments := ["parse", "a.eer", "--output", "out"]
    Invocation.read arguments =
      .ok ⟨none, "WARNING", some (.parse ⟨.here, ["a.eer"]⟩ (some ⟨.here, ["out"]⟩))⟩ ∧
    ((run arguments : StateM Tree Report).run t).1.ending =
      .failure (.storage ⟨.isDirectory, ⟨.here, ["out"]⟩⟩) ∧
    ¬ ((run arguments : StateM Tree Report).run t).1.Reported := by
  intro t arguments
  have accepted : Invocation.read arguments =
      .ok ⟨none, "WARNING", some (.parse ⟨.here, ["a.eer"]⟩ (some ⟨.here, ["out"]⟩))⟩ := by
    decide +kernel
  have ending : ((run arguments : StateM Tree Report).run t).1.ending =
      .failure (.storage ⟨.isDirectory, ⟨.here, ["out"]⟩⟩) := by decide +kernel
  refine ⟨accepted, ending, ?_⟩
  rintro (done | ⟨stopped, -⟩)
  · simp [ending] at done
  · simp [ending] at stopped

end EERDiagram.CommandLine
