import EERDiagram.CommandLine.Command
import EERDiagram.Proofs.Artifact.Saving
import EERDiagram.Proofs.Settings.Loading

/-! Opening a document in a tree of files: its text, the settings for it and its diagram. None of
that changes the tree. What is wrong is told to the user, but for settings that are garbled and a
text that has no diagram. -/
namespace EERDiagram

namespace CommandLine.Run

variable {t after middle : Tree} {file : Path} {α β : Type} {x : Run (StateM Tree) α}
  {f : α → Run (StateM Tree) β}

/-- Over a tree a run has a result and leaves a tree, whatever was shown before. -/
def Yields (x : Run (StateM Tree) α) (t : Tree) (result : Except Halt α) (after : Tree) : Prop :=
  ∀ before, ∃ shown, (x.run.run before).run t = ((result, shown), after)

theorem yields_pure (a : α) : Yields (pure a) t (.ok a) t := fun before => ⟨before, rfl⟩

theorem Yields.bind (first : Yields x t (.ok a) middle) (second : Yields (f a) middle r after) :
    Yields (x >>= f) t r after := by
  intro before
  obtain ⟨shown, ran⟩ := first before
  obtain ⟨more, continued⟩ := second shown
  refine ⟨more, ?_⟩
  rw [ExceptT.run_bind, StateT.run_bind, StateT.run_bind, ran]
  exact continued

theorem Yields.bind_error (first : Yields x t (.error h) after) :
    Yields (x >>= f) t (.error h) after := by
  intro before
  obtain ⟨shown, ran⟩ := first before
  refine ⟨shown, ?_⟩
  rw [ExceptT.run_bind, StateT.run_bind, StateT.run_bind, ran]
  rfl

theorem yields_complain (message : String) :
    Yields (complain message : Run (StateM Tree) α) t (.error (.complaint message)) t :=
  fun before => ⟨before, rfl⟩

theorem yields_fail (failure : Failure) :
    Yields (fail failure : Run (StateM Tree) α) t (.error (.failure failure)) t :=
  fun before => ⟨before, rfl⟩

theorem yields_put (output : List Output) :
    Yields (put output : Run (StateM Tree) Unit) t (.ok ()) t :=
  fun before => ⟨before ++ output, rfl⟩

theorem yields_lift (x : StateM Tree α) :
    Yields (monadLift x : Run (StateM Tree) α) t (.ok (x.run t).1) (x.run t).2 :=
  fun before => ⟨before, rfl⟩

theorem yields_kind? (path : Path) :
    Yields (kind? path : Run (StateM Tree) _) t (.ok (t.kind? path)) t :=
  yields_lift _

theorem yields_readDocument {text : String} (found : t.text? file = some text) :
    Yields (readDocument file) t (.ok text) t := by
  have isFile : t.kind? file = some .file := by
    obtain ⟨place, located, bytes, -⟩ := Tree.file_of_text? found
    rw [Tree.kind?_of_locate located, Tree.file?_eq_some_iff.mp bytes]
    rfl
  have reading := yields_lift (t := t) (Storage.readText file)
  rw [t.run_readText] at reading
  obtain ⟨characters, read, rfl⟩ := Tree.text?_eq_some_iff.mp found
  rw [read] at reading
  refine (yields_kind? file).bind ?_
  simp only [isFile, ne_eq, not_true_eq_false, if_false]
  exact reading.bind (yields_pure _)

theorem yields_readDocument_missing (missing : t.text? file = none) :
    ∃ message, Yields (readDocument file) t (.error (.complaint message)) t := by
  by_cases isFile : t.kind? file = some .file
  · have reading := yields_lift (t := t) (Storage.readText file)
    rw [t.run_readText] at reading
    cases read : t.readText file with
    | ok characters => simp [Tree.text?, read, Except.toOption] at missing
    | error e =>
      rw [read] at reading
      exact ⟨_, (yields_kind? file).bind (by
        simp only [isFile, ne_eq, not_true_eq_false, if_false]
        exact reading.bind (yields_complain _))⟩
  · exact ⟨_, (yields_kind? file).bind (by
      simp only [isFile, ne_eq, not_false_eq_true, if_true]
      exact yields_complain _)⟩

theorem yields_readDiagram (t : Tree) (settings : Settings) (document : String) :
    Yields (readDiagram settings document) t (match Diagram.read settings.layout document with
      | .ok d => .ok d
      | .error e => .error (.failure (.reading e))) t := by
  refine (yields_put _).bind ?_
  rw [Diagram.read]
  cases (Reading.ofDocument settings.layout document).diagram with
  | ok d => exact yields_pure d
  | error e => exact yields_fail _

end CommandLine.Run

variable [Yaml.Loader]

namespace Tree

variable {t : Tree} {path : Path}

def settingsFile? (t : Tree) (config : Option Path) (file : Path) : Option Path :=
  match config with
  | some path => some path
  | none =>
    let beside := CommandLine.Run.besideDocument file
    if t.kind? beside = some .file then some beside else none

def settings (t : Tree) (config : Option Path) (file : Path) :
    Except Settings.LoadError Settings :=
  match t.settingsFile? config file with
  | none => .ok {}
  | some path => t.load path

theorem settings_fail_iff {config : Option Path} {file : Path} :
    (∃ e, t.settings config file = .error e ∧ e.isRefusal = false) ↔
      ∃ path, t.settingsFile? config file = some path ∧ t.Garbled path := by
  rw [settings]
  cases t.settingsFile? config file with
  | none => simp
  | some path => simpa using load_fails_iff

end Tree

namespace CommandLine.Run

variable {t : Tree} {file : Path}

/-- How a run is halted by settings that are not loaded. -/
def halt (e : Settings.LoadError) : Halt :=
  if e.isRefusal then .complaint e.message else .failure (.settings e)

theorem yields_loadSettings (t : Tree) (path : Path) :
    Yields (loadSettings path) t ((t.load path).mapError halt) t := by
  have loading := yields_lift (t := t) (Settings.load path)
  rw [t.run_load] at loading
  refine loading.bind ?_
  cases t.load path with
  | ok settings => exact yields_pure settings
  | error e =>
    cases refusal : e.isRefusal
    · simpa [halt, refusal] using yields_fail _
    · simpa [halt, refusal] using yields_complain _

theorem yields_settingsFor (t : Tree) (config : Option Path) (file : Path) :
    Yields (settingsFor config file) t ((t.settings config file).mapError halt) t := by
  cases config with
  | some path => exact yields_loadSettings t path
  | none =>
    refine (yields_kind? (besideDocument file)).bind ?_
    by_cases beside : t.kind? (besideDocument file) = some .file
    · simpa only [Tree.settings, Tree.settingsFile?, beside, if_true]
        using yields_loadSettings t (besideDocument file)
    · simpa only [Tree.settings, Tree.settingsFile?, beside, if_false, mapError_ok]
        using yields_pure _

def opening (config : Option Path) (file : Path) : Run (StateM Tree) (String × Diagram) := do
  let document ← readDocument file
  let settings ← settingsFor config file
  let d ← readDiagram settings document
  return (document, d)

theorem loadDiagram_eq (config : Option Path) (file : Path) :
    loadDiagram config file = opening config file >>= fun found => pure found.2 := by
  simp only [loadDiagram, opening, bind_assoc, pure_bind, bind_pure]

end CommandLine.Run

/-- The document at a path, its settings and its diagram. -/
structure Tree.Opens (t : Tree) (config : Option Path) (file : Path) (text : String)
    (d : Diagram) : Prop where
  document : t.text? file = some text
  diagram : ∃ s, t.settings config file = .ok s ∧ Diagram.read s.layout text = .ok d

/-- A document that is there and has no diagram, since its settings are garbled or its text fails
by them. -/
inductive Tree.Unreadable (t : Tree) (config : Option Path) (file : Path) : Prop where
  | garbled : t.text? file = some text → t.settingsFile? config file = some path →
      t.Garbled path → Unreadable t config file
  | failing : t.text? file = some text → t.settings config file = .ok s →
      Diagram.read s.layout text = .error e → Unreadable t config file

namespace CommandLine.Run

/-- A document is opened, or it is reported why not, unless it is unreadable. -/
theorem yields_opening (t : Tree) (config : Option Path) (file : Path) :
    (∃ text d, t.Opens config file text d ∧ ¬ t.Unreadable config file ∧
      Yields (opening config file) t (.ok (text, d)) t) ∨
    ((∀ text d, ¬ t.Opens config file text d) ∧ ¬ t.Unreadable config file ∧ ∃ message,
      Yields (opening config file) t (.error (.complaint message)) t) ∨
    (t.Unreadable config file ∧ ∃ failure,
      Yields (opening config file) t (.error (.failure failure)) t) := by
  cases document : t.text? file with
  | none =>
    obtain ⟨message, missing⟩ := yields_readDocument_missing document
    refine .inr (.inl ⟨?_, ?_, message, missing.bind_error⟩)
    · rintro text d ⟨found, -⟩
      simp [document] at found
    · rintro (⟨found, -, -⟩ | ⟨found, -, -⟩) <;> simp [document] at found
  | some text =>
    have first := yields_readDocument document
    have second := yields_settingsFor t config file
    cases loaded : t.settings config file with
    | error e =>
      rw [loaded] at second
      have stopped : Yields (opening config file) t (.error (halt e)) t :=
        first.bind second.bind_error
      cases refusal : e.isRefusal with
      | true =>
        refine .inr (.inl ⟨?_, ?_, e.message, by simpa [halt, refusal] using stopped⟩)
        · rintro other d ⟨-, s, found, -⟩
          simp [loaded] at found
        · rintro (⟨-, settings, garbled⟩ | ⟨-, found, -⟩)
          · obtain ⟨other, failed, kind⟩ := Tree.settings_fail_iff.mpr ⟨_, settings, garbled⟩
            obtain rfl := Except.error.inj (loaded.symm.trans failed)
            simp [refusal] at kind
          · simp [loaded] at found
      | false =>
        obtain ⟨path, settings, garbled⟩ := Tree.settings_fail_iff.mp ⟨e, loaded, refusal⟩
        exact .inr (.inr ⟨.garbled document settings garbled, .settings e,
          by simpa [halt, refusal] using stopped⟩)
    | ok s =>
      rw [loaded] at second
      have third := yields_readDiagram t s text
      cases read : Diagram.read s.layout text with
      | error e =>
        rw [read] at third
        exact .inr (.inr ⟨.failing document loaded read, _,
          first.bind (second.bind third.bind_error)⟩)
      | ok d =>
        rw [read] at third
        refine .inl ⟨text, d, ⟨document, s, loaded, read⟩, ?_,
          first.bind (second.bind (third.bind (yields_pure _)))⟩
        rintro (⟨-, settings, garbled⟩ | ⟨found, other, failed⟩)
        · obtain ⟨other, failed, -⟩ := Tree.settings_fail_iff.mpr ⟨_, settings, garbled⟩
          simp [loaded] at failed
        · obtain rfl := Option.some.inj (document.symm.trans found)
          obtain rfl := Except.ok.inj (loaded.symm.trans other)
          simp [read] at failed

end CommandLine.Run
end EERDiagram
