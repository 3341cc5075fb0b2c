import EERDiagram.Proofs.Settings.Reading
import EERDiagram.Proofs.Storage.Tree
import EERDiagram.Proofs.Text.Encoding
import EERDiagram.Settings.Basic
import EERDiagram.Yaml.Building

/-! Loading settings from a tree of files. A file gives the settings of its text. It fails in its
own way if it cannot be read or its text is refused, and in another if it is no text or its text
escapes. -/
namespace EERDiagram

namespace Tree

variable {t : Tree} {path : Path}

def readText (t : Tree) (path : Path) : Except FileError (List Char) :=
  match t.read path with
  | .error e => .error (.storage e)
  | .ok bytes => (Text.decode bytes).mapError .decoding

def text? (t : Tree) (path : Path) : Option String :=
  (t.readText path).toOption.map String.ofList

theorem run_readText (t : Tree) (path : Path) :
    (Storage.readText path : StateM Tree _).run t = (t.readText path, t) := by
  simp only [Storage.readText, Storage.read, StateT.run, bind, StateT.bind, readText]
  cases t.read path with
  | error e => rfl
  | ok bytes => cases decoded : Text.decode bytes <;> simp only [decoded] <;> rfl

theorem text?_eq_some_iff {text : String} : t.text? path = some text ↔
    ∃ characters, t.readText path = .ok characters ∧ String.ofList characters = text := by
  cases read : t.readText path <;> simp [text?, read, Except.toOption]

theorem file_of_text? {text : String} (found : t.text? path = some text) :
    ∃ place, t.locate path = .ok place ∧ t.file? place = some (Text.encode text.toList) ∧
      Text.decode (Text.encode text.toList) = .ok text.toList := by
  obtain ⟨characters, readable, rfl⟩ := text?_eq_some_iff.mp found
  rw [readText] at readable
  cases read : t.read path with
  | error e => simp [read] at readable
  | ok bytes =>
    simp only [read, mapError_eq_ok_iff] at readable
    obtain ⟨place, located, found⟩ := read_eq_ok_iff.mp read
    rw [String.toList_ofList, Text.encode_decode readable]
    exact ⟨place, located, found, readable⟩

section Loaded

variable [Yaml.Loader]

def load (t : Tree) (path : Path) : Except Settings.LoadError Settings :=
  match t.readText path with
  | .error (.storage ⟨.notFound, _⟩) => .error (.missing path)
  | .error (.storage e) => .error (.unreadable e)
  | .error (.decoding e) => .error (.decoding e)
  | .ok text => (Settings.read (Text.unifyEndings text)).mapError (.content path)

/-- A file of settings that is no text, or whose text escapes. -/
inductive Garbled (t : Tree) (path : Path) : Prop where
  | bytes : t.read path = .ok bytes → Text.decode bytes = .error e → Garbled t path
  | text : t.read path = .ok bytes → Text.decode bytes = .ok characters →
      Settings.Escapes (Text.unifyEndings characters) → Garbled t path

theorem run_load (t : Tree) (path : Path) :
    (Settings.load path : StateM Tree _).run t = (t.load path, t) := by
  rw [Settings.load, StateT.run_bind, run_readText, load]
  cases t.readText path with
  | error e => obtain ⟨⟨_ | _ | _ | _, p⟩⟩ | e := e <;> rfl
  | ok text =>
    simp only [bind]
    cases Settings.read (Text.unifyEndings text) <;> rfl

theorem garbled_iff : t.Garbled path ↔ ∃ bytes, t.read path = .ok bytes ∧
    ∀ characters, Text.decode bytes = .ok characters →
      Settings.Escapes (Text.unifyEndings characters) := by
  constructor
  · rintro (⟨found, failed⟩ | ⟨found, decoded, escapes⟩)
    · exact ⟨_, found, fun characters decoded => by simp [failed] at decoded⟩
    · refine ⟨_, found, fun characters own => ?_⟩
      obtain rfl := Except.ok.inj (decoded.symm.trans own)
      exact escapes
  · rintro ⟨bytes, found, escapes⟩
    cases decoded : Text.decode bytes with
    | error e => exact .bytes found decoded
    | ok characters => exact .text found decoded (escapes characters decoded)

theorem load_of_read (found : t.read path = .ok bytes) :
    t.load path = match Text.decode bytes with
      | .error e => .error (.decoding e)
      | .ok characters =>
        (Settings.read (Text.unifyEndings characters)).mapError (.content path) := by
  simp only [load, readText, found]
  cases Text.decode bytes <;> rfl

theorem load_of_unread (failed : t.read path = .error e) :
    ∃ refusal, t.load path = .error refusal ∧ refusal.isRefusal = true := by
  simp only [load, readText, failed]
  obtain ⟨_ | _ | _ | _, p⟩ := e <;> exact ⟨_, rfl, rfl⟩

/-- What fails in loading settings and is not one of them comes from a file that is garbled. -/
theorem load_fails_iff : (∃ e, t.load path = .error e ∧ e.isRefusal = false) ↔ t.Garbled path := by
  rw [garbled_iff]
  cases found : t.read path with
  | error e =>
    obtain ⟨refusal, loaded, isRefusal⟩ := load_of_unread found
    simp [loaded, isRefusal]
  | ok bytes =>
    simp only [load_of_read found, Except.ok.injEq, exists_eq_left']
    cases decoded : Text.decode bytes with
    | error e => simp [Settings.LoadError.isRefusal]
    | ok characters =>
      have refuses : _ ↔ ¬ Settings.Escapes (Text.unifyEndings characters) :=
        Settings.read_refuses_iff
      simp only [Except.ok.injEq, forall_eq']
      cases spelled : Settings.read (Text.unifyEndings characters) with
      | ok settings => simpa [spelled] using refuses
      | error e =>
        cases e <;> simpa [spelled, Settings.LoadError.isRefusal] using refuses

theorem read_of_load (loaded : t.load path = .ok s) :
    ∃ bytes characters, t.read path = .ok bytes ∧ Text.decode bytes = .ok characters ∧
      Settings.read (Text.unifyEndings characters) = .ok s := by
  cases found : t.read path with
  | error e =>
    obtain ⟨refusal, failed, -⟩ := load_of_unread found
    simp [failed] at loaded
  | ok bytes =>
    rw [load_of_read found] at loaded
    cases decoded : Text.decode bytes with
    | error e => simp [decoded] at loaded
    | ok characters =>
      simp only [decoded, mapError_eq_ok_iff] at loaded
      exact ⟨bytes, characters, rfl, decoded, loaded⟩

end Loaded

end Tree

namespace Settings

/-- Whatever the loader, a text fails to give settings by a settings error, and never otherwise, if
and only if it does not escape; a file does if and only if it is not there or is a text that does
not escape. The settings that are given have for each field the number at its key, or the default if
the key is missing. -/
theorem fails_by_refusal_iff [Yaml.Loader] (text : List Char) (t : Tree) (path : Path) :
    ((∀ e, read text = .error e → ∃ refusal, e = .refused refusal) ↔ ¬ Escapes text) ∧
    ((∀ e, ((load path : StateM Tree _).run t).1 = .error e → e.isRefusal = true) ↔
      ∀ bytes, t.read path = .ok bytes → ∃ characters, Text.decode bytes = .ok characters ∧
        ¬ Escapes (Text.unifyEndings characters)) ∧
    (∀ s, read text = .ok s →
      ∃ d, Yaml.Loader.load text = .ok d ∧ ∀ f : Field, f.Gets d (f.get s)) ∧
    (∀ s, ((load path : StateM Tree _).run t).1 = .ok s →
      ∃ bytes characters d, t.read path = .ok bytes ∧ Text.decode bytes = .ok characters ∧
        Yaml.Loader.load (Text.unifyEndings characters) = .ok d ∧
        ∀ f : Field, f.Gets d (f.get s)) := by
  rw [t.run_load]
  refine ⟨read_refuses_iff, ?_, fun s accepted => gets_of_read accepted, fun s loaded => ?_⟩
  · have proper : (∀ e, t.load path = .error e → e.isRefusal = true) ↔ ¬ t.Garbled path := by
      rw [← Tree.load_fails_iff]
      simp
    rw [proper, Tree.garbled_iff]
    push Not
    rfl
  · obtain ⟨bytes, characters, found, decoded, accepted⟩ := Tree.read_of_load loaded
    obtain ⟨d, given, gets⟩ := gets_of_read accepted
    exact ⟨bytes, characters, d, found, decoded, given, gets⟩

/-- A binary number without digits is reported as what it is, not as a settings error. -/
theorem reports_no_digits : ¬ ∀ e, read "layout:\n  radius: 0b_\n".toList = .error e →
    ∃ refusal, e = .refused refusal := by
  have failed : read "layout:\n  radius: 0b_\n".toList =
      .error (.raised .value "invalid literal for int() with base 2: ''") := by decide +kernel
  intro refuses
  obtain ⟨refusal, refused⟩ := refuses _ failed
  cases refused

end Settings
end EERDiagram
