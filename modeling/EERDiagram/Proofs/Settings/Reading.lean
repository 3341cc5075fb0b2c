import EERDiagram.Proofs.Fallible
import EERDiagram.Proofs.Decimal.Range
import EERDiagram.Settings.Basic

/-! Reading settings. Each field is the number at its own key or its default, whatever else the
values of the text hold. What is wrong with the form of the text, with its sections or with the type
of a value is a settings error; an integer that no double stands for is not, and neither is what a
loader lets through. Nothing is asked of the loader. -/
namespace EERDiagram.Settings

open Yaml (Atom Value)

inductive Field where
  | centerX
  | centerY
  | radius
  | angleStep
  | growth
  | debounceSeconds
  deriving DecidableEq, Repr

namespace Field

def all : List Field := [.centerX, .centerY, .radius, .angleStep, .growth, .debounceSeconds]

def part : Field → Section
  | .debounceSeconds => .editor
  | _ => .layout

def key : Field → String
  | .centerX => "center-x"
  | .centerY => "center-y"
  | .radius => "radius"
  | .angleStep => "angle-step"
  | .growth => "radius-growth"
  | .debounceSeconds => "debounce-seconds"

def get : Field → Settings → Float
  | .centerX, s => s.layout.centerX
  | .centerY, s => s.layout.centerY
  | .radius, s => s.layout.radius
  | .angleStep, s => s.layout.angleStep
  | .growth, s => s.layout.growth
  | .debounceSeconds, s => s.debounceSeconds

def value? (f : Field) (d : Yaml.Document) : Option Value :=
  match d.root with
  | .mapping top =>
    match d.get? top f.part.name with
    | some (.mapping entries) => d.get? entries f.key
    | _ => none
  | _ => none

/-- The number of a field when the sections of the settings have these entries. -/
def read (f : Field) (d : Yaml.Document) (sections : Section → List (Atom × Nat)) :
    Except ReadError Float :=
  number d (sections f.part) f.part f.key (f.get {})

end Field

/-- The double that a value stands for: a real number is one, and an integer has a nearest one
unless it is too far away. -/
inductive Stands : Value → Float → Prop where
  | real : Stands (.atom (.real x)) x
  | integer : Decimal.ofInt? n = some x → Stands (.atom (.integer n)) x

/-- The number that a field gets: the one at its key, or its default if the key is missing. -/
inductive Field.Gets (f : Field) (d : Yaml.Document) : Float → Prop where
  | missing : f.value? d = none → f.Gets d (f.get {})
  | present : f.value? d = some v → Stands v x → f.Gets d x

/-- The field is the first one to have a value that no double stands for, and that is an integer. -/
structure Field.Overflows (f : Field) (d : Yaml.Document) : Prop where
  beyond : ∃ n, f.value? d = some (.atom (.integer n)) ∧ Decimal.overflowBound ≤ n.natAbs
  first : ∀ g ∈ Field.all.takeWhile (· ≠ f), ∃ x, g.Gets d x

/-- Both sections of the settings are mappings, null or missing. -/
def Sectioned (d : Yaml.Document) (top : List (Atom × Nat)) : Prop :=
  ∀ part v, d.get? top (Section.name part) = some v →
    v = .atom .null ∨ ∃ entries, v = .mapping entries

/-- A text that fails to give settings by an error that is none of the settings: the loader lets it
through, or a field overflows. -/
inductive Escapes [Yaml.Loader] (text : List Char) : Prop where
  | raised : Yaml.Loader.load text = .error (.raised kind details) → Escapes text
  | range : Yaml.Loader.load text = .ok d → d.root = .mapping top → Sectioned d top →
      Field.Overflows f d → Escapes text

variable {d : Yaml.Document} {top : List (Atom × Nat)} {sections : Section → List (Atom × Nat)}
  {f : Field} {x : Float} {s : Settings} {text : List Char}

theorem get?_nil (d : Yaml.Document) (key : String) : d.get? [] key = none := rfl

theorem sectioned_iff :
    Sectioned d top ↔ ∀ part, ∃ entries, sectionEntries d top part = .ok entries := by
  refine forall_congr' fun part => ?_
  rw [sectionEntries]
  split
  next missing => simp [missing]
  next null => simp [null]
  next entries found => simp [found]
  next v notNull notMapping found =>
    simp only [found, Option.some.injEq, forall_eq', reduceCtorEq, exists_false, iff_false, not_or,
      not_exists]
    exact ⟨notNull, notMapping⟩

theorem sectionEntries_error {part : Section} (failed : sectionEntries d top part = .error e) :
    e = .refused (.sectionNotMapping part) := by
  rw [sectionEntries] at failed
  split at failed
  · contradiction
  · contradiction
  · contradiction
  · exact (Except.error.inj failed).symm

theorem ofEntries_of_not_sectioned (unsectioned : ¬ Sectioned d top) :
    ∃ refusal, ofEntries d top = .error (.refused refusal) := by
  rw [ofEntries]
  cases layout : sectionEntries d top .layout with
  | error e =>
    obtain rfl := sectionEntries_error layout
    exact ⟨_, rfl⟩
  | ok ofLayout =>
    cases editor : sectionEntries d top .editor with
    | error e =>
      obtain rfl := sectionEntries_error editor
      exact ⟨_, rfl⟩
    | ok ofEditor =>
      refine absurd (sectioned_iff.mpr fun part => ?_) unsectioned
      cases part with
      | layout => exact ⟨_, layout⟩
      | editor => exact ⟨_, editor⟩

/-- The fields are read one after another, and then the delay is checked. -/
theorem ofEntries_eq (found : ∀ part, sectionEntries d top part = .ok (sections part)) :
    ofEntries d top = do
      let centerX ← Field.centerX.read d sections
      let centerY ← Field.centerY.read d sections
      let radius ← Field.radius.read d sections
      let angleStep ← Field.angleStep.read d sections
      let growth ← Field.growth.read d sections
      let debounceSeconds ← Field.debounceSeconds.read d sections
      if debounceSeconds < 0 then throw (.refused .negativeDebounce)
      return { layout := { centerX, centerY, radius, angleStep, growth }, debounceSeconds } := by
  simp only [ofEntries, found]
  rfl

namespace Field

theorem value?_eq (root : d.root = .mapping top)
    (found : ∀ part, sectionEntries d top part = .ok (sections part)) :
    f.value? d = d.get? (sections f.part) f.key := by
  have found := found f.part
  rw [value?, root]
  rw [sectionEntries] at found
  split at found
  next missing => simp only [missing, ← Except.ok.inj found, get?_nil]
  next null => simp only [null, ← Except.ok.inj found, get?_nil]
  next entries mapping => simp only [mapping, Except.ok.inj found]
  next => contradiction

theorem not_gets_of_beyond (beyond : f.value? d = some (.atom (.integer n)))
    (far : Decimal.overflowBound ≤ n.natAbs) : ¬ f.Gets d x := by
  rintro (missing | ⟨present, stands⟩)
  · simp [beyond] at missing
  · obtain rfl := Option.some.inj (beyond.symm.trans present)
    cases stands with
    | integer near => simp [Decimal.ofInt?_eq_none_iff.mpr far] at near

section Read

variable (root : d.root = .mapping top)
  (found : ∀ part, sectionEntries d top part = .ok (sections part))

include root found

theorem read_cases :
    (∃ x, f.Gets d x ∧ f.read d sections = .ok x) ∨
    ((∃ n, f.value? d = some (.atom (.integer n)) ∧ Decimal.overflowBound ≤ n.natAbs) ∧
      f.read d sections = .error .numberRange) ∨
    ((∀ x, ¬ f.Gets d x) ∧
      f.read d sections = .error (.refused (.notNumber f.part f.key))) := by
  have own := value?_eq (f := f) root found
  rw [read, number]
  split
  next missing => exact .inl ⟨_, .missing (own.trans missing), rfl⟩
  next x real => exact .inl ⟨x, .present (own.trans real) .real, rfl⟩
  next n integer =>
    cases near : Decimal.ofInt? n with
    | some x => exact .inl ⟨x, .present (own.trans integer) (.integer near), rfl⟩
    | none =>
      exact .inr (.inl ⟨⟨n, own.trans integer, Decimal.ofInt?_eq_none_iff.mp near⟩, rfl⟩)
  next v notReal notInteger other =>
    refine .inr (.inr ⟨?_, rfl⟩)
    rintro x (missing | ⟨present, stands⟩)
    · simp [own, other] at missing
    · obtain rfl := Option.some.inj ((own.trans other).symm.trans present)
      cases stands with
      | real => exact notReal _ rfl
      | integer => exact notInteger _ rfl

theorem gets_of_read (given : f.read d sections = .ok x) : f.Gets d x := by
  rcases read_cases (f := f) root found with ⟨y, gets, own⟩ | ⟨-, own⟩ | ⟨-, own⟩
  · obtain rfl := Except.ok.inj (own.symm.trans given)
    exact gets
  · simp [own] at given
  · simp [own] at given

theorem read_of_gets (gets : ∃ x, f.Gets d x) : ∃ x, f.read d sections = .ok x := by
  obtain ⟨x, gets⟩ := gets
  rcases read_cases (f := f) root found with ⟨y, -, own⟩ | ⟨⟨n, beyond, far⟩, -⟩ | ⟨none, -⟩
  · exact ⟨y, own⟩
  · exact absurd gets (not_gets_of_beyond beyond far)
  · exact absurd gets (none x)

/-- Reading a field and going on fails with the field, if all fields before it got their numbers, or
with what comes after it. -/
theorem bind_error {next : Float → Except ReadError Settings}
    (failed : f.read d sections >>= next = .error e)
    (first : ∀ g ∈ all.takeWhile (· ≠ f), ∃ x, g.Gets d x) :
    ((∃ refusal, e = .refused refusal) ∨ e = .numberRange ∧ ∃ f : Field, f.Overflows d) ∨
      (∃ x, f.Gets d x) ∧ ∃ x, next x = .error e := by
  rcases read_cases (f := f) root found with ⟨x, gets, own⟩ | ⟨beyond, own⟩ | ⟨-, own⟩ <;>
    rw [own] at failed
  · exact .inr ⟨⟨x, gets⟩, x, failed⟩
  · exact .inl (.inr ⟨(Except.error.inj failed).symm, f, beyond, first⟩)
  · exact .inl (.inl ⟨_, (Except.error.inj failed).symm⟩)

theorem read_overflows (overflows : f.Overflows d) :
    f.read d sections = .error .numberRange := by
  obtain ⟨⟨n, beyond, far⟩, -⟩ := overflows
  rw [read, number, ← value?_eq root found, beyond]
  simp only [Decimal.ofInt?_eq_none_iff.mpr far]

end Read

end Field

/-- Entries fail to give settings by a refusal or by the first field that overflows. -/
theorem ofEntries_error (root : d.root = .mapping top) (failed : ofEntries d top = .error e) :
    (∃ refusal, e = .refused refusal) ∨
      e = .numberRange ∧ Sectioned d top ∧ ∃ f : Field, f.Overflows d := by
  by_cases sectioned : Sectioned d top
  case neg =>
    obtain ⟨refusal, refused⟩ := ofEntries_of_not_sectioned sectioned
    exact .inl ⟨refusal, Except.error.inj (failed.symm.trans refused)⟩
  suffices (∃ refusal, e = .refused refusal) ∨ e = .numberRange ∧ ∃ f : Field, f.Overflows d from
    this.imp_right fun ⟨range, overflows⟩ => ⟨range, sectioned, overflows⟩
  choose sections found using sectioned_iff.mp sectioned
  rw [ofEntries_eq found] at failed
  -- Each field fails with the fields before it given.
  obtain done | ⟨centerX, _, failed⟩ := Field.bind_error root found failed (by simp [Field.all])
  · exact done
  obtain done | ⟨centerY, _, failed⟩ :=
    Field.bind_error root found failed (by simp [Field.all, centerX])
  · exact done
  obtain done | ⟨radius, _, failed⟩ :=
    Field.bind_error root found failed (by simp [Field.all, centerX, centerY])
  · exact done
  obtain done | ⟨angleStep, _, failed⟩ :=
    Field.bind_error root found failed (by simp [Field.all, centerX, centerY, radius])
  · exact done
  obtain done | ⟨growth, _, failed⟩ :=
    Field.bind_error root found failed (by simp [Field.all, centerX, centerY, radius, angleStep])
  · exact done
  obtain done | ⟨-, delay, failed⟩ := Field.bind_error root found failed
    (by simp [Field.all, centerX, centerY, radius, angleStep, growth])
  · exact done
  split at failed
  next => exact .inl ⟨_, (Except.error.inj failed).symm⟩
  next => contradiction

theorem ofEntries_overflows (root : d.root = .mapping top) (sectioned : Sectioned d top)
    (overflows : f.Overflows d) : ofEntries d top = .error .numberRange := by
  choose sections found using sectioned_iff.mp sectioned
  have own := Field.read_overflows root found overflows
  choose number given using fun g before =>
    Field.read_of_gets root found (overflows.first g before)
  rw [ofEntries_eq found]
  cases f <;> simp [Field.all, given, own, bind, Except.bind]

theorem gets_of_ofEntries (root : d.root = .mapping top) (accepted : ofEntries d top = .ok s)
    (f : Field) : f.Gets d (f.get s) := by
  have sectioned : Sectioned d top := by
    by_contra unsectioned
    obtain ⟨refusal, refused⟩ := ofEntries_of_not_sectioned unsectioned
    simp [refused] at accepted
  choose sections found using sectioned_iff.mp sectioned
  simp only [ofEntries_eq found, bind_eq_ok_iff] at accepted
  obtain ⟨x, centerX, y, centerY, radius, radiusIs, step, stepIs, growth, growthIs, delay, delayIs,
    accepted⟩ := accepted
  split at accepted
  next => contradiction
  next =>
    obtain rfl := Except.ok.inj accepted
    cases f with
    | centerX => exact Field.gets_of_read root found centerX
    | centerY => exact Field.gets_of_read root found centerY
    | radius => exact Field.gets_of_read root found radiusIs
    | angleStep => exact Field.gets_of_read root found stepIs
    | growth => exact Field.gets_of_read root found growthIs
    | debounceSeconds => exact Field.gets_of_read root found delayIs

section Loaded

variable [Yaml.Loader]

theorem read_error (failed : read text = .error e) :
    (∃ refusal, e = .refused refusal) ∨ Escapes text := by
  rw [read] at failed
  split at failed
  next => exact .inl ⟨_, (Except.error.inj failed).symm⟩
  next raised => exact .inr (.raised raised)
  next d loaded =>
    split at failed
    next => contradiction
    next top root =>
      rcases ofEntries_error root failed with refused | ⟨-, sectioned, f, overflows⟩
      · exact .inl refused
      · exact .inr (.range loaded root sectioned overflows)
    next => exact .inl ⟨_, (Except.error.inj failed).symm⟩

theorem Escapes.read (escapes : Escapes text) :
    ∃ e, read text = .error e ∧ ∀ refusal, e ≠ .refused refusal := by
  cases escapes with
  | @raised kind details raised =>
    exact ⟨.raised kind details, by rw [Settings.read, raised], nofun⟩
  | range loaded root sectioned overflows =>
    refine ⟨.numberRange, ?_, nofun⟩
    simp only [Settings.read, loaded, root, ofEntries_overflows root sectioned overflows]

theorem read_refuses_iff :
    (∀ e, read text = .error e → ∃ refusal, e = .refused refusal) ↔ ¬ Escapes text := by
  constructor
  · intro refuses escapes
    obtain ⟨e, failed, other⟩ := escapes.read
    obtain ⟨refusal, rfl⟩ := refuses e failed
    exact other refusal rfl
  · exact fun proper e failed => (read_error failed).resolve_right proper

theorem gets_of_read (accepted : read text = .ok s) :
    ∃ d, Yaml.Loader.load text = .ok d ∧ ∀ f : Field, f.Gets d (f.get s) := by
  rw [read] at accepted
  split at accepted
  next => contradiction
  next => contradiction
  next d loaded =>
    refine ⟨d, loaded, fun f => ?_⟩
    split at accepted
    next root =>
      obtain rfl := Except.ok.inj accepted
      exact .missing (by rw [Field.value?, root])
    next top root => exact gets_of_ofEntries root accepted f
    next => contradiction

end Loaded

end EERDiagram.Settings
