import EERDiagram.Decimal.Binary
import EERDiagram.Layout.Spiral
import EERDiagram.Storage.Basic
import EERDiagram.Yaml.Loader

/-! Settings: how nodes without a position are laid out, and how long an editor waits after a
change before it reads the text again. They are a YAML mapping with two sections, each a mapping of
its own; what is missing keeps its default. What a loader lets through, and a number that is no
double, are not settings errors and are reported as they are. -/
namespace EERDiagram

structure Settings where
  layout : Spiral := {}
  debounceSeconds : Float := 0.3
  deriving DecidableEq, Repr

namespace Settings

open Yaml (Atom Value)

def fileName : String := ".eerstudio.yaml"

/-- Whether the settings are the defaults, as numbers: a zero of either sign is zero. -/
def isDefault (s : Settings) : Bool :=
  let d : Settings := {}
  s.layout.centerX == d.layout.centerX && s.layout.centerY == d.layout.centerY &&
    s.layout.radius == d.layout.radius && s.layout.angleStep == d.layout.angleStep &&
    s.layout.growth == d.layout.growth && s.debounceSeconds == d.debounceSeconds

inductive Section where
  | layout
  | editor
  deriving DecidableEq, Repr

def Section.name : Section → String
  | .layout => "layout"
  | .editor => "editor"

inductive Refusal where
  | malformed (details : String)
  | notMapping
  | sectionNotMapping (part : Section)
  | notNumber (part : Section) (key : String)
  | negativeDebounce
  deriving DecidableEq, Repr

def Refusal.message (source : String) : Refusal → String
  | .malformed details => s!"Invalid YAML in {source}: {details}"
  | .notMapping => s!"{source}: settings must be a YAML mapping"
  | .sectionNotMapping part => s!"{source}: '{part.name}' must be a YAML mapping"
  | .notNumber part key => s!"{source}: {part.name}: '{key}' must be a number"
  | .negativeDebounce => s!"{source}: editor: 'debounce-seconds' must not be negative"

inductive ReadError where
  | refused (refusal : Refusal)
  /-- An error that the loader lets through. -/
  | raised (kind : Yaml.ErrorKind) (details : String)
  /-- An integer that no double is near enough to stand for. -/
  | numberRange
  deriving DecidableEq, Repr

def ReadError.message (source : String) : ReadError → String
  | .refused refusal => refusal.message source
  | .raised _ details => details
  | .numberRange => "int too large to convert to float"

/-- The entries of a section, none when it is missing or null. -/
def sectionEntries (d : Yaml.Document) (top : List (Atom × Nat)) (part : Section) :
    Except ReadError (List (Atom × Nat)) :=
  match d.get? top part.name with
  | none => .ok []
  | some (.atom .null) => .ok []
  | some (.mapping entries) => .ok entries
  | some _ => .error (.refused (.sectionNotMapping part))

/-- The number at a key; a truth value is no number. -/
def number (d : Yaml.Document) (entries : List (Atom × Nat)) (part : Section) (key : String)
    (default : Float) : Except ReadError Float :=
  match d.get? entries key with
  | none => .ok default
  | some (.atom (.real x)) => .ok x
  | some (.atom (.integer n)) =>
    match Decimal.ofInt? n with
    | some x => .ok x
    | none => .error .numberRange
  | some _ => .error (.refused (.notNumber part key))

def ofEntries (d : Yaml.Document) (top : List (Atom × Nat)) : Except ReadError Settings := do
  let layout ← sectionEntries d top .layout
  let editor ← sectionEntries d top .editor
  let spiral : Spiral := {}
  let centerX ← number d layout .layout "center-x" spiral.centerX
  let centerY ← number d layout .layout "center-y" spiral.centerY
  let radius ← number d layout .layout "radius" spiral.radius
  let angleStep ← number d layout .layout "angle-step" spiral.angleStep
  let growth ← number d layout .layout "radius-growth" spiral.growth
  let debounceSeconds ← number d editor .editor "debounce-seconds" ({} : Settings).debounceSeconds
  if debounceSeconds < 0 then throw (.refused .negativeDebounce)
  return { layout := { centerX, centerY, radius, angleStep, growth }, debounceSeconds }

/-- The settings in a text; an empty text has the defaults. -/
def read [Yaml.Loader] (s : List Char) : Except ReadError Settings :=
  match Yaml.Loader.load s with
  | .error (.malformed details) => .error (.refused (.malformed details))
  | .error (.raised kind details) => .error (.raised kind details)
  | .ok d =>
    match d.root with
    | .atom .null => .ok {}
    | .mapping entries => ofEntries d entries
    | _ => .error (.refused .notMapping)

variable {m : Type → Type} [Monad m] [Storage m] [Yaml.Loader]

inductive LoadError where
  | missing (path : Path)
  | unreadable (error : StorageError)
  | decoding (error : Text.DecodeError)
  | content (path : Path) (error : ReadError)
  deriving DecidableEq, Repr

def LoadError.message : LoadError → String
  | .missing path => s!"Settings file not found: {path.text}"
  | .unreadable error => s!"Cannot read settings file: {error.message}"
  | .decoding error => error.message
  | .content path error => error.message path.text

def LoadError.isRefusal : LoadError → Bool
  | .missing _ | .unreadable _ | .content _ (.refused _) => true
  | .decoding _ | .content _ _ => false

def load (path : Path) : m (Except LoadError Settings) := do
  match ← Storage.readText path with
  | .error (.storage ⟨.notFound, _⟩) => return .error (.missing path)
  | .error (.storage e) => return .error (.unreadable e)
  | .error (.decoding e) => return .error (.decoding e)
  | .ok text =>
    match read (Text.unifyEndings text) with
    | .error e => return .error (.content path e)
    | .ok settings => return .ok settings

end Settings

end EERDiagram
