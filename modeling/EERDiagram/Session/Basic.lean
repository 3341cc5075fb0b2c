import EERDiagram.Diagram.Move
import EERDiagram.Settings.Basic

/-! An editing session: a text, the diagram last read from it, and the drag in progress. Changing
the text sets a timer, replacing the one before it, and the text is read when the timer fires.
A drag moves a node of the diagram; releasing it writes the position into the text. -/
namespace EERDiagram

/-! Time passes only by advancing the clock, which takes out the timers that have come due. A
cancelled timer stays with the clock until then. -/

structure Timer where
  handle : Nat
  deadline : Float
  cancelled : Bool := false
  deriving DecidableEq, Repr

structure Clock where
  now : Float := 0.0
  issued : Nat := 0
  timers : List Timer := []
  deriving DecidableEq, Repr

namespace Clock

def schedule (clock : Clock) (delay : Float) : Clock × Nat :=
  ({ clock with
      issued := clock.issued + 1
      timers := clock.timers ++ [⟨clock.issued, clock.now + delay, false⟩] }, clock.issued)

def cancel (clock : Clock) (handle : Nat) : Clock :=
  { clock with timers := clock.timers.map fun timer =>
      if timer.handle = handle then { timer with cancelled := true } else timer }

def isDue (now : Float) (timer : Timer) : Bool := timer.deadline ≤ now

/-- Moves the clock on and takes out the timers that are due, earliest first. -/
def advance (clock : Clock) (seconds : Float) : Clock × List Timer :=
  let now := clock.now + seconds
  ({ clock with now, timers := clock.timers.filter (!isDue now ·) },
    (clock.timers.filter (isDue now ·)).mergeSort fun a b => a.deadline ≤ b.deadline)

end Clock

/-- Without a clock nothing can be scheduled. `pending` is the handle of the timer for the next
reading; `published` holds the diagrams read since the session began, oldest first. -/
structure Session where
  settings : Settings
  clock : Option Clock
  text : String
  diagram : Diagram
  pending : Option Nat := none
  dragged : Option String := none
  published : List Diagram := []

inductive SessionError where
  | noClock
  | reading (error : ReadingError)
  deriving DecidableEq, Repr

def SessionError.message : SessionError → String
  | .noClock => "no running event loop"
  | .reading error => error.message

namespace Session

def begin? (settings : Settings) (clock : Option Clock) (text : String) :
    Except ReadingError Session :=
  match Diagram.read settings.layout text with
  | .error e => .error e
  | .ok diagram => .ok { settings, clock, text, diagram }

/-- What a step of a session came to, beside the session after it. A step that fails may have
changed the session before it failed. -/
abbrev Outcome (α : Type) := Session × Except SessionError α

def cancelPending (s : Session) : Session :=
  match s.pending with
  | none => s
  | some handle => { s with clock := s.clock.map (·.cancel handle), pending := none }

def schedule (s : Session) : Outcome Unit :=
  let s := s.cancelPending
  match s.clock with
  | none => (s, .error .noClock)
  | some clock =>
    let (clock, handle) := clock.schedule s.settings.debounceSeconds
    ({ s with clock := some clock, pending := some handle }, .ok ())

/-- Reads the text. A text that has no diagram leaves the old one. -/
def parse (s : Session) : Outcome Diagram :=
  match Diagram.read s.settings.layout s.text with
  | .error e => (s, .error (.reading e))
  | .ok diagram => ({ s with diagram, published := s.published ++ [diagram] }, .ok diagram)

def setText (s : Session) (text : String) : Outcome Unit := { s with text }.schedule

def parseNow (s : Session) : Outcome Diagram := s.cancelPending.parse

def draggedNode (s : Session) : Option Node := s.dragged.bind s.diagram.find?

/-- Only a node of the diagram can be dragged. -/
def beginDrag (s : Session) (id : String) : Session × Bool :=
  match s.diagram.find? id with
  | none => (s, false)
  | some _ => ({ s with dragged := some id }, true)

def dragTo (s : Session) (x y : Float) : Session :=
  match s.draggedNode with
  | none => s
  | some node => { s with diagram := s.diagram.place node.id ⟨x, y⟩ }

/-- Releases the dragged node: its position goes into the text. -/
def endDrag (s : Session) : Outcome String :=
  let node := s.draggedNode
  let s := { s with dragged := none }
  match node with
  | none => (s, .ok s.text)
  | some node =>
    let text := Document.afterMove s.text
      (Document.writePosition s.text node.line node.position.x node.position.y)
    let (s, outcome) := s.setText text
    (s, outcome.map fun _ => s.text)

def close (s : Session) : Session := s.cancelPending

/-- Runs the due timers that nobody cancelled, up to the first that fails. -/
def fire (s : Session) : List Timer → Outcome Unit
  | [] => (s, .ok ())
  | timer :: rest =>
    if timer.cancelled then s.fire rest
    else
      match { s with pending := none }.parse with
      | (s, .error e) => (s, .error e)
      | (s, .ok _) => s.fire rest

def advance (s : Session) (seconds : Float) : Outcome Unit :=
  match s.clock with
  | none => (s, .ok ())
  | some clock =>
    let (clock, due) := clock.advance seconds
    { s with clock := some clock }.fire due

inductive Step where
  | setText (text : String)
  | parseNow
  | beginDrag (id : String)
  | dragTo (x y : Float)
  | endDrag
  | close
  | advance (seconds : Float)
  deriving DecidableEq, Repr

inductive Answer where
  | done
  | parsed (diagram : Diagram)
  | dragging (started : Bool)
  | released (text : String)
  deriving DecidableEq, Repr

def perform (s : Session) : Step → Outcome Answer
  | .setText text => let (s, r) := s.setText text; (s, r.map fun _ => .done)
  | .parseNow => let (s, r) := s.parseNow; (s, r.map .parsed)
  | .beginDrag id => let (s, started) := s.beginDrag id; (s, .ok (.dragging started))
  | .dragTo x y => (s.dragTo x y, .ok .done)
  | .endDrag => let (s, r) := s.endDrag; (s, r.map .released)
  | .close => (s.close, .ok .done)
  | .advance seconds => let (s, r) := s.advance seconds; (s, r.map fun _ => .done)

def run (s : Session) : List Step → Session
  | [] => s
  | step :: steps => (s.perform step).1.run steps

end Session

end EERDiagram
