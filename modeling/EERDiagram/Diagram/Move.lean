import EERDiagram.Decimal.Form
import EERDiagram.Diagram.Reading

/-! Moving a node in the text. A move changes one line, the one that declared the node: it loses
its first coordinate pair and its trailing blanks and gets the new pair at its end. All other
lines stay as they are. -/
namespace EERDiagram

namespace Line

/-- A carriage return at the end of a line belongs to its ending. -/
def ending (raw : List Char) : List Char :=
  if raw.getLast? = some '\r' then ['\r'] else []

/-- The line with its pair taken out and nothing blank left at its end. -/
def base (raw : List Char) : List Char := Text.trimEnd (Coordinates.erase raw)

def withPair (raw pair : List Char) : List Char := base raw ++ ' ' :: pair ++ ending raw

end Line

inductive MoveRefusal where
  | notFinite (line : Int) (x y : Float)
  | noSuchLine (line : Int) (lines : Nat)
  | noSuchNode (id : String)
  deriving DecidableEq, Repr

def MoveRefusal.message : MoveRefusal → String
  | .notFinite line x y =>
    s!"Write-back to line {line} skipped: non-finite position ({Decimal.text x}, {Decimal.text y})"
  | .noSuchLine line lines => s!"Write-back to line {line} skipped: document has {lines} line(s)"
  | .noSuchNode id => "Write-back skipped: no node with id " ++ Text.quoted id

def MoveRefusal.record (refusal : MoveRefusal) : Log.Record :=
  ⟨.debug, "eerstudio.sync.writeback", refusal.message⟩

namespace Document

def setPair (document : String) (index : Nat) (pair : List Char) : String :=
  String.ofList
    (Text.joinLines ((Text.splitLines document.toList).modify index (Line.withPair · pair)))

def writePosition (document : String) (line : Int) (x y : Float) : Except MoveRefusal String :=
  if ¬ (Decimal.isFinite x ∧ Decimal.isFinite y) then .error (.notFinite line x y)
  else
    let count := (Text.splitLines document.toList).length
    if 0 ≤ line ∧ line < count then
      match Coordinates.format x y with
      | .ok pair => .ok (setPair document line.toNat pair)
      | .error _ => .error (.notFinite line x y)
    else .error (.noSuchLine line count)

/-- Writes the position of a node on the line that the diagram says declared it. -/
def moveNode (document : String) (d : Diagram) (id : String) (x y : Float) :
    Except MoveRefusal String :=
  match d.find? id with
  | none => .error (.noSuchNode id)
  | some node => writePosition document node.line x y

/-- The text after a move: a refused one changes nothing. -/
def afterMove (document : String) : Except MoveRefusal String → String
  | .ok text => text
  | .error _ => document

end Document
end EERDiagram
