import EERDiagram.Document.Coordinates

/-! Lines of a document. A line is blank, a comment, or a statement with an optional position. -/
namespace EERDiagram

structure Line where
  coordinates : Option (Int × Int)
  text : List Char
  deriving DecidableEq, Repr

/-- A numeral of a line's position has more digits than may be read. -/
structure LineError where
  digits : Nat
  deriving DecidableEq, Repr

def LineError.message (e : LineError) : String :=
  s!"Exceeds the limit (4300 digits) for integer string conversion: value has {e.digits} digits; use sys.set_int_max_str_digits() to increase the limit"

namespace Line

def byteOrderMark : Char := '\uFEFF'

/-- What a raw line holds once the byte order marks before it and the blanks around it are gone. -/
def content (raw : List Char) : List Char := Text.trim (raw.dropWhile (· == byteOrderMark))

def isSilent : List Char → Bool
  | [] => true
  | '/' :: '/' :: _ => true
  | _ => false

def coordinate (n : Coordinates.Numeral) : Except LineError Int :=
  if Coordinates.maxDigits < n.digits.length then .error ⟨n.digits.length⟩ else .ok n.value

/-- Reads a line; `none` when it says nothing. -/
def read (raw : List Char) : Except LineError (Option Line) :=
  let content := content raw
  if isSilent content then .ok none
  else match Coordinates.cut? content with
    | none => .ok (some ⟨none, content⟩)
    | some cut => do
      let x ← coordinate cut.pair.x
      let y ← coordinate cut.pair.y
      return some ⟨some (x, y), Text.trim cut.rest⟩

end Line
end EERDiagram
