/-! A place in a YAML text: the text after it, with its distance from the start, its line and its
column. Indentation decides structure, so every step keeps the column. -/
namespace EERDiagram.Yaml

structure Cursor where
  rest : List Char
  index : Nat := 0
  line : Nat := 0
  column : Nat := 0

def isBreak (c : Char) : Bool :=
  c == '\n' || c == '\r' || c == '\x85' || c == '\u2028' || c == '\u2029'

/-- The end of the text ends a line too. -/
def endsLine : Option Char → Bool
  | none => true
  | some c => isBreak c

/-- After a space or the end of the line. -/
def endsRun : Option Char → Bool
  | none => true
  | some c => c == ' ' || isBreak c

/-- After a blank or the end of the line. -/
def endsWord : Option Char → Bool
  | none => true
  | some c => c == ' ' || c == '\t' || isBreak c

namespace Cursor

def peek (c : Cursor) : Option Char := c.rest.head?

def peekAt (c : Cursor) (n : Nat) : Option Char := c.rest[n]?

/-- The first of two characters that make one line break ends no line, and a byte order mark
takes no column. -/
def step (c : Cursor) : Cursor :=
  match c.rest with
  | [] => c
  | ch :: rest =>
    if isBreak ch ∧ ¬ (ch = '\r' ∧ rest.head? = some '\n') then
      ⟨rest, c.index + 1, c.line + 1, 0⟩
    else ⟨rest, c.index + 1, c.line, if ch = '\uFEFF' then c.column else c.column + 1⟩

def skip (c : Cursor) : Nat → Cursor
  | 0 => c
  | n + 1 => c.step.skip n

def takeWhile (c : Cursor) (p : Char → Bool) : List Char × Cursor :=
  let run := c.rest.takeWhile p
  (run, c.skip run.length)

def skipWhile (c : Cursor) (p : Char → Bool) : Cursor := (c.takeWhile p).2

def skipSpaces (c : Cursor) : Cursor := c.skipWhile (· == ' ')

/-- Takes a line break. All forms are the line feed, but the two Unicode separators stay. -/
def takeBreak (c : Cursor) : List Char × Cursor :=
  match c.rest with
  | '\r' :: '\n' :: _ => (['\n'], c.skip 2)
  | ch :: _ =>
    if ch = '\u2028' ∨ ch = '\u2029' then ([ch], c.step)
    else if isBreak ch then (['\n'], c.step)
    else ([], c)
  | [] => ([], c)

/-- Whether three given characters stand here as a word. -/
def atMark (c : Cursor) (mark : Char) : Bool :=
  c.peek == some mark && c.peekAt 1 == some mark && c.peekAt 2 == some mark && endsWord (c.peekAt 3)

def atDocumentMark (c : Cursor) : Bool := c.atMark '-' || c.atMark '.'

def skipComment (c : Cursor) : Cursor :=
  if c.peek = some '#' then c.skipWhile (!isBreak ·) else c

end Cursor
end EERDiagram.Yaml
