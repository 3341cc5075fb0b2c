import EERDiagram.Text.Basic
import EERDiagram.Yaml.Cursor
import EERDiagram.Yaml.Fault

/-! The text of scalars. A quoted or plain scalar may run over several lines: a single break
between them reads as a space, and further breaks stay. A block scalar takes whole lines, without
their indentation. The functions that loop take `fuel`, for which the length of the text left is
always enough. -/
namespace EERDiagram.Yaml

/-- A scalar text read so far, and the place after it. -/
abbrev Taken := Except Fault (List Char × Cursor)

/-- How a break and the breaks after it read inside a scalar. -/
def folded (first more : List Char) : List Char :=
  if first ≠ ['\n'] then first ++ more
  else if more = [] then [' ']
  else more

namespace Quoted

def escape? : Char → Option Char
  | '0' => some '\x00'
  | 'a' => some '\x07'
  | 'b' => some '\x08'
  | 't' => some '\t'
  | '\t' => some '\t'
  | 'n' => some '\n'
  | 'v' => some '\x0b'
  | 'f' => some '\x0c'
  | 'r' => some '\r'
  | 'e' => some '\x1b'
  | ' ' => some ' '
  | '"' => some '"'
  | '\\' => some '\\'
  | '/' => some '/'
  | 'N' => some '\u0085'
  | '_' => some '\u00A0'
  | 'L' => some '\u2028'
  | 'P' => some '\u2029'
  | _ => none

def escapeLength? : Char → Option Nat
  | 'x' => some 2
  | 'u' => some 4
  | 'U' => some 8
  | _ => none

/-- A surrogate is no character and reads as the replacement character. -/
def ofCodePoint (n : Nat) : Except Fault Char :=
  if 0x80000000 ≤ n then .error .escapeOverflow
  else if 0x110000 ≤ n then .error .escapeRange
  else if 0xD800 ≤ n ∧ n < 0xE000 then .ok '\uFFFD'
  else .ok (Char.ofNat n)

/-- Blank lines inside a quotation, which a document mark may not interrupt. -/
def breaks : Nat → Cursor → Taken
  | 0, c => .ok ([], c)
  | fuel + 1, c =>
    if c.atDocumentMark then .error .malformed
    else
      let c := c.skipWhile fun ch => ch == ' ' || ch == '\t'
      match c.takeBreak with
      | ([], c) => .ok ([], c)
      | (first, c) => (breaks fuel c).map fun (more, c) => (first ++ more, c)

def escaped (c : Cursor) : Taken :=
  match c.peek with
  | none => .error .malformed
  | some letter =>
    match escape? letter with
    | some ch => .ok ([ch], c.step)
    | none =>
      match escapeLength? letter with
      | some n =>
        let digits := c.step.rest.take n
        match Text.hexNumber? digits with
        | none => .error .malformed
        | some code =>
          if digits.length < n then .error .malformed
          else (ofCodePoint code).map fun ch => ([ch], c.step.skip n)
      | none =>
        if isBreak letter then breaks c.rest.length c.takeBreak.2 else .error .malformed

/-- A run of blanks, or of line breaks with blanks around them. -/
def blanks (c : Cursor) : Taken :=
  let (spaces, c) := c.takeWhile fun ch => ch == ' ' || ch == '\t'
  match c.peek with
  | none => .error .malformed
  | some ch =>
    if isBreak ch then
      let (first, c) := c.takeBreak
      (breaks c.rest.length c).map fun (more, c) => (folded first more, c)
    else .ok (spaces, c)

def body (mark : Char) : Nat → Cursor → Taken
  | 0, _ => .error .malformed
  | fuel + 1, c =>
    let continueWith (text : List Char) (c : Cursor) : Taken :=
      (body mark fuel c).map fun (more, c) => (text ++ more, c)
    match c.rest with
    | [] => .error .malformed
    | ch :: rest =>
      if ch = mark then
        if mark = '\'' ∧ rest.head? = some '\'' then continueWith ['\''] (c.skip 2)
        else .ok ([], c.step)
      else if ch = '\\' ∧ mark = '"' then
        match escaped c.step with
        | .ok (text, c) => continueWith text c
        | .error e => .error e
      else if endsWord (some ch) then
        match blanks c with
        | .ok (text, c) => continueWith text c
        | .error e => .error e
      else continueWith [ch] c.step

def read (mark : Char) (c : Cursor) : Taken := body mark c.rest.length c.step

end Quoted

namespace Plain

/-- Blank lines inside a plain scalar; `none` when a document mark follows a break. -/
def breaks : Nat → Cursor → Option (List Char) × Cursor
  | 0, c => (some [], c)
  | fuel + 1, c =>
    let c := c.skipSpaces
    match c.takeBreak with
    | ([], c) => (some [], c)
    | (first, c) =>
      if c.atDocumentMark then (none, c)
      else
        let (more, c) := breaks fuel c
        (more.map (first ++ ·), c)

/-- What separates two runs of a plain scalar. Empty when nothing does, or when a document mark
ends the scalar. The flag says whether there was a line break. -/
def separator (c : Cursor) : List Char × Bool × Cursor :=
  let (spaces, c) := c.takeWhile (· == ' ')
  match c.takeBreak with
  | ([], c) => (spaces, false, c)
  | (first, c) =>
    if c.atDocumentMark then ([], true, c)
    else
      match breaks c.rest.length c with
      | (some more, c) => (folded first more, true, c)
      | (none, c) => ([], true, c)

def isFlowMark (c : Char) : Bool := c == ',' || c == '[' || c == ']' || c == '\x7b' || c == '\x7d'

/-- The run of characters that ends at a blank or, inside brackets, at one of their marks. A
colon ends it before either. -/
def run (inFlow : Bool) : List Char → List Char
  | [] => []
  | ch :: rest =>
    let colonEnds := endsWord rest.head? || inFlow && rest.head?.any isFlowMark
    if endsWord (some ch) || ch == ':' && colonEnds || inFlow && (ch == '?' || isFlowMark ch) then []
    else ch :: run inFlow rest

/-- The scalar's text from a place where a run may begin. The flag says whether the last thing
taken was a separator with a line break in it. -/
def body (inFlow : Bool) (indent : Int) : Nat → Cursor → List Char × Bool × Cursor
  | 0, c => ([], false, c)
  | fuel + 1, c =>
    let text := run inFlow c.rest
    if c.peek = some '#' ∨ text = [] then ([], false, c)
    else
      let (between, broken, c) := separator (c.skip text.length)
      if between = [] ∨ c.peek = some '#' ∨ (!inFlow ∧ (c.column : Int) < indent) then
        (text, broken, c)
      else
        let (more, later, c) := body inFlow indent fuel c
        if more = [] then (text, broken, c) else (text ++ between ++ more, later, c)

/-- The text of a plain scalar that must be indented more than `indent`, and whether a line break
follows it. -/
def read (inFlow : Bool) (indent : Int) (c : Cursor) : List Char × Bool × Cursor :=
  body inFlow (indent + 1) (c.rest.length + 1) c

end Plain

namespace Block

inductive Chomping where
  | strip
  | clip
  | keep
  deriving DecidableEq, Repr

def chomping? : Char → Option Chomping
  | '+' => some .keep
  | '-' => some .strip
  | _ => none

/-- An explicit indentation is a digit other than zero. -/
def increment (c : Cursor) : Except Fault (Option Nat × Cursor) :=
  match c.peek with
  | some ch =>
    if ch = '0' then .error .malformed
    else if '1' ≤ ch ∧ ch ≤ '9' then .ok (some (ch.toNat - '0'.toNat), c.step)
    else .ok (none, c)
  | none => .ok (none, c)

def chomping (c : Cursor) : Option Chomping × Cursor :=
  match c.peek.bind chomping? with
  | some chomping => (some chomping, c.step)
  | none => (none, c)

/-- The header after the mark: chomping and indentation in either order, and then nothing but a
comment up to the end of the line. -/
def header (c : Cursor) : Except Fault (Chomping × Option Nat × Cursor) := do
  let (first, c) := chomping c
  let (step, c) ← increment c
  let (second, c) := if first.isNone ∧ step.isSome then chomping c else (none, c)
  if ¬ endsRun c.peek then throw .malformed
  let c := c.skipSpaces.skipComment
  if ¬ endsLine c.peek then throw .malformed
  return ((first.or second).getD .clip, step, c.takeBreak.2)

/-- The empty lines before the first line with text, and the deepest indentation among them and
that line. -/
def leading : Nat → Cursor → Nat → List Char × Nat × Cursor
  | 0, c, deepest => ([], deepest, c)
  | fuel + 1, c, deepest =>
    if c.peek = some ' ' then leading fuel c.step (max deepest c.step.column)
    else
      match c.takeBreak with
      | ([], c) => ([], deepest, c)
      | (first, c) =>
        let (more, deepest, c) := leading fuel c deepest
        (first ++ more, deepest, c)

def indentTo (indent : Nat) : Nat → Cursor → Cursor
  | 0, c => c
  | fuel + 1, c =>
    if c.column < indent ∧ c.peek = some ' ' then indentTo indent fuel c.step else c

def breaks (indent : Nat) : Nat → Cursor → List Char × Cursor
  | 0, c => ([], c)
  | fuel + 1, c =>
    let c := indentTo indent indent c
    match c.takeBreak with
    | ([], c) => ([], c)
    | (first, c) =>
      let (more, c) := breaks indent fuel c
      (first ++ more, c)

def startsText (c : Cursor) : Bool := !(c.peek == some ' ' || c.peek == some '\t')

/-- The lines of the scalar. The last break and the empty lines after it are answered apart,
since chomping decides about them. -/
def lines (isFolded : Bool) (indent : Nat) :
    Nat → Cursor → List Char → List Char × List Char × List Char × Cursor
  | 0, c, before => ([], [], before, c)
  | fuel + 1, c, before =>
    if c.column = indent ∧ c.peek.isSome then
      let (text, after) := c.takeWhile (!isBreak ·)
      let (lineBreak, after) := after.takeBreak
      let (empty, after) := breaks indent after.rest.length after
      if after.column = indent ∧ after.peek.isSome then
        let joint :=
          if isFolded ∧ lineBreak = ['\n'] ∧ startsText c ∧ startsText after then
            if empty = [] then [' '] else []
          else lineBreak
        let (more, last, tail, c) := lines isFolded indent fuel after empty
        (before ++ text ++ joint ++ more, last, tail, c)
      else (before ++ text, lineBreak, empty, after)
    else ([], [], before, c)

/-- A block scalar inside a node with the given indentation, the cursor being at its mark. -/
def read (parent : Int) (c : Cursor) : Taken := do
  let isFolded := c.peek = some '>'
  let (chomping, step, c) ← header c.step
  let least := (max 1 (parent + 1)).toNat
  let (indent, empty, c) := match step with
    | some n =>
      let indent := least + n - 1
      let (empty, c) := breaks indent c.rest.length c
      (indent, empty, c)
    | none =>
      let (empty, deepest, c) := leading c.rest.length c 0
      (max least deepest, empty, c)
  let (text, last, tail, c) := lines isFolded indent (c.rest.length + 1) c empty
  return match chomping with
    | .strip => (text, c)
    | .clip => (text ++ last, c)
    | .keep => (text ++ last ++ tail, c)

end Block
end EERDiagram.Yaml
