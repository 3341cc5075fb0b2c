import EERDiagram.Text.Encoding
import EERDiagram.Yaml.Number
import EERDiagram.Yaml.Scalar

/-! The tokens of a YAML text: the marks that structure it, the names and tags put on nodes, and the
scalars with their text in final form. Indentation opens and closes block collections, and a node
turns out to be a mapping's key only when a colon follows it. So the place before each node that may
be a key is kept as a slot, which the colon fills. -/
namespace EERDiagram.Yaml

inductive Directive where
  | version (major : Nat)
  | tag (handle uri : String)
  | reserved
  deriving DecidableEq, Repr

inductive Token where
  | directive (directive : Directive)
  | documentStart
  | documentEnd
  | blockSequenceStart
  | blockMappingStart
  | blockEnd
  | flowSequenceStart
  | flowSequenceEnd
  | flowMappingStart
  | flowMappingEnd
  | flowEntry
  | blockEntry
  | key
  | value
  | alias (name : String)
  | anchor (name : String)
  | tag (handle : Option String) (suffix : String)
  | scalar (text : String) (plain : Bool)
  | streamEnd
  deriving DecidableEq, Repr

/-- A place in the token list: a token, or the marks put before a node that turned out a key. -/
inductive Slot where
  | token (token : Token)
  | marks (tokens : List Token)

def Slot.tokens : Slot → List Token
  | .token t => [t]
  | .marks ts => ts

/-- A node that may be a key, by the slot before it and the place where it begins. A required one
is an error if no colon follows. -/
structure Candidate where
  slot : Nat
  required : Bool
  index : Nat
  line : Nat
  column : Nat

/-- The candidates are kept by the depth of brackets they are in, innermost first. -/
structure Builder where
  cursor : Cursor
  slots : Array Slot := #[]
  depth : Nat := 0
  indent : Int := -1
  indents : List Int := []
  keyAllowed : Bool := true
  candidates : List (Nat × Candidate) := []

namespace Builder

def put (b : Builder) (t : Token) : Builder := { b with slots := b.slots.push (.token t) }

def move (b : Builder) (n : Nat) : Builder := { b with cursor := b.cursor.skip n }

def inFlow (b : Builder) : Bool := b.depth != 0

def candidate? (b : Builder) : Option Candidate := b.candidates.lookup b.depth

def dropCandidate (b : Builder) : Except Fault Builder :=
  if b.candidate?.any (·.required) then .error .malformed
  else .ok { b with candidates := b.candidates.filter (·.1 != b.depth) }

def maxKey : Nat := 1024

/-- A key must be on one line with its colon, and not too long. -/
def isStale (b : Builder) (c : Candidate) : Bool :=
  c.line != b.cursor.line || maxKey < b.cursor.index - c.index

def dropStale (b : Builder) : Except Fault Builder :=
  if b.candidates.any fun c => b.isStale c.2 && c.2.required then .error .malformed
  else .ok { b with candidates := b.candidates.filter fun c => !b.isStale c.2 }

def saveCandidate (b : Builder) : Except Fault Builder :=
  if b.keyAllowed then do
    let required := !b.inFlow && b.indent == b.cursor.column
    let b ← b.dropCandidate
    let c : Candidate := ⟨b.slots.size, required, b.cursor.index, b.cursor.line, b.cursor.column⟩
    return { b with slots := b.slots.push (.marks []), candidates := (b.depth, c) :: b.candidates }
  else .ok b

/-- Closes the block collections that are indented more than the column. -/
def unwindTo (column : Int) : List Int → Builder → Builder
  | [], b => b
  | outer :: indents, b =>
    if b.indent > column then unwindTo column indents { b.put .blockEnd with indent := outer, indents }
    else b

def unwind (b : Builder) (column : Int) : Builder :=
  if b.inFlow then b else unwindTo column b.indents b

/-- Indents to the column; whether that begins a new collection. -/
def indentTo (b : Builder) (column : Nat) : Bool × Builder :=
  if b.indent < column then
    (true, { b with indent := column, indents := b.indent :: b.indents })
  else (false, b)

/-- A collection begins at the column, unless one has begun there. -/
def openBlock (b : Builder) (mark : Token) : Except Fault Builder :=
  if b.inFlow then .ok b
  else if ¬ b.keyAllowed then .error .malformed
  else
    match b.indentTo b.cursor.column with
    | (true, b) => .ok (b.put mark)
    | (false, b) => .ok b

/-- Spaces, comments and line breaks. A break outside brackets allows a key again. -/
def skipSeparation : Nat → Builder → Builder
  | 0, b => b
  | fuel + 1, b =>
    let c := b.cursor.skipSpaces.skipComment
    match c.takeBreak with
    | ([], c) => { b with cursor := c }
    | (_, c) =>
      skipSeparation fuel { b with cursor := c, keyAllowed := b.keyAllowed || !b.inFlow }

/-! Directives, names and tags. -/

def isNameChar (c : Char) : Bool := c.isAlphanum || c == '-' || c == '_'

def isUriChar (c : Char) : Bool := c.isAlphanum || c ∈ "-;/?:@&=+$,_.!~*'()[]%".toList

def percentBytes : Nat → Cursor → Except Fault (List UInt8 × Cursor)
  | 0, c => .ok ([], c)
  | fuel + 1, c =>
    match c.rest with
    | '%' :: a :: d :: _ =>
      match Text.hexNumber? [a, d] with
      | some n => (percentBytes fuel (c.skip 3)).map fun (more, c) => (n.toUInt8 :: more, c)
      | none => .error .malformed
    | '%' :: _ => .error .malformed
    | _ => .ok ([], c)

def uriRest : Nat → Cursor → Taken
  | 0, c => .ok ([], c)
  | fuel + 1, c =>
    match c.peek with
    | none => .ok ([], c)
    | some ch =>
      if ch = '%' then do
        let (bytes, c) ← percentBytes c.rest.length c
        match Text.decode bytes with
        | .error _ => throw .malformed
        | .ok text =>
          let (more, c) ← uriRest fuel c
          return (text ++ more, c)
      else if isUriChar ch then (uriRest fuel c.step).map fun (more, c) => (ch :: more, c)
      else .ok ([], c)

def uri (c : Cursor) : Taken := do
  let (text, after) ← uriRest c.rest.length c
  if after.index = c.index then throw .malformed
  return (text, after)

/-- A tag handle: one mark, or a name between two. -/
def handle (c : Cursor) : Taken :=
  if c.peek ≠ some '!' then .error .malformed
  else if c.peekAt 1 = some ' ' then .ok (['!'], c.step)
  else
    let (name, after) := c.step.takeWhile isNameChar
    if after.peek = some '!' then .ok ('!' :: name ++ ['!'], after.step) else .error .malformed

def number (c : Cursor) : Except Fault (Nat × Cursor) :=
  let (digits, c) := c.takeWhile Char.isDigit
  if digits = [] then .error .malformed
  else if Number.maxDigits < digits.length then .error (.tooManyDigits digits.length)
  else .ok (digits.foldl (fun n d => 10 * n + (d.toNat - '0'.toNat)) 0, c)

def directive (c : Cursor) : Except Fault (Directive × Cursor) := do
  let (name, c) := c.step.takeWhile isNameChar
  if name = [] ∨ ¬ endsRun c.peek then throw .malformed
  let (d, c) ←
    if name = "YAML".toList then do
      let (major, c) ← number c.skipSpaces
      if c.peek ≠ some '.' then throw .malformed
      let (_, c) ← number c.step
      if ¬ endsRun c.peek then throw .malformed
      pure (Directive.version major, c)
    else if name = "TAG".toList then do
      let (handle, c) ← handle c.skipSpaces
      if c.peek ≠ some ' ' then throw .malformed
      let (uri, c) ← uri c.skipSpaces
      if ¬ endsRun c.peek then throw .malformed
      pure (Directive.tag (String.ofList handle) (String.ofList uri), c)
    else pure (Directive.reserved, c.skipWhile (!isBreak ·))
  let c := c.skipSpaces.skipComment
  if ¬ endsLine c.peek then throw .malformed
  return (d, c.takeBreak.2)

def endsName : Option Char → Bool
  | none => true
  | some c => c == ' ' || c == '\t' || isBreak c || c ∈ "?:,]\x7d%@`".toList

def name (c : Cursor) : Except Fault (String × Cursor) :=
  let (name, c) := c.step.takeWhile isNameChar
  if name = [] ∨ ¬ endsName c.peek then .error .malformed else .ok (String.ofList name, c)

def tag (c : Cursor) : Except Fault (Token × Cursor) := do
  let (t, c) ←
    if c.peekAt 1 = some '<' then do
      let (uri, c) ← uri (c.skip 2)
      if c.peek ≠ some '>' then throw .malformed
      pure (Token.tag none (String.ofList uri), c.step)
    else if endsWord (c.peekAt 1) then pure (Token.tag none "!", c.step)
    else do
      let word := c.step.rest.takeWhile fun ch => !(ch == ' ' || isBreak ch)
      let (handle, c) ← if '!' ∈ word then handle c else pure (['!'], c.step)
      let (suffix, c) ← uri c
      pure (Token.tag (some (String.ofList handle)) (String.ofList suffix), c)
  if ¬ endsRun c.peek then throw .malformed
  return (t, c)

/-! One token at a time. -/

def putAt (b : Builder) (t : Token) (c : Cursor) : Builder := { b.put t with cursor := c }

def documentMark (b : Builder) (t : Token) : Except Fault Builder := do
  let b ← (b.unwind (-1)).dropCandidate
  return { b.put t with keyAllowed := false }.move 3

def openFlow (b : Builder) (t : Token) : Except Fault Builder := do
  let b ← b.saveCandidate
  return { b.put t with depth := b.depth + 1, keyAllowed := true }.move 1

def closeFlow (b : Builder) (t : Token) : Except Fault Builder := do
  let b ← b.dropCandidate
  if b.depth = 0 then throw .malformed
  return { b.put t with depth := b.depth - 1, keyAllowed := false }.move 1

def flowEntry (b : Builder) : Except Fault Builder := do
  let b ← { b with keyAllowed := true }.dropCandidate
  return (b.put .flowEntry).move 1

def blockEntry (b : Builder) : Except Fault Builder := do
  let b ← b.openBlock .blockSequenceStart
  let b ← { b with keyAllowed := true }.dropCandidate
  return (b.put .blockEntry).move 1

def keyMark (b : Builder) : Except Fault Builder := do
  let b ← b.openBlock .blockMappingStart
  let b ← { b with keyAllowed := !b.inFlow }.dropCandidate
  return (b.put .key).move 1

/-- A colon makes the candidate at this depth a key. -/
def valueMark (b : Builder) : Except Fault Builder :=
  match b.candidate? with
  | some c =>
    let b := { b with candidates := b.candidates.filter (·.1 != b.depth), keyAllowed := false }
    let (opens, b) := if b.inFlow then (false, b) else b.indentTo c.column
    let marks := if opens then [.blockMappingStart, .key] else [.key]
    .ok (({ b with slots := b.slots.modify c.slot fun _ => .marks marks }.put .value).move 1)
  | none => do
    let b ← b.openBlock .blockMappingStart
    let b ← { b with keyAllowed := !b.inFlow }.dropCandidate
    return (b.put .value).move 1

/-- A token that begins a node and is no scalar or collection. -/
def property (b : Builder) (read : Cursor → Except Fault (Token × Cursor)) : Except Fault Builder := do
  let b ← b.saveCandidate
  let (t, c) ← read b.cursor
  return { b.putAt t c with keyAllowed := false }

def blockScalar (b : Builder) : Except Fault Builder := do
  let b ← { b with keyAllowed := true }.dropCandidate
  let (text, c) ← Block.read b.indent b.cursor
  return b.putAt (.scalar (String.ofList text) false) c

def quotedScalar (b : Builder) (mark : Char) : Except Fault Builder := do
  let b ← b.saveCandidate
  let (text, c) ← Quoted.read mark b.cursor
  return { b.putAt (.scalar (String.ofList text) false) c with keyAllowed := false }

def plainScalar (b : Builder) : Except Fault Builder := do
  let b ← b.saveCandidate
  let (text, broken, c) := Plain.read b.inFlow b.indent b.cursor
  return { b.putAt (.scalar (String.ofList text) true) c with keyAllowed := broken }

/-- Whether a plain scalar may begin with `ch`, before `next`. -/
def beginsPlain (inFlow : Bool) (ch : Char) (next : Option Char) : Bool :=
  !(endsWord (some ch) || ch ∈ "-?:,[]\x7b\x7d#&*!|>'\"%@`".toList) ||
    !endsWord next && (ch == '-' || !inFlow && (ch == '?' || ch == ':'))

/-- Reads the next token, `none` at the end of the text. -/
def next (b : Builder) : Except Fault (Option Builder) := do
  let b := skipSeparation (b.cursor.rest.length + 1) b
  let b ← b.dropStale
  let c := b.cursor
  let b := b.unwind c.column
  match c.rest with
  | [] =>
    let _ ← (b.unwind (-1)).dropCandidate
    return none
  | ch :: rest =>
    let follows := rest.head?
    if ch = '%' ∧ c.column = 0 then
      let b ← (b.unwind (-1)).dropCandidate
      let (d, c) ← directive c
      return some { b.putAt (.directive d) c with keyAllowed := false }
    else if c.column = 0 ∧ c.atMark '-' then some <$> b.documentMark .documentStart
    else if c.column = 0 ∧ c.atMark '.' then some <$> b.documentMark .documentEnd
    else if ch = '[' then some <$> b.openFlow .flowSequenceStart
    else if ch = '\x7b' then some <$> b.openFlow .flowMappingStart
    else if ch = ']' then some <$> b.closeFlow .flowSequenceEnd
    else if ch = '\x7d' then some <$> b.closeFlow .flowMappingEnd
    else if ch = ',' then some <$> b.flowEntry
    else if ch = '-' ∧ endsWord follows then some <$> b.blockEntry
    else if ch = '?' ∧ (b.inFlow ∨ endsWord follows) then some <$> b.keyMark
    else if ch = ':' ∧ (b.inFlow ∨ endsWord follows) then some <$> b.valueMark
    else if ch = '*' then some <$> b.property fun c => (name c).map fun (n, c) => (.alias n, c)
    else if ch = '&' then some <$> b.property fun c => (name c).map fun (n, c) => (.anchor n, c)
    else if ch = '!' then some <$> b.property tag
    else if (ch = '|' ∨ ch = '>') ∧ ¬ b.inFlow then some <$> b.blockScalar
    else if ch = '\'' ∨ ch = '"' then some <$> b.quotedScalar ch
    else if beginsPlain b.inFlow ch follows then some <$> b.plainScalar
    else throw .malformed

def collected (b : Builder) : List Token := b.slots.toList.flatMap Slot.tokens

/-- The tokens before the first node that may still turn out a key. A node is looked at when that is
known, so a fault on the way there comes before all that is wrong with the node. -/
def settled (b : Builder) : List Token :=
  let pending := b.candidates.filter fun c => !b.isStale c.2
  (b.slots.toList.take (pending.foldl (fun n c => min n c.2.slot) b.slots.size)).flatMap Slot.tokens

/-- The end of the text closes all block collections. -/
def finished (b : Builder) : List Token := (b.unwind (-1)).collected ++ [.streamEnd]

end Builder

/-- The tokens of a text, and the fault that ended them early if there was one. -/
structure TokenStream where
  tokens : List Token
  fault : Option Fault

namespace TokenStream

def ofBuilder : Nat → Builder → TokenStream
  | 0, b => ⟨b.collected, some .malformed⟩
  | fuel + 1, b =>
    match b.next with
    | .error e => ⟨b.settled, some e⟩
    | .ok none => ⟨b.finished, none⟩
    | .ok (some b) => ofBuilder fuel b

def isAllowed (c : Char) : Bool :=
  let n := c.toNat
  n == 9 || n == 10 || n == 13 || 0x20 ≤ n && n ≤ 0x7E || n == 0x85 || 0xA0 ≤ n && n ≤ 0xFFFD ||
    0x10000 ≤ n

/-- Every token but the last takes at least a character, so the length bounds their number. -/
def ofText (s : List Char) : TokenStream :=
  if ¬ s.all isAllowed then ⟨[], some .malformed⟩
  else
    let c : Cursor := { rest := s }
    let c := if c.peek = some '\uFEFF' then c.step else c
    ofBuilder (s.length + 2) { cursor := c }

end TokenStream

end EERDiagram.Yaml
