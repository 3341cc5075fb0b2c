import EERDiagram.Proofs.Diagram.Reading
import EERDiagram.Proofs.Document.Writing

/-! Line endings and byte order marks. A carriage return before each line feed and a mark at the
front change the lines of a document in a way that reading does not see and a write keeps. -/
namespace EERDiagram

open Text (AllBlank)

namespace Text

def withReturns (s : List Char) : List Char :=
  s.flatMap fun c => if c = '\n' then ['\r', '\n'] else [c]

theorem splitLines_withReturns (s : List Char) (k : Nat) :
    (splitLines (withReturns s))[k]? = (splitLines s)[k]?.map fun line =>
      if k + 1 < (splitLines s).length then line ++ ['\r'] else line := by
  induction s generalizing k with
  | nil => cases k <;> simp [withReturns, splitLines]
  | cons c rest ih =>
    by_cases feed : c = '\n'
    · subst feed
      have first : splitLines (withReturns ('\n' :: rest)) =
          ['\r'] :: splitLines (withReturns rest) :=
        splitLines_append_feed (show '\n' ∉ ['\r'] by decide) (withReturns rest)
      have nonempty := List.length_pos_of_ne_nil (splitLines_ne_nil rest)
      rw [first, splitLines, if_pos rfl]
      cases k with
      | zero => simp [nonempty]
      | succ k => simpa using ih k
    · have same : withReturns (c :: rest) = c :: withReturns rest := by
        simp [withReturns, feed]
      -- The first line gets both its first character and its return, in either order.
      rw [same, splitLines_cons feed, splitLines_cons feed, List.getElem?_modify,
        List.getElem?_modify, List.length_modify, ih]
      cases (splitLines rest)[k]? with
      | none => rfl
      | some line =>
        simp only [Option.map_some, Option.map_eq_map]
        split <;> split <;> rfl

end Text

namespace Line

theorem blank_return : AllBlank ['\r'] := AllBlank.singleton (by decide)

theorem content_append_return (raw : List Char) : content (raw ++ ['\r']) = content raw := by
  rw [content, content, List.dropWhile_append]
  split
  next gone =>
    rw [List.isEmpty_iff.mp gone]
    decide
  next => exact Text.trim_append_blank blank_return _

theorem content_cons_mark (raw : List Char) : content (byteOrderMark :: raw) = content raw := by
  rw [content, content, List.dropWhile_cons_of_pos (by decide)]

theorem withPair_append_return (plain : '\r' ∉ raw) (pair : List Char) :
    withPair (raw ++ ['\r']) pair = withPair raw pair ++ ['\r'] := by
  have erased : Coordinates.erase (raw ++ ['\r']) = Coordinates.erase raw ++ ['\r'] :=
    Coordinates.erase_surround List.not_mem_nil (show ')' ∉ ['\r'] by decide)
  have own : ending raw = [] := if_neg fun last => plain (List.mem_of_getLast? last)
  have returned : ending (raw ++ ['\r']) = ['\r'] := if_pos List.getLast?_concat
  rw [withPair, withPair, base, erased, Text.trimEnd_append_blank blank_return, returned, own,
    List.append_nil, base]

theorem withPair_cons_mark (raw pair : List Char) :
    withPair (byteOrderMark :: raw) pair = byteOrderMark :: withPair raw pair := by
  have erased : Coordinates.erase (byteOrderMark :: raw) =
      byteOrderMark :: Coordinates.erase raw := by
    simpa using Coordinates.erase_surround (s := raw) (show '(' ∉ [byteOrderMark] by decide)
      List.not_mem_nil
  have same : ending (byteOrderMark :: raw) = ending raw := by
    cases raw with
    | nil => decide
    | cons c rest => rw [ending, List.getLast?_cons_cons, ending]
  rw [withPair, withPair, base, erased, Text.trimEnd_cons (by decide), same, base]
  rfl

theorem read_congr (same : content raw = content other) : read raw = read other := by
  rw [read, read, same]

end Line

/-- Reading sees nothing of a line but its content. -/
theorem Reading.ofLines_congr {lines others : List (List Char)}
    (same : lines.map Line.content = others.map Line.content) (spiral : Spiral) (draft : Draft)
    (index : Nat) : ofLines spiral draft index lines = ofLines spiral draft index others := by
  induction lines generalizing others draft index with
  | nil => rw [List.map_eq_nil_iff.mp same.symm]
  | cons raw rest ih =>
    obtain ⟨other, more, rfl, content, later⟩ := List.map_eq_cons_iff.mp same.symm
    have step : draft.step spiral index raw = draft.step spiral index other := by
      rw [Draft.step, Draft.step, Line.read_congr content.symm]
    rw [ofLines, ofLines, step]
    cases draft.step spiral index other with
    | error e => rfl
    | ok found => simp only [ih later.symm]

namespace Document

/-- A text whose lines are changed, each by its index, in a way that reading does not see and
that writing on the line keeps. -/
structure Framed (change : Nat → List Char → List Char) (document framed : String) : Prop where
  lines : ∀ k, (Text.splitLines framed.toList)[k]? =
    (Text.splitLines document.toList)[k]?.map (change k)
  content : ∀ k raw, Line.content (change k raw) = Line.content raw
  withPair : ∀ raw ∈ Text.splitLines document.toList, ∀ k pair,
    Line.withPair (change k raw) pair = change k (Line.withPair raw pair)

namespace Framed

variable {change : Nat → List Char → List Char} {document framed : String}

theorem read_eq (frame : Framed change document framed) (spiral : Spiral) :
    Diagram.read spiral framed = Diagram.read spiral document := by
  have same : (Text.splitLines framed.toList).map Line.content =
      (Text.splitLines document.toList).map Line.content := by
    apply List.ext_getElem?
    intro k
    rw [List.getElem?_map, List.getElem?_map, frame.lines, Option.map_map]
    exact congrArg (Option.map · _) (funext (frame.content k))
  rw [Diagram.read, Reading.ofDocument, Reading.ofLines_congr same, ← Reading.ofDocument,
    Diagram.read]

theorem lines_writePosition (frame : Framed change document framed) (index : Int) (x y : Float)
    (k : Nat) :
    (Text.splitLines (afterMove framed (writePosition framed index x y)).toList)[k]? =
      (Text.splitLines (afterMove document (writePosition document index x y)).toList)[k]?.map
        (change k) := by
  rw [Document.lines_writePosition, Document.lines_writePosition, frame.lines]
  cases found : (Text.splitLines document.toList)[k]? with
  | none => rfl
  | some raw =>
    simp only [Option.map_some]
    cases (if index = k then (Coordinates.format x y).toOption else none) with
    | none => rfl
    | some pair => exact congrArg some (frame.withPair raw (List.mem_of_getElem? found) k pair)

end Framed

/-- The document with a carriage return before every line feed. -/
def withReturns (document : String) : String := String.ofList (Text.withReturns document.toList)

/-- The document with a byte order mark at its front. -/
def withMark (document : String) : String := String.ofList (Line.byteOrderMark :: document.toList)

theorem lines_withReturns (document : String) (k : Nat) :
    (Text.splitLines (withReturns document).toList)[k]? =
      (Text.splitLines document.toList)[k]?.map fun raw =>
        if k + 1 < (Text.splitLines document.toList).length then raw ++ ['\r'] else raw := by
  rw [withReturns, String.toList_ofList, Text.splitLines_withReturns]

theorem lines_withMark (document : String) (k : Nat) :
    (Text.splitLines (withMark document).toList)[k]? =
      (Text.splitLines document.toList)[k]?.map fun raw =>
        if 0 = k then Line.byteOrderMark :: raw else raw := by
  rw [withMark, String.toList_ofList, Text.splitLines_cons (by decide), List.getElem?_modify]
  rfl

theorem framed_withReturns (plain : '\r' ∉ document.toList) :
    Framed (fun k raw => if k + 1 < (Text.splitLines document.toList).length
      then raw ++ ['\r'] else raw) document (withReturns document) where
  lines := lines_withReturns document
  content k raw := by
    split
    · exact Line.content_append_return raw
    · rfl
  withPair raw member k pair := by
    have absent : '\r' ∉ raw := fun inside =>
      plain (Text.joinLines_splitLines document.toList ▸ Text.subset_joinLines member inside)
    split
    · exact Line.withPair_append_return absent pair
    · rfl

theorem framed_withMark (document : String) :
    Framed (fun k raw => if 0 = k then Line.byteOrderMark :: raw else raw) document
      (withMark document) where
  lines := lines_withMark document
  content k raw := by
    split
    · exact Line.content_cons_mark raw
    · rfl
  withPair raw _ k pair := by
    split
    · exact Line.withPair_cons_mark raw pair
    · rfl

/-- Carriage returns before the line feeds and a byte order mark at the front do not change what
a document says, and a write keeps them. -/
theorem framing_transparent {document : String} (plain : '\r' ∉ document.toList)
    (spiral : Spiral) :
    Diagram.read spiral (withReturns document) = Diagram.read spiral document ∧
    Diagram.read spiral (withMark document) = Diagram.read spiral document ∧
    ∀ (index : Int) (x y : Float),
      afterMove (withReturns document) (writePosition (withReturns document) index x y) =
        withReturns (afterMove document (writePosition document index x y)) ∧
      afterMove (withMark document) (writePosition (withMark document) index x y) =
        withMark (afterMove document (writePosition document index x y)) := by
  have returns := framed_withReturns plain
  have mark := framed_withMark document
  refine ⟨returns.read_eq spiral, mark.read_eq spiral, fun index x y => ⟨?_, ?_⟩⟩
  · apply eq_of_lines
    intro k
    rw [returns.lines_writePosition, lines_withReturns, length_lines_writePosition]
  · apply eq_of_lines
    intro k
    rw [mark.lines_writePosition, lines_withMark]

/-- The first of two lines is rewritten: it keeps its return, and it keeps its mark. -/
theorem framing_transparent_written :
    let document := "ent (1, 2) A\natt (3, 4) b -> A"
    let returns := "ent (1, 2) A\r\natt (3, 4) b -> A"
    let marked := "\uFEFFent (1, 2) A\natt (3, 4) b -> A"
    '\r' ∉ document.toList ∧
      Diagram.read {} returns = Diagram.read {} document ∧
      Diagram.read {} marked = Diagram.read {} document ∧
      afterMove returns (writePosition returns 0 7 8) = "ent  A (7, 8)\r\natt (3, 4) b -> A" ∧
      afterMove marked (writePosition marked 0 7 8) = "\uFEFFent  A (7, 8)\natt (3, 4) b -> A" := by
  intro document returns marked
  have plain : '\r' ∉ document.toList := by decide
  have withReturns_eq : withReturns document = returns := by decide
  have withMark_eq : withMark document = marked := by decide
  have written : afterMove document (writePosition document 0 7 8) =
      "ent  A (7, 8)\natt (3, 4) b -> A" := by decide +kernel
  obtain ⟨readReturns, readMarked, writes⟩ := framing_transparent plain {}
  obtain ⟨writtenReturns, writtenMarked⟩ := writes 0 7 8
  rw [withReturns_eq, written] at writtenReturns
  rw [withMark_eq, written] at writtenMarked
  rw [withReturns_eq] at readReturns
  rw [withMark_eq] at readMarked
  refine ⟨plain, readReturns, readMarked, ?_, ?_⟩
  · rw [writtenReturns]
    decide
  · rw [writtenMarked]
    decide

end Document

end EERDiagram
