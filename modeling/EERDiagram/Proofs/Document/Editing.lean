import EERDiagram.Proofs.Document.Writing

/-! Edits of a document. A write is refused and changes nothing, or it edits one line of the
document, and on that line only the position. -/
namespace EERDiagram

open Coordinates (Bared)
open Text (AllBlank)

namespace Line

theorem return_withPair (raw : List Char) (spelled : Coordinates.Pair.Spells p pair) :
    (withPair raw pair).getLast? = some '\r' ↔ raw.getLast? = some '\r' := by
  have same := ending_withPair raw spelled
  simp only [ending] at same
  by_cases own : raw.getLast? = some '\r' <;>
    by_cases rewritten : (withPair raw pair).getLast? = some '\r' <;> simp_all

/-- The line without its first pair is what a rewritten line holds around the new one, up to the
blanks that a write trims. -/
theorem erase_of_rewritten (raw : List Char) : ∃ blanks, AllBlank blanks ∧
    Coordinates.erase raw = Text.trimEnd (base raw ++ ' ' :: ending raw) ++ blanks := by
  obtain ⟨blanks, split, blank⟩ := Text.trimEnd_split (Coordinates.erase raw)
  have tail : AllBlank (' ' :: ending raw) :=
    (AllBlank.singleton (c := ' ') (by decide)).append (blank_ending raw)
  have kept : Text.trimEnd (base raw ++ ' ' :: ending raw) = base raw := by
    rw [Text.trimEnd_append_blank tail, base, Text.trimEnd_of_last (Text.trimEnd_last _)]
  exact ⟨blanks, blank, by rw [kept, base, ← split]⟩

end Line

namespace Document

variable {document : String} {index : Int} {x y : Float}

theorem writePosition_refused (refused : ¬ (0 ≤ index ∧
      index < (Text.splitLines document.toList).length ∧ Decimal.isFinite x = true ∧
      Decimal.isFinite y = true)) :
    writePosition document index x y =
      .error (if Decimal.isFinite x ∧ Decimal.isFinite y
        then .noSuchLine index (Text.splitLines document.toList).length
        else .notFinite index x y) := by
  by_cases finite : Decimal.isFinite x = true ∧ Decimal.isFinite y = true
  · have outside : ¬ (0 ≤ index ∧ index < (Text.splitLines document.toList).length) :=
      fun inside => refused ⟨inside.1, inside.2, finite⟩
    simp only [writePosition, finite, outside, and_self, not_true_eq_false, if_true, if_false]
  · simp only [writePosition, finite, not_false_eq_true, if_true, if_false]

/-- A write that names no line of the document or no finite position is refused and changes
nothing. Every other one gives a document with the same lines but one. That line has lost its
first pair and the blanks at its end, then come a blank, the pair of the rounded position and the
carriage return that was there. Without the new pair it is the line without the old one, up to
blanks at its end. -/
theorem writePosition_edits (document : String) (index : Int) (x y : Float) :
    let lines := Text.splitLines document.toList
    (¬ (0 ≤ index ∧ index < lines.length ∧ Decimal.isFinite x = true ∧
        Decimal.isFinite y = true) →
      (∃ refusal, writePosition document index x y = .error refusal) ∧
        afterMove document (writePosition document index x y) = document) ∧
    ∀ raw, 0 ≤ index → lines[index.toNat]? = some raw → Decimal.isFinite x = true →
      Decimal.isFinite y = true →
      ∃ text wholeX wholeY bare front ending,
        writePosition document index x y = .ok text ∧
        Decimal.roundHalfUp x = .ok wholeX ∧ Decimal.roundHalfUp y = .ok wholeY ∧
        (∀ other, Bared raw other ↔ other = bare) ∧
        front = Text.trimEnd bare ++ [' '] ∧
        ending = (if raw.getLast? = some '\r' then ['\r'] else []) ∧
        Text.splitLines text.toList =
          lines.set index.toNat (front ++ Coordinates.write wholeX wholeY ++ ending) ∧
        ((front ++ Coordinates.write wholeX wholeY ++ ending).getLast? = some '\r' ↔
          raw.getLast? = some '\r') ∧
        ∃ blanks, AllBlank blanks ∧ bare = Text.trimEnd (front ++ ending) ++ blanks := by
  intro lines
  constructor
  · intro refused
    have result := writePosition_refused refused
    exact ⟨⟨_, result⟩, by rw [result]; rfl⟩
  · intro raw lower found finiteX finiteY
    obtain ⟨inside, atLine⟩ := List.getElem?_eq_some_iff.mp found
    have upper : index < lines.length := by omega
    obtain ⟨wholeX, -, roundX, -⟩ := Decimal.roundHalfUp_of_isFinite x finiteX
    obtain ⟨wholeY, -, roundY, -⟩ := Decimal.roundHalfUp_of_isFinite y finiteY
    have shape : Line.base raw ++ [' '] ++ Coordinates.write wholeX wholeY ++ Line.ending raw =
        Line.withPair raw (Coordinates.write wholeX wholeY) := by simp [Line.withPair]
    refine ⟨_, wholeX, wholeY, Coordinates.erase raw, Line.base raw ++ [' '], Line.ending raw,
      writePosition_of_isFinite finiteX finiteY roundX roundY lower upper, roundX, roundY,
      fun other => Coordinates.bared_iff, rfl, rfl, ?_, ?_, ?_⟩
    · rw [lines_setPair (Coordinates.feed_not_mem_write wholeX wholeY), shape,
        List.modify_eq_set_getElem?, found]
      rfl
    · rw [shape]
      exact Line.return_withPair raw (Coordinates.write_spells wholeX wholeY)
    · obtain ⟨blanks, blank, split⟩ := Line.erase_of_rewritten raw
      exact ⟨blanks, blank, by simpa using split⟩

/-- A line with two pairs, blanks of several kinds at its end and a carriage return: the first
pair goes, and the second one stays before the new one. -/
theorem writePosition_edits_two_pairs :
    let document := "link A B\n\tent A(1, 2)(3,4) \u2003\r\n"
    let raw := "\tent A(1, 2)(3,4) \u2003\r".toList
    Decimal.isFinite 2.5 = true ∧ Decimal.isFinite (-7) = true ∧
      (Text.splitLines document.toList)[1]? = some raw ∧
      Bared raw "\tent A(3,4) \u2003\r".toList ∧
      writePosition document 1 2.5 (-7) = .ok "link A B\n\tent A(3,4) (3, -7)\r\n" ∧
      afterMove document (writePosition document 3 2.5 (-7)) = document := by
  intro document raw
  have finiteX : Decimal.isFinite 2.5 = true := by decide +kernel
  have finiteY : Decimal.isFinite (-7) = true := by decide +kernel
  have found : (Text.splitLines document.toList)[1]? = some raw := by decide +kernel
  obtain ⟨-, edits⟩ := writePosition_edits document 1 2.5 (-7)
  obtain ⟨refused, -⟩ := writePosition_edits document 3 2.5 (-7)
  obtain ⟨text, wholeX, wholeY, bare, front, ending, written, roundX, roundY, only, rfl, rfl,
    lines, -⟩ := edits raw (by decide) found finiteX finiteY
  have bared : Bared raw "\tent A(3,4) \u2003\r".toList :=
    Coordinates.bared_iff.mpr (by decide +kernel)
  obtain rfl := (only _).mp bared
  have up : Decimal.roundHalfUp 2.5 = .ok 3 := by decide +kernel
  have whole : Decimal.roundHalfUp (-7) = .ok (-7) := by decide +kernel
  obtain rfl := Except.ok.inj (up.symm.trans roundX)
  obtain rfl := Except.ok.inj (whole.symm.trans roundY)
  refine ⟨finiteX, finiteY, found, bared, ?_, (refused (by decide +kernel)).2⟩
  rw [written]
  refine congrArg Except.ok (eq_of_lines fun k => ?_)
  rw [lines]
  exact congrArg (·[k]?) (by decide +kernel)

end Document
end EERDiagram
