import EERDiagram.Proofs.Decimal.Range
import EERDiagram.Proofs.Document.Rewriting

/-! Writing a position into a document. A write changes the line that it names and no other, and
it is refused when there is no such line or no such position. -/
namespace EERDiagram.Document

/-- The line with an index, without its line feed. -/
def line (document : String) (index : Int) : List Char :=
  (Text.splitLines document.toList).getD index.toNat []

variable {document : String} {index : Int} {x y : Float}

theorem lines_setPair (missing : '\n' ∉ pair) (position : Nat) :
    Text.splitLines (setPair document position pair).toList =
      (Text.splitLines document.toList).modify position (Line.withPair · pair) := by
  rw [setPair, String.toList_ofList]
  exact Text.splitLines_joinLines_modify _ _ fun raw absent =>
    Line.feed_not_mem_withPair absent missing

theorem line_setPair_same (missing : '\n' ∉ pair) (lower : 0 ≤ index)
    (upper : index < (Text.splitLines document.toList).length) :
    line (setPair document index.toNat pair) index = Line.withPair (line document index) pair := by
  have inside : index.toNat < (Text.splitLines document.toList).length := by omega
  simp [line, lines_setPair missing, inside]

theorem line_setPair_other (missing : '\n' ∉ pair) (other : index.toNat ≠ position) :
    line (setPair document position pair) index = line document index := by
  simp [line, lines_setPair missing, List.getElem?_modify_ne _ _ other.symm]

theorem eq_of_lines {left right : String}
    (same : ∀ k : Nat, (Text.splitLines left.toList)[k]? = (Text.splitLines right.toList)[k]?) :
    left = right := by
  have lines := congrArg Text.joinLines (List.ext_getElem? same)
  rw [Text.joinLines_splitLines, Text.joinLines_splitLines] at lines
  exact String.toList_inj.mp lines

theorem format_eq_ok_iff : Coordinates.format x y = .ok pair ↔ ∃ wholeX wholeY,
    Decimal.roundHalfUp x = .ok wholeX ∧ Decimal.roundHalfUp y = .ok wholeY ∧
      pair = Coordinates.write wholeX wholeY :=
  both_eq_ok_iff

theorem feed_not_mem_format (formatted : Coordinates.format x y = .ok pair) : '\n' ∉ pair := by
  obtain ⟨wholeX, wholeY, -, -, rfl⟩ := format_eq_ok_iff.mp formatted
  exact Coordinates.feed_not_mem_write wholeX wholeY

theorem afterMove_writePosition (document : String) (index : Int) (x y : Float) :
    afterMove document (writePosition document index x y) = document ∨
      ∃ pair, '\n' ∉ pair ∧ 0 ≤ index ∧
        afterMove document (writePosition document index x y) =
          setPair document index.toNat pair := by
  simp only [writePosition]
  split
  · exact .inl rfl
  · split
    next range =>
      split
      next pair formatted => exact .inr ⟨pair, feed_not_mem_format formatted, range.1, rfl⟩
      next => exact .inl rfl
    next => exact .inl rfl

theorem writePosition_frame (document : String) {index : Int} (x y : Float) {k : Nat}
    (other : index ≠ k) :
    (Text.splitLines (afterMove document (writePosition document index x y)).toList)[k]? =
      (Text.splitLines document.toList)[k]? := by
  rcases afterMove_writePosition document index x y with same | ⟨pair, missing, lower, written⟩
  · rw [same]
  · rw [written, lines_setPair missing, List.getElem?_modify_ne]
    omega

theorem writePosition_of_isFinite (finiteX : Decimal.isFinite x = true)
    (finiteY : Decimal.isFinite y = true) (roundX : Decimal.roundHalfUp x = .ok wholeX)
    (roundY : Decimal.roundHalfUp y = .ok wholeY) (lower : 0 ≤ index)
    (upper : index < (Text.splitLines document.toList).length) :
    writePosition document index x y =
      .ok (setPair document index.toNat (Coordinates.write wholeX wholeY)) := by
  have written := format_eq_ok_iff.mpr ⟨wholeX, wholeY, roundX, roundY, rfl⟩
  simp only [writePosition, finiteX, finiteY, lower, upper, written]
  rfl

theorem lines_writePosition (document : String) (index : Int) (x y : Float) (k : Nat) :
    (Text.splitLines (afterMove document (writePosition document index x y)).toList)[k]? =
      (Text.splitLines document.toList)[k]?.map fun raw =>
        (if index = k then (Coordinates.format x y).toOption else none).elim raw
          (Line.withPair raw) := by
  by_cases own : index = k
  · subst own
    cases formatted : Coordinates.format x y with
    | error e =>
      have refused : afterMove document (writePosition document k x y) = document := by
        simp only [writePosition, formatted]
        split
        · rfl
        · split <;> rfl
      simp [refused, Except.toOption]
    | ok pair =>
      obtain ⟨wholeX, wholeY, roundX, roundY, rfl⟩ := format_eq_ok_iff.mp formatted
      have finiteX := Decimal.isFinite_of_roundHalfUp roundX
      have finiteY := Decimal.isFinite_of_roundHalfUp roundY
      by_cases inside : k < (Text.splitLines document.toList).length
      · rw [writePosition_of_isFinite finiteX finiteY roundX roundY (Int.natCast_nonneg k)
          (by omega), afterMove, Int.toNat_natCast,
          lines_setPair (Coordinates.feed_not_mem_write wholeX wholeY)]
        simp [Except.toOption]
      · have refused : afterMove document (writePosition document k x y) = document := by
          simp [writePosition, finiteX, finiteY, inside, afterMove]
        have absent : (Text.splitLines document.toList)[k]? = none :=
          List.getElem?_eq_none (Nat.le_of_not_lt inside)
        rw [refused, absent]
        rfl
  · rw [writePosition_frame document x y own, if_neg own]
    simp

theorem length_lines_writePosition (document : String) (index : Int) (x y : Float) :
    (Text.splitLines (afterMove document (writePosition document index x y)).toList).length =
      (Text.splitLines document.toList).length := by
  rcases afterMove_writePosition document index x y with same | ⟨pair, missing, -, written⟩
  · rw [same]
  · rw [written, lines_setPair missing, List.length_modify]

end EERDiagram.Document
