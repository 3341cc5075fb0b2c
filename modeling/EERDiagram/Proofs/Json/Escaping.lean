import EERDiagram.Json.Value
import EERDiagram.Json.Reader
import EERDiagram.Proofs.Text.Digits

/-! Texts between marks. Each character is written in one of four ways, and each way is read back
as the character, so a text is what its escaped form stands for. -/
namespace EERDiagram.Json

theorem not_unit (c : Char) : isHighUnit c.toNat = false ∧ isLowUnit c.toNat = false := by
  have valid : c.toNat < 0xD800 ∨ 0xDFFF < c.toNat ∧ c.toNat < 0x110000 := c.valid
  simp only [isHighUnit, isLowUnit, Bool.and_eq_false_iff, decide_eq_false_iff_not]
  omega

theorem units_of_char {c : Char} (above : 0x10000 ≤ c.toNat) :
    ∃ high low, high = 0xD800 + (c.toNat - 0x10000) / 0x400 ∧
      low = 0xDC00 + (c.toNat - 0x10000) % 0x400 ∧ isHighUnit high = true ∧ isLowUnit low = true ∧
      Char.ofNat (0x10000 + (high - 0xD800) * 0x400 + (low - 0xDC00)) = c := by
  have valid : c.toNat < 0xD800 ∨ 0xDFFF < c.toNat ∧ c.toNat < 0x110000 := c.valid
  refine ⟨_, _, rfl, rfl, ?_, ?_, ?_⟩
  · simp only [isHighUnit, Bool.and_eq_true, decide_eq_true_eq]
    omega
  · simp only [isLowUnit, Bool.and_eq_true, decide_eq_true_eq]
    omega
  · have same : 0x10000 + (0xD800 + (c.toNat - 0x10000) / 0x400 - 0xD800) * 0x400 +
        (0xDC00 + (c.toNat - 0x10000) % 0x400 - 0xDC00) = c.toNat := by omega
    rw [same, Char.ofNat_toNat]

theorem escapeChar_cases (c : Char) :
    (∃ mark, escapeChar c = ['\\', mark] ∧ mark ≠ 'u' ∧ simpleEscape? mark = some c) ∨
    (escapeChar c = [c] ∧ c ≠ '"' ∧ c ≠ '\\' ∧ 0x20 ≤ c.toNat) ∨
    (escapeChar c = unitEscape c.toNat ∧ c.toNat < 0x10000) ∨
    (∃ high low, escapeChar c = unitEscape high ++ unitEscape low ∧ isHighUnit high = true ∧
      isLowUnit low = true ∧
      Char.ofNat (0x10000 + (high - 0xD800) * 0x400 + (low - 0xDC00)) = c) := by
  unfold escapeChar
  split
  next special => exact .inl ⟨c, rfl, by rcases special with rfl | rfl <;> decide⟩
  next plain =>
    have apart := not_or.mp plain
    split
    next same => exact .inl ⟨'n', rfl, by decide, by rw [same]; rfl⟩
    split
    next same => exact .inl ⟨'r', rfl, by decide, by rw [same]; rfl⟩
    split
    next same => exact .inl ⟨'t', rfl, by decide, by rw [same]; rfl⟩
    split
    next same => exact .inl ⟨'b', rfl, by decide, by rw [same]; rfl⟩
    split
    next same => exact .inl ⟨'f', rfl, by decide, by rw [same]; rfl⟩
    right
    split
    next printable => exact .inl ⟨rfl, apart.1, apart.2, printable.1⟩
    right
    split
    next small => exact .inl ⟨rfl, small⟩
    next above =>
      obtain ⟨high, low, first, second, isHigh, isLow, same⟩ := units_of_char (Nat.not_lt.mp above)
      exact .inr ⟨high, low, by rw [first, second], isHigh, isLow, same⟩

theorem codeUnit?_hex (small : n < 0x10000) (rest : List Char) :
    codeUnit? (Text.hex 4 n ++ rest) = some (n, rest) := by
  have length : (Text.hex 4 n).length = 4 := Text.length_hex small (by decide)
  have value := Text.hexNumber?_hex 4 n
  match digits : Text.hex 4 n, length with
  | [a, b, c, d], _ =>
    rw [digits] at value
    simp [codeUnit?, value]

theorem escapedChar?_unit (small : c.toNat < 0x10000) (rest : List Char) :
    escapedChar? (Text.hex 4 c.toNat ++ rest) = some (c, rest) := by
  have apart := not_unit c
  simp [escapedChar?, codeUnit?_hex small, apart.1, apart.2]

theorem escapedChar?_units (isHigh : isHighUnit high = true) (isLow : isLowUnit low = true)
    (rest : List Char) :
    escapedChar? (Text.hex 4 high ++ (unitEscape low ++ rest)) =
      some (Char.ofNat (0x10000 + (high - 0xD800) * 0x400 + (low - 0xDC00)), rest) := by
  have smallHigh : high < 0x10000 := by
    simp only [isHighUnit, Bool.and_eq_true, decide_eq_true_eq] at isHigh
    omega
  have smallLow : low < 0x10000 := by
    simp only [isLowUnit, Bool.and_eq_true, decide_eq_true_eq] at isLow
    omega
  simp [escapedChar?, codeUnit?_hex smallHigh, unitEscape, codeUnit?_hex smallLow, isHigh, isLow]

/-- What is written for a character is read as the character. -/
theorem unescape?_escapeChar (fuel : Nat) (c : Char) (rest : List Char) :
    unescape? (fuel + 1) (escapeChar c ++ rest) = (unescape? fuel rest).map (c :: ·) := by
  rcases escapeChar_cases c with ⟨mark, written, other, known⟩ | ⟨written, -, slash, printable⟩ |
    ⟨written, small⟩ | ⟨high, low, written, isHigh, isLow, same⟩
  · rw [written, Option.map_eq_bind]
    simp only [List.cons_append, List.nil_append, unescape?, known]
    rfl
  · rw [written]
    simp [unescape?, slash, Nat.not_lt.mpr printable]
  · rw [written, Option.map_eq_bind]
    simp only [unitEscape, List.cons_append, unescape?, escapedChar?_unit small]
    rfl
  · have pair := escapedChar?_units isHigh isLow rest
    rw [same] at pair
    rw [written, Option.map_eq_bind, List.append_assoc]
    simp only [unitEscape, List.cons_append] at pair ⊢
    simp only [unescape?, pair]
    rfl

theorem unescape?_flatMap (s : List Char) (enough : s.length ≤ fuel) :
    unescape? fuel (s.flatMap escapeChar) = some s := by
  induction s generalizing fuel with
  | nil => simp [unescape?]
  | cons c rest ih =>
    obtain ⟨fuel, rfl⟩ : ∃ less, fuel = less + 1 := ⟨fuel - 1, by simp at enough; omega⟩
    rw [List.flatMap_cons, unescape?_escapeChar, ih (by simpa using enough)]
    rfl

theorem cutText?_plain (plain : ∀ c ∈ s, c ≠ '"' ∧ c ≠ '\\') (rest : List Char) :
    cutText? (s ++ rest) = (cutText? rest).map fun (raw, rest) => (s ++ raw, rest) := by
  induction s with
  | nil => simp
  | cons c s ih =>
    obtain ⟨⟨quote, slash⟩, plain⟩ := List.forall_mem_cons.mp plain
    simp [cutText?, ih plain, Function.comp_def, slash]

theorem plain_of_mem_hex (member : c ∈ Text.hex width n) : c ≠ '"' ∧ c ≠ '\\' := by
  have digit := Text.hexValue?_of_mem_hex member
  constructor <;> (rintro rfl; exact absurd digit (by decide))

theorem cutText?_unitEscape (n : Nat) (rest : List Char) :
    cutText? (unitEscape n ++ rest) =
      (cutText? rest).map fun (raw, rest) => (unitEscape n ++ raw, rest) := by
  simp [unitEscape, cutText?, cutText?_plain (fun c => plain_of_mem_hex), Function.comp_def]

/-- What is written for a character does not end the text. -/
theorem cutText?_escapeChar (c : Char) (rest : List Char) :
    cutText? (escapeChar c ++ rest) =
      (cutText? rest).map fun (raw, rest) => (escapeChar c ++ raw, rest) := by
  rcases escapeChar_cases c with ⟨mark, written, -⟩ | ⟨written, quote, slash, -⟩ |
    ⟨written, -⟩ | ⟨high, low, written, -⟩
  · rw [written]
    rfl
  · rw [written]
    exact cutText?_plain (by simpa using ⟨quote, slash⟩) rest
  · rw [written, cutText?_unitEscape]
  · rw [written, List.append_assoc, cutText?_unitEscape, cutText?_unitEscape]
    simp [Function.comp_def]

theorem cutText?_flatMap (s rest : List Char) :
    cutText? (s.flatMap escapeChar ++ '"' :: rest) = some (s.flatMap escapeChar, rest) := by
  induction s with
  | nil => rfl
  | cons c s ih => simp [cutText?_escapeChar, ih]

theorem length_le_flatMap (s : List Char) : s.length ≤ (s.flatMap escapeChar).length := by
  induction s with
  | nil => exact Nat.le_refl _
  | cons c s ih =>
    have written : 0 < (escapeChar c).length := by
      rcases escapeChar_cases c with ⟨mark, written, -⟩ | ⟨written, -⟩ | ⟨written, -⟩ |
        ⟨high, low, written, -⟩ <;> simp [written, unitEscape]
    simp only [List.length_cons, List.flatMap_cons, List.length_append]
    omega

theorem readName_renderText (text : String) (rest : List Char) :
    readName (renderText text ++ rest) = .ok (text, rest) := by
  have cut := cutText?_flatMap text.toList rest
  have same := unescape?_flatMap text.toList (length_le_flatMap text.toList)
  simp only [readName, renderText, List.cons_append, List.append_assoc, List.nil_append, cut, same,
    String.ofList_toList]

end EERDiagram.Json
