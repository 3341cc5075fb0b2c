import EERDiagram.Document.Coordinates
import EERDiagram.Proofs.Text.Digits
import EERDiagram.Proofs.Text.Trimming
import Mathlib.Algebra.Group.Nat.Defs

/-! Numerals of a coordinate pair: which texts are read as one, and that an integer is read
back from its written form. -/
namespace EERDiagram.Text

theorem decimalZeros_apart : ∀ start ∈ decimalZeros, start = 0x30 ∨
    0x660 ≤ start ∧ start ≤ 0x1090 ∨ 0x17E0 ≤ start ∧ start ≤ 0x1C50 ∨ 0xA620 ≤ start := by
  decide

theorem not_blank_of_isDigit (digit : isDigit c = true) : isBlank c = false := by
  obtain ⟨value, found⟩ := Option.isSome_iff_exists.mp digit
  obtain ⟨start, found, -⟩ := Option.map_eq_some_iff.mp found
  have range := List.find?_some found
  have apart := decimalZeros_apart start (List.mem_of_find?_eq_some found)
  simp only [Bool.and_eq_true, decide_eq_true_eq] at range
  simp only [isBlank, Bool.or_eq_false_iff, Bool.and_eq_false_iff, decide_eq_false_iff_not,
    beq_eq_false_iff_ne]
  omega

theorem digitValue?_of_ascii (digit : c.isDigit = true) : digitValue? c = some (c.toNat - 48) := by
  simp only [Char.isDigit, Bool.and_eq_true, decide_eq_true_eq] at digit
  have range : 48 ≤ c.toNat ∧ c.toNat < 58 := by
    have low := UInt32.le_iff_toNat_le.mp digit.1
    have high := UInt32.le_iff_toNat_le.mp digit.2
    simp only [Char.toNat]
    constructor
    · exact low
    · exact Nat.lt_succ_of_le high
  simp [digitValue?, decimalZeros, range.1, range.2]

end EERDiagram.Text

namespace EERDiagram.Coordinates

open Text (AllBlank)

/-- A numeral is spelled by a minus sign or none and at least one digit, of any script. -/
structure Numeral.Spells (n : Numeral) (s : List Char) : Prop where
  nonempty : n.digits ≠ []
  spelling : ∃ digits, s = (if n.negative then ['-'] else []) ++ digits ∧
    digits.map Text.digitValue? = n.digits.map some

variable {digits : List Char} {numbers : List Nat}

theorem isDigit_of_values (values : digits.map Text.digitValue? = numbers.map some) :
    ∀ c ∈ digits, Text.isDigit c = true := by
  intro c member
  have value := List.mem_map_of_mem (f := Text.digitValue?) member
  rw [values] at value
  obtain ⟨number, -, same⟩ := List.mem_map.mp value
  simp [Text.isDigit, ← same]

theorem filterMap_of_values (values : digits.map Text.digitValue? = numbers.map some) :
    digits.filterMap Text.digitValue? = numbers := by
  have := congrArg (List.filterMap id) values
  simpa [List.filterMap_map] using this

theorem values_of_isDigit (digit : ∀ c ∈ digits, Text.isDigit c = true) :
    digits.map Text.digitValue? = (digits.filterMap Text.digitValue?).map some := by
  induction digits with
  | nil => rfl
  | cons c rest ih =>
    obtain ⟨value, found⟩ := Option.isSome_iff_exists.mp (digit c List.mem_cons_self)
    rw [List.map_cons, List.filterMap_cons_some found, List.map_cons, found,
      ih fun c member => digit c (List.mem_cons_of_mem _ member)]

theorem isDigit_minus : Text.isDigit '-' = false := by decide

/-- Reading takes the longest numeral at the front. -/
theorem Numeral.read?_of_spells {n : Numeral} (spelled : n.Spells s)
    (ends : ∀ c ∈ rest.head?, Text.isDigit c = false) :
    Numeral.read? (s ++ rest) = some (n, rest) := by
  obtain ⟨nonempty, digits, rfl, values⟩ := spelled
  have digit := isDigit_of_values values
  have front := Text.takeWhile_append_of_ends digit ends
  have back := Text.dropWhile_append_of_ends digit ends
  obtain ⟨negative, numbers⟩ := n
  have value := filterMap_of_values values
  cases negative with
  | true =>
    show Numeral.read? ('-' :: (digits ++ rest)) = _
    simp only [Numeral.read?]
    rw [front, back, value, if_neg nonempty]
  | false =>
    show Numeral.read? (digits ++ rest) = _
    cases digits with
    | nil => exact absurd value.symm nonempty
    | cons c others =>
      have unsigned : c ≠ '-' := by
        rintro rfl
        exact absurd (digit '-' List.mem_cons_self) (by simp [isDigit_minus])
      simp only [Numeral.read?, List.cons_append] at front back ⊢
      split
      next same => exact absurd (List.cons.inj same).1 unsigned
      next => rw [front, back, value, if_neg nonempty]

theorem Numeral.spells_of_read? (read : Numeral.read? s = some (n, rest)) :
    ∃ text, n.Spells text ∧ s = text ++ rest := by
  have found : ∀ (negative : Bool) (t : List Char),
      (t.takeWhile Text.isDigit).filterMap Text.digitValue? ≠ [] →
      Numeral.Spells ⟨negative, (t.takeWhile Text.isDigit).filterMap Text.digitValue?⟩
        ((if negative then ['-'] else []) ++ t.takeWhile Text.isDigit) := fun negative t nonempty =>
    ⟨nonempty, _, rfl, values_of_isDigit fun _ member => List.mem_takeWhile_imp member⟩
  simp only [Numeral.read?] at read
  split at read
  next t =>
    split at read
    · simp at read
    next nonempty =>
      obtain ⟨rfl, rfl⟩ := Prod.mk.inj (Option.some.inj read)
      exact ⟨_, found true t nonempty, by simp⟩
  next =>
    split at read
    · simp at read
    next nonempty =>
      obtain ⟨rfl, rfl⟩ := Prod.mk.inj (Option.some.inj read)
      exact ⟨_, found false s nonempty, by simp⟩

theorem writeInteger_eq (n : Int) :
    writeInteger n = (if decide (n < 0) then ['-'] else []) ++ Nat.toDigits 10 n.natAbs := by
  rw [writeInteger, Int.toString_eq_repr, Int.repr_eq_if]
  rcases Int.lt_or_le n 0 with negative | whole
  · rw [if_neg (Int.not_le.mpr negative), String.toList_append, Nat.toList_repr,
      show (-n).toNat = n.natAbs by omega]
    simp [negative]
  · rw [if_pos whole, Nat.toList_repr, show n.toNat = n.natAbs by omega]
    simp [Int.not_lt.mpr whole]

def Numeral.ofInt (n : Int) : Numeral :=
  ⟨decide (n < 0), (Nat.toDigits 10 n.natAbs).map (·.toNat - 48)⟩

theorem Numeral.ofInt_spells (n : Int) : (Numeral.ofInt n).Spells (writeInteger n) where
  nonempty empty := Nat.toDigits_ne_nil (List.map_eq_nil_iff.mp empty)
  spelling := by
    refine ⟨Nat.toDigits 10 n.natAbs, writeInteger_eq n, ?_⟩
    rw [Numeral.ofInt, List.map_map]
    apply List.map_congr_left
    intro c member
    exact Text.digitValue?_of_ascii (Nat.isDigit_of_mem_toDigits (by decide) (by decide) member)

theorem Numeral.value_ofInt (n : Int) : (Numeral.ofInt n).value = n := by
  have size : Text.digitsValue (Numeral.ofInt n).digits = n.natAbs := by
    rw [Numeral.ofInt, Text.digitsValue_eq_ofDigitChars, Nat.ofDigitChars_ten_toDigits]
  rw [Numeral.value, size]
  simp only [Numeral.ofInt, decide_eq_true_eq]
  omega

theorem Numeral.length_ofInt_le {n : Int} (small : n.natAbs < 10 ^ k) (positive : 0 < k) :
    (Numeral.ofInt n).digits.length ≤ k := by
  rw [Numeral.ofInt, List.length_map]
  exact (Nat.length_toDigits_le_iff (by decide) positive).mpr small

end EERDiagram.Coordinates
