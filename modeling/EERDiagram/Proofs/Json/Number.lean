import EERDiagram.Proofs.Decimal.Spelling
import EERDiagram.Json.Value
import EERDiagram.Json.Reader

/-! Numbers and words. What a number is written as ends before the mark that follows it in a
value, and what is read up to that mark is the number. -/
namespace EERDiagram.Json

open Decimal (Numeral isAsciiDigit signText signed ReadsBack asciiValue)

/-- The marks that part values, and space. -/
def delimiters : List Char := [',', ']', '\x7d', ' ', '\t', '\n', '\r']

/-- Nothing follows a value but a mark that parts values, or space. -/
def Delimits (rest : List Char) : Prop := ∀ c ∈ rest.head?, c ∈ delimiters

theorem Delimits.apart (delimits : Delimits rest) (front : c ∈ rest.head?) :
    isAsciiDigit c = false ∧ c ≠ '.' ∧ c ≠ 'e' ∧ c ≠ 'E' := by
  have all : delimiters.all (fun c => !isAsciiDigit c && c != '.' && c != 'e' && c != 'E') =
      true := by decide
  simpa [and_assoc] using List.all_eq_true.mp all c (delimits c front)

theorem Delimits.ends (delimits : Delimits rest) : ∀ c ∈ rest.head?, isAsciiDigit c = false :=
  fun _ front => (delimits.apart front).1

variable {n : Numeral} {rest : List Char}

theorem splitFraction_text (formed : n.Formed) (delimits : Delimits rest) :
    splitFraction (n.fractionText ++ (n.exponentText ++ rest)) =
      (n.fraction, n.exponentText ++ rest) := by
  by_cases empty : n.fraction = []
  · have text : n.fractionText = [] := by simp [Numeral.fractionText, empty]
    rw [text, List.nil_append, splitFraction.eq_def, empty]
    split
    next tail same =>
      have first : '.' ∈ (n.exponentText ++ rest).head? := by simp [same]
      rcases n.mem_head?_exponentText first with mark | front
      · exact absurd mark (by decide)
      · exact absurd rfl (delimits.apart front).2.1
    next => rfl
  · have text : n.fractionText = '.' :: n.fraction := by simp [Numeral.fractionText, empty]
    have ends := n.ends_fraction delimits.ends
    simp only [text, List.cons_append, splitFraction, empty, if_false,
      Text.takeWhile_append_of_ends formed.fraction ends,
      Text.dropWhile_append_of_ends formed.fraction ends]

theorem splitExponent_text (formed : n.Formed) (delimits : Delimits rest) :
    splitExponent (n.exponentText ++ rest) = (n.exponentValue?, rest) := by
  cases exponent : n.exponent with
  | none =>
    simp only [Numeral.exponentText, Numeral.exponentValue?, exponent, List.nil_append,
      Option.map_none]
    cases rest with
    | nil => rfl
    | cons c others =>
      have unmarked : ¬ (c = 'e' ∨ c = 'E') := not_or.mpr (delimits.apart rfl).2.2
      simp [splitExponent, unmarked]
  | some e =>
    obtain ⟨negative, digits⟩ := e
    obtain ⟨nonempty, all⟩ := formed.exponent _ exponent
    simp only [Numeral.exponentText, Numeral.exponentValue?, exponent, List.cons_append,
      splitExponent, Decimal.splitSign_exponent, true_or, if_true, Option.map_some,
      Text.takeWhile_append_of_ends all delimits.ends,
      Text.dropWhile_append_of_ends all delimits.ends, nonempty, if_false]

/-- The digits of a number without its sign, up to the point or the exponent. -/
def leadingDigits (s : List Char) : List Char :=
  match s with
  | '0' :: _ => ['0']
  | _ => s.takeWhile isAsciiDigit

def magnitude (negative : Bool) (digits fraction : List Char) (exponent : Option Int) :
    Except ReadError Value :=
  if fraction = [] ∧ exponent = none then
    if maxDigits < digits.length then .error (.tooManyDigits digits.length)
    else .ok (.integer (if negative then -(asciiValue digits : Int) else asciiValue digits))
  else .ok (.real (signed negative
    (Decimal.ofScaled (asciiValue (digits ++ fraction)) (exponent.getD 0 - fraction.length))))

theorem readMagnitude_parts (negative : Bool) (nonempty : leadingDigits s ≠ [])
    (fractions : splitFraction (s.drop (leadingDigits s).length) = (fraction, others))
    (exponents : splitExponent others = (exponent, rest)) :
    readMagnitude negative s =
      (magnitude negative (leadingDigits s) fraction exponent).map (·, rest) := by
  rw [readMagnitude.eq_def, magnitude]
  extract_lets digits value
  have same : digits = leadingDigits s := rfl
  simp only [value, same, nonempty, if_false, fractions, exponents]
  split
  next => split <;> rfl
  next => rfl

theorem magnitude_whole (short : digits.length ≤ maxDigits) (negative : Bool) :
    magnitude negative digits [] none =
      .ok (.integer (if negative then -(asciiValue digits : Int) else asciiValue digits)) := by
  simp only [magnitude, true_and, if_true, Nat.not_lt.mpr short, if_false]

theorem magnitude_real (real : n.fraction ≠ [] ∨ n.exponent ≠ none) (negative : Bool) :
    magnitude negative n.whole n.fraction n.exponentValue? =
      .ok (.real (signed negative n.value)) := by
  have power : n.exponentValue? = none ↔ n.exponent = none := by simp [Numeral.exponentValue?]
  rw [magnitude, if_neg (by rw [power]; tauto), Numeral.value]

theorem readMagnitude_text (formed : n.Formed)
    (leading : n.whole = ['0'] ∨ n.whole.head? ≠ some '0') (delimits : Delimits rest)
    (negative : Bool) :
    readMagnitude negative (n.text ++ rest) =
      (magnitude negative n.whole n.fraction n.exponentValue?).map (·, rest) := by
  have shape : n.text ++ rest = n.whole ++ (n.fractionText ++ (n.exponentText ++ rest)) := by
    simp [Numeral.text]
  have whole : leadingDigits (n.text ++ rest) = n.whole := by
    have run := Text.takeWhile_append_of_ends formed.whole.2 (n.ends_whole delimits.ends)
    obtain ⟨c, others, split⟩ := List.exists_cons_of_ne_nil formed.whole.1
    simp only [leadingDigits, shape, split] at run leading ⊢
    split
    next tail same =>
      obtain rfl : c = '0' := (List.cons.inj same).1
      simpa [eq_comm] using leading
    next => exact run
  have fractions := splitFraction_text formed delimits
  rw [readMagnitude_parts negative (by rw [whole]; exact formed.whole.1)
    (by rw [whole, shape, List.drop_left]; exact fractions) (splitExponent_text formed delimits),
    whole]

/-! Scalars. -/

theorem readWord?_of_digit (digit : isAsciiDigit c = true) (negative : Bool) :
    readWord? (signText negative ++ c :: rest) = none := by
  have apart : Decimal.asciiDigits.all (fun c => decide (c ∉ ['n', 't', 'f', 'N', 'I', '-'])) =
      true := by decide
  have other := List.all_eq_true.mp apart c (Decimal.mem_asciiDigits digit)
  simp only [List.mem_cons, List.not_mem_nil, or_false, decide_eq_true_eq, not_or,
    eq_comm (a := c)] at other
  cases negative <;> simp [readWord?, words, afterWord?, signText, other]

theorem readScalar_of_digit (digit : isAsciiDigit c = true) (negative : Bool) (s : List Char) :
    readScalar (signText negative ++ c :: s) = readMagnitude negative (c :: s) := by
  rw [readScalar.eq_def, readWord?_of_digit digit]
  cases negative with
  | true => rfl
  | false =>
    simp only [signText, Bool.false_eq_true, if_false, List.nil_append]
    split
    next same =>
      obtain rfl := (List.cons.inj same).1
      exact absurd digit (by decide)
    next => rfl

theorem readScalar_text (formed : n.Formed) (negative : Bool) (rest : List Char) :
    readScalar (signText negative ++ n.text ++ rest) = readMagnitude negative (n.text ++ rest) := by
  obtain ⟨c, digit, front⟩ := formed.front
  obtain ⟨others, split⟩ : ∃ others, n.text = c :: others := List.head?_eq_some_iff.mp front
  rw [split, List.append_assoc]
  exact readScalar_of_digit digit negative (others ++ rest)

def wholeNumeral (n : Nat) : Numeral := ⟨Nat.toDigits 10 n, [], none⟩

theorem wholeNumeral_formed (n : Nat) : (wholeNumeral n).Formed where
  whole := ⟨Nat.toDigits_ne_nil, fun _ => Decimal.isAsciiDigit_of_mem_toDigits⟩
  fraction := by simp [wholeNumeral]
  exponent := by simp [wholeNumeral]

theorem readScalar_renderInteger {n : Int}
    (short : (Nat.toDigits 10 n.natAbs).length ≤ maxDigits) (delimits : Delimits rest) :
    readScalar (renderInteger n ++ rest) = .ok (.integer n, rest) := by
  have formed := wholeNumeral_formed n.natAbs
  have written : renderInteger n = signText (n < 0) ++ (wholeNumeral n.natAbs).text := by
    simp [renderInteger, wholeNumeral, Numeral.text, Numeral.fractionText, Numeral.exponentText]
  have leading : (wholeNumeral n.natAbs).whole = ['0'] ∨
      (wholeNumeral n.natAbs).whole.head? ≠ some '0' := by
    rcases Nat.eq_zero_or_pos n.natAbs with zero | positive
    · left
      rw [zero]
      rfl
    · exact .inr (Text.head?_toDigits positive)
  rw [written, readScalar_text formed, readMagnitude_text formed leading delimits]
  have value : (if decide (n < 0) = true then -(n.natAbs : Int) else n.natAbs) = n := by
    simp only [decide_eq_true_eq]
    omega
  have whole := magnitude_whole short (n < 0)
  rw [Decimal.asciiValue_toDigits, value] at whole
  exact congrArg (Except.map (·, rest)) whole

/-- A double is read back from its written form, whichever form it has. -/
theorem readScalar_number {x : Float} (back : ReadsBack x) (delimits : Delimits rest) :
    readScalar (numberForm.render x ++ rest) = .ok (.real x, rest) := by
  rw [Decimal.Form.render]
  split
  next nan =>
    obtain rfl := Decimal.eq_of_isNaN nan
    rfl
  next number =>
    split
    next infinite =>
      have same := Decimal.eq_of_isInf infinite
      cases sign : Decimal.isNegative x <;>
        (rw [sign] at same
         obtain rfl := same
         rfl)
    next finite =>
      have finite : Decimal.isFinite x = true := by
        rw [Decimal.isFinite, Bool.eq_false_iff.mpr number, Bool.eq_false_iff.mpr finite]
        rfl
      obtain ⟨negative, n, written, formed, real, leading, value⟩ := back.spelled finite
      have same : numberForm.finite (.ofFloat x) = signText negative ++ n.text := written
      rw [same, readScalar_text formed, readMagnitude_text formed leading delimits,
        magnitude_real real, value]
      rfl

end EERDiagram.Json
