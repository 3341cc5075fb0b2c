import EERDiagram.Decimal.Form
import EERDiagram.Decimal.Literal
import EERDiagram.Proofs.Decimal.Range
import EERDiagram.Proofs.Text.Digits
import Mathlib.Data.List.DropRight

/-! The text of a double: the digits of a numeral, or a word. A numeral is written so that what
reads it sees where its parts end, and the words stand for one double each. -/
namespace EERDiagram.Decimal

open Float.Model (UnpackedFloat Format)

/-! The doubles that are written as words. -/

theorem eq_of_toBits {x y : Float} (same : x.toBits = y.toBits) : x = y := by
  obtain ⟨⟨bits, valid⟩⟩ := x
  obtain ⟨⟨bits', valid'⟩⟩ := y
  obtain rfl : bits = bits' := same
  rfl

theorem eq_of_isNaN {x : Float} (nan : x.isNaN = true) : x = 0.0 / 0.0 := by
  obtain ⟨ones, some⟩ := (isNaN_iff x).mp nan
  have bits : x.toBits.toBitVec = UnpackedFloat.packedNaN Format.binary64 :=
    x.toModel.valid.eq_packedNaN ones some
  have other : (0.0 / 0.0 : Float).toBits.toBitVec = UnpackedFloat.packedNaN Format.binary64 := by
    decide +kernel
  exact eq_of_toBits (UInt64.toBitVec_inj.mp (bits.trans other.symm))

theorem eq_of_isInf {x : Float} (infinite : x.isInf = true) :
    x = if isNegative x then -1.0 / 0.0 else 1.0 / 0.0 := by
  obtain ⟨ones, zeros⟩ := (isInf_iff x).mp infinite
  have exponent : x.toBits.toNat / 2 ^ 52 % 2 ^ 11 = 2047 := by
    rw [← toNat_exponentBits, ones]
    rfl
  have mantissa : x.toBits.toNat % 2 ^ 52 = 0 := by
    rw [← toNat_mantissaBits, zeros]
    rfl
  have bound := x.toBits.toNat_lt
  have sign : isNegative x = decide (2 ^ 63 ≤ x.toBits.toNat) := by
    rw [isNegative, Bool.eq_iff_iff]
    simp [← UInt64.toNat_inj]
    omega
  apply eq_of_toBits
  apply UInt64.toNat_inj.mp
  split
  next negative =>
    have other : (-1.0 / 0.0 : Float).toBits.toNat = 0xFFF0000000000000 := by decide +kernel
    rw [sign, decide_eq_true_eq] at negative
    omega
  next positive =>
    have other : (1.0 / 0.0 : Float).toBits.toNat = 0x7FF0000000000000 := by decide +kernel
    rw [sign, decide_eq_true_eq] at positive
    omega
/-! Numerals. -/

def asciiDigits : List Char := "0123456789".toList

theorem mem_asciiDigits (digit : isAsciiDigit c = true) : c ∈ asciiDigits := by
  simp only [isAsciiDigit, Bool.and_eq_true, decide_eq_true_eq, Char.le_def,
    UInt32.le_iff_toNat_le] at digit
  have range : 48 ≤ c.toNat ∧ c.toNat < 58 := ⟨digit.1, Nat.lt_succ_of_le digit.2⟩
  rw [← Char.ofNat_toNat c]
  generalize c.toNat = n at range
  have every : ∀ n < 58, 48 ≤ n → Char.ofNat n ∈ asciiDigits := by decide
  exact every n range.2 range.1

theorem isAsciiDigit_of_mem_toDigits (member : c ∈ Nat.toDigits 10 n) : isAsciiDigit c = true :=
  Nat.isDigit_of_mem_toDigits (by decide) (by decide) member

theorem asciiValue_eq (digits : List Char) : asciiValue digits = Nat.ofDigitChars 10 digits 0 :=
  Text.digitsValue_eq_ofDigitChars digits

theorem asciiValue_toDigits (n : Nat) : asciiValue (Nat.toDigits 10 n) = n := by
  rw [asciiValue_eq, Nat.ofDigitChars_ten_toDigits]

theorem asciiValue_zeros {digits : List Char} (zeros : ∀ c ∈ digits, c = '0') :
    asciiValue digits = 0 := by
  rw [List.eq_replicate_of_mem zeros, asciiValue_eq, Nat.ofDigitChars_replicate_zero, Nat.mul_zero]

/-- A magnitude as it is spelled: the digits before the point and after it, and the exponent. -/
structure Numeral where
  whole : List Char
  fraction : List Char
  exponent : Option (Bool × List Char)

namespace Numeral

def fractionText (n : Numeral) : List Char :=
  if n.fraction = [] then [] else '.' :: n.fraction

def exponentText (n : Numeral) : List Char :=
  match n.exponent with
  | none => []
  | some (negative, digits) => 'e' :: (if negative then '-' else '+') :: digits

def text (n : Numeral) : List Char := n.whole ++ (n.fractionText ++ n.exponentText)

def exponentValue? (n : Numeral) : Option Int :=
  n.exponent.map fun (negative, digits) =>
    if negative then -asciiValue digits else asciiValue digits

def value (n : Numeral) : Float :=
  ofScaled (asciiValue (n.whole ++ n.fraction)) (n.exponentValue?.getD 0 - n.fraction.length)

structure Formed (n : Numeral) : Prop where
  whole : n.whole ≠ [] ∧ ∀ c ∈ n.whole, isAsciiDigit c = true
  fraction : ∀ c ∈ n.fraction, isAsciiDigit c = true
  exponent : ∀ e ∈ n.exponent, e.2 ≠ [] ∧ ∀ c ∈ e.2, isAsciiDigit c = true

variable {n : Numeral} {rest : List Char}

theorem mem_head?_exponentText (front : c ∈ (n.exponentText ++ rest).head?) :
    c = 'e' ∨ c ∈ rest.head? := by
  rw [exponentText] at front
  split at front
  · exact .inr front
  · exact .inl (by simpa using front.symm)

theorem mem_head?_fractionText (front : c ∈ (n.fractionText ++ rest).head?) :
    c = '.' ∨ c ∈ rest.head? := by
  rw [fractionText] at front
  split at front
  · exact .inr front
  · exact .inl (by simpa using front.symm)

theorem ends_whole (ends : ∀ c ∈ rest.head?, isAsciiDigit c = false) :
    ∀ c ∈ (n.fractionText ++ (n.exponentText ++ rest)).head?, isAsciiDigit c = false := by
  intro c front
  rcases mem_head?_fractionText front with rfl | front
  · decide
  rcases mem_head?_exponentText front with rfl | front
  · decide
  · exact ends c front

theorem ends_fraction (ends : ∀ c ∈ rest.head?, isAsciiDigit c = false) :
    ∀ c ∈ (n.exponentText ++ rest).head?, isAsciiDigit c = false := by
  intro c front
  rcases mem_head?_exponentText front with rfl | front
  · decide
  · exact ends c front

theorem Formed.front (formed : n.Formed) : ∃ c, isAsciiDigit c = true ∧ n.text.head? = some c := by
  obtain ⟨c, others, split⟩ := List.exists_cons_of_ne_nil formed.whole.1
  exact ⟨c, formed.whole.2 c (by simp [split]), by simp [text, split]⟩

end Numeral

theorem splitSign_of_digit (digit : ∀ c ∈ s.head?, isAsciiDigit c = true) :
    splitSign s = (false, s) := by
  rw [splitSign.eq_def]
  split
  next => exact absurd (digit '-' rfl) (by decide)
  next => exact absurd (digit '+' rfl) (by decide)
  next => rfl

theorem splitSign_exponent (negative : Bool) (digits : List Char) :
    splitSign ((if negative then '-' else '+') :: digits) = (negative, digits) := by
  cases negative <;> rfl

theorem splitSign_signText (negative : Bool) (digit : ∀ c ∈ s.head?, isAsciiDigit c = true) :
    splitSign (signText negative ++ s) = (negative, s) := by
  cases negative with
  | true => rfl
  | false => exact splitSign_of_digit digit

theorem word?_of_digit (front : s.head? = some c) (digit : isAsciiDigit c = true) :
    word? s = none := by
  have apart : asciiDigits.all (fun c => c.toLower != 'i' && c.toLower != 'n') = true := by decide
  obtain ⟨notI, notN⟩ : c.toLower ≠ 'i' ∧ c.toLower ≠ 'n' := by
    simpa using List.all_eq_true.mp apart c (mem_asciiDigits digit)
  cases s with
  | nil => contradiction
  | cons first rest =>
    obtain rfl : first = c := by simpa using front
    simp [word?, notI, notN]

theorem exponent?_exponentText {n : Numeral} (formed : n.Formed) :
    exponent? n.exponentText = some (n.exponentValue?.getD 0) := by
  cases exponent : n.exponent with
  | none => simp [Numeral.exponentText, Numeral.exponentValue?, exponent, exponent?]
  | some e =>
    obtain ⟨negative, digits⟩ := e
    obtain ⟨nonempty, all⟩ := formed.exponent _ exponent
    simp only [Numeral.exponentText, Numeral.exponentValue?, exponent, exponent?,
      splitSign_exponent]
    simp [nonempty, List.all_eq_true.mpr all]

theorem magnitude?_text {n : Numeral} (formed : n.Formed) : magnitude? n.text = some n.value := by
  have ends : ∀ c ∈ ([] : List Char).head?, isAsciiDigit c = false := by simp
  have whole := Text.takeWhile_append_of_ends formed.whole.2 (n.ends_whole ends)
  have remains := Text.dropWhile_append_of_ends formed.whole.2 (n.ends_whole ends)
  have fraction := Text.takeWhile_append_of_ends formed.fraction (n.ends_fraction ends)
  have last := Text.dropWhile_append_of_ends formed.fraction (n.ends_fraction ends)
  have value := exponent?_exponentText formed
  simp only [List.append_nil] at whole remains fraction last
  simp only [magnitude?, Numeral.text, whole, remains]
  by_cases empty : n.fraction = []
  · have text : n.fractionText = [] := by simp [Numeral.fractionText, empty]
    have unpointed : ∀ tail, n.exponentText ≠ '.' :: tail := by
      intro tail same
      have first : '.' ∈ (n.exponentText ++ []).head? := by simp [same]
      have front := n.mem_head?_exponentText first
      simp at front
    rw [text, List.nil_append]
    split
    next tail same => exact absurd same (unpointed tail)
    next => simp [formed.whole.1, value, Numeral.value, empty]
  · have text : n.fractionText = '.' :: n.fraction := by simp [Numeral.fractionText, empty]
    simp only [text, List.cons_append, fraction, last]
    simp [formed.whole.1, value, Numeral.value]

theorem literal?_text {n : Numeral} (formed : n.Formed) (negative : Bool) :
    literal? (signText negative ++ n.text) = some (signed negative n.value) := by
  obtain ⟨c, digit, front⟩ := formed.front
  have signs := splitSign_signText negative (s := n.text) (by simpa [front] using digit)
  simp [literal?, signs, word?_of_digit front digit, magnitude?_text formed]

/-! The numerals that doubles are written as. -/

/-- The numeral shows the digits, with zeros among them. -/
structure Numeral.Shows (n : Numeral) (digits : List Char) : Prop where
  formed : n.Formed
  real : n.fraction ≠ [] ∨ n.exponent ≠ none
  only : ∀ c ∈ n.whole ++ n.fraction, c = '0' ∨ c ∈ digits
  leading : n.whole = ['0'] ∨ n.whole.head? = digits.head?

variable {digits : List Char}

theorem Numeral.shows {n : Numeral} (all : ∀ c ∈ digits, isAsciiDigit c = true)
    (nonempty : n.whole ≠ []) (only : ∀ c ∈ n.whole ++ n.fraction, c = '0' ∨ c ∈ digits)
    (exponent : ∀ e ∈ n.exponent, e.2 ≠ [] ∧ ∀ c ∈ e.2, isAsciiDigit c = true)
    (real : n.fraction ≠ [] ∨ n.exponent ≠ none)
    (leading : n.whole = ['0'] ∨ n.whole.head? = digits.head?) : n.Shows digits := by
  have digit : ∀ c ∈ n.whole ++ n.fraction, isAsciiDigit c = true := by
    intro c member
    rcases only c member with rfl | member
    · decide
    · exact all c member
  refine ⟨⟨⟨nonempty, fun c member => ?_⟩, fun c member => ?_, exponent⟩, real, only, leading⟩
  · exact digit c (List.mem_append_left _ member)
  · exact digit c (List.mem_append_right _ member)

theorem positional_shows (nonempty : digits ≠ []) (all : ∀ c ∈ digits, isAsciiDigit c = true)
    (point : Int) : ∃ n : Numeral, positional digits point = n.text ∧ n.Shows digits := by
  have pointed : ∀ whole fraction : List Char, fraction ≠ [] →
      whole ++ '.' :: fraction = Numeral.text ⟨whole, fraction, none⟩ := by
    intro whole fraction some
    simp [Numeral.text, Numeral.fractionText, Numeral.exponentText, some]
  unfold positional
  split
  next =>
    refine ⟨⟨['0'], List.replicate (-point).toNat '0' ++ digits, none⟩,
      pointed ['0'] _ (by simp [nonempty]), ?_⟩
    apply Numeral.shows all (by simp) _ (by simp) (by simp [nonempty]) (.inl rfl)
    intro c member
    simp only [List.mem_append, List.mem_singleton, List.mem_replicate] at member
    tauto
  next above =>
    split
    next short =>
      refine ⟨⟨digits ++ List.replicate (point.toNat - digits.length) '0', ['0'], none⟩,
        pointed _ ['0'] (by simp), ?_⟩
      apply Numeral.shows all (by simp [nonempty]) _ (by simp) (by simp)
        (.inr (List.head?_append_of_ne_nil _ nonempty))
      intro c member
      simp only [List.mem_append, List.mem_singleton, List.mem_replicate] at member
      tauto
    next long =>
      have later : digits.drop point.toNat ≠ [] := by
        rw [ne_eq, List.drop_eq_nil_iff]
        omega
      have early : digits.take point.toNat ≠ [] := by
        rw [ne_eq, List.take_eq_nil_iff]
        exact not_or.mpr ⟨by omega, nonempty⟩
      refine ⟨⟨digits.take point.toNat, digits.drop point.toNat, none⟩, pointed _ _ later, ?_⟩
      apply Numeral.shows all early _ (by simp) (.inl later)
      · right
        rw [List.head?_take, if_neg (by omega)]
      · intro c member
        rw [List.take_append_drop] at member
        exact .inr member

theorem scientific_shows (nonempty : digits ≠ []) (all : ∀ c ∈ digits, isAsciiDigit c = true)
    (exponent : Int) : ∃ n : Numeral, scientific digits exponent = n.text ∧ n.Shows digits := by
  obtain ⟨d, rest, rfl⟩ := List.exists_cons_of_ne_nil nonempty
  let run := Nat.toDigits 10 exponent.natAbs
  have power : ∀ e ∈ some (decide (exponent < 0), List.replicate (2 - run.length) '0' ++ run),
      e.2 ≠ [] ∧ ∀ c ∈ e.2, isAsciiDigit c = true := by
    rintro e member
    obtain rfl := Option.some.inj member
    refine ⟨by simp [run, Nat.toDigits_ne_nil], fun c member => ?_⟩
    rcases List.mem_append.mp member with padding | digit
    · rw [List.eq_of_mem_replicate padding]
      decide
    · exact isAsciiDigit_of_mem_toDigits digit
  refine ⟨⟨[d], rest, _⟩, ?_,
    Numeral.shows all (by simp) (fun c member => .inr member) power (by simp) (.inr rfl)⟩
  cases rest with
  | nil => simp [scientific, exponentText, Numeral.text, Numeral.fractionText, Numeral.exponentText, run]
  | cons c rest =>
    simp [scientific, exponentText, Numeral.text, Numeral.fractionText, Numeral.exponentText, run]

theorem stripZeros_spec (digits : List Char) :
    stripZeros digits ≠ [] ∧ (∀ c ∈ stripZeros digits, c = '0' ∨ c ∈ digits) ∧
      (digits.head? ≠ some '0' → digits ≠ [] → (stripZeros digits).head? = digits.head?) := by
  have shape : (digits.reverse.dropWhile (· == '0')).reverse = digits.rdropWhile (· == '0') := rfl
  obtain ⟨tail, split⟩ := digits.rdropWhile_prefix (· == '0')
  unfold stripZeros
  rw [shape]
  split
  next none =>
    refine ⟨by simp, by simp, fun front nonempty => ?_⟩
    have zeros := List.rdropWhile_eq_nil_iff.mp none
    obtain ⟨c, rest, rfl⟩ := List.exists_cons_of_ne_nil nonempty
    exact absurd (by simpa using zeros c List.mem_cons_self) front
  next kept some =>
    refine ⟨some, fun c member => .inr ?_, fun _ _ => ?_⟩
    · exact split ▸ List.mem_append_left tail member
    · conv_rhs => rw [← split]
      exact (List.head?_append_of_ne_nil _ some).symm

/-- A double that is a number is written as a numeral. It begins with no zero but a single one,
unless all its digits are zeros although the double is not zero. -/
theorem Form.finite_spelled (form : Form) (b : Binary) :
    ∃ n : Numeral, form.finite b = signText b.negative ++ n.text ∧ n.Formed ∧
      (n.fraction ≠ [] ∨ n.exponent ≠ none) ∧
      ((n.whole = ['0'] ∨ n.whole.head? ≠ some '0') ∨
        b.mantissa ≠ 0 ∧ asciiValue (n.whole ++ n.fraction) = 0) := by
  simp only [Form.finite]
  split
  next zero =>
    have digit : ∀ c ∈ ['0'], isAsciiDigit c = true := by
      intro c member
      rw [List.mem_singleton.mp member]
      decide
    exact ⟨⟨['0'], ['0'], none⟩, rfl, ⟨⟨by simp, digit⟩, digit, by simp⟩, by simp,
      .inl (.inl rfl)⟩
  next some =>
    have written : ∀ c ∈ Nat.toDigits 10 b.shortest.digits, isAsciiDigit c = true := fun c =>
      isAsciiDigit_of_mem_toDigits
    obtain ⟨nonempty, only, front⟩ := stripZeros_spec (Nat.toDigits 10 b.shortest.digits)
    have all : ∀ c ∈ stripZeros (Nat.toDigits 10 b.shortest.digits), isAsciiDigit c = true := by
      intro c member
      rcases only c member with rfl | member
      · decide
      · exact written c member
    have finish : ∀ n : Numeral, n.Shows (stripZeros (Nat.toDigits 10 b.shortest.digits)) →
        (n.whole = ['0'] ∨ n.whole.head? ≠ Option.some '0') ∨
          b.mantissa ≠ 0 ∧ asciiValue (n.whole ++ n.fraction) = 0 := by
      intro n shows
      rcases Nat.eq_zero_or_pos b.shortest.digits with zero | positive
      · refine .inr ⟨some, asciiValue_zeros fun c member => ?_⟩
        rcases shows.only c member with same | member
        · exact same
        · rw [zero, Nat.toDigits_zero] at only member
          simpa using only c member
      · left
        have leading := Text.head?_toDigits positive
        rw [← front leading Nat.toDigits_ne_nil] at leading
        exact shows.leading.imp_right fun same => by rwa [same]
    split
    next =>
      obtain ⟨n, text, shows⟩ := positional_shows nonempty all
        ((Nat.toDigits 10 b.shortest.digits).length + b.shortest.exponent)
      exact ⟨n, by rw [text], shows.formed, shows.real, finish n shows⟩
    next =>
      obtain ⟨n, text, shows⟩ := scientific_shows nonempty all
        ((Nat.toDigits 10 b.shortest.digits).length + b.shortest.exponent - 1)
      exact ⟨n, by rw [text], shows.formed, shows.real, finish n shows⟩

/-- A finite double is the literal that its text spells. -/
def ReadsBack (x : Float) : Prop := isFinite x = true → literal? (text x).toList = some x

/-- The text of a finite double is a numeral for it, which begins with no zero but a single one. -/
theorem ReadsBack.spelled (back : ReadsBack x) (finite : isFinite x = true) :
    ∃ negative, ∃ n : Numeral, plainForm.finite (.ofFloat x) = signText negative ++ n.text ∧
      n.Formed ∧ (n.fraction ≠ [] ∨ n.exponent ≠ none) ∧
      (n.whole = ['0'] ∨ n.whole.head? ≠ some '0') ∧ signed negative n.value = x := by
  obtain ⟨n, spelled, formed, real, leading⟩ := plainForm.finite_spelled (.ofFloat x)
  have value : signed (Binary.ofFloat x).negative n.value = x := by
    have read := back finite
    simp only [isFinite, Bool.and_eq_true, Bool.not_eq_true', Bool.eq_false_iff] at finite
    rw [text, Form.render, if_neg finite.1, if_neg finite.2, String.toList_ofList, spelled,
      literal?_text formed] at read
    exact Option.some.inj read
  refine ⟨_, n, spelled, formed, real, ?_, value⟩
  rcases leading with leading | ⟨some, zero⟩
  · exact leading
  · -- the digits are zeros, so the double that is read from them is a zero
    have nothing : n.value = 0.0 := by simp [Numeral.value, ofScaled, zero]
    rw [nothing] at value
    have mantissas : ∀ negative, (Binary.ofFloat (signed negative 0.0)).mantissa = 0 := by
      decide +kernel
    exact absurd (value ▸ mantissas _) some

end EERDiagram.Decimal
