import EERDiagram.Proofs.Json.Escaping
import EERDiagram.Proofs.Json.Number

/-! How far the scanners read. What a scanner takes is a beginning of the text, and the same is
taken whatever follows it, as long as that is no part of a number. -/
namespace EERDiagram.Json

open Decimal (isAsciiDigit)

variable {s rest : List Char}

/-! Texts between marks end with their mark. -/

theorem cutText?_eq_some (cut : cutText? s = some (raw, rest)) :
    ∃ p, s = p ++ rest ∧ ∀ after, cutText? (p ++ after) = some (raw, after) := by
  induction s using cutText?.induct generalizing raw with
  | case1 => simp [cutText?] at cut
  | case2 others =>
    obtain ⟨rfl, rfl⟩ : [] = raw ∧ others = rest := by simpa [cutText?] using cut
    exact ⟨['"'], rfl, fun _ => rfl⟩
  | case3 mark others ih =>
    obtain ⟨⟨raw', rest'⟩, inner, same⟩ := Option.map_eq_some_iff.mp (cut : Option.map _ _ = _)
    obtain ⟨rfl, rfl⟩ : '\\' :: mark :: raw' = raw ∧ rest' = rest := by simpa using same
    obtain ⟨p, rfl, takes⟩ := ih inner
    exact ⟨'\\' :: mark :: p, rfl, fun after => by simp [cutText?, takes after]⟩
  | case4 c others quote slash ih =>
    rw [cutText?.eq_4 c others quote slash] at cut
    obtain ⟨⟨raw', rest'⟩, inner, same⟩ := Option.map_eq_some_iff.mp cut
    obtain ⟨rfl, rfl⟩ : c :: raw' = raw ∧ rest' = rest := by simpa using same
    have plain : c ≠ '\\' := by
      rintro rfl
      cases others with
      | nil => simp [cutText?] at inner
      | cons mark others => exact slash mark others rfl rfl
    obtain ⟨p, rfl, takes⟩ := ih inner
    exact ⟨c :: p, rfl, fun after => by simp [cutText?, takes after, plain]⟩

theorem readName_eq_ok (read : readName s = .ok (name, rest)) :
    ∃ p, s = '"' :: p ++ rest ∧ ∀ after, readName ('"' :: p ++ after) = .ok (name, after) := by
  rw [readName.eq_def] at read
  split at read
  next others =>
    split at read
    next => contradiction
    next raw rest' cut =>
      split at read
      next => contradiction
      next text unescaped =>
        obtain ⟨rfl, rfl⟩ : String.ofList text = name ∧ rest' = rest := by simpa using read
        obtain ⟨p, rfl, takes⟩ := cutText?_eq_some cut
        exact ⟨p, rfl, fun after => by simp only [readName, List.cons_append, takes, unescaped]⟩
  next => contradiction

/-! Numbers end where no part of one follows. -/

theorem isAsciiDigit_of_mem_leadingDigits (member : c ∈ leadingDigits s) :
    isAsciiDigit c = true := by
  rw [leadingDigits.eq_def] at member
  split at member
  · rw [List.mem_singleton.mp member]
    decide
  · exact List.mem_takeWhile_imp member

theorem leadingDigits_of_ne_zero (zero : c ≠ '0') :
    leadingDigits (c :: s) = (c :: s).takeWhile isAsciiDigit := by
  rw [leadingDigits.eq_def]
  split
  next same => exact absurd (List.cons.inj same).1 zero
  next => rfl

theorem leadingDigits_split (nonempty : leadingDigits s ≠ []) :
    ∃ tail, s = leadingDigits s ++ tail ∧ ∀ after, (∀ c ∈ after.head?, isAsciiDigit c = false) →
      leadingDigits (leadingDigits s ++ after) = leadingDigits s := by
  cases s with
  | nil => contradiction
  | cons c others =>
    by_cases zero : c = '0'
    · subst zero
      exact ⟨others, rfl, fun _ _ => rfl⟩
    by_cases digit : isAsciiDigit c = true
    · refine ⟨others.dropWhile isAsciiDigit, ?_, fun after ends => ?_⟩
      · rw [leadingDigits_of_ne_zero zero, List.takeWhile_cons_of_pos digit, List.cons_append,
          List.takeWhile_append_dropWhile]
      · have run : ∀ d ∈ c :: others.takeWhile isAsciiDigit, isAsciiDigit d = true :=
          List.forall_mem_cons.mpr ⟨digit, fun d => List.mem_takeWhile_imp⟩
        rw [leadingDigits_of_ne_zero zero, List.takeWhile_cons_of_pos digit, List.cons_append,
          leadingDigits_of_ne_zero zero]
        exact Text.takeWhile_append_of_ends run ends
    · rw [leadingDigits_of_ne_zero zero, List.takeWhile_cons_of_neg digit] at nonempty
      contradiction

theorem splitFraction_eq (split : splitFraction s = (fraction, rest)) :
    ∃ p, s = p ++ rest ∧ (∀ c ∈ p.head?, c = '.') ∧
      ∀ after, (∀ c ∈ after.head?, isAsciiDigit c = false ∧ c ≠ '.') →
        splitFraction (p ++ after) = (fraction, after) := by
  -- Without a fraction nothing is taken, and what follows begins with no point.
  have nothing : ∀ after : List Char, (∀ c ∈ after.head?, isAsciiDigit c = false ∧ c ≠ '.') →
      splitFraction after = ([], after) := by
    intro after ends
    rw [splitFraction.eq_def]
    split
    next tail => exact absurd rfl (ends '.' rfl).2
    next => rfl
  rw [splitFraction.eq_def] at split
  split at split
  next tail =>
    dsimp only at split
    split at split
    next empty =>
      obtain ⟨rfl, rfl⟩ := Prod.mk.inj split
      exact ⟨[], rfl, by simp, nothing⟩
    next nonempty =>
      obtain ⟨rfl, rfl⟩ := Prod.mk.inj split
      refine ⟨'.' :: tail.takeWhile isAsciiDigit, ?_, by simp, fun after ends => ?_⟩
      · rw [List.cons_append, List.takeWhile_append_dropWhile]
      · have run : ∀ c ∈ tail.takeWhile isAsciiDigit, isAsciiDigit c = true :=
          fun c => List.mem_takeWhile_imp
        have stops : ∀ c ∈ after.head?, isAsciiDigit c = false := fun c front => (ends c front).1
        simp only [List.cons_append, splitFraction, Text.takeWhile_append_of_ends run stops,
          Text.dropWhile_append_of_ends run stops, nonempty, if_false]
  next =>
    obtain ⟨rfl, rfl⟩ := Prod.mk.inj split
    exact ⟨[], rfl, by simp, nothing⟩

theorem splitSign_eq (s : List Char) : ∃ sign, s = sign ++ (Decimal.splitSign s).2 ∧
    ∀ after, (∀ c ∈ after.head?, isAsciiDigit c = true) →
      Decimal.splitSign (sign ++ after) = ((Decimal.splitSign s).1, after) := by
  rw [Decimal.splitSign.eq_def s]
  split
  next others => exact ⟨['-'], rfl, fun _ _ => rfl⟩
  next others => exact ⟨['+'], rfl, fun _ _ => rfl⟩
  next => exact ⟨[], rfl, fun _ digit => Decimal.splitSign_of_digit digit⟩

theorem splitExponent_eq (split : splitExponent s = (exponent, rest)) :
    ∃ p, s = p ++ rest ∧ (∀ c ∈ p.head?, c = 'e' ∨ c = 'E') ∧
      ∀ after, Delimits after → splitExponent (p ++ after) = (exponent, after) := by
  -- Without an exponent nothing is taken, and what follows begins with no mark of one.
  have nothing : ∀ after, Delimits after → splitExponent after = (none, after) := by
    intro after delimits
    cases after with
    | nil => rfl
    | cons c others =>
      have unmarked : ¬ (c = 'e' ∨ c = 'E') := not_or.mpr (delimits.apart rfl).2.2
      simp only [splitExponent, unmarked, if_false]
  cases s with
  | nil =>
    obtain ⟨rfl, rfl⟩ := Prod.mk.inj split
    exact ⟨[], rfl, by simp, nothing⟩
  | cons mark tail =>
    obtain ⟨sign, whole, signs⟩ := splitSign_eq tail
    simp only [splitExponent] at split
    split at split
    next marked =>
      split at split
      next empty =>
        obtain ⟨rfl, rfl⟩ := Prod.mk.inj split
        exact ⟨[], rfl, by simp, nothing⟩
      next nonempty =>
        obtain ⟨rfl, rfl⟩ := Prod.mk.inj split
        generalize remains : (Decimal.splitSign tail).2 = after at *
        have run : ∀ c ∈ after.takeWhile isAsciiDigit, isAsciiDigit c = true :=
          fun c => List.mem_takeWhile_imp
        refine ⟨mark :: (sign ++ after.takeWhile isAsciiDigit), ?_, by simpa using marked,
          fun others delimits => ?_⟩
        · rw [List.cons_append, List.append_assoc, List.takeWhile_append_dropWhile, ← whole]
        · have signed := signs (after.takeWhile isAsciiDigit ++ others) fun c front => by
            rw [List.head?_append_of_ne_nil _ nonempty] at front
            exact run c (List.mem_of_mem_head? front)
          simp only [List.cons_append, List.append_assoc, splitExponent, marked, if_true, signed,
            Text.takeWhile_append_of_ends run delimits.ends,
            Text.dropWhile_append_of_ends run delimits.ends, nonempty, if_false]
    next =>
      obtain ⟨rfl, rfl⟩ := Prod.mk.inj split
      exact ⟨[], rfl, by simp, nothing⟩

theorem exists_parts (read : readMagnitude negative s = .ok (v, rest)) :
    leadingDigits s ≠ [] ∧ ∃ fraction others exponent,
      splitFraction (s.drop (leadingDigits s).length) = (fraction, others) ∧
      splitExponent others = (exponent, rest) ∧
      magnitude negative (leadingDigits s) fraction exponent = .ok v := by
  have nonempty : leadingDigits s ≠ [] := by
    intro empty
    have same : readMagnitude negative s = .error .malformed := if_pos empty
    rw [same] at read
    contradiction
  obtain ⟨fraction, others, fractional⟩ : ∃ fraction others,
    splitFraction (s.drop (leadingDigits s).length) = (fraction, others) := ⟨_, _, rfl⟩
  obtain ⟨exponent, rest', powered⟩ : ∃ exponent rest',
    splitExponent others = (exponent, rest') := ⟨_, _, rfl⟩
  rw [readMagnitude_parts negative nonempty fractional powered] at read
  cases value : magnitude negative (leadingDigits s) fraction exponent with
  | error fault =>
    rw [value] at read
    contradiction
  | ok w =>
    rw [value] at read
    obtain ⟨rfl, rfl⟩ := Prod.mk.inj (Except.ok.inj read)
    exact ⟨nonempty, fraction, others, exponent, fractional, powered, value⟩

theorem mem_head?_append {a b : List Char} (front : c ∈ (a ++ b).head?) :
    c ∈ a.head? ∨ c ∈ b.head? := by
  cases a with
  | nil => exact .inr front
  | cons d others => exact .inl front

theorem readMagnitude_eq_ok (read : readMagnitude negative s = .ok (v, rest)) :
    ∃ c p, s = c :: p ++ rest ∧ isAsciiDigit c = true ∧
      ∀ after, Delimits after → readMagnitude negative (c :: p ++ after) = .ok (v, after) := by
  obtain ⟨nonempty, fraction, others, exponent, fractional, powered, value⟩ := exists_parts read
  have digit : ∀ c ∈ leadingDigits s, isAsciiDigit c = true :=
    fun _ => isAsciiDigit_of_mem_leadingDigits
  obtain ⟨tail, whole, leads⟩ := leadingDigits_split nonempty
  have dropped : s.drop (leadingDigits s).length = tail := by
    nth_rewrite 2 [whole]
    exact List.drop_left
  rw [dropped] at fractional
  obtain ⟨f, split, dot, fractions⟩ := splitFraction_eq fractional
  obtain ⟨e, split', mark, exponents⟩ := splitExponent_eq powered
  generalize leadingDigits s = digits at *
  obtain ⟨c, others', rfl⟩ := List.exists_cons_of_ne_nil nonempty
  refine ⟨c, others' ++ (f ++ e), ?_, digit c List.mem_cons_self, fun after delimits => ?_⟩
  · rw [whole, split, split']
    simp
  · have shape : c :: (others' ++ (f ++ e)) ++ after = c :: others' ++ (f ++ (e ++ after)) := by
      simp
    have unpointed : ∀ d ∈ (e ++ after).head?, isAsciiDigit d = false ∧ d ≠ '.' := by
      intro d front
      rcases mem_head?_append front with front | front
      · rcases mark d front with rfl | rfl <;> decide
      · exact ⟨(delimits.apart front).1, (delimits.apart front).2.1⟩
    have ends : ∀ d ∈ (f ++ (e ++ after)).head?, isAsciiDigit d = false := by
      intro d front
      rcases mem_head?_append front with front | front
      · rw [dot d front]
        decide
      · exact (unpointed d front).1
    have leading := leads _ ends
    rw [shape, readMagnitude_parts negative (by rw [leading]; exact nonempty)
      (by rw [leading, List.drop_left]; exact fractions _ unpointed) (exponents _ delimits),
      leading, value]
    rfl

/-! Scalars. -/

theorem afterWord?_eq_some (read : afterWord? word s = some rest) : s = word ++ rest := by
  induction word generalizing s with
  | nil => exact Option.some.inj read
  | cons c word ih =>
    cases s with
    | nil => contradiction
    | cons d s =>
      rw [afterWord?] at read
      split at read
      next same => rw [same, ih read, List.cons_append]
      next => contradiction

def scalarMarks : List Char := Decimal.asciiDigits ++ ['n', 't', 'f', 'N', 'I', '-']

theorem readWord?_eq_some (read : readWord? s = some (v, rest)) :
    ∃ c p, s = c :: p ++ rest ∧ c ∈ scalarMarks ∧
      ∀ after, readWord? (c :: p ++ after) = some (v, after) := by
  obtain ⟨⟨word, value⟩, known, found⟩ := List.exists_of_findSome?_eq_some read
  obtain ⟨rest', taken, same⟩ := Option.map_eq_some_iff.mp found
  obtain ⟨rfl, rfl⟩ := Prod.mk.inj same
  obtain rfl := afterWord?_eq_some taken
  simp only [words, List.mem_cons, Prod.mk.injEq, List.not_mem_nil, or_false] at known
  rcases known with ⟨rfl, rfl⟩ | ⟨rfl, rfl⟩ | ⟨rfl, rfl⟩ | ⟨rfl, rfl⟩ | ⟨rfl, rfl⟩ | ⟨rfl, rfl⟩
  all_goals exact ⟨_, _, rfl, by decide, fun _ => rfl⟩

theorem readScalar_eq_ok (read : readScalar s = .ok (v, rest)) :
    ∃ c p, s = c :: p ++ rest ∧ c ∈ scalarMarks ∧
      ∀ after, Delimits after → readScalar (c :: p ++ after) = .ok (v, after) := by
  rw [readScalar.eq_def] at read
  split at read
  next result word =>
    obtain rfl : result = (v, rest) := Except.ok.inj read
    obtain ⟨c, p, rfl, front, takes⟩ := readWord?_eq_some word
    refine ⟨c, p, rfl, front, fun after _ => ?_⟩
    rw [readScalar.eq_def, takes]
  next =>
    split at read
    next others =>
      obtain ⟨c, p, rfl, digit, takes⟩ := readMagnitude_eq_ok read
      refine ⟨'-', c :: p, rfl, by decide, fun after delimits => ?_⟩
      exact (readScalar_of_digit digit true (p ++ after)).trans (takes after delimits)
    next =>
      obtain ⟨c, p, rfl, digit, takes⟩ := readMagnitude_eq_ok read
      refine ⟨c, p, rfl, List.mem_append_left _ (Decimal.mem_asciiDigits digit),
        fun after delimits => ?_⟩
      exact (readScalar_of_digit digit false (p ++ after)).trans (takes after delimits)

def Value.isScalar : Value → Bool
  | .text _ | .array _ | .object _ => false
  | _ => true

theorem magnitude_isScalar (same : magnitude negative digits fraction exponent = .ok v) :
    v.isScalar = true := by
  rw [magnitude] at same
  split at same
  next =>
    split at same
    next => contradiction
    next =>
      obtain rfl := Except.ok.inj same
      rfl
  next =>
    obtain rfl := Except.ok.inj same
    rfl

theorem readScalar_isScalar (read : readScalar s = .ok (v, rest)) : v.isScalar = true := by
  rw [readScalar.eq_def] at read
  split at read
  next result word =>
    obtain rfl : result = (v, rest) := Except.ok.inj read
    obtain ⟨⟨spelled, value⟩, known, found⟩ := List.exists_of_findSome?_eq_some word
    obtain ⟨_, -, same⟩ := Option.map_eq_some_iff.mp found
    obtain ⟨rfl, -⟩ := Prod.mk.inj same
    have all : words.all (fun word => word.2.isScalar) = true := by decide
    exact List.all_eq_true.mp all _ known
  next =>
    split at read
    all_goals
      obtain ⟨-, fraction, others, exponent, -, -, value⟩ := exists_parts read
      exact magnitude_isScalar value

end EERDiagram.Json
