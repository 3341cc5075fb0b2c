import EERDiagram.Diagram.Move
import EERDiagram.Proofs.Document.Pair
import EERDiagram.Proofs.Text.Splitting

/-! Rewriting the position of a line. The pair is taken out of the raw line, while reading
takes it out of the line's content; both leave the same statement, and the pair that is written
behind it is the one that is read back. -/
namespace EERDiagram

open Text (AllBlank Trimmed)
open Coordinates (cut? erase maxDigits)

namespace Line

def AllMarks (s : List Char) : Prop := ∀ c ∈ s, c = byteOrderMark

theorem not_mem_of_blank (blank : AllBlank s) (mark : Text.isBlank c = false) : c ∉ s := by
  intro member
  have := blank c member
  rw [mark] at this
  contradiction

theorem open_not_mem_lead (marks : AllMarks s) (blank : AllBlank t) : '(' ∉ s ++ t := by
  intro member
  rcases List.mem_append.mp member with member | member
  · exact absurd (marks _ member) (by decide)
  · exact not_mem_of_blank blank (by decide) member

theorem content_split (raw : List Char) : ∃ marks blanks tail,
    raw = marks ++ blanks ++ content raw ++ tail ∧ AllMarks marks ∧ AllBlank blanks ∧
      AllBlank tail := by
  obtain ⟨blanks, tail, split, before, after⟩ :=
    Text.trim_split (raw.dropWhile (· == byteOrderMark))
  refine ⟨raw.takeWhile (· == byteOrderMark), blanks, tail, ?_, ?_, before, after⟩
  · rw [List.append_assoc, List.append_assoc, ← List.append_assoc blanks, content, ← split,
      List.takeWhile_append_dropWhile]
  · intro c member
    simpa using List.mem_takeWhile_imp member

theorem dropWhile_marks_append (marks : AllMarks s) (front : t.head? ≠ some byteOrderMark) :
    (s ++ t).dropWhile (· == byteOrderMark) = t := by
  rw [List.dropWhile_append_of_pos fun c member => by simp [marks c member]]
  cases t with
  | nil => rfl
  | cons c rest => exact List.dropWhile_cons_of_neg (by simpa using front)

theorem content_surround (marks : AllMarks lead) (before : AllBlank blanks) (core : Trimmed s)
    (front : s.head? ≠ some byteOrderMark) (nonempty : s ≠ []) (after : AllBlank tail) :
    content (lead ++ blanks ++ s ++ tail) = s := by
  have start : (blanks ++ (s ++ tail)).head? ≠ some byteOrderMark := by
    cases blanks with
    | nil => simpa [List.head?_append_of_ne_nil _ nonempty] using front
    | cons c rest =>
      have blank := before c List.mem_cons_self
      intro same
      obtain rfl : c = byteOrderMark := by simpa using same
      exact absurd blank (by decide)
  rw [content, List.append_assoc, List.append_assoc, dropWhile_marks_append marks start,
    ← List.append_assoc, Text.trim_surround before core after]

theorem coordinate_eq_ok_iff :
    coordinate n = .ok v ↔ n.digits.length ≤ maxDigits ∧ v = n.value := by
  rw [coordinate]
  split
  next long => simp [Nat.not_le.mpr long]
  next short => simp [Nat.not_lt.mp short, eq_comm]

theorem isSilent_of_front (front : c ≠ '/') : isSilent (c :: rest) = false := by
  rw [isSilent.eq_def]
  split <;> simp_all

theorem read_of_cut (speaks : isSilent (content raw) = false)
    (found : cut? (content raw) = some cut) :
    read raw = .ok (some line) ↔
      cut.pair.x.digits.length ≤ maxDigits ∧ cut.pair.y.digits.length ≤ maxDigits ∧
      line = ⟨some (cut.pair.x.value, cut.pair.y.value), Text.trim cut.rest⟩ := by
  simp only [read, speaks, Bool.false_eq_true, if_false, found]
  rw [both_eq_ok_iff]
  constructor
  · rintro ⟨x, y, readX, readY, same⟩
    obtain ⟨shortX, rfl⟩ := coordinate_eq_ok_iff.mp readX
    obtain ⟨shortY, rfl⟩ := coordinate_eq_ok_iff.mp readY
    exact ⟨shortX, shortY, Option.some.inj same⟩
  · rintro ⟨shortX, shortY, rfl⟩
    exact ⟨_, _, coordinate_eq_ok_iff.mpr ⟨shortX, rfl⟩, coordinate_eq_ok_iff.mpr ⟨shortY, rfl⟩,
      rfl⟩

/-- Only a numeral that is too long keeps a line from being read. -/
theorem read_eq_error_iff {e : LineError} : read raw = .error e ↔
    ∃ cut long, isSilent (content raw) = false ∧ cut? (content raw) = some cut ∧
      [cut.pair.x, cut.pair.y].find? (maxDigits < ·.digits.length) = some long ∧
      e = ⟨long.digits.length⟩ := by
  simp only [read]
  cases speaks : isSilent (content raw) with
  | true => simp
  | false =>
    cases found : cut? (content raw) with
    | none => simp
    | some cut =>
      simp only [Bool.false_eq_true, if_false, Option.some.injEq, exists_and_left, true_and,
        exists_eq_left', List.find?_cons, List.find?_nil]
      by_cases longX : maxDigits < cut.pair.x.digits.length
      · simp [coordinate, longX, bind, Except.bind, eq_comm]
      · by_cases longY : maxDigits < cut.pair.y.digits.length <;>
          simp [coordinate, longX, longY, bind, Except.bind, pure, Except.pure, eq_comm]

theorem read_statement (reads : read raw = .ok (some line)) :
    isSilent (content raw) = false ∧ line.text = Text.trim (erase (content raw)) ∧
      line.coordinates =
        (cut? (content raw)).map fun cut => (cut.pair.x.value, cut.pair.y.value) := by
  cases speaks : isSilent (content raw) with
  | true => simp [read, speaks] at reads
  | false =>
    refine ⟨rfl, ?_⟩
    cases found : cut? (content raw) with
    | none =>
      simp only [read, speaks, Bool.false_eq_true, if_false, found] at reads
      obtain rfl := Option.some.inj (Except.ok.inj reads)
      have core : Trimmed (content raw) := Text.trimmed_trim _
      simp [erase, found, Text.trim_of_trimmed core]
    | some cut =>
      obtain ⟨-, -, rfl⟩ := (read_of_cut speaks found).mp reads
      simp [erase, found]

theorem erase_split (reads : read raw = .ok (some line)) : ∃ marks blanks tail,
    erase raw = marks ++ blanks ++ line.text ++ tail ∧ AllMarks marks ∧ AllBlank blanks ∧
      AllBlank tail := by
  obtain ⟨marks, blanks, tail, split, allMarks, before, after⟩ := content_split raw
  obtain ⟨lead, rest, inside, leading, trailing⟩ := Text.trim_split (erase (content raw))
  refine ⟨marks, blanks ++ lead, rest ++ tail, ?_, allMarks, before.append leading,
    trailing.append after⟩
  have erased : erase raw = marks ++ blanks ++ erase (content raw) ++ tail := by
    conv_lhs => rw [split]
    exact Coordinates.erase_surround (open_not_mem_lead allMarks before)
      (not_mem_of_blank after (by decide))
  rw [erased, inside, ← (read_statement reads).2.1]
  simp only [List.append_assoc]

theorem trimmed_text (reads : read raw = .ok (some line)) : Trimmed line.text := by
  rw [(read_statement reads).2.1]
  exact Text.trimmed_trim _

/-- The statement holds a pair exactly when the raw line holds another one than its first. -/
theorem cut?_text_eq_none_iff (reads : read raw = .ok (some line)) :
    cut? line.text = none ↔ cut? (erase raw) = none := by
  obtain ⟨marks, blanks, tail, split, allMarks, before, after⟩ := erase_split reads
  rw [split]
  exact (Coordinates.cut?_surround_eq_none (open_not_mem_lead allMarks before)
    (not_mem_of_blank after (by decide))).symm

/-- A line has a position exactly when the raw line holds a pair. -/
theorem coordinates_eq_none_iff (reads : read raw = .ok (some line)) :
    line.coordinates = none ↔ cut? raw = none := by
  obtain ⟨marks, blanks, tail, split, allMarks, before, after⟩ := content_split raw
  have same : cut? raw = none ↔ cut? (content raw) = none := by
    conv_lhs => rw [split]
    exact Coordinates.cut?_surround_eq_none (open_not_mem_lead allMarks before)
      (not_mem_of_blank after (by decide))
  rw [(read_statement reads).2.2, same, Option.map_eq_none_iff]

theorem blank_ending (raw : List Char) : AllBlank (ending raw) := by
  rw [ending]
  split
  · exact AllBlank.singleton (by decide)
  · exact AllBlank.nil

theorem cut?_base (single : cut? (erase raw) = none) : cut? (base raw) = none := by
  obtain ⟨tail, split, blank⟩ := Text.trimEnd_split (erase raw)
  rw [split, Coordinates.cut?_append_right (not_mem_of_blank blank (by decide)),
    Option.map_eq_none_iff] at single
  exact single

/-- The pair that was written is the one that the next write takes out. -/
theorem base_withPair (single : cut? (erase raw) = none)
    (spelled : Coordinates.Pair.Spells p pair) : base (withPair raw pair) = base raw := by
  have found : cut? (base raw ++ ' ' :: pair ++ ending raw) =
      some ⟨base raw ++ [' '], p, [] ++ ending raw⟩ :=
    Coordinates.cut?_append_of_some (Coordinates.cut?_append_pair (cut?_base single) spelled)
  have erased : erase (withPair raw pair) = base raw ++ ([' '] ++ ending raw) := by
    rw [withPair, erase, found]
    simp [Coordinates.Cut.rest]
  have blank : AllBlank ([' '] ++ ending raw) :=
    (AllBlank.singleton (by decide)).append (blank_ending raw)
  rw [base, erased, Text.trimEnd_append_blank blank, base,
    Text.trimEnd_of_last (Text.trimEnd_last _)]

theorem ending_withPair (raw : List Char) (spelled : Coordinates.Pair.Spells p pair) :
    ending (withPair raw pair) = ending raw := by
  obtain ⟨inner, rfl, -⟩ := spelled.frame
  by_cases returns : raw.getLast? = some '\r'
  · have own : ending raw = ['\r'] := if_pos returns
    rw [ending, withPair, own, List.getLast?_concat, if_pos rfl]
  · have own : ending raw = [] := if_neg returns
    have last : (withPair raw ('(' :: (inner ++ [')']))).getLast? = some ')' := by
      simp only [withPair, own, List.append_nil, ← List.cons_append, ← List.append_assoc,
        List.getLast?_concat]
    rw [ending, last, own]
    rfl

/-- Of two pairs written one after the other the last one stays, and the first leaves no trace. -/
theorem withPair_withPair (single : cut? (erase raw) = none)
    (spelled : Coordinates.Pair.Spells p pair) (other : List Char) :
    withPair (withPair raw pair) other = withPair raw other := by
  rw [withPair, base_withPair single spelled, ending_withPair raw spelled, withPair]

theorem feed_not_mem_withPair (absent : '\n' ∉ raw) (missing : '\n' ∉ pair) :
    '\n' ∉ withPair raw pair := by
  have base : '\n' ∉ base raw := by
    intro member
    obtain ⟨tail, split, -⟩ := Text.trimEnd_split (erase raw)
    exact absent (Coordinates.erase_subset raw (split ▸ List.mem_append_left tail member))
  have ending : '\n' ∉ ending raw := by
    rw [Line.ending]
    split <;> simp
  simp [withPair, base, ending, missing]

theorem content_withPair (reads : read raw = .ok (some line))
    (front : ∃ c rest, line.text = c :: rest ∧ c ≠ byteOrderMark ∧ c ≠ '/') (x y : Int) :
    content (withPair raw (Coordinates.write x y)) = line.text ++ ' ' :: Coordinates.write x y ∧
      isSilent (line.text ++ ' ' :: Coordinates.write x y) = false := by
  obtain ⟨c, rest, text, mark, slash⟩ := front
  have nonempty : line.text ≠ [] := by simp [text]
  obtain ⟨marks, blanks, tail, split, allMarks, before, after⟩ := erase_split reads
  have core := trimmed_text reads
  have base : base raw = marks ++ blanks ++ line.text := by
    rw [Line.base, split]
    exact Text.trimEnd_append_of_last nonempty core.last after
  have whole : Trimmed (line.text ++ ' ' :: Coordinates.write x y) := by
    constructor
    · rw [List.head?_append_of_ne_nil _ nonempty]
      exact core.first
    · simp only [Coordinates.write, ← List.cons_append, ← List.append_assoc, List.getLast?_concat]
      intro c final
      obtain rfl := Option.some.inj final
      decide
  constructor
  · rw [withPair, base, List.append_assoc (marks ++ blanks) line.text]
    apply content_surround allMarks before whole _ (by simp) (blank_ending raw)
    simp [text, mark]
  · rw [text]
    exact isSilent_of_front slash

theorem short_ofInt {n : Int} (small : n.natAbs < Decimal.overflowBound) :
    (Coordinates.Numeral.ofInt n).digits.length ≤ maxDigits := by
  apply Coordinates.Numeral.length_ofInt_le _ (by decide)
  exact small.trans (by decide +kernel)

/-- A rewritten line is read with the new position and the statement it had. -/
theorem read_withPair (reads : read raw = .ok (some line)) (single : cut? (erase raw) = none)
    (front : ∃ c rest, line.text = c :: rest ∧ c ≠ byteOrderMark ∧ c ≠ '/') {x y : Int}
    (smallX : x.natAbs < Decimal.overflowBound) (smallY : y.natAbs < Decimal.overflowBound) :
    read (withPair raw (Coordinates.write x y)) = .ok (some ⟨some (x, y), line.text⟩) := by
  obtain ⟨content, speaks⟩ := content_withPair reads front x y
  have found := Coordinates.cut?_append_pair ((cut?_text_eq_none_iff reads).mpr single)
    (Coordinates.write_spells x y)
  have kept : Text.trim (line.text ++ [' ']) = line.text := by
    rw [Text.trim_append_blank (AllBlank.singleton (by decide)),
      Text.trim_of_trimmed (trimmed_text reads)]
  rw [← content] at speaks found
  refine (read_of_cut speaks found).mpr ⟨short_ofInt smallX, short_ofInt smallY, ?_⟩
  simp only [Coordinates.Numeral.value_ofInt, Coordinates.Cut.rest, List.append_nil, kept]

end Line
end EERDiagram
