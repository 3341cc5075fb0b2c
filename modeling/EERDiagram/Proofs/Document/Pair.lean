import EERDiagram.Proofs.Document.Numeral
import EERDiagram.Proofs.Fallible

/-! The coordinate pair of a line. A pair is recognised exactly where a text spells one, and a
spelling has its parentheses at its two ends only, so text around a line or after it changes
nothing about the pairs inside. -/
namespace EERDiagram.Coordinates

open Text (AllBlank)

/-- How a pair may be spelled. No blank stands before the comma. -/
def Pair.Spells (p : Pair) (s : List Char) : Prop :=
  ∃ a x b y c, AllBlank a ∧ AllBlank b ∧ AllBlank c ∧ p.x.Spells x ∧ p.y.Spells y ∧
    s = '(' :: (a ++ x ++ ',' :: (b ++ y ++ (c ++ [')'])))

theorem after?_eq_some : after? mark s = some rest ↔ s = mark :: rest := by
  cases s with
  | nil => simp [after?]
  | cons c others =>
    simp only [after?]
    split
    next same => simp [same]
    next other => simp [other]

@[simp] theorem after?_self : after? mark (mark :: rest) = some rest := after?_eq_some.mpr rfl

/-- A numeral consists of digits and a sign, so it has no blank at its front. -/
theorem Numeral.Spells.characters (spelled : Numeral.Spells n s) :
    ∀ c ∈ s, c = '-' ∨ Text.isDigit c = true := by
  obtain ⟨-, digits, rfl, values⟩ := spelled
  intro c member
  rcases List.mem_append.mp member with sign | digit
  · split at sign
    · exact .inl (List.mem_singleton.mp sign)
    · simp at sign
  · exact .inr (isDigit_of_values values c digit)

theorem Numeral.Spells.trimStart_append (spelled : Numeral.Spells n s) (blank : AllBlank lead) :
    Text.trimStart (lead ++ s ++ rest) = s ++ rest := by
  rw [List.append_assoc, Text.trimStart_blank_append blank]
  apply Text.trimStart_of_first
  intro c front
  have nonempty : s ≠ [] := by
    obtain ⟨some, digits, rfl, values⟩ := spelled
    intro empty
    rw [(List.append_eq_nil_iff.mp empty).2] at values
    exact some (by simpa using values.symm)
  obtain ⟨first, others, rfl⟩ := List.exists_cons_of_ne_nil nonempty
  obtain rfl : first = c := by simpa using front
  rcases spelled.characters first List.mem_cons_self with rfl | digit
  · decide
  · exact Text.not_blank_of_isDigit digit

theorem trimStart_append_mark (blank : AllBlank lead) (mark : Text.isBlank c = false) :
    Text.trimStart (lead ++ c :: rest) = c :: rest := by
  rw [Text.trimStart_blank_append blank]
  exact Text.trimStart_of_first (by simpa using mark)

theorem Pair.read?_eq_some_iff :
    Pair.read? s = some (p, rest) ↔ ∃ text, p.Spells text ∧ s = text ++ rest := by
  constructor
  · intro read
    simp only [Pair.read?, Option.bind_eq_bind, Option.bind_eq_some_iff, Option.pure_def,
      Option.some.injEq, Prod.mk.injEq, Prod.exists, after?_eq_some] at read
    obtain ⟨s1, rfl, x, s2, readX, s3, rfl, y, s4, readY, s5, close, rfl, rfl⟩ := read
    obtain ⟨textX, spelledX, splitX⟩ := Numeral.spells_of_read? readX
    obtain ⟨textY, spelledY, splitY⟩ := Numeral.spells_of_read? readY
    obtain ⟨a, splitA, blankA⟩ := Text.trimStart_split s1
    obtain ⟨b, splitB, blankB⟩ := Text.trimStart_split s3
    obtain ⟨c, splitC, blankC⟩ := Text.trimStart_split s4
    refine ⟨_, ⟨a, textX, b, textY, c, blankA, blankB, blankC, spelledX, spelledY, rfl⟩, ?_⟩
    rw [splitA, splitX, splitB, splitY, splitC, close]
    simp
  · rintro ⟨_, ⟨a, x, b, y, c, blankA, blankB, blankC, spelledX, spelledY, rfl⟩, rfl⟩
    have comma : Text.isDigit ',' = false := by decide
    have parenthesis : Text.isDigit ')' = false := by decide
    have ends : ∀ d ∈ (c ++ ')' :: rest).head?, Text.isDigit d = false := by
      intro d front
      cases c with
      | nil =>
        obtain rfl : ')' = d := by simpa using front
        exact parenthesis
      | cons first others =>
        obtain rfl : first = d := by simpa using front
        have blank := blankC first List.mem_cons_self
        cases digit : Text.isDigit first with
        | false => rfl
        | true => simp [Text.not_blank_of_isDigit digit] at blank
    have readX : Numeral.read? (Text.trimStart (a ++ x ++ ',' :: (b ++ y ++ (c ++ ')' :: rest)))) =
        some (p.x, ',' :: (b ++ y ++ (c ++ ')' :: rest))) := by
      rw [spelledX.trimStart_append blankA]
      exact Numeral.read?_of_spells spelledX (by simpa using comma)
    have readY : Numeral.read? (Text.trimStart (b ++ y ++ (c ++ ')' :: rest))) =
        some (p.y, c ++ ')' :: rest) := by
      rw [spelledY.trimStart_append blankB]
      exact Numeral.read?_of_spells spelledY ends
    have close : after? ')' (Text.trimStart (c ++ ')' :: rest)) = some rest := by
      rw [trimStart_append_mark blankC (by decide)]
      rfl
    have shape : '(' :: (a ++ x ++ ',' :: (b ++ y ++ (c ++ [')']))) ++ rest =
        '(' :: (a ++ x ++ ',' :: (b ++ y ++ (c ++ ')' :: rest))) := by simp
    simp only [Pair.read?, shape, after?_self, Option.bind_eq_bind, Option.bind_some, readX, readY,
      close, Option.pure_def]

def inPair (c : Char) : Prop := Text.isBlank c = true ∨ c = '-' ∨ Text.isDigit c = true ∨ c = ','

theorem Pair.Spells.frame (spelled : Pair.Spells p s) :
    ∃ inner, s = '(' :: (inner ++ [')']) ∧ ∀ c ∈ inner, inPair c := by
  obtain ⟨a, x, b, y, c, blankA, blankB, blankC, spelledX, spelledY, rfl⟩ := spelled
  refine ⟨a ++ x ++ ',' :: (b ++ y ++ c), by simp, ?_⟩
  intro d member
  have numeral : ∀ {n : Numeral} {t}, n.Spells t → d ∈ t → inPair d := fun spelled member =>
    .inr ((spelled.characters d member).imp_right .inl)
  simp only [List.mem_append, List.mem_cons] at member
  rcases member with (member | member) | rfl | (member | member) | member
  · exact .inl (blankA d member)
  · exact numeral spelledX member
  · exact .inr (.inr (.inr rfl))
  · exact .inl (blankB d member)
  · exact numeral spelledY member
  · exact .inl (blankC d member)

theorem not_inPair_open : ¬ inPair '(' := by simp only [inPair]; decide

theorem Pair.read?_append (unclosed : ')' ∉ tail) :
    Pair.read? (s ++ tail) = (Pair.read? s).map fun (p, rest) => (p, rest ++ tail) := by
  cases read : Pair.read? s with
  | some found =>
    obtain ⟨text, spelled, rfl⟩ := Pair.read?_eq_some_iff.mp read
    exact Pair.read?_eq_some_iff.mpr ⟨text, spelled, by simp⟩
  | none =>
    rw [Option.map_none, Option.eq_none_iff_forall_ne_some]
    rintro ⟨p, rest⟩ longer
    obtain ⟨text, spelled, split⟩ := Pair.read?_eq_some_iff.mp longer
    rcases List.append_eq_append_iff.mp split with ⟨part, rfl, inTail⟩ | ⟨part, inside, -⟩
    · -- The pair would end in the tail, which has no closing parenthesis.
      obtain ⟨inner, frame, -⟩ := spelled.frame
      rcases List.eq_nil_or_concat part with rfl | ⟨init, last, rfl⟩
      · have : Pair.read? s = some (p, []) :=
          Pair.read?_eq_some_iff.mpr ⟨s, by simpa using spelled, by simp⟩
        rw [read] at this
        contradiction
      · have final := congrArg List.getLast? frame
        rw [← List.cons_append] at final
        simp only [List.concat_eq_append, ← List.append_assoc, List.getLast?_concat,
          Option.some.injEq] at final
        exact unclosed (by simp [inTail, final])
    · have : Pair.read? s = some (p, part) := Pair.read?_eq_some_iff.mpr ⟨text, spelled, inside⟩
      rw [read] at this
      contradiction

theorem Pair.read?_of_not_open (front : c ≠ '(') : Pair.read? (c :: rest) = none := by
  simp [Pair.read?, after?, front]

theorem Pair.read?_nil : Pair.read? [] = none := by simp [Pair.read?, after?]

theorem cut?_append_left (closed : '(' ∉ lead) :
    cut? (lead ++ s) = (cut? s).map fun cut => { cut with before := lead ++ cut.before } := by
  induction lead with
  | nil => simp
  | cons c rest ih =>
    simp only [List.mem_cons, not_or] at closed
    rw [List.cons_append, cut?, Pair.read?_of_not_open (Ne.symm closed.1), ih closed.2]
    simp [Function.comp_def]

theorem cut?_append_right (unclosed : ')' ∉ tail) :
    cut? (s ++ tail) = (cut? s).map fun cut => { cut with after := cut.after ++ tail } := by
  induction s with
  | nil =>
    have absent : ∀ t, ')' ∉ t → cut? t = none := by
      intro t
      induction t with
      | nil => intro _; rfl
      | cons c rest ih =>
        intro missing
        have front := Pair.read?_append (s := []) missing
        rw [List.nil_append, Pair.read?_nil, Option.map_none] at front
        rw [cut?, front, ih fun member => missing (List.mem_cons_of_mem _ member)]
        rfl
    simpa [cut?] using absent tail unclosed
  | cons c rest ih =>
    rw [List.cons_append, cut?, ← List.cons_append, Pair.read?_append unclosed, cut?]
    cases Pair.read? (c :: rest) with
    | some found => rfl
    | none =>
      rw [Option.map_none, ih]
      cases cut? rest <;> rfl

/-- A text that opens a parenthesis after its first character reads no pair that reaches beyond
the text, since a pair has none inside. -/
theorem Pair.read?_append_of_open (none : Pair.read? (c :: rest) = none) (opens : '(' ∈ rest) :
    Pair.read? (c :: rest ++ tail) = .none := by
  rw [Option.eq_none_iff_forall_ne_some]
  rintro ⟨p, after⟩ read
  obtain ⟨text, spelled, split⟩ := Pair.read?_eq_some_iff.mp read
  rcases List.append_eq_append_iff.mp split with ⟨part, past, -⟩ | ⟨part, inside, -⟩
  · obtain ⟨inner, frame, marks⟩ := spelled.frame
    have body : rest ++ part = inner ++ [')'] := (List.cons.inj (past.symm.trans frame)).2
    have member : '(' ∈ inner ++ [')'] := body ▸ List.mem_append_left part opens
    rcases List.mem_append.mp member with inside | close
    · exact not_inPair_open (marks _ inside)
    · simp at close
  · have : Pair.read? (c :: rest) = some (p, part) :=
      Pair.read?_eq_some_iff.mpr ⟨text, spelled, inside⟩
    rw [none] at this
    contradiction

theorem cut?_eq_none_cons (none : cut? (c :: rest) = none) :
    Pair.read? (c :: rest) = .none ∧ cut? rest = .none := by
  rw [cut?] at none
  split at none
  · contradiction
  next missing => exact ⟨missing, Option.map_eq_none_iff.mp none⟩

theorem cut?_append_pair (none : cut? s = none) (spelled : Pair.Spells p text) :
    cut? (s ++ ' ' :: text) = some ⟨s ++ [' '], p, []⟩ := by
  obtain ⟨inner, rfl, -⟩ := spelled.frame
  induction s with
  | nil =>
    have read : Pair.read? ('(' :: (inner ++ [')'])) = some (p, []) :=
      Pair.read?_eq_some_iff.mpr ⟨_, spelled, by simp⟩
    rw [List.nil_append, cut?, Pair.read?_of_not_open (by decide)]
    simp only [cut?, read, Option.map_some, List.nil_append]
  | cons c rest ih =>
    obtain ⟨missing, absent⟩ := cut?_eq_none_cons none
    -- up to the opening parenthesis nothing can close a pair, and no pair goes over it
    have opened : Pair.read? (c :: (rest ++ [' ', '('])) = .none := by
      rw [← List.cons_append, Pair.read?_append (by decide), missing, Option.map_none]
    have longer : Pair.read? (c :: (rest ++ [' ', '(']) ++ (inner ++ [')'])) = .none :=
      Pair.read?_append_of_open opened (by simp)
    have shape : c :: (rest ++ [' ', '(']) ++ (inner ++ [')']) =
        c :: (rest ++ ' ' :: '(' :: (inner ++ [')'])) := by simp
    rw [List.cons_append, cut?, ← shape, longer, ih absent]
    rfl

theorem cut?_split (found : cut? s = some cut) :
    ∃ text, cut.pair.Spells text ∧ s = cut.before ++ text ++ cut.after := by
  induction s generalizing cut with
  | nil => contradiction
  | cons c rest ih =>
    rw [cut?] at found
    split at found
    next pair after read =>
      obtain rfl := Option.some.inj found
      exact Pair.read?_eq_some_iff.mp read
    next =>
      obtain ⟨inner, inside, rfl⟩ := Option.map_eq_some_iff.mp found
      obtain ⟨text, spelled, rfl⟩ := ih inside
      exact ⟨text, spelled, rfl⟩

theorem open_mem_of_cut? (found : cut? s = some cut) : '(' ∈ s := by
  obtain ⟨text, spelled, rfl⟩ := cut?_split found
  obtain ⟨inner, rfl, -⟩ := spelled.frame
  simp

/-- The first pair of a text is the first one whatever follows. -/
theorem cut?_append_of_some (found : cut? s = some cut) :
    cut? (s ++ tail) = some { cut with after := cut.after ++ tail } := by
  induction s generalizing cut with
  | nil => contradiction
  | cons c rest ih =>
    have parts := found
    rw [cut?] at parts
    split at parts
    next pair after read =>
      obtain rfl := Option.some.inj parts
      obtain ⟨text, spelled, split⟩ := Pair.read?_eq_some_iff.mp read
      have longer : Pair.read? (c :: rest ++ tail) = some (pair, after ++ tail) :=
        Pair.read?_eq_some_iff.mpr ⟨text, spelled, by rw [split, List.append_assoc]⟩
      rw [List.cons_append] at longer ⊢
      simp only [cut?, longer]
    next missing =>
      obtain ⟨inner, inside, rfl⟩ := Option.map_eq_some_iff.mp parts
      have longer : Pair.read? (c :: rest ++ tail) = .none :=
        Pair.read?_append_of_open missing (open_mem_of_cut? inside)
      rw [List.cons_append] at longer ⊢
      rw [cut?, longer, ih inside]
      rfl

theorem write_spells (x y : Int) : Pair.Spells ⟨.ofInt x, .ofInt y⟩ (write x y) :=
  ⟨[], writeInteger x, [' '], writeInteger y, [], AllBlank.nil,
    AllBlank.singleton (by decide), AllBlank.nil, Numeral.ofInt_spells x, Numeral.ofInt_spells y,
    by simp [write]⟩

theorem cut?_subset (found : cut? s = some cut) : cut.rest ⊆ s := by
  obtain ⟨text, -, rfl⟩ := cut?_split found
  intro c member
  rcases List.mem_append.mp member with before | after
  · simp [before]
  · simp [after]

theorem erase_subset (s : List Char) : erase s ⊆ s := by
  rw [erase]
  split
  next cut found => exact cut?_subset found
  next => exact List.Subset.refl s

theorem feed_not_mem_write (x y : Int) : '\n' ∉ write x y := by
  have absent : ∀ n : Int, '\n' ∉ writeInteger n := by
    intro n member
    rcases (Numeral.ofInt_spells n).characters _ member with minus | digit
    · exact absurd minus (by decide)
    · exact absurd digit (by decide)
  simp [write, absent x, absent y]

theorem erase_surround (closed : '(' ∉ lead) (unclosed : ')' ∉ tail) :
    erase (lead ++ s ++ tail) = lead ++ erase s ++ tail := by
  rw [erase, cut?_append_right unclosed, cut?_append_left closed, erase]
  cases cut? s with
  | none => rfl
  | some cut => simp [Cut.rest]

theorem cut?_surround_eq_none (closed : '(' ∉ lead) (unclosed : ')' ∉ tail) :
    cut? (lead ++ s ++ tail) = none ↔ cut? s = none := by
  rw [cut?_append_right unclosed, cut?_append_left closed]
  simp

/-- The first pair of a text, between what stands before it and what stands after it. No pair
begins before it. -/
structure FirstPair (s before pair after : List Char) : Prop where
  split : s = before ++ pair ++ after
  spelled : ∃ p, Pair.Spells p pair
  first : ∀ lead other rest p, s = lead ++ other ++ rest → Pair.Spells p other →
    before.length ≤ lead.length

/-- What is left of a text without its first pair; all of it when it has none. -/
inductive Bared (s : List Char) : List Char → Prop where
  | pair : FirstPair s before pair after → Bared s (before ++ after)
  | none : (∀ before pair after p, s = before ++ pair ++ after → ¬ Pair.Spells p pair) → Bared s s

theorem cut?_of_spells (spelled : Pair.Spells p text) (split : s = before ++ text ++ after) :
    ∃ cut, cut? s = some cut ∧ cut.before.length ≤ before.length := by
  induction before generalizing s with
  | nil =>
    have read : Pair.read? s = some (p, after) := Pair.read?_eq_some_iff.mpr ⟨text, spelled, split⟩
    cases s with
    | nil => simp [Pair.read?_nil] at read
    | cons c rest => exact ⟨⟨[], p, after⟩, by simp only [cut?, read], Nat.le_refl _⟩
  | cons c rest ih =>
    subst split
    simp only [List.cons_append, cut?]
    cases Pair.read? (c :: (rest ++ text ++ after)) with
    | some found => exact ⟨_, rfl, Nat.zero_le _⟩
    | none =>
      obtain ⟨cut, found, earlier⟩ := ih rfl
      exact ⟨{ cut with before := c :: cut.before }, by simp only [found, Option.map_some],
        Nat.succ_le_succ earlier⟩

theorem firstPair_of_cut? (found : cut? s = some cut) :
    ∃ pair, FirstPair s cut.before pair cut.after ∧ cut.pair.Spells pair := by
  obtain ⟨text, spelled, split⟩ := cut?_split found
  refine ⟨text, ⟨split, ⟨_, spelled⟩, fun lead other rest p elsewhere spelled => ?_⟩, spelled⟩
  obtain ⟨own, same, earlier⟩ := cut?_of_spells spelled elsewhere
  rw [found] at same
  exact Option.some.inj same ▸ earlier

theorem Pair.Spells.unique (one : Pair.Spells p s) (two : Pair.Spells q t)
    (same : s ++ rest = t ++ tail) : s = t ∧ p = q := by
  have read : Pair.read? (s ++ rest) = some (p, rest) := Pair.read?_eq_some_iff.mpr ⟨s, one, rfl⟩
  have again : Pair.read? (s ++ rest) = some (q, tail) :=
    Pair.read?_eq_some_iff.mpr ⟨t, two, same⟩
  obtain ⟨rfl, rfl⟩ := Prod.mk.inj (Option.some.inj (read.symm.trans again))
  exact ⟨List.append_cancel_right same, rfl⟩

theorem FirstPair.unique (one : FirstPair s before pair after) (two : FirstPair s lead other rest) :
    before = lead ∧ pair = other ∧ after = rest := by
  obtain ⟨p, spelled⟩ := one.spelled
  obtain ⟨q, spelt⟩ := two.spelled
  have level : before.length = lead.length :=
    Nat.le_antisymm (one.first lead other rest q two.split spelt)
      (two.first before pair after p one.split spelled)
  have same := one.split.symm.trans two.split
  rw [List.append_assoc, List.append_assoc] at same
  obtain ⟨rfl, tails⟩ := List.append_inj same level
  obtain ⟨rfl, -⟩ := spelled.unique spelt tails
  exact ⟨rfl, rfl, List.append_cancel_left tails⟩

/-- Taking out the first pair leaves the text without it, and nothing else is that. -/
theorem bared_iff : Bared s rest ↔ rest = erase s := by
  cases found : cut? s with
  | none =>
    have bare : ∀ before pair after p, s = before ++ pair ++ after → ¬ Pair.Spells p pair := by
      intro before pair after p split spelled
      obtain ⟨cut, some, -⟩ := cut?_of_spells spelled split
      rw [found] at some
      contradiction
    simp only [erase, found]
    constructor
    · rintro (first | -)
      · obtain ⟨p, spelled⟩ := first.spelled
        exact absurd spelled (bare _ _ _ p first.split)
      · rfl
    · rintro rfl
      exact .none bare
  | some cut =>
    obtain ⟨pair, first, -⟩ := firstPair_of_cut? found
    simp only [erase, found, Cut.rest]
    constructor
    · rintro (other | bare)
      · obtain ⟨rfl, -, rfl⟩ := other.unique first
        rfl
      · obtain ⟨p, spelled⟩ := first.spelled
        exact absurd spelled (bare _ _ _ p first.split)
    · rintro rfl
      exact .pair first

end EERDiagram.Coordinates
