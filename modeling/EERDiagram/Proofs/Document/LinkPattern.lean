import EERDiagram.Proofs.Document.Segmentation

/-! The label and the style of a link by patterns: the label is the first text in double quotes that
is not empty, and the line is double if `[total]` or `[double]` stands anywhere. The statement is
read token by token, and a word may hold quotes and brackets, so the two agree only where these
stand around tokens. -/
namespace EERDiagram

open Text (AllBlank isBlank)

section Infix

variable {α : Type} {mark xs ys : List α} {b : α}

theorem infix_append_separated (apart : b ∉ mark) :
    mark <:+: xs ++ b :: ys ↔ mark <:+: xs ∨ mark <:+: ys := by
  constructor
  · intro inside
    rcases List.infix_append_iff.mp inside with left | right | ⟨front, back, rfl, ends, begins⟩
    · exact .inl left
    · rcases List.infix_cons_iff.mp right with begins | right
      · cases mark with
        | nil => exact .inr List.nil_infix
        | cons a others =>
          obtain rfl := (List.cons_prefix_cons.mp begins).1
          simp at apart
      · exact .inr right
    · cases back with
      | nil =>
        rw [List.append_nil]
        exact .inl ends.isInfix
      | cons a others =>
        obtain rfl := (List.cons_prefix_cons.mp begins).1
        simp at apart
  · rintro (left | right)
    · exact left.trans (List.prefix_append xs _).isInfix
    · exact right.trans ((List.suffix_cons b ys).trans (List.suffix_append xs _)).isInfix

theorem infix_append_of_apart (apart : ∀ c ∈ xs, c ∉ mark) (nonempty : mark ≠ []) :
    mark <:+: xs ++ ys ↔ mark <:+: ys := by
  induction xs with
  | nil => rfl
  | cons b rest ih =>
    rw [List.forall_mem_cons] at apart
    have first : mark <:+: [] ++ b :: (rest ++ ys) ↔ _ := infix_append_separated apart.1
    rw [List.nil_append, List.infix_nil, or_iff_right nonempty] at first
    rw [List.cons_append, first, ih apart.2]

theorem infix_append_ended (last : b ∉ mark) :
    mark ++ [b] <:+: xs ++ [b] ++ ys ↔ mark ++ [b] <:+: xs ++ [b] ∨ mark ++ [b] <:+: ys := by
  constructor
  · intro inside
    rcases List.infix_append_iff.mp inside with left | right | ⟨front, back, split, ends, begins⟩
    · exact .inl left
    · exact .inr right
    · rcases List.suffix_concat_iff.mp ends with rfl | ⟨first, rfl, -⟩
      · exact .inr (split ▸ begins.isInfix)
      · rcases List.eq_nil_or_concat' back with rfl | ⟨others, a, rfl⟩
        · rw [List.append_nil] at split
          exact .inl (split ▸ ends.isInfix)
        · rw [← List.append_assoc, List.append_singleton_inj] at split
          simp [split.1] at last
  · rintro (left | right)
    · exact left.trans (List.prefix_append _ ys).isInfix
    · exact right.trans (List.suffix_append _ ys).isInfix

end Infix

structure Quoted (text before content after : List Char) : Prop where
  split : text = before ++ '"' :: content ++ '"' :: after
  nonempty : content ≠ []
  unquoted : '"' ∉ content

/-- No other begins before it. -/
structure FirstQuoted (text before content after : List Char) : Prop
    extends Quoted text before content after where
  first : ∀ lead other rest, Quoted text lead other rest → before.length ≤ lead.length

section Quoted

variable {text before content after : List Char}

theorem Quoted.exists_first (quoted : Quoted text before content after) :
    ∃ before content after, FirstQuoted text before content after := by
  induction size : before.length using Nat.strongRecOn generalizing before content after with
  | ind n ih =>
    by_cases earlier : ∃ lead other rest, Quoted text lead other rest ∧ lead.length < n
    · obtain ⟨lead, other, rest, quoted, less⟩ := earlier
      exact ih lead.length less quoted rfl
    · refine ⟨before, content, after, quoted, fun lead other rest quoted => ?_⟩
      rw [size]
      exact Nat.le_of_not_lt fun less => earlier ⟨lead, other, rest, quoted, less⟩

theorem Quoted.first_of_not_mem (quoted : Quoted text before content after)
    (absent : '"' ∉ before) : FirstQuoted text before content after where
  toQuoted := quoted
  first lead other rest earlier := by
    by_contra less
    have opens : text[lead.length]? = some '"' := by simp [earlier.split]
    rw [quoted.split, List.append_assoc, List.getElem?_append_left (by omega)] at opens
    exact absent (List.mem_of_getElem? opens)

theorem FirstQuoted.unique (one : FirstQuoted text before content after)
    (two : FirstQuoted text lead other rest) : before = lead ∧ content = other := by
  have level : before.length = lead.length :=
    Nat.le_antisymm (one.first _ _ _ two.toQuoted) (two.first _ _ _ one.toQuoted)
  have same := one.split.symm.trans two.split
  rw [List.append_assoc, List.append_assoc] at same
  obtain ⟨rfl, tails⟩ := List.append_inj same level
  have cut := Token.cutAt?_append one.unquoted after
  rw [show content ++ '"' :: after = other ++ '"' :: rest from (List.cons.inj tails).2,
    Token.cutAt?_append two.unquoted] at cut
  exact ⟨rfl, (Prod.mk.inj (Option.some.inj cut)).1.symm⟩

end Quoted

/-- A token with quotes and brackets at its ends only, and not an empty quotation. -/
def Token.Plain : Token → Prop
  | .word text => '"' ∉ text.toList ∧ '[' ∉ text.toList
  | .arrow => True
  | .quotation content => content ≠ "" ∧ '[' ∉ content.toList
  | .marker text => '"' ∉ text.toList ∧ '[' ∉ text.toList.tail

instance : DecidablePred Token.Plain
  | .word text => inferInstanceAs (Decidable ('"' ∉ text.toList ∧ '[' ∉ text.toList))
  | .arrow => isTrue trivial
  | .quotation content => inferInstanceAs (Decidable (content ≠ "" ∧ '[' ∉ content.toList))
  | .marker text => inferInstanceAs (Decidable ('"' ∉ text.toList ∧ '[' ∉ text.toList.tail))

theorem Token.Plain.quotation {token : Token} (plain : token.Plain) (held : '"' ∈ token.spelling) :
    ∃ content, token = .quotation content ∧ content ≠ "" := by
  cases token with
  | word text => exact absurd held plain.1
  | arrow => simp at held
  | quotation content => exact ⟨content, rfl, plain.1⟩
  | marker text => exact absurd held plain.1

namespace Statement

open Token (Piece Segmentation Fitting fitting_cons)

/-- `[total]` or `[double]` stands somewhere in a text. -/
def MentionsTotal (text : List Char) : Prop := ∃ mark ∈ doubleMarkers, mark.toList <:+: text

theorem plain_of_mark : ∀ mark ∈ doubleMarkers,
    mark.toList ≠ [] ∧ '"' ∉ mark.toList ∧ mark.toList.all (isBlank · = false) = true := by
  decide +kernel

theorem blank_not_mem_mark (member : mark ∈ doubleMarkers) (blank : isBlank c = true) :
    c ∉ mark.toList := by
  intro held
  have plain := List.all_eq_true.mp (plain_of_mark mark member).2.2 c held
  simp [blank] at plain

theorem ends_of_mark (member : mark ∈ doubleMarkers) :
    ∃ inside, mark.toList = '[' :: inside ++ [']'] ∧ ']' ∉ '[' :: inside := by
  rw [doubleMarkers, List.mem_cons, List.mem_singleton] at member
  rcases member with rfl | rfl
  · exact ⟨['t', 'o', 't', 'a', 'l'], by decide +kernel, by decide⟩
  · exact ⟨['d', 'o', 'u', 'b', 'l', 'e'], by decide +kernel, by decide⟩

/-- A mark does not reach from a token into what follows it. -/
theorem infix_piece_iff {p : Piece} {later : List Piece} (fits : p.Fits later)
    (member : mark ∈ doubleMarkers) :
    mark.toList <:+: (p :: later).flatMap Piece.text ↔
      mark.toList <:+: p.token.spelling ∨ mark.toList <:+: later.flatMap Piece.text := by
  obtain ⟨nonempty, unquoted, -⟩ := plain_of_mark mark member
  obtain ⟨inside, split, last⟩ := ends_of_mark member
  have gap : mark.toList <:+: p.gap ++ later.flatMap Piece.text ↔ _ := infix_append_of_apart
    (fun c blanks => blank_not_mem_mark member (fits.blank c blanks)) nonempty
  rw [List.flatMap_cons, Piece.text, List.append_assoc, ← gap]
  cases run : p.token.isRun with
  | true =>
    cases behind : p.gap with
    | nil => simp [fits.apart run behind, nonempty]
    | cons b others =>
      have blank := blank_not_mem_mark member (fits.blank b (by simp [behind]))
      have first : mark.toList <:+: [b] ++ (others ++ later.flatMap Piece.text) ↔ _ :=
        infix_append_of_apart (by simpa using blank) nonempty
      rw [List.cons_append, infix_append_separated blank, ← first, List.singleton_append]
  | false =>
    have formed := fits.formed
    cases token : p.token with
    | word | arrow => simp [token, Token.isRun] at run
    | quotation content =>
      have closed := @infix_append_separated Char mark.toList ('"' :: content.toList)
      rw [Token.spelling_quotation, List.append_assoc, List.singleton_append, closed unquoted,
        closed unquoted, List.infix_nil, or_iff_left nonempty]
    | marker text =>
      rw [token] at formed
      obtain ⟨held, whole, -⟩ := formed
      rw [Token.spelling_marker, whole, split]
      exact infix_append_ended last

theorem infix_pieces_iff {pieces : List Piece} (fit : Fitting pieces)
    (member : mark ∈ doubleMarkers) : mark.toList <:+: pieces.flatMap Piece.text ↔
      ∃ token ∈ pieces.map Piece.token, mark.toList <:+: token.spelling := by
  induction pieces with
  | nil => simp [(plain_of_mark mark member).1]
  | cons p later ih =>
    rw [fitting_cons] at fit
    rw [infix_piece_iff fit.1 member, ih fit.2, List.map_cons, List.exists_mem_cons_iff]

theorem mentionsTotal_iff {s : Segmentation} (proper : s.Proper) :
    MentionsTotal s.text ↔ ∃ token ∈ s.tokens, MentionsTotal token.spelling := by
  have inside : ∀ mark ∈ doubleMarkers, mark.toList <:+: s.text ↔
      ∃ token ∈ s.tokens, mark.toList <:+: token.spelling := by
    intro mark member
    have apart : ∀ c ∈ s.lead, c ∉ mark.toList := fun c blanks =>
      blank_not_mem_mark member (proper.lead c blanks)
    rw [Segmentation.text, infix_append_of_apart apart (plain_of_mark mark member).1]
    exact infix_pieces_iff proper.fits member
  constructor
  · rintro ⟨mark, member, held⟩
    obtain ⟨token, stands, part⟩ := (inside mark member).mp held
    exact ⟨token, stands, mark, member, part⟩
  · rintro ⟨token, stands, mark, member, part⟩
    exact ⟨mark, member, (inside mark member).mpr ⟨token, stands, part⟩⟩

/-- Label and style are those that the patterns have. -/
structure Patterned (text : List Char) (label : Option String) (style : LinkStyle) : Prop where
  label : ∀ content, label = some content ↔
    ∃ before after, FirstQuoted text before content.toList after
  style : style = .double ↔ MentionsTotal text

/-- A quotation of the text, behind its first three tokens. -/
def StandsBehind (text before content : List Char) : Prop :=
  ∃ s : Segmentation, s.Proper ∧ s.text = text ∧ ∃ front gap back,
    s.pieces = front ++ ⟨.quotation (String.ofList content), gap⟩ :: back ∧ 3 ≤ front.length ∧
      before = s.lead ++ front.flatMap Piece.text

theorem labelOf?_eq_some_iff : labelOf? token = some label ↔
    token = .quotation label ∧ label ≠ "" := by
  cases token with
  | quotation content =>
    by_cases empty : content = ""
    · simp [labelOf?, empty]
    · simp only [labelOf?, if_neg empty, Option.some.injEq, Token.quotation.injEq]
      exact ⟨fun same => ⟨same, same ▸ empty⟩, And.left⟩
  | word | arrow | marker => simp [labelOf?]

theorem isDoubleMarker_iff : isDoubleMarker token = true ↔
    ∃ mark ∈ doubleMarkers, token = .marker mark := by
  cases token <;> simp [isDoubleMarker]

theorem read_eq_link (reads : read text = .link source target label style) :
    ∃ command rest, Token.scan text = command :: .word source :: .word target :: rest ∧
      label = rest.findSome? labelOf? ∧
      style = if rest.any isDoubleMarker then .double else .solid := by
  rw [read] at reads
  cases tokens : Token.scan text with
  | nil => simp [tokens, ofTokens] at reads
  | cons command others =>
    simp only [tokens, ofTokens] at reads
    split at reads
    next kind _ =>
      rw [readNode.eq_def] at reads
      split at reads <;> contradiction
    next =>
      split at reads
      next kind _ =>
        rw [readHierarchy.eq_def] at reads
        split at reads <;> contradiction
      next =>
        split at reads
        next =>
          rw [readLink.eq_def] at reads
          split at reads
          next rest =>
            obtain ⟨rfl, rfl, rfl, rfl⟩ := Statement.link.inj reads
            exact ⟨command, rest, rfl, rfl, rfl⟩
          next => contradiction
        next => contradiction

section Reading

variable {s : Segmentation} {front back : List Piece} {gap text before content after : List Char}

theorem quoted_of_piece (proper : s.Proper)
    (split : s.pieces = front ++ ⟨.quotation label, gap⟩ :: back) (nonempty : label ≠ "") :
    Quoted s.text (s.lead ++ front.flatMap Piece.text) label.toList
      (gap ++ back.flatMap Piece.text) where
  split := by simp [Segmentation.text, split, Piece.text]
  nonempty empty := nonempty (String.toList_injective empty)
  unquoted := (proper.fits ⟨.quotation label, gap⟩ back (split ▸ List.suffix_append front _)).formed

theorem label_of_standsBehind (first : FirstQuoted text before content after)
    (stands : StandsBehind text before content) :
    ((Token.scan text).drop 3).findSome? labelOf? = some (String.ofList content) := by
  obtain ⟨s, proper, rfl, front, gap, back, split, three, rfl⟩ := stands
  have own : labelOf? (.quotation (String.ofList content)) = some (String.ofList content) :=
    labelOf?_eq_some_iff.mpr ⟨rfl, by simpa using first.nonempty⟩
  have none : ((front.map Piece.token).drop 3).findSome? labelOf? = none := by
    rw [List.findSome?_eq_none_iff]
    intro token member
    by_contra some
    obtain ⟨label, found⟩ := Option.ne_none_iff_exists'.mp some
    obtain ⟨same, nonempty⟩ := labelOf?_eq_some_iff.mp found
    obtain ⟨p, held, rfl⟩ := List.mem_map.mp (List.mem_of_mem_drop member)
    obtain ⟨lead, others, rfl⟩ := List.append_of_mem held
    have whole : s.pieces = lead ++ ⟨.quotation label, p.gap⟩ ::
        (others ++ ⟨.quotation (String.ofList content), gap⟩ :: back) := by
      rw [split, ← same]
      simp
    have earlier := quoted_of_piece proper whole nonempty
    have before := first.first _ _ _ earlier
    simp only [List.flatMap_append, List.flatMap_cons, Piece.text, same, Token.spelling_quotation,
      List.length_append, List.length_cons] at before
    omega
  rw [proper.scan_text, Segmentation.tokens, split, List.map_append,
    List.drop_append_of_le_length (by simpa using three), List.findSome?_append, none]
  simp [own]

theorem exists_quoted (found : ((Token.scan text).drop 3).findSome? labelOf? = some label) :
    ∃ before content after, Quoted text before content after := by
  obtain ⟨s, proper, rfl, tokens⟩ := Token.exists_segmentation text
  obtain ⟨token, member, found⟩ := List.exists_of_findSome?_eq_some found
  obtain ⟨rfl, nonempty⟩ := labelOf?_eq_some_iff.mp found
  rw [← tokens] at member
  obtain ⟨p, held, same⟩ := List.mem_map.mp (List.mem_of_mem_drop member)
  obtain ⟨front, back, split⟩ := List.append_of_mem held
  have whole : s.pieces = front ++ ⟨.quotation label, p.gap⟩ :: back := by rw [split, ← same]
  exact ⟨_, _, _, quoted_of_piece proper whole nonempty⟩

/-- The label of the tokens is the one of the pattern exactly when that is a quotation behind the
target, or the first quotation there has the same content. -/
theorem label_iff (behind : label = ((Token.scan text).drop 3).findSome? labelOf?) :
    (∀ content, label = some content ↔
        ∃ before after, FirstQuoted text before content.toList after) ↔
      ∀ before content after, FirstQuoted text before content after →
        ¬ StandsBehind text before content → label = some (String.ofList content) := by
  constructor
  · intro patterned before content after first _
    exact (patterned _).mpr ⟨before, after, by simpa using first⟩
  · intro repeated
    have honoured : ∀ before content after, FirstQuoted text before content after →
        label = some (String.ofList content) := by
      intro before content after first
      by_cases stands : StandsBehind text before content
      · exact behind.trans (label_of_standsBehind first stands)
      · exact repeated before content after first stands
    intro content
    constructor
    · intro found
      obtain ⟨_, _, _, quoted⟩ := exists_quoted (behind.symm.trans found)
      obtain ⟨before, held, after, first⟩ := quoted.exists_first
      have same := Option.some.inj (found.symm.trans (honoured before held after first))
      exact ⟨before, after, by simpa [same] using first⟩
    · rintro ⟨before, after, first⟩
      simpa using honoured before content.toList after first

/-- The style of the tokens is the one of the pattern exactly when every mention of total
participation comes with a marker of it behind the target. -/
theorem style_iff {style : LinkStyle}
    (behind : style = .double ↔ ((Token.scan text).drop 3).any isDoubleMarker = true) :
    (style = .double ↔ MentionsTotal text) ↔
      ∀ token ∈ Token.scan text, MentionsTotal token.spelling →
        ((Token.scan text).drop 3).any isDoubleMarker = true := by
  rw [behind]
  obtain ⟨s, proper, rfl, tokens⟩ := Token.exists_segmentation text
  rw [mentionsTotal_iff proper, tokens]
  constructor
  · intro same token member mentions
    exact same.mpr ⟨token, member, mentions⟩
  · intro held
    refine ⟨fun double => ?_, fun ⟨token, member, mentions⟩ => held token member mentions⟩
    obtain ⟨token, member, double⟩ := List.any_eq_true.mp double
    obtain ⟨mark, known, rfl⟩ := isDoubleMarker_iff.mp double
    exact ⟨.marker mark, List.mem_of_mem_drop member, mark, known, List.infix_rfl⟩

theorem first_quotation_of_plain (proper : s.Proper) (plain : ∀ token ∈ s.tokens, token.Plain)
    (opens : '"' ∈ s.text) : ∃ front label gap back,
      s.pieces = front ++ ⟨.quotation label, gap⟩ :: back ∧ label ≠ "" ∧
        '"' ∉ s.lead ++ front.flatMap Piece.text := by
  have lead : '"' ∉ s.lead := fun blank => absurd (proper.lead _ blank) (by decide)
  have held : ∃ p ∈ s.pieces, '"' ∈ p.token.spelling := by
    have later := (List.mem_append.mp opens).resolve_left lead
    simpa using (Token.mem_pieces_iff (by decide) proper.fits.blank).mp later
  cases found : s.pieces.find? fun p => decide ('"' ∈ p.token.spelling) with
  | none =>
    obtain ⟨p, member, held⟩ := held
    simpa [held] using List.find?_eq_none.mp found p member
  | some p =>
    obtain ⟨quoted, front, back, split, free⟩ := List.find?_eq_some_iff_append.mp found
    have member : p.token ∈ s.tokens := List.mem_map_of_mem (by simp [split])
    obtain ⟨label, same, nonempty⟩ := (plain p.token member).quotation (by simpa using quoted)
    have gaps : ∀ q ∈ front, AllBlank q.gap := fun q stands =>
      proper.fits.blank q (by simp [split, stands])
    refine ⟨front, label, p.gap, back, by rw [split, ← same], nonempty, ?_⟩
    rw [List.mem_append, not_or, Token.mem_pieces_iff (by decide) gaps]
    exact ⟨lead, by simpa using free⟩

theorem three_le_of_words (split : s.pieces = front ++ ⟨.quotation label, gap⟩ :: back)
    (words : s.tokens = .word command :: .word source :: .word target :: rest) :
    3 ≤ front.length := by
  rw [Segmentation.tokens, split, List.map_append, List.map_cons] at words
  by_contra short
  rcases front with _ | ⟨one, _ | ⟨two, _ | ⟨three, more⟩⟩⟩
  · simp at words
  · simp at words
  · simp at words
  · simp at short

theorem standsBehind_of_plain (plain : ∀ token ∈ Token.scan text, token.Plain)
    (words : Token.scan text = .word command :: .word source :: .word target :: rest)
    (first : FirstQuoted text before content after) : StandsBehind text before content := by
  obtain ⟨s, proper, rfl, tokens⟩ := Token.exists_segmentation text
  rw [← tokens] at plain words
  obtain ⟨front, label, gap, back, split, nonempty, absent⟩ :=
    first_quotation_of_plain proper plain (by simp [first.split])
  obtain ⟨rfl, rfl⟩ :=
    first.unique ((quoted_of_piece proper split nonempty).first_of_not_mem absent)
  exact ⟨s, proper, rfl, front, gap, back, by rw [split, String.ofList_toList],
    three_le_of_words split words, rfl⟩

theorem marker_of_plain (plain : ∀ token ∈ Token.scan text, token.Plain)
    (member : token ∈ Token.scan text) (mentions : MentionsTotal token.spelling) :
    isDoubleMarker token = true := by
  obtain ⟨s, proper, rfl, tokens⟩ := Token.exists_segmentation text
  rw [← tokens] at plain member
  obtain ⟨mark, known, inside⟩ := mentions
  obtain ⟨held, split, last⟩ := ends_of_mark known
  have opens : '[' ∈ token.spelling := inside.subset (by simp [split])
  have bare := plain token member
  have formed := proper.formed token member
  cases token with
  | word text => exact absurd opens bare.2
  | arrow => simp at opens
  | quotation content =>
    have apart := bare.2
    simp [apart] at opens
  | marker text =>
    -- the mark stands at the front, for it has a bracket, and so it is all of the marker
    obtain ⟨own, whole, closed⟩ := formed
    have bare := bare.2
    rw [Token.spelling_marker, whole, split] at inside
    rw [whole] at bare
    rcases List.infix_cons_iff.mp inside with begins | within
    · have rest : held ++ [']'] <+: own ++ [']'] := (List.cons_prefix_cons.mp begins).2
      rcases List.prefix_concat_iff.mp rest with same | shorter
      · have texts : text = mark := String.toList_injective (by
          rw [whole, split, List.cons_append, List.cons_append, same])
        exact isDoubleMarker_iff.mpr ⟨mark, known, by rw [texts]⟩
      · exact absurd (shorter.subset (by simp)) closed
    · exact absurd (within.subset (by simp)) bare

theorem doubled_of_plain (plain : ∀ token ∈ Token.scan text, token.Plain)
    (words : Token.scan text = .word command :: .word source :: .word target :: rest)
    (member : token ∈ Token.scan text) (mentions : MentionsTotal token.spelling) :
    ((Token.scan text).drop 3).any isDoubleMarker = true := by
  have marker := marker_of_plain plain member mentions
  rw [words] at member ⊢
  simp only [List.mem_cons] at member
  -- a word is no marker, so the token is none of the first three
  rcases member with rfl | rfl | rfl | behind
  · contradiction
  · contradiction
  · contradiction
  · exact List.any_eq_true.mpr ⟨token, behind, marker⟩

end Reading

/-- The label and the style of a link are those of the patterns exactly when what the pattern of the
label finds is a quotation behind the target, or the first quotation there repeats it, and when no
token mentions total participation unless one behind the target is a marker of it. So they are
where quotes and brackets stand around tokens only. -/
theorem patterned_iff (reads : read text = .link source target label style) :
    (Patterned text label style ↔
      (∀ before content after, FirstQuoted text before content after →
        ¬ StandsBehind text before content → label = some (String.ofList content)) ∧
      ∀ token ∈ Token.scan text, MentionsTotal token.spelling →
        ((Token.scan text).drop 3).any isDoubleMarker = true) ∧
    ((∀ token ∈ Token.scan text, token.Plain) →
      (∃ command, (Token.scan text).head? = some (.word command)) →
        Patterned text label style) := by
  obtain ⟨first, rest, tokens, label', style'⟩ := read_eq_link reads
  have behind : (Token.scan text).drop 3 = rest := by
    rw [tokens]
    rfl
  have labels : label = ((Token.scan text).drop 3).findSome? labelOf? := by rw [behind, label']
  have double : style = .double ↔ ((Token.scan text).drop 3).any isDoubleMarker = true := by
    rw [behind, style']
    cases rest.any isDoubleMarker <;> simp
  constructor
  · rw [← label_iff labels, ← style_iff double]
    exact ⟨fun patterned => ⟨patterned.label, patterned.style⟩, fun both => ⟨both.1, both.2⟩⟩
  · rintro plain ⟨command, word⟩
    obtain rfl : first = .word command := by simpa [tokens] using word
    refine ⟨(label_iff labels).mpr ?_, (style_iff double).mpr ?_⟩
    · intro before content after found elsewhere
      exact absurd (standsBehind_of_plain plain tokens found) elsewhere
    · intro token member mentions
      exact doubled_of_plain plain tokens member mentions

/-- A marker that touches the label. -/
theorem patterned_iff_adjacent :
    read "link A B \"N\"[total]".toList = .link "A" "B" (some "N") .double ∧
      Patterned "link A B \"N\"[total]".toList (some "N") .double := by
  have reads : read "link A B \"N\"[total]".toList = .link "A" "B" (some "N") .double := by
    decide +kernel
  have plain : ∀ token ∈ Token.scan "link A B \"N\"[total]".toList, token.Plain := by
    decide +kernel
  exact ⟨reads, (patterned_iff reads).2 plain ⟨"link", by decide +kernel⟩⟩

/-- A label and a marker that touch the target are part of it. -/
theorem patterns_missed_touching :
    read "link A B\"N\"[total]".toList = .link "A" "B\"N\"[total]" none .solid ∧
      FirstQuoted "link A B\"N\"[total]".toList "link A B".toList "N".toList "[total]".toList ∧
      MentionsTotal "link A B\"N\"[total]".toList ∧
      ¬ Patterned "link A B\"N\"[total]".toList none .solid := by
  have quoted :
      Quoted "link A B\"N\"[total]".toList "link A B".toList "N".toList "[total]".toList :=
    ⟨by decide +kernel, by decide +kernel, by decide +kernel⟩
  have mentions : MentionsTotal "link A B\"N\"[total]".toList :=
    ⟨"[total]", by decide, "link A B\"N\"".toList, [], by decide +kernel⟩
  refine ⟨by decide +kernel, quoted.first_of_not_mem (by decide +kernel), mentions, ?_⟩
  intro patterned
  exact absurd (patterned.style.mpr mentions) (by decide)

end Statement
end EERDiagram
