import EERDiagram.Document.Statement
import EERDiagram.Proofs.Document.Scanning

/-! Segmentations. A text is its tokens with blanks before, between and behind them, and that in
one way only. So the tokens of a text do not depend on how far apart they stand. -/
namespace EERDiagram.Token

open Text (AllBlank isBlank)

/-- A token as it stands in a text. -/
def spelling : Token → List Char
  | .quotation content => '"' :: content.toList ++ ['"']
  | token => token.text.toList

@[simp] theorem spelling_word (text : String) : (word text).spelling = text.toList := rfl

@[simp] theorem spelling_arrow : arrow.spelling = ['-', '>'] := rfl

@[simp] theorem spelling_quotation (content : String) :
    (quotation content).spelling = '"' :: content.toList ++ ['"'] := rfl

@[simp] theorem spelling_marker (text : String) : (marker text).spelling = text.toList := rfl

/-- Tokens that nothing but a blank or the end of the text ends. -/
def isRun : Token → Bool
  | .word _ | .arrow => true
  | _ => false

def Formed : Token → Prop
  | .word text => text ≠ "" ∧ text ≠ "->" ∧ ∀ c ∈ text.toList, isBlank c = false
  | .arrow => True
  | .quotation content => '"' ∉ content.toList
  | .marker text => ∃ inside, text.toList = '[' :: inside ++ [']'] ∧ ']' ∉ inside

/-- The marks that open a quotation and a marker, each with the one that closes it. -/
def delimiters : List (Char × Char) := [('"', '"'), ('[', ']')]

@[ext] structure Piece where
  token : Token
  gap : List Char

def Piece.text (p : Piece) : List Char := p.token.spelling ++ p.gap

/-- A piece that may stand before others. A word begins like a quotation or a marker only if
nothing behind its first character would close that. -/
structure Piece.Fits (p : Piece) (later : List Piece) : Prop where
  blank : AllBlank p.gap
  formed : p.token.Formed
  apart : p.token.isRun = true → p.gap = [] → later = []
  unclosed : ∀ mark ∈ delimiters, ∀ rest, p.token.spelling = mark.1 :: rest →
    p.token.isRun = true → mark.2 ∉ rest ++ p.gap ++ later.flatMap Piece.text

/-- Each piece fits before those behind it. -/
def Fitting (pieces : List Piece) : Prop := ∀ p later, p :: later <:+ pieces → p.Fits later

/-- Blanks, and tokens with blanks behind them. -/
@[ext] structure Segmentation where
  lead : List Char
  pieces : List Piece

namespace Segmentation

def text (s : Segmentation) : List Char := s.lead ++ s.pieces.flatMap Piece.text

def tokens (s : Segmentation) : List Token := s.pieces.map Piece.token

structure Proper (s : Segmentation) : Prop where
  lead : AllBlank s.lead
  fits : Fitting s.pieces

end Segmentation

variable {c : Char} {rest lead lead' : List Char} {token : Token} {p : Piece}
  {later pieces pieces' : List Piece}

theorem fitting_nil : Fitting [] := fun _ _ suffix => by simp at suffix

theorem fitting_cons : Fitting (p :: later) ↔ p.Fits later ∧ Fitting later := by
  constructor
  · intro fit
    exact ⟨fit p later (List.suffix_refl _), fun q behind suffix =>
      fit q behind (suffix.trans (List.suffix_cons p later))⟩
  · rintro ⟨first, fit⟩ q behind suffix
    rcases List.suffix_cons_iff.mp suffix with same | suffix
    · obtain ⟨rfl, rfl⟩ := List.cons.inj same
      exact first
    · exact fit q behind suffix

theorem next_cases (c : Char) (rest : List Char) :
    (∃ content after, c = '"' ∧ '"' ∉ content ∧ rest = content ++ '"' :: after ∧
      next c rest = (.quotation (String.ofList content), after)) ∨
    (∃ inside after, c = '[' ∧ ']' ∉ inside ∧ rest = inside ++ ']' :: after ∧
      next c rest = (.marker (String.ofList ('[' :: inside ++ [']'])), after)) ∨
    (∀ mark ∈ delimiters, c = mark.1 → mark.2 ∉ rest) ∧ next c rest = run c rest := by
  by_cases quote : c = '"' ∧ '"' ∈ rest
  · obtain ⟨rfl, closed⟩ := quote
    obtain ⟨content, after, rfl, absent⟩ := List.eq_append_cons_of_mem closed
    exact .inl ⟨content, after, rfl, absent, rfl, next_quotation absent after⟩
  by_cases bracket : c = '[' ∧ ']' ∈ rest
  · obtain ⟨rfl, closed⟩ := bracket
    obtain ⟨inside, after, rfl, absent⟩ := List.eq_append_cons_of_mem closed
    exact .inr (.inl ⟨inside, after, rfl, absent, rfl, next_marker absent after⟩)
  · rw [not_and] at quote bracket
    refine .inr (.inr ⟨by simpa [delimiters] using ⟨quote, bracket⟩, ?_⟩)
    rw [next]
    split
    next same => rw [cutAt?_of_not_mem (quote same)]
    next =>
      split
      next same => rw [cutAt?_of_not_mem (bracket same)]
      next => rfl

theorem spelling_ofRun (s : List Char) : (ofRun s).spelling = s := by
  rw [ofRun]
  split
  next arrow => exact arrow.symm
  next => exact String.toList_ofList

theorem formed_ofRun (run : ∀ d ∈ c :: s, isBlank d = false) : (ofRun (c :: s)).Formed := by
  rw [ofRun]
  split
  next => trivial
  next other =>
    refine ⟨?_, ?_, by simpa using run⟩
    · intro same
      simpa using congrArg String.toList same
    · intro same
      exact other (by simpa using congrArg String.toList same)

theorem ofRun_spelling (formed : token.Formed) (run : token.isRun = true) :
    ofRun token.spelling = token ∧ ∀ c ∈ token.spelling, inRun c = true := by
  cases token with
  | word text =>
    obtain ⟨-, other, marks⟩ := formed
    have apart : text.toList ≠ ['-', '>'] := fun same => other (String.toList_injective same)
    rw [spelling_word]
    exact ⟨by rw [ofRun, if_neg apart, String.ofList_toList], by simpa [inRun] using marks⟩
  | arrow => exact ⟨rfl, List.all_eq_true.mp (by decide)⟩
  | quotation | marker => contradiction

/-- No token begins with a blank. -/
theorem front_spelling (formed : token.Formed) :
    ∃ c rest, token.spelling = c :: rest ∧ isBlank c = false := by
  cases token with
  | word text =>
    obtain ⟨nonempty, -, marks⟩ := formed
    have some : text.toList ≠ [] := fun empty => nonempty (String.toList_injective empty)
    obtain ⟨c, rest, split⟩ := List.exists_cons_of_ne_nil some
    exact ⟨c, rest, split, marks c (by simp [split])⟩
  | arrow => exact ⟨'-', ['>'], rfl, by decide⟩
  | quotation content => exact ⟨'"', _, rfl, by decide⟩
  | marker text =>
    obtain ⟨inside, split, -⟩ := formed
    exact ⟨'[', _, split, by decide⟩

theorem front_pieces (fits : p.Fits later) : ∃ c rest,
    (p :: later).flatMap Piece.text = c :: rest ∧ isBlank c = false := by
  obtain ⟨c, rest, split, mark⟩ := front_spelling fits.formed
  exact ⟨c, _, by rw [List.flatMap_cons, Piece.text, split]; rfl, mark⟩

/-- Behind a run there is a blank, or nothing. -/
theorem Piece.Fits.ends (fits : p.Fits later) (run : p.token.isRun = true) :
    ∀ c ∈ (p.gap ++ later.flatMap Piece.text).head?, isBlank c = true := by
  intro c front
  cases gap : p.gap with
  | nil =>
    rw [gap, fits.apart run gap] at front
    contradiction
  | cons d more =>
    have first : d ∈ p.gap := by simp [gap]
    obtain rfl : d = c := by simpa [gap] using front
    exact fits.blank d first

theorem next_of_fits (fits : p.Fits later) (split : p.token.spelling = c :: rest) :
    next c (rest ++ (p.gap ++ later.flatMap Piece.text)) =
      (p.token, p.gap ++ later.flatMap Piece.text) := by
  have formed := fits.formed
  cases run : p.token.isRun with
  | true =>
    obtain ⟨same, body⟩ := ofRun_spelling formed run
    have stops : ∀ d ∈ (p.gap ++ later.flatMap Piece.text).head?, inRun d = false := by
      simpa [inRun] using fits.ends run
    rw [split] at same body
    rw [List.forall_mem_cons] at body
    have unclosed : ∀ mark ∈ delimiters, c = mark.1 →
        mark.2 ∉ rest ++ (p.gap ++ later.flatMap Piece.text) := by
      rintro mark member rfl
      rw [← List.append_assoc]
      exact fits.unclosed mark member rest split run
    rcases next_cases c (rest ++ (p.gap ++ later.flatMap Piece.text)) with
      ⟨content, after, rfl, -, closed, -⟩ | ⟨inside, after, rfl, -, closed, -⟩ | ⟨-, found⟩
    · have absent := unclosed ('"', '"') (by decide) rfl
      simp [closed] at absent
    · have absent := unclosed ('[', ']') (by decide) rfl
      simp [closed] at absent
    · rw [found, Token.run, Text.takeWhile_append_of_ends body.2 stops,
        Text.dropWhile_append_of_ends body.2 stops, same]
  | false =>
    cases token : p.token with
    | word | arrow => simp [token, isRun] at run
    | quotation content =>
      rw [token] at formed split
      obtain ⟨rfl, rfl⟩ : '"' = c ∧ content.toList ++ ['"'] = rest := by simpa using split
      rw [List.append_assoc, List.singleton_append, next_quotation formed, String.ofList_toList]
    | marker text =>
      rw [token] at formed split
      obtain ⟨inside, whole, absent⟩ := formed
      obtain ⟨rfl, rfl⟩ : '[' = c ∧ inside ++ [']'] = rest := by
        simpa [whole] using split
      rw [List.append_assoc, List.singleton_append, next_marker absent, ← whole,
        String.ofList_toList]

theorem Fitting.fits (fit : Fitting pieces) (member : p ∈ pieces) : ∃ later, p.Fits later := by
  obtain ⟨before, later, rfl⟩ := List.append_of_mem member
  exact ⟨later, fit p later (List.suffix_append before _)⟩

theorem Fitting.blank (fit : Fitting pieces) : ∀ p ∈ pieces, AllBlank p.gap := fun _ member =>
  (fit.fits member).elim fun _ fits => fits.blank

/-- No token touches a run, for it would begin with a blank, where the run ends. -/
theorem pieces_of_touching {after : Segmentation} (proper : after.Proper)
    (behind : after.text = rest.dropWhile inRun) (touches : after.lead = []) :
    after.pieces = [] := by
  by_contra more
  obtain ⟨p, later, pieces⟩ := List.exists_cons_of_ne_nil more
  obtain ⟨d, others, front, marked⟩ := front_pieces (fitting_cons.mp (pieces ▸ proper.fits)).1
  rw [Segmentation.text, touches, pieces, front, List.nil_append] at behind
  have ends := List.head?_dropWhile_not inRun rest
  rw [← behind] at ends
  simp [inRun, marked] at ends

theorem fits_of_next (mark : isBlank c = false) {after : Segmentation} (proper : after.Proper)
    (behind : after.text = (next c rest).2) :
    (Piece.mk (next c rest).1 after.lead).Fits after.pieces ∧
      (next c rest).1.spelling ++ (next c rest).2 = c :: rest := by
  rcases next_cases c rest with
    ⟨content, tail, rfl, absent, rfl, found⟩ | ⟨inside, tail, rfl, absent, rfl, found⟩ |
    ⟨unclosed, found⟩
  · rw [found]
    exact ⟨⟨proper.lead, by simpa [Formed] using absent, by simp [isRun], by simp [isRun]⟩,
      by simp⟩
  · rw [found]
    exact ⟨⟨proper.lead, ⟨inside, by simp, absent⟩, by simp [isRun], by simp [isRun]⟩,
      by simp⟩
  · rw [found] at behind ⊢
    have spelled := spelling_ofRun (c :: rest.takeWhile inRun)
    have body : ∀ d ∈ c :: rest.takeWhile inRun, isBlank d = false := by
      rw [List.forall_mem_cons]
      exact ⟨mark, fun d member => by simpa [inRun] using List.mem_takeWhile_imp member⟩
    have whole : rest.takeWhile inRun ++ rest.dropWhile inRun = rest :=
      List.takeWhile_append_dropWhile
    simp only [Token.run] at behind ⊢
    rw [spelled, List.cons_append, whole]
    refine ⟨⟨proper.lead, formed_ofRun body, fun _ => pieces_of_touching proper behind, ?_⟩, rfl⟩
    intro delimiter member others same _
    obtain ⟨first, rfl⟩ := List.cons.inj (spelled.symm.trans same)
    rw [List.append_assoc, ← Segmentation.text, behind, whole]
    exact unclosed delimiter member first

theorem exists_segmentation (text : List Char) :
    ∃ s : Segmentation, s.Proper ∧ s.text = text ∧ s.tokens = scan text := by
  induction text using scan.induct with
  | case1 text empty =>
    refine ⟨⟨text, []⟩, ⟨List.dropWhile_eq_nil_iff.mp empty, fitting_nil⟩, ?_, ?_⟩
    · simp [Segmentation.text]
    · rw [scan_of_empty empty]
      rfl
  | case2 text c rest start ih =>
    obtain ⟨after, proper, behind, tokens⟩ := ih
    obtain ⟨lead, split, blank⟩ := Text.trimStart_split text
    rw [start] at split
    have mark : isBlank c = false := Text.trimStart_first text c (by simp [start])
    obtain ⟨fits, whole⟩ := fits_of_next mark proper behind
    refine ⟨⟨lead, ⟨(next c rest).1, after.lead⟩ :: after.pieces⟩,
      ⟨blank, fitting_cons.mpr ⟨fits, proper.fits⟩⟩, ?_, ?_⟩
    · rw [split, ← whole, ← behind]
      simp [Segmentation.text, Piece.text]
    · rw [scan_of_start start, ← tokens]
      rfl

theorem trimStart_pieces (blank : AllBlank lead) (fit : Fitting pieces) :
    Text.trimStart (lead ++ pieces.flatMap Piece.text) = pieces.flatMap Piece.text := by
  rw [Text.trimStart_blank_append blank]
  apply Text.trimStart_of_first
  cases pieces with
  | nil => simp
  | cons p later =>
    obtain ⟨c, rest, front, mark⟩ := front_pieces (fitting_cons.mp fit).1
    simpa [front] using mark

/-- The first token of a text, and what stands behind it, are those that the scan finds. -/
theorem Piece.Fits.unique {p' : Piece} {later' : List Piece} (fits : p.Fits later)
    (fits' : p'.Fits later')
    (same : (p :: later).flatMap Piece.text = (p' :: later').flatMap Piece.text) :
    p.token = p'.token ∧
      p.gap ++ later.flatMap Piece.text = p'.gap ++ later'.flatMap Piece.text := by
  obtain ⟨c, rest, split, -⟩ := front_spelling fits.formed
  obtain ⟨c', rest', split', -⟩ := front_spelling fits'.formed
  simp only [List.flatMap_cons, Piece.text, split, split', List.cons_append, List.append_assoc,
    List.cons.injEq] at same
  have found := next_of_fits fits split
  rw [same.1, same.2, next_of_fits fits' split'] at found
  exact ⟨(Prod.mk.inj found).1.symm, (Prod.mk.inj found).2.symm⟩

theorem lead_unique (blank : AllBlank lead) (blank' : AllBlank lead') (fit : Fitting pieces)
    (fit' : Fitting pieces')
    (same : lead ++ pieces.flatMap Piece.text = lead' ++ pieces'.flatMap Piece.text) :
    lead = lead' ∧ pieces.flatMap Piece.text = pieces'.flatMap Piece.text := by
  have behind : pieces.flatMap Piece.text = pieces'.flatMap Piece.text := by
    rw [← trimStart_pieces blank fit, same, trimStart_pieces blank' fit']
  rw [behind] at same
  exact ⟨List.append_cancel_right same, behind⟩

theorem pieces_unique (fit : Fitting pieces) (fit' : Fitting pieces')
    (same : pieces.flatMap Piece.text = pieces'.flatMap Piece.text) : pieces = pieces' := by
  induction pieces generalizing pieces' with
  | nil =>
    cases pieces' with
    | nil => rfl
    | cons p' later' =>
      obtain ⟨c, rest, front, -⟩ := front_pieces (fitting_cons.mp fit').1
      simp [front] at same
  | cons p later ih =>
    cases pieces' with
    | nil =>
      obtain ⟨c, rest, front, -⟩ := front_pieces (fitting_cons.mp fit).1
      simp [front] at same
    | cons p' later' =>
      rw [fitting_cons] at fit fit'
      obtain ⟨token, behind⟩ := fit.1.unique fit'.1 same
      obtain ⟨gap, behind⟩ := lead_unique fit.1.blank fit'.1.blank fit.2 fit'.2 behind
      rw [Piece.ext token gap, ih fit.2 fit'.2 behind]

namespace Segmentation

variable {s s' : Segmentation}

theorem Proper.unique (proper : s.Proper) (proper' : s'.Proper) (same : s.text = s'.text) :
    s = s' := by
  obtain ⟨lead, behind⟩ := lead_unique proper.lead proper'.lead proper.fits proper'.fits same
  exact Segmentation.ext lead (pieces_unique proper.fits proper'.fits behind)

theorem Proper.formed (proper : s.Proper) : ∀ token ∈ s.tokens, token.Formed := by
  intro token member
  obtain ⟨p, held, rfl⟩ := List.mem_map.mp member
  obtain ⟨later, fits⟩ := proper.fits.fits held
  exact fits.formed

theorem Proper.scan_text (proper : s.Proper) : scan s.text = s.tokens := by
  obtain ⟨other, proper', text, tokens⟩ := exists_segmentation s.text
  rw [← tokens, proper'.unique proper text]

end Segmentation

/-- The tokens of a text are what it is made of beside blanks, and there is one way only to make
it of tokens. -/
theorem scan_segments (text : List Char) :
    ∃ s : Segmentation, s.Proper ∧ s.text = text ∧ s.tokens = scan text ∧
      ∀ other : Segmentation, other.Proper → other.text = text → other = s := by
  obtain ⟨s, proper, whole, tokens⟩ := exists_segmentation text
  exact ⟨s, proper, whole, tokens, fun other proper' same =>
    proper'.unique proper (same.trans whole.symm)⟩

theorem closing_not_blank : ∀ mark ∈ delimiters, isBlank mark.2 = false := by decide

theorem mem_pieces_iff (mark : isBlank c = false) (gaps : ∀ p ∈ pieces, AllBlank p.gap) :
    c ∈ pieces.flatMap Piece.text ↔ ∃ token ∈ pieces.map Piece.token, c ∈ token.spelling := by
  simp only [List.mem_flatMap, Piece.text, List.mem_append, List.mem_map]
  constructor
  · rintro ⟨p, member, spelled | blank⟩
    · exact ⟨p.token, ⟨p, member, rfl⟩, spelled⟩
    · simp [gaps p member c blank] at mark
  · rintro ⟨token, ⟨p, member, rfl⟩, spelled⟩
    exact ⟨p, member, .inl spelled⟩

/-- Tokens that fit together do so as well farther apart: what would close a word that begins like
a quotation or a marker is no blank, so it can only stand in another token. -/
theorem fitting_respaced (fit : Fitting pieces)
    (same : pieces'.map Piece.token = pieces.map Piece.token)
    (gaps : ∀ p ∈ pieces', AllBlank p.gap) (apart : ∀ p ∈ pieces'.dropLast, p.gap ≠ []) :
    Fitting pieces' := by
  induction pieces' generalizing pieces with
  | nil => exact fitting_nil
  | cons p' later' ih =>
    obtain ⟨p, later, rfl, token, tokens⟩ := List.map_eq_cons_iff.mp same.symm
    rw [fitting_cons] at fit ⊢
    obtain ⟨blank, behind⟩ := List.forall_mem_cons.mp gaps
    refine ⟨⟨blank, token ▸ fit.1.formed, ?_, ?_⟩, ih fit.2 tokens.symm behind ?_⟩
    · intro _ joined
      by_contra more
      exact apart p' (by simp [List.dropLast_cons_of_ne_nil more]) joined
    · intro mark delimiter rest spelled run
      have closing := closing_not_blank mark delimiter
      have unclosed := fit.1.unclosed mark delimiter rest (token ▸ spelled) (token ▸ run)
      simp only [List.mem_append, not_or] at unclosed ⊢
      refine ⟨⟨unclosed.1.1, fun blanks => ?_⟩, fun closes => ?_⟩
      · simp [blank mark.2 blanks] at closing
      · rw [mem_pieces_iff closing behind, ← tokens] at closes
        exact unclosed.2 ((mem_pieces_iff closing fit.2.blank).mpr closes)
    · intro q member
      cases later' with
      | nil => contradiction
      | cons => exact apart q (List.mem_cons_of_mem p' member)

/-- The tokens of a text, with any blanks around them and some between them, are the tokens of what
is made of them, and its statement is the same. -/
theorem scan_respaced {text : List Char} (s : Segmentation) (same : s.tokens = scan text)
    (lead : AllBlank s.lead) (gaps : ∀ p ∈ s.pieces, AllBlank p.gap)
    (apart : ∀ p ∈ s.pieces.dropLast, p.gap ≠ []) :
    scan s.text = scan text ∧ Statement.read s.text = Statement.read text := by
  obtain ⟨own, proper, -, tokens⟩ := exists_segmentation text
  have fit := fitting_respaced proper.fits (same.trans tokens.symm) gaps apart
  have scanned : scan s.text = scan text :=
    (Segmentation.Proper.scan_text ⟨lead, fit⟩).trans same
  exact ⟨scanned, by rw [Statement.read, Statement.read, scanned]⟩

/-- Wider blanks around words that begin like a marker and a quotation, neither of them closed. -/
theorem scan_respaced_unclosed :
    let text := "key_att N\"x y\" \"z w\"[t \"q ->".toList
    let spaced := "\u3000key_att\tN\"x  y\"\u2003\"z w\"\t[t \"q\n-> ".toList
    scan spaced = scan text ∧ Statement.read spaced = Statement.read text ∧ scan text =
      [.word "key_att", .word "N\"x", .word "y\"", .quotation "z w", .word "[t", .word "\"q",
        .arrow] := by
  intro text spaced
  have tokens : scan text = [.word "key_att", .word "N\"x", .word "y\"", .quotation "z w",
    .word "[t", .word "\"q", .arrow] := by decide +kernel
  let s : Segmentation := ⟨['\u3000'], [⟨.word "key_att", ['\t']⟩, ⟨.word "N\"x", [' ', ' ']⟩,
    ⟨.word "y\"", ['\u2003']⟩, ⟨.quotation "z w", ['\t']⟩, ⟨.word "[t", [' ']⟩,
    ⟨.word "\"q", ['\n']⟩, ⟨.arrow, [' ']⟩]⟩
  have written : s.text = spaced := by decide +kernel
  have lead : s.lead.all isBlank = true := by decide
  have gaps : s.pieces.all (·.gap.all isBlank) = true := by decide
  obtain ⟨scanned, statement⟩ :=
    scan_respaced s (tokens.symm : s.tokens = scan text) (List.all_eq_true.mp lead)
      (fun p member => List.all_eq_true.mp (List.all_eq_true.mp gaps p member)) (by decide)
  rw [written] at scanned statement
  exact ⟨scanned, statement, tokens⟩

end EERDiagram.Token
