import EERDiagram.Proofs.Document.Declaration
import EERDiagram.Proofs.Document.Rewriting
import EERDiagram.Proofs.Document.Scanning

/-! Lines that link two names and give the link a label. The first pair of such a line stands in
its label, if anywhere: it is taken out there before the label is read, and everything else of
the label is kept. -/
namespace EERDiagram

open Coordinates (cut? erase maxDigits)
open Text (AllBlank Trimmed isBlank)

/-- No blank, and none of the marks that open a quotation, a marker or a pair or begin an arrow.
Letters, digits and underscores are such characters in every script. -/
def inName (c : Char) : Bool := Token.inRun c && c ∉ ['"', '[', '(', '-']

structure IsName (s : List Char) : Prop where
  nonempty : s ≠ []
  plain : s.all inName = true

theorem IsName.not_mem (name : IsName s) (mark : inName c = false) : c ∉ s := by
  intro member
  have plain := List.all_eq_true.mp name.plain c member
  rw [mark] at plain
  contradiction

theorem IsName.scan (name : IsName s) (ends : ∀ c ∈ rest.head?, isBlank c = true) :
    Token.scan (s ++ rest) = .word (String.ofList s) :: Token.scan rest := by
  obtain ⟨c, others, rfl⟩ := List.exists_cons_of_ne_nil name.nonempty
  have plain := List.all_eq_true.mp name.plain
  have run : ∀ d ∈ c :: others, Token.inRun d = true := fun d member =>
    (Bool.and_eq_true_iff.mp (plain d member)).1
  have marks : c ≠ '"' ∧ c ≠ '[' ∧ c ≠ '(' ∧ c ≠ '-' := by
    simpa using (Bool.and_eq_true_iff.mp (plain c List.mem_cons_self)).2
  have arrow : ¬ c :: others = ['-', '>'] := fun same => marks.2.2.2 (List.cons.inj same).1
  rw [Token.scan_run marks.1 marks.2.1 run ends, Token.ofRun, if_neg arrow]

namespace Line

/-- What stands before the label of a link line. -/
def linkFront (source target : List Char) : List Char :=
  ['l', 'i', 'n', 'k', ' '] ++ source ++ ' ' :: target ++ [' ', '"']

/-- What stands behind it: its closing mark, and the marker of total participation or nothing. -/
def linkBack (total : Bool) : List Char :=
  '"' :: if total then [' ', '[', 't', 'o', 't', 'a', 'l', ']'] else []

/-- The line `link SOURCE TARGET "LABEL"`, alone or with `[total]` behind it. -/
def linking (source target label : List Char) (total : Bool) : List Char :=
  linkFront source target ++ label ++ linkBack total

variable {source target label : List Char}

theorem open_not_mem_linkFront (nameS : IsName source) (nameT : IsName target) :
    '(' ∉ linkFront source target := by
  have absentS := nameS.not_mem (show inName '(' = false by decide)
  have absentT := nameT.not_mem (show inName '(' = false by decide)
  simp [linkFront, absentS, absentT]

theorem close_not_mem_linkBack (total : Bool) : ')' ∉ linkBack total := by
  revert total
  decide

theorem trimmed_linking (source target label : List Char) (total : Bool) :
    Trimmed (linking source target label total) := by
  constructor
  · intro c front
    obtain rfl : 'l' = c := by simpa [linking, linkFront] using front
    decide
  · intro c final
    rw [linking, List.getLast?_append_of_ne_nil _ (by simp [linkBack])] at final
    cases total with
    | false =>
      obtain rfl : '"' = c := by simpa [linkBack] using final
      decide
    | true =>
      obtain rfl : ']' = c := by simpa [linkBack] using final
      decide

theorem content_linking (source target label : List Char) (total : Bool) :
    content (linking source target label total) = linking source target label total ∧
      isSilent (linking source target label total) = false := by
  have whole := content_surround (fun _ member => absurd member List.not_mem_nil) AllBlank.nil
    (trimmed_linking source target label total) (by simp [linking, linkFront]; decide)
    (by simp [linking, linkFront]) AllBlank.nil
  exact ⟨by simpa using whole, isSilent_of_front (by decide)⟩

/-- The pair of a link line is the pair of its label. -/
theorem cut?_linking (nameS : IsName source) (nameT : IsName target) (label : List Char)
    (total : Bool) :
    (cut? (linking source target label total)).map (·.pair) = (cut? label).map (·.pair) := by
  rw [linking, Coordinates.cut?_append_right (close_not_mem_linkBack total),
    Coordinates.cut?_append_left (open_not_mem_linkFront nameS nameT), Option.map_map,
    Option.map_map]
  rfl

/-- A link line is read without the pair of its label, if that pair can be read. -/
theorem read_linking (nameS : IsName source) (nameT : IsName target) (total : Bool)
    (short : ∀ cut, cut? label = some cut →
      cut.pair.x.digits.length ≤ maxDigits ∧ cut.pair.y.digits.length ≤ maxDigits) :
    ∃ line, read (linking source target label total) = .ok (some line) ∧
      line.text = linking source target (erase label) total := by
  obtain ⟨content, speaks⟩ := content_linking source target label total
  have pairs := cut?_linking nameS nameT label total
  have erased : erase (linking source target label total) =
      linking source target (erase label) total :=
    Coordinates.erase_surround (open_not_mem_linkFront nameS nameT) (close_not_mem_linkBack total)
  have reads : ∃ line, read (linking source target label total) = .ok (some line) := by
    cases found : cut? (linking source target label total) with
    | none =>
      simp [read, content, speaks, found]
    | some cut =>
      rw [found] at pairs
      obtain ⟨own, inside, same⟩ := Option.map_eq_some_iff.mp pairs.symm
      obtain ⟨shortX, shortY⟩ := short own inside
      rw [same] at shortX shortY
      rw [← content] at speaks found
      exact ⟨_, (read_of_cut speaks found).mpr ⟨shortX, shortY, rfl⟩⟩
  obtain ⟨line, reads⟩ := reads
  refine ⟨line, reads, ?_⟩
  rw [(read_statement reads).2.1, content, erased,
    Text.trim_of_trimmed (trimmed_linking source target (erase label) total)]

end Line

namespace Statement

open Line (linking)

variable {source target label : List Char}

theorem scan_linkBack (unquoted : '"' ∉ label) (total : Bool) :
    Token.scan ('"' :: label ++ Line.linkBack total) =
      .quotation (String.ofList label) :: if total then [.marker "[total]"] else [] := by
  rw [Line.linkBack, Token.scan_quotation unquoted]
  cases total with
  | false => simp
  | true =>
    have marker : Token.scan ('[' :: ['t', 'o', 't', 'a', 'l'] ++ [']']) =
        .marker "[total]" :: Token.scan [] := Token.scan_marker (by decide) []
    rw [if_pos rfl, if_pos rfl, Token.scan_blank (by decide)]
    simpa using marker

theorem ofTokens_link (rest : List Token) : ofTokens (.word "link" :: rest) = readLink rest := by
  have node : nodeCommands.lookup (Text.lower "link") = none := by decide +kernel
  have hierarchy : hierarchyCommands.lookup (Text.lower "link") = none := by decide +kernel
  have command : Text.lower "link" = "link" := by decide +kernel
  simp only [ofTokens, Token.text, node, hierarchy]
  exact if_pos command

/-- The statement of a link line links the two names. An empty quotation is no label. -/
theorem read_linking (nameS : IsName source) (nameT : IsName target) (unquoted : '"' ∉ label)
    (total : Bool) : read (linking source target label total) =
      .link (String.ofList source) (String.ofList target)
        (if label = [] then none else some (String.ofList label))
        (if total then .double else .solid) := by
  have command : IsName ['l', 'i', 'n', 'k'] := ⟨by simp, by decide⟩
  have ends : ∀ s : List Char, ∀ c ∈ (' ' :: s).head?, isBlank c = true := by
    intro s c front
    obtain rfl : ' ' = c := by simpa using front
    decide
  have shape : linking source target label total = ['l', 'i', 'n', 'k'] ++ ' ' :: (source ++
      ' ' :: (target ++ ' ' :: ('"' :: label ++ Line.linkBack total))) := by
    simp [linking, Line.linkFront]
  have tokens : Token.scan (linking source target label total) =
      .word "link" :: .word (String.ofList source) :: .word (String.ofList target) ::
        .quotation (String.ofList label) :: if total then [.marker "[total]"] else [] := by
    rw [shape, command.scan (ends _), Token.scan_blank (by decide), nameS.scan (ends _),
      Token.scan_blank (by decide), nameT.scan (ends _), Token.scan_blank (by decide),
      scan_linkBack unquoted]
  rw [read, tokens, ofTokens_link]
  cases total <;> cases label <;>
    simp [readLink, labelOf?, isDoubleMarker, doubleMarkers]

end Statement
end EERDiagram
