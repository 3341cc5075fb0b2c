import EERDiagram.Document.Token
import EERDiagram.Proofs.Text.Digits
import EERDiagram.Proofs.Text.Trimming

/-! Scanning a text whose front is known. A quotation or a marker is read to its closing mark and
a word to the next blank, whatever follows; and no word is empty. -/
namespace EERDiagram.Token

open Text (isBlank)

variable {s content inside : List Char} {c : Char}

theorem cutAt?_append (absent : closing ∉ s) (rest : List Char) :
    cutAt? closing (s ++ closing :: rest) = some (s, rest) := by
  induction s with
  | nil => simp [cutAt?]
  | cons c others ih =>
    simp only [List.mem_cons, not_or] at absent
    rw [List.cons_append, cutAt?, if_neg (Ne.symm absent.1), ih absent.2]
    rfl

theorem cutAt?_of_not_mem (absent : closing ∉ s) : cutAt? closing s = none := by
  induction s with
  | nil => rfl
  | cons c rest ih =>
    simp only [List.mem_cons, not_or] at absent
    rw [cutAt?, if_neg (Ne.symm absent.1), ih absent.2]
    rfl

theorem scan_of_start (start : Text.trimStart s = c :: rest) :
    scan s = (next c rest).1 :: scan (next c rest).2 := by
  rw [scan.eq_def]
  split
  next empty => simp [start] at empty
  next d others same =>
    obtain ⟨rfl, rfl⟩ := List.cons.inj (start.symm.trans same)
    rfl

theorem scan_of_empty (empty : Text.trimStart s = []) : scan s = [] := by
  rw [scan.eq_def]
  split
  next => rfl
  next start => simp [empty] at start

@[simp] theorem scan_nil : scan [] = [] := scan_of_empty rfl

theorem scan_cons (mark : isBlank c = false) (rest : List Char) :
    scan (c :: rest) = (next c rest).1 :: scan (next c rest).2 :=
  scan_of_start (Text.trimStart_of_first (by simpa using mark))

theorem scan_blank (blank : isBlank c = true) (s : List Char) : scan (c :: s) = scan s := by
  rw [scan.eq_def, scan.eq_def s, Text.trimStart, List.dropWhile_cons_of_pos blank, Text.trimStart]

theorem next_quotation (unquoted : '"' ∉ content) (rest : List Char) :
    next '"' (content ++ '"' :: rest) = (.quotation (String.ofList content), rest) := by
  simp only [next, if_true, cutAt?_append unquoted rest]

theorem next_marker (unclosed : ']' ∉ inside) (rest : List Char) :
    next '[' (inside ++ ']' :: rest) =
      (.marker (String.ofList ('[' :: inside ++ [']'])), rest) := by
  have apart : '[' ≠ '"' := by decide
  simp only [next, if_neg apart, if_true, cutAt?_append unclosed rest]

theorem scan_quotation (unquoted : '"' ∉ content) (rest : List Char) :
    scan ('"' :: content ++ '"' :: rest) = .quotation (String.ofList content) :: scan rest := by
  rw [List.cons_append, scan_cons (by decide), next_quotation unquoted]

theorem scan_marker (unclosed : ']' ∉ inside) (rest : List Char) :
    scan ('[' :: inside ++ ']' :: rest) =
      .marker (String.ofList ('[' :: inside ++ [']'])) :: scan rest := by
  rw [List.cons_append, scan_cons (by decide), next_marker unclosed]

theorem scan_run (quote : c ≠ '"') (bracket : c ≠ '[') (run : ∀ d ∈ c :: s, inRun d = true)
    (ends : ∀ d ∈ rest.head?, isBlank d = true) :
    scan (c :: s ++ rest) = ofRun (c :: s) :: scan rest := by
  have mark : isBlank c = false := by simpa [inRun] using run c List.mem_cons_self
  have body : ∀ d ∈ s, inRun d = true := fun d member => run d (List.mem_cons_of_mem c member)
  have stops : ∀ d ∈ rest.head?, inRun d = false := by simpa [inRun] using ends
  rw [List.cons_append, scan_cons mark]
  simp only [next, if_neg quote, if_neg bracket, Token.run,
    Text.takeWhile_append_of_ends body stops, Text.dropWhile_append_of_ends body stops]

theorem ofRun_ne_empty (c : Char) (s : List Char) : ofRun (c :: s) ≠ .word "" := by
  rw [ofRun]
  split
  · exact Token.noConfusion
  · intro same
    simpa using congrArg String.toList (Token.word.inj same)

theorem next_ne_empty (c : Char) (rest : List Char) : (next c rest).1 ≠ .word "" := by
  have run : (Token.run c rest).1 ≠ .word "" := ofRun_ne_empty c _
  simp only [next]
  split
  next =>
    cases cutAt? '"' rest with
    | none => exact run
    | some found => exact Token.noConfusion
  next =>
    split
    next =>
      cases cutAt? ']' rest with
      | none => exact run
      | some found => exact Token.noConfusion
    next => exact run

theorem empty_not_mem_scan (s : List Char) : .word "" ∉ scan s := by
  induction s using scan.induct with
  | case1 s empty =>
    rw [scan_of_empty empty]
    exact List.not_mem_nil
  | case2 s c rest start ih =>
    rw [scan_of_start start, List.mem_cons, not_or]
    exact ⟨(next_ne_empty c rest).symm, ih⟩

end EERDiagram.Token
