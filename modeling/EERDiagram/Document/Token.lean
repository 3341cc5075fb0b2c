import EERDiagram.Text.Basic

/-! Tokens of a statement. A token is a run of characters without blanks, but a quotation and a
bracketed marker are one token even with blanks inside. A quotation or marker that is never
closed is read as a word, so every text has tokens. -/
namespace EERDiagram

/-- A quotation is held without its marks, a marker with its brackets. -/
inductive Token where
  | word (text : String)
  | arrow
  | quotation (content : String)
  | marker (text : String)
  deriving DecidableEq, Repr

namespace Token

def text : Token → String
  | .word text => text
  | .arrow => "->"
  | .quotation content => content
  | .marker text => text

def cutAt? (closing : Char) : List Char → Option (List Char × List Char)
  | [] => none
  | c :: rest =>
    if c = closing then some ([], rest)
    else (cutAt? closing rest).map fun (before, after) => (c :: before, after)

def ofRun (run : List Char) : Token :=
  if run = ['-', '>'] then .arrow else .word (String.ofList run)

def inRun (c : Char) : Bool := !Text.isBlank c

def run (c : Char) (rest : List Char) : Token × List Char :=
  (ofRun (c :: rest.takeWhile inRun), rest.dropWhile inRun)

/-- The token that begins with `c`, which is not blank, and the text after it. -/
def next (c : Char) (rest : List Char) : Token × List Char :=
  if c = '"' then
    match cutAt? '"' rest with
    | some (content, after) => (.quotation (String.ofList content), after)
    | none => run c rest
  else if c = '[' then
    match cutAt? ']' rest with
    | some (inside, after) => (.marker (String.ofList ('[' :: inside ++ [']'])), after)
    | none => run c rest
  else run c rest

theorem length_cutAt? {closing : Char} {s before after : List Char}
    (h : cutAt? closing s = some (before, after)) : after.length < s.length := by
  induction s generalizing before with
  | nil => simp [cutAt?] at h
  | cons c rest ih =>
    simp only [cutAt?] at h
    split at h
    · simp only [Option.some.injEq, Prod.mk.injEq] at h; simp [← h.2]
    · obtain ⟨⟨b, a⟩, hb, heq⟩ := Option.map_eq_some_iff.1 h
      simp only [Prod.mk.injEq] at heq
      have := ih (heq.2 ▸ hb)
      simp only [List.length_cons]; omega

theorem length_next (c : Char) (rest : List Char) : (next c rest).2.length ≤ rest.length := by
  have hrun : (run c rest).2.length ≤ rest.length := (List.dropWhile_sublist _).length_le
  unfold next
  split
  · split
    · next h => exact Nat.le_of_lt (length_cutAt? h)
    · exact hrun
  · split
    · split
      · next h => exact Nat.le_of_lt (length_cutAt? h)
      · exact hrun
    · exact hrun

def scan (s : List Char) : List Token :=
  match _h : Text.trimStart s with
  | [] => []
  | c :: rest => (next c rest).1 :: scan (next c rest).2
termination_by s.length
decreasing_by
  have h1 := length_next c rest
  have h2 : (Text.trimStart s).length ≤ s.length := (List.dropWhile_sublist _).length_le
  rw [_h] at h2
  simp only [List.length_cons] at h2
  omega

end Token
end EERDiagram
