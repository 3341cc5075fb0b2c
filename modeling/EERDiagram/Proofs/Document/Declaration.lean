import EERDiagram.Document.Line
import EERDiagram.Document.Statement
import EERDiagram.Proofs.Text.Trimming

/-! Statements that declare a node. They begin with a command or with a quotation of one, so a
text that would be skipped as a comment or as a mark is never one of them. -/
namespace EERDiagram.Statement

def declares : Statement → Bool
  | .node .. | .hierarchy .. => true
  | _ => false

def declaringCommands : List String := (nodeCommands ++ hierarchyCommands).map Prod.fst

theorem mem_of_lookup {commands : List (String × Kind)} (found : commands.lookup name = some kind) :
    name ∈ commands.map Prod.fst := by
  obtain ⟨before, after, split, -⟩ := List.lookup_eq_some_iff.mp found
  simp [split]

theorem declares_readLink (tokens : List Token) : (readLink tokens).declares = false := by
  rw [readLink.eq_def]
  split <;> rfl

theorem command_of_declares (declared : (ofTokens (first :: rest)).declares = true) :
    Text.lower first.text ∈ declaringCommands := by
  rw [declaringCommands, List.map_append]
  simp only [ofTokens] at declared
  split at declared
  next kind found => exact List.mem_append_left _ (mem_of_lookup found)
  next =>
    split at declared
    next kind found => exact List.mem_append_right _ (mem_of_lookup found)
    next =>
      split at declared
      · simp [declares_readLink] at declared
      · simp [declares] at declared

theorem front_of_command (command : name ∈ declaringCommands) :
    name.toList.head? ≠ some '/' ∧ name.toList.head? ≠ some Line.byteOrderMark := by
  revert name
  decide

theorem head?_text_run (c : Char) (rest : List Char) :
    (Token.run c rest).1.text.toList.head? = some c := by
  simp only [Token.run, Token.ofRun]
  split
  next arrow =>
    obtain rfl := (List.cons.inj arrow).1
    rfl
  next => simp [Token.text]

theorem head?_lower (text : String) :
    (Text.lower text).toList.head? = text.toList.head?.map Text.lowerChar := by
  simp [Text.lower]

theorem front_of_declares (declared : (read text).declares = true) (core : Text.Trimmed text) :
    ∃ c rest, text = c :: rest ∧ c ≠ Line.byteOrderMark ∧ c ≠ '/' := by
  rw [read, Token.scan.eq_def] at declared
  split at declared
  · simp [ofTokens, declares] at declared
  next c rest start =>
    rw [Text.trimStart_of_first core.first] at start
    have apart := front_of_command (command_of_declares declared)
    rw [head?_lower] at apart
    refine ⟨c, rest, start, ?_, ?_⟩
    · rintro rfl
      have run : Token.next Line.byteOrderMark rest = Token.run Line.byteOrderMark rest := rfl
      rw [run, head?_text_run] at apart
      exact apart.2 (by decide)
    · rintro rfl
      have run : Token.next '/' rest = Token.run '/' rest := rfl
      rw [run, head?_text_run] at apart
      exact apart.1 (by decide)

end EERDiagram.Statement
