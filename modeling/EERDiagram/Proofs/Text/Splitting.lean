import EERDiagram.Text.Lines
import Mathlib.Data.List.Basic

/-! Splitting into lines undoes joining them, as long as no line holds a line feed. So a
change to one line of a text is seen as that change when the text is split again. -/
namespace EERDiagram.Text

theorem splitLines_of_single (single : '\n' ∉ line) : splitLines line = [line] := by
  induction line with
  | nil => rfl
  | cons c rest ih =>
    simp only [List.mem_cons, not_or] at single
    rw [splitLines, if_neg (Ne.symm single.1), ih single.2]

theorem splitLines_cons (other : c ≠ '\n') (s : List Char) :
    splitLines (c :: s) = (splitLines s).modify 0 (c :: ·) := by
  rw [splitLines, if_neg other]
  cases split : splitLines s with
  | nil => exact absurd split (splitLines_ne_nil s)
  | cons line lines => rfl

theorem splitLines_append_feed (single : '\n' ∉ line) (rest : List Char) :
    splitLines (line ++ '\n' :: rest) = line :: splitLines rest := by
  induction line with
  | nil => simp [splitLines]
  | cons c others ih =>
    simp only [List.mem_cons, not_or] at single
    rw [List.cons_append, splitLines, if_neg (Ne.symm single.1), ih single.2]

/-- A line feed between two texts keeps their lines apart. -/
theorem splitLines_append (s rest : List Char) :
    splitLines (s ++ '\n' :: rest) = splitLines s ++ splitLines rest := by
  induction s with
  | nil => simp [splitLines]
  | cons c others ih =>
    rw [List.cons_append, splitLines, splitLines]
    split
    next feed => rw [ih, List.cons_append]
    next other =>
      cases split : splitLines others with
      | nil => exact absurd split (splitLines_ne_nil others)
      | cons line lines => rw [ih, split]; rfl

theorem subset_joinLines (member : line ∈ lines) : line ⊆ joinLines lines := by
  induction lines with
  | nil => contradiction
  | cons first rest ih =>
    cases rest with
    | nil =>
      rw [List.mem_singleton.mp member]
      exact List.Subset.refl first
    | cons next others =>
      intro c inside
      simp only [joinLines, List.mem_append, List.mem_cons]
      rcases List.mem_cons.mp member with rfl | later
      · exact .inl inside
      · exact .inr (.inr (ih later inside))

theorem splitLines_joinLines (nonempty : lines ≠ []) (single : ∀ line ∈ lines, '\n' ∉ line) :
    splitLines (joinLines lines) = lines := by
  induction lines with
  | nil => contradiction
  | cons line rest ih =>
    have first := single line List.mem_cons_self
    cases rest with
    | nil => exact splitLines_of_single first
    | cons next others =>
      rw [joinLines, splitLines_append_feed first, ih (by simp)]
      · exact fun l member => single l (List.mem_cons_of_mem _ member)
      · simp

theorem feed_not_mem_of_splitLines (s : List Char) : ∀ line ∈ splitLines s, '\n' ∉ line := by
  induction s with
  | nil => simp [splitLines]
  | cons c rest ih =>
    rw [splitLines]
    split
    next feed =>
      intro line member
      rcases List.mem_cons.mp member with rfl | member
      · simp
      · exact ih line member
    next other =>
      cases split : splitLines rest with
      | nil => exact absurd split (splitLines_ne_nil rest)
      | cons first lines =>
        intro line member
        rw [split] at ih
        rcases List.mem_cons.mp member with rfl | member
        · simp [Ne.symm other, ih first List.mem_cons_self]
        · exact ih line (List.mem_cons_of_mem _ member)

/-- A change of one line that brings in no line feed is a change of that line only. -/
theorem splitLines_joinLines_modify (s : List Char) (index : Nat)
    (keeps : ∀ line, '\n' ∉ line → '\n' ∉ change line) :
    splitLines (joinLines ((splitLines s).modify index change)) =
      (splitLines s).modify index change := by
  apply splitLines_joinLines
  · intro empty
    have := congrArg List.length empty
    simp at this
  · intro line member
    obtain ⟨position, atPosition⟩ := List.mem_iff_getElem?.mp member
    rw [List.getElem?_modify] at atPosition
    obtain ⟨old, found, rfl⟩ := Option.map_eq_some_iff.mp atPosition
    have single := feed_not_mem_of_splitLines s old (List.mem_of_getElem? found)
    split
    · exact keeps old single
    · exact single

end EERDiagram.Text
