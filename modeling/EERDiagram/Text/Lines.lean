/-! Lines of a document. Only the line feed ends a line, so a carriage return stays with its
line and joining the lines gives back the document. -/
namespace EERDiagram.Text

def splitLines : List Char → List (List Char)
  | [] => [[]]
  | c :: rest =>
    if c = '\n' then [] :: splitLines rest
    else match splitLines rest with
      | [] => [[c]]
      | line :: lines => (c :: line) :: lines

def joinLines : List (List Char) → List Char
  | [] => []
  | [line] => line
  | line :: lines => line ++ '\n' :: joinLines lines

/-- Text with every line ending made a line feed: a carriage return, with or without one. -/
def unifyEndings : List Char → List Char
  | [] => []
  | '\r' :: '\n' :: rest => '\n' :: unifyEndings rest
  | c :: rest => (if c = '\r' then '\n' else c) :: unifyEndings rest

@[simp] theorem splitLines_ne_nil (s : List Char) : splitLines s ≠ [] := by
  cases s with
  | nil => simp [splitLines]
  | cons c rest =>
    simp only [splitLines]
    split
    · simp
    · split <;> simp

@[simp] theorem joinLines_splitLines (s : List Char) : joinLines (splitLines s) = s := by
  induction s with
  | nil => rfl
  | cons c rest ih =>
    simp only [splitLines]
    split
    next h =>
      cases hs : splitLines rest with
      | nil => exact absurd hs (splitLines_ne_nil rest)
      | cons line lines => rw [hs] at ih; simp [joinLines, ih, h]
    next =>
      cases hs : splitLines rest with
      | nil => exact absurd hs (splitLines_ne_nil rest)
      | cons line lines =>
        rw [hs] at ih
        cases lines with
        | nil => simpa [joinLines] using ih
        | cons next others => simpa [joinLines] using ih

end EERDiagram.Text
