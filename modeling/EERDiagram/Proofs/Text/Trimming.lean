import EERDiagram.Text.Basic
import Mathlib.Data.List.DropRight

/-! Trimming. A text is its trimmed form between blanks, and blanks around a text that neither
begins nor ends with one are exactly what trimming takes away. -/
namespace EERDiagram.Text

def AllBlank (s : List Char) : Prop := ∀ c ∈ s, isBlank c = true

structure Trimmed (s : List Char) : Prop where
  first : ∀ c ∈ s.head?, isBlank c = false
  last : ∀ c ∈ s.getLast?, isBlank c = false

theorem AllBlank.nil : AllBlank [] := fun _ member => absurd member List.not_mem_nil

theorem AllBlank.singleton (blank : isBlank c = true) : AllBlank [c] := by
  intro d member
  rw [List.mem_singleton.mp member]
  exact blank

theorem AllBlank.append (left : AllBlank s) (right : AllBlank t) : AllBlank (s ++ t) := by
  intro c member
  rcases List.mem_append.mp member with member | member
  · exact left c member
  · exact right c member

theorem dropEndWhile_eq_rdropWhile (p : α → Bool) (s : List α) :
    dropEndWhile p s = s.rdropWhile p := by
  induction s with
  | nil => rfl
  | cons a rest ih =>
    rw [dropEndWhile, ih]
    simp only [List.rdropWhile, List.reverse_cons, List.dropWhile_append]
    cases kept : rest.reverse.dropWhile p with
    | nil => by_cases holds : p a <;> simp [holds]
    | cons b others =>
      -- Something of the rest is kept, so the first element is kept as well.
      cases back : (b :: others).reverse with
      | nil => simp at back
      | cons first middle => simpa using back.symm

theorem trimEnd_append_blank (blank : AllBlank tail) : trimEnd (s ++ tail) = trimEnd s := by
  have reversed : ∀ c ∈ tail.reverse, isBlank c = true := fun c member =>
    blank c (List.mem_reverse.mp member)
  simp only [trimEnd, dropEndWhile_eq_rdropWhile, List.rdropWhile, List.reverse_append]
  rw [List.dropWhile_append_of_pos reversed]

theorem trimStart_blank_append (blank : AllBlank lead) : trimStart (lead ++ s) = trimStart s :=
  List.dropWhile_append_of_pos blank

theorem trimStart_of_first (first : ∀ c ∈ s.head?, isBlank c = false) : trimStart s = s := by
  cases s with
  | nil => rfl
  | cons c rest => exact List.dropWhile_cons_of_neg (by simpa using first c rfl)

theorem trimEnd_of_last (last : ∀ c ∈ s.getLast?, isBlank c = false) : trimEnd s = s := by
  rw [trimEnd, dropEndWhile_eq_rdropWhile, List.rdropWhile_eq_self_iff]
  intro nonempty
  have := last _ (List.getLast?_eq_some_getLast nonempty)
  simp [this]

theorem trimEnd_split (s : List Char) : ∃ tail, s = trimEnd s ++ tail ∧ AllBlank tail := by
  refine ⟨s.rtakeWhile isBlank, ?_, fun c member => List.mem_rtakeWhile_imp member⟩
  rw [trimEnd, dropEndWhile_eq_rdropWhile, List.rdropWhile_append_rtakeWhile]

theorem trimEnd_last (s : List Char) : ∀ c ∈ (trimEnd s).getLast?, isBlank c = false := by
  intro c final
  rw [trimEnd, dropEndWhile_eq_rdropWhile] at final
  have nonempty : s.rdropWhile isBlank ≠ [] := by
    intro empty
    simp [empty] at final
  rw [List.getLast?_eq_some_getLast nonempty] at final
  obtain rfl := Option.some.inj final
  simpa using List.rdropWhile_last_not isBlank s nonempty

theorem trimStart_split (s : List Char) : ∃ lead, s = lead ++ trimStart s ∧ AllBlank lead :=
  ⟨s.takeWhile isBlank, List.takeWhile_append_dropWhile.symm, fun _ member =>
    List.mem_takeWhile_imp member⟩

theorem trimStart_first (s : List Char) : ∀ c ∈ (trimStart s).head?, isBlank c = false := by
  intro c front
  have := List.head?_dropWhile_not isBlank s
  rw [trimStart] at front
  rw [front] at this
  simpa using this

/-- Blanks around a trimmed text are what trimming takes away. -/
theorem trim_surround (before : AllBlank lead) (core : Trimmed s) (after : AllBlank tail) :
    trim (lead ++ s ++ tail) = s := by
  cases s with
  | nil =>
    have blank : AllBlank (lead ++ [] ++ tail) := by simpa using before.append after
    rw [trim, trimStart, List.dropWhile_eq_nil_iff.mpr blank]
    rfl
  | cons c rest =>
    rw [trim, List.append_assoc, trimStart_blank_append before,
      trimStart_of_first (by simpa using core.first), trimEnd_append_blank after,
      trimEnd_of_last core.last]

theorem trimEnd_cons (mark : isBlank c = false) (s : List Char) :
    trimEnd (c :: s) = c :: trimEnd s := by
  rw [trimEnd, dropEndWhile]
  cases kept : dropEndWhile isBlank s with
  | nil => simp [mark, trimEnd, kept]
  | cons d rest => simp [trimEnd, kept]

theorem trimmed_trim (s : List Char) : Trimmed (trim s) where
  last := trimEnd_last _
  first := by
    intro c front
    obtain ⟨tail, split, -⟩ := trimEnd_split (trimStart s)
    have start : c ∈ (trimStart s).head? := by
      rw [split, List.head?_append]
      simp [trim] at front
      simp [front]
    exact trimStart_first s c start

theorem trim_split (s : List Char) :
    ∃ lead tail, s = lead ++ trim s ++ tail ∧ AllBlank lead ∧ AllBlank tail := by
  obtain ⟨lead, splitStart, blankStart⟩ := trimStart_split s
  obtain ⟨tail, splitEnd, blankEnd⟩ := trimEnd_split (trimStart s)
  refine ⟨lead, tail, ?_, blankStart, blankEnd⟩
  rw [trim, List.append_assoc, ← splitEnd, ← splitStart]

theorem trim_append_blank (blank : AllBlank tail) (s : List Char) : trim (s ++ tail) = trim s := by
  obtain ⟨lead, rest, split, before, after⟩ := trim_split s
  conv_lhs => rw [split, List.append_assoc]
  exact trim_surround before (trimmed_trim s) (after.append blank)

theorem trim_of_trimmed (core : Trimmed s) : trim s = s := by
  simpa using trim_surround AllBlank.nil core AllBlank.nil

theorem trimEnd_append_of_last (nonempty : s ≠ []) (last : ∀ c ∈ s.getLast?, isBlank c = false)
    (after : AllBlank tail) : trimEnd (lead ++ s ++ tail) = lead ++ s := by
  rw [trimEnd_append_blank after]
  apply trimEnd_of_last
  intro c final
  rw [List.getLast?_append_of_ne_nil _ nonempty] at final
  exact last c final

end EERDiagram.Text
