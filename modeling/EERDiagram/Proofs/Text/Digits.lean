import EERDiagram.Text.Basic
import Mathlib.Algebra.Group.Nat.Defs
import Mathlib.Data.List.Basic

/-! Runs of digits. A run ends where something else stands, and a number is read back from the
digits that it is written with. -/
namespace EERDiagram.Text

section Runs

variable {p : α → Bool} {s rest : List α}

theorem takeWhile_append_of_ends (run : ∀ c ∈ s, p c = true)
    (ends : ∀ c ∈ rest.head?, p c = false) : (s ++ rest).takeWhile p = s := by
  rw [List.takeWhile_append_of_pos run]
  cases rest with
  | nil => simp
  | cons c others => rw [List.takeWhile_cons_of_neg (by simpa using ends c rfl), List.append_nil]

theorem dropWhile_append_of_ends (run : ∀ c ∈ s, p c = true)
    (ends : ∀ c ∈ rest.head?, p c = false) : (s ++ rest).dropWhile p = rest := by
  rw [List.dropWhile_append_of_pos run]
  cases rest with
  | nil => rfl
  | cons c others => exact List.dropWhile_cons_of_neg (by simpa using ends c rfl)

end Runs

theorem head?_toDigits (positive : 0 < n) : (Nat.toDigits 10 n).head? ≠ some '0' := by
  induction n using Nat.strongRecOn with
  | ind n ih =>
    rw [Nat.toDigits_eq_if (by decide)]
    split
    next single => simp; omega
    next =>
      rw [List.head?_append_of_ne_nil _ Nat.toDigits_ne_nil]
      exact ih (n / 10) (by omega) (by omega)

theorem digitsValue_eq_ofDigitChars (s : List Char) :
    digitsValue (s.map (·.toNat - 48)) = Nat.ofDigitChars 10 s 0 := by
  rw [digitsValue, List.foldl_map, Nat.ofDigitChars_eq_foldl]
  rfl

theorem hexValue?_digitChar (small : d < 16) : hexValue? (Nat.digitChar d) = some d := by
  revert d
  decide

theorem hexNumber?_toDigits (n : Nat) : hexNumber? (Nat.toDigits 16 n) = some n := by
  induction n using Nat.strongRecOn with
  | ind n ih =>
    rw [Nat.toDigits_eq_if (by decide)]
    split
    next single => simp [hexNumber?, hexValue?_digitChar single]
    next =>
      have last := hexValue?_digitChar (Nat.mod_lt n (by decide : 16 > 0))
      have front := ih (n / 16) (by omega)
      rw [hexNumber?] at front ⊢
      rw [List.foldlM_append, front]
      simp [last]
      omega

theorem hexNumber?_hex (width n : Nat) : hexNumber? (hex width n) = some n := by
  have zeros : ∀ k s, hexNumber? (List.replicate k '0' ++ s) = hexNumber? s := by
    intro k s
    induction k with
    | zero => rfl
    | succ k ih =>
      rw [List.replicate_succ, List.cons_append, hexNumber?, List.foldlM_cons]
      exact ih
  rw [hex, zeros, hexNumber?_toDigits]

theorem length_hex (small : n < 16 ^ width) (positive : 0 < width) :
    (hex width n).length = width := by
  have fits := (Nat.length_toDigits_le_iff (by decide) positive).mpr small
  simp only [hex, List.length_append, List.length_replicate]
  omega

theorem hexValue?_of_foldlM {s : List Char}
    (value : s.foldlM (fun value c => (hexValue? c).map (16 * value + ·)) start = some n) :
    ∀ c ∈ s, (hexValue? c).isSome = true := by
  induction s generalizing start with
  | nil => simp
  | cons first rest ih =>
    obtain ⟨next, found, value⟩ := Option.bind_eq_some_iff.mp value
    obtain ⟨digit, same, -⟩ := Option.map_eq_some_iff.mp found
    exact List.forall_mem_cons.mpr ⟨by simp [same], ih value⟩

theorem hexValue?_of_mem_hex (member : c ∈ hex width n) : (hexValue? c).isSome = true :=
  hexValue?_of_foldlM (hexNumber?_hex width n) c member

end EERDiagram.Text
