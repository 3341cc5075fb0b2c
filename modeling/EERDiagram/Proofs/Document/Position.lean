import EERDiagram.Proofs.Document.Rewriting

/-! The position of a line. A grammar says what a pair is; at one place of a text begins at most one
pair, and the first one is the position. Reading a line follows the grammar, so what looks nearly
like a pair and stands before the first one is passed over. -/
namespace EERDiagram

namespace Coordinates

/-- A pair stands somewhere in the text. -/
def HoldsPair (s : List Char) : Prop :=
  ∃ before pair after p, s = before ++ pair ++ after ∧ Pair.Spells p pair

theorem holdsPair_iff : HoldsPair s ↔ ∃ cut, cut? s = some cut := by
  constructor
  · rintro ⟨before, pair, after, p, split, spelled⟩
    obtain ⟨cut, found, -⟩ := cut?_of_spells spelled split
    exact ⟨cut, found⟩
  · rintro ⟨cut, found⟩
    obtain ⟨pair, spelled, split⟩ := cut?_split found
    exact ⟨cut.before, pair, cut.after, cut.pair, split, spelled⟩

theorem cut?_eq_some_iff : cut? s = some cut ↔
    ∃ pair, FirstPair s cut.before pair cut.after ∧ cut.pair.Spells pair := by
  constructor
  · exact firstPair_of_cut?
  · rintro ⟨pair, first, spelled⟩
    obtain ⟨own, found, -⟩ := cut?_of_spells spelled first.split
    obtain ⟨other, again, spelt⟩ := firstPair_of_cut? found
    obtain ⟨before, rfl, after⟩ := again.unique first
    obtain ⟨-, value⟩ := spelt.unique spelled (rfl : other ++ [] = other ++ [])
    rw [found]
    show some (Cut.mk own.before own.pair own.after) = some cut
    rw [before, value, after]

end Coordinates

namespace Line

open Coordinates (HoldsPair FirstPair Pair Cut cut? maxDigits)

/-- What the grammar says of the content of a line: there is no pair, or the first pair is the
position, unless one of its numerals is too long. -/
inductive Recognised (s : List Char) : Except LineError (Option Line) → Prop where
  | unplaced : ¬ HoldsPair s → Recognised s (.ok (some ⟨none, s⟩))
  | placed {p : Pair} : FirstPair s before pair after → p.Spells pair →
      p.x.digits.length ≤ maxDigits → p.y.digits.length ≤ maxDigits →
      Recognised s (.ok (some ⟨some (p.x.value, p.y.value), Text.trim (before ++ after)⟩))
  | tooLong {p : Pair} : FirstPair s before pair after → p.Spells pair →
      [p.x, p.y].find? (maxDigits < ·.digits.length) = some long →
      Recognised s (.error ⟨long.digits.length⟩)

variable {s raw : List Char}

theorem isSilent_eq_false_iff : isSilent s = false ↔ s ≠ [] ∧ ¬ ['/', '/'] <+: s := by
  rw [isSilent.eq_def]
  split
  next => simp
  next => simp
  next nonempty other =>
    simp only [true_iff]
    refine ⟨nonempty, ?_⟩
    rintro ⟨rest, rfl⟩
    exact other rest rfl

theorem exists_recognised (s : List Char) : ∃ r, Recognised s r := by
  by_cases holds : HoldsPair s
  · obtain ⟨cut, found⟩ := Coordinates.holdsPair_iff.mp holds
    obtain ⟨pair, first, spelled⟩ := Coordinates.firstPair_of_cut? found
    cases long : [cut.pair.x, cut.pair.y].find? (maxDigits < ·.digits.length) with
    | some numeral => exact ⟨_, .tooLong first spelled long⟩
    | none =>
      simp only [List.find?_eq_none, List.forall_mem_cons, decide_eq_true_eq, Nat.not_lt] at long
      exact ⟨_, .placed first spelled long.1 long.2.1⟩
  · exact ⟨_, .unplaced holds⟩

theorem read_of_recognised (speaks : isSilent (content raw) = false)
    (recognised : Recognised (content raw) r) : read raw = r := by
  cases recognised with
  | unplaced bare =>
    have missing : cut? (content raw) = none := by
      rw [Option.eq_none_iff_forall_ne_some]
      exact fun cut found => bare (Coordinates.holdsPair_iff.mpr ⟨cut, found⟩)
    simp only [read, speaks, Bool.false_eq_true, if_false, missing]
  | @placed before pair after p first spelled shortX shortY =>
    have found : cut? (content raw) = some ⟨before, p, after⟩ :=
      Coordinates.cut?_eq_some_iff.mpr ⟨pair, first, spelled⟩
    exact (read_of_cut speaks found).mpr ⟨shortX, shortY, rfl⟩
  | @tooLong before pair after numeral p first spelled long =>
    have found : cut? (content raw) = some ⟨before, p, after⟩ :=
      Coordinates.cut?_eq_some_iff.mpr ⟨pair, first, spelled⟩
    exact read_eq_error_iff.mpr ⟨_, numeral, speaks, found, long, rfl⟩

theorem Recognised.holdsPair (recognised : Recognised s (.ok (some line))) :
    line.coordinates.isSome = true ↔ HoldsPair s := by
  cases recognised with
  | unplaced bare => simpa using bare
  | @placed before pair after p first spelled _ _ =>
    exact iff_of_true rfl ⟨before, pair, after, p, first.split, spelled⟩

/-- A line that is neither blank nor a comment is read as the grammar says and in no other way: it
has coordinates exactly when a pair stands in it, and where a pair begins no other one does. -/
theorem read_recognises (nonempty : content raw ≠ []) (statement : ¬ ['/', '/'] <+: content raw) :
    (∀ r, read raw = r ↔ Recognised (content raw) r) ∧
    (∀ line, read raw = .ok (some line) →
      (line.coordinates.isSome = true ↔ HoldsPair (content raw))) ∧
    ∀ before one after other tail (p q : Pair), content raw = before ++ one ++ after →
      content raw = before ++ other ++ tail → p.Spells one → q.Spells other →
      one = other ∧ p = q := by
  have speaks := isSilent_eq_false_iff.mpr ⟨nonempty, statement⟩
  have follows : ∀ r, read raw = r ↔ Recognised (content raw) r := by
    intro r
    constructor
    · rintro rfl
      obtain ⟨r, recognised⟩ := exists_recognised (content raw)
      rwa [read_of_recognised speaks recognised]
    · exact read_of_recognised speaks
  refine ⟨follows, fun line reads => ((follows _).mp reads).holdsPair, ?_⟩
  intro before one after other tail p q split again spelled spelt
  rw [split, List.append_assoc, List.append_assoc] at again
  exact spelled.unique spelt (List.append_cancel_left again)

/-- A parenthesis too many, a blank before a comma and a fraction stand before the pair, which has
digits of two scripts; another pair stands behind it. -/
theorem read_recognises_near_misses :
    let raw := "\uFEFF ent A ((1 , 2) (3.5, 4)(-\u0663, 04)x(7,8) \r".toList
    content raw ≠ [] ∧ ¬ ['/', '/'] <+: content raw ∧
    Recognised (content raw)
      (.ok (some ⟨some (-3, 4), "ent A ((1 , 2) (3.5, 4)x(7,8)".toList⟩)) := by
  intro raw
  have nonempty : content raw ≠ [] := by decide +kernel
  have statement : ¬ ['/', '/'] <+: content raw := by decide +kernel
  exact ⟨nonempty, statement, ((read_recognises nonempty statement).1 _).mp (by decide +kernel)⟩

end Line
end EERDiagram
