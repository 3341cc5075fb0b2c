import EERDiagram.Proofs.Diagram.Failing
import Mathlib.Algebra.Order.Group.Nat
import Mathlib.Algebra.Order.Monoid.Canonical.Basic

/-! One document on two spirals. A spiral decides nothing but where the nodes without coordinates
go, so a document that has a diagram on one of them has one on another as long as that has a point
for each of these nodes. -/
namespace EERDiagram

namespace Spiral

/-- The spiral has a point for the node that comes after `index` others without coordinates: the
angle is not infinite, and both sums that are rounded are finite. -/
structure Reaches (s : Spiral) (index : Nat) : Prop where
  angle : (s.angleAfter (index + 1)).isInf = false
  x : Decimal.isFinite (s.centerX + (s.angleAfter (index + 1)).cos *
    (s.radius + s.angleAfter (index + 1) * s.growth)) = true
  y : Decimal.isFinite (s.centerY + (s.angleAfter (index + 1)).sin *
    (s.radius + s.angleAfter (index + 1) * s.growth)) = true

theorem wholeCoordinate_eq_ok_iff {v : Float} :
    (∃ n, wholeCoordinate v = .ok n) ↔ Decimal.isFinite v = true := by
  constructor
  · rintro ⟨n, whole⟩
    rw [wholeCoordinate] at whole
    split at whole
    next rounds => exact Decimal.isFinite_of_roundHalfUp rounds
    next => contradiction
  · intro finite
    obtain ⟨n, -, rounds, -⟩ := Decimal.roundHalfUp_of_isFinite v finite
    exact ⟨n, by rw [wholeCoordinate, rounds]⟩

theorem place_eq_ok_iff {s : Spiral} {index : Nat} :
    (∃ p, s.place index = .ok p) ↔ s.Reaches index := by
  simp only [place, point]
  constructor
  · rintro ⟨p, found⟩
    split at found
    · contradiction
    next bounded =>
      obtain ⟨x, y, wholeX, wholeY, -⟩ := both_eq_ok_iff.mp found
      exact ⟨by simpa using bounded, wholeCoordinate_eq_ok_iff.mp ⟨x, wholeX⟩,
        wholeCoordinate_eq_ok_iff.mp ⟨y, wholeY⟩⟩
  · rintro ⟨angle, finiteX, finiteY⟩
    obtain ⟨x, wholeX⟩ := wholeCoordinate_eq_ok_iff.mpr finiteX
    obtain ⟨y, wholeY⟩ := wholeCoordinate_eq_ok_iff.mpr finiteY
    rw [if_neg (by simp [angle])]
    exact ⟨(x, y), both_eq_ok_iff.mpr ⟨x, y, wholeX, wholeY, rfl⟩⟩

end Spiral

variable {spiral other : Spiral} {draft follower : Draft} {index turns : Nat} {raw : List Char}
  {lines : List (List Char)}

namespace Line

theorem turns_singleton (raw : List Char) : Line.turns [raw] =
    if ∃ line, declaration? raw = some line ∧ line.coordinates = none then 1 else 0 := by
  cases own : declaration? raw with
  | none => simp [Line.turns, own]
  | some line => cases pair : line.coordinates <;> simp [Line.turns, own, pair]

/-- What is wrong with a line on one spiral and not on another is that there is no point. -/
theorem not_offends_other_iff (fine : ∀ e, ¬ Offends spiral turns raw e) :
    (∀ e, ¬ Offends other turns raw e) ↔
      ∀ k < Line.turns [raw], ∃ p, other.place (turns + k) = .ok p := by
  rw [turns_singleton]
  constructor
  · intro absent k below
    split at below
    next declares =>
      obtain ⟨line, own, pair⟩ := declares
      obtain rfl := Nat.lt_one_iff.mp below
      cases placed : other.place (turns + 0) with
      | ok p => exact ⟨p, rfl⟩
      | error e => exact absurd (.placement own pair placed) (absent (.placement e))
    next => exact absurd below (Nat.not_lt_zero k)
  · intro placed e offends
    cases offends with
    | numeral speaks found long => exact fine _ (.numeral speaks found long)
    | range own pair large => exact fine _ (.range own pair large)
    | placement own pair failed =>
      rw [if_pos ⟨_, own, pair⟩] at placed
      obtain ⟨p, found⟩ := placed 0 Nat.zero_lt_one
      rw [Nat.add_zero, failed] at found
      contradiction

end Line

theorem Draft.step_eq_ok_iff (start : draft.angle = spiral.angleAfter turns) :
    (∃ found, draft.step spiral index raw = .ok found) ↔
      ∀ e, ¬ Line.Offends spiral turns raw e := by
  have fails : ∀ e, draft.step spiral index raw = .error e ↔ Line.Offends spiral turns raw e :=
    fun _ => Draft.step_eq_error_iff start
  simp only [← fails]
  cases draft.step spiral index raw <;> simp

theorem Reading.failure_other (start : draft.angle = spiral.angleAfter turns)
    (begin : follower.angle = other.angleAfter turns)
    (succeeds : (ofLines spiral draft index lines).failure = none) :
    (ofLines other follower index lines).failure = none ↔
      ∀ k < Line.turns lines, ∃ p, other.place (turns + k) = .ok p := by
  induction lines generalizing draft follower index turns with
  | nil => simp [ofLines, Line.turns]
  | cons raw rest ih =>
    rw [ofLines] at succeeds ⊢
    cases steps : draft.step spiral index raw with
    | error e => simp [steps] at succeeds
    | ok found =>
      simp only [steps] at succeeds
      have fine := (Draft.step_eq_ok_iff start).mp ⟨found, steps⟩
      have own : (∃ followed, follower.step other index raw = .ok followed) ↔
          ∀ k < Line.turns [raw], ∃ p, other.place (turns + k) = .ok p :=
        (Draft.step_eq_ok_iff begin).trans (Line.not_offends_other_iff fine)
      rw [Line.turns_cons, forall_lt_add_iff_lt_left, ← own]
      simp only [← Nat.add_assoc]
      cases follows : follower.step other index raw with
      | error e => simp
      | ok followed =>
        have later := ih (Draft.angle_of_step start steps) (Draft.angle_of_step begin follows)
          succeeds
        simpa using later

/-- A document with a diagram on one spiral has one on another exactly if that reaches as many
points as the document has nodes without coordinates. -/
theorem Diagram.read_other_iff (reads : read spiral document = .ok d) (other : Spiral) :
    (∃ m, read other document = .ok m) ↔
      ∀ k < Line.turns (Text.splitLines document.toList), other.Reaches k := by
  have result : ∀ s : Spiral, (∃ m, read s document = .ok m) ↔
      (Reading.ofLines s {} 0 (Text.splitLines document.toList)).failure = none := by
    intro s
    rw [read, Reading.diagram, Reading.ofDocument]
    cases (Reading.ofLines s {} 0 (Text.splitLines document.toList)).failure <;> simp
  have succeeds := (result spiral).mp ⟨d, reads⟩
  have start : ∀ s : Spiral, ({} : Draft).angle = s.angleAfter 0 := fun _ => rfl
  rw [result, Reading.failure_other (start spiral) (start other) succeeds]
  simp only [Nat.zero_add, Spiral.place_eq_ok_iff]

end EERDiagram
