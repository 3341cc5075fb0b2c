import EERDiagram.Proofs.Diagram.Drawing

/-! Documents without a diagram. Three things can be wrong with a line: a numeral of its pair is too
long, a node's coordinates are beyond the doubles, or the spiral has no position for a node. Reading
fails exactly at the first line with one of them. -/
namespace EERDiagram

open Coordinates (cut? maxDigits)

/-- How many of the lines declare a node without coordinates. -/
def Line.turns (lines : List (List Char)) : Nat :=
  (lines.filterMap declaration?).countP (·.coordinates.isNone)

/-- The coordinates that no double stands for, as faults of the node's fields. -/
def Draft.outOfRange (x y : Int) : List (FieldError Int) :=
  (if Decimal.overflowBound ≤ x.natAbs then [⟨"Node.x", .notNumber, x⟩] else []) ++
    if Decimal.overflowBound ≤ y.natAbs then [⟨"Node.y", .notNumber, y⟩] else []

/-- A raw line that keeps its document from being read, after `turns` nodes were put on the
spiral. -/
inductive Line.Offends (spiral : Spiral) (turns : Nat) (raw : List Char) : ReadingError → Prop where
  /-- The pair of a line is read whatever the line says, and its first numeral comes first. -/
  | numeral : isSilent (content raw) = false → cut? (content raw) = some cut →
      [cut.pair.x, cut.pair.y].find? (maxDigits < ·.digits.length) = some long →
      Offends spiral turns raw (.line ⟨long.digits.length⟩)
  | range : declaration? raw = some line → line.coordinates = some (x, y) →
      Decimal.overflowBound ≤ x.natAbs ∨ Decimal.overflowBound ≤ y.natAbs →
      Offends spiral turns raw (.fields (Draft.outOfRange x y))
  | placement : declaration? raw = some line → line.coordinates = none →
      spiral.place turns = .error e → Offends spiral turns raw (.placement e)

/-- The line with an index offends, after `turns` nodes before the first line were put on the
spiral. -/
def Line.OffendsAt (spiral : Spiral) (turns : Nat) (lines : List (List Char)) (index : Nat)
    (e : ReadingError) : Prop :=
  ∃ raw, lines[index]? = some raw ∧ Offends spiral (turns + Line.turns (lines.take index)) raw e

variable {spiral : Spiral} {draft next : Draft} {index turns : Nat} {line : Line}
  {raw : List Char} {lines : List (List Char)} {entry : Option Entry} {e : ReadingError}

namespace Spiral

theorem natAbs_lt_of_wholeCoordinate {v : Float} (whole : wholeCoordinate v = .ok n) :
    n.natAbs < Decimal.overflowBound := by
  rw [wholeCoordinate] at whole
  split at whole
  next rounds =>
    obtain rfl := Except.ok.inj whole
    exact Decimal.natAbs_lt_of_roundHalfUp rounds
  next => contradiction

/-- A point of the spiral is rounded from doubles, so it is never too far away for one. -/
theorem natAbs_lt_of_point {angle : Float} (found : spiral.point angle = .ok (x, y)) :
    x.natAbs < Decimal.overflowBound ∧ y.natAbs < Decimal.overflowBound := by
  simp only [point] at found
  split at found
  · contradiction
  · obtain ⟨a, b, wholeX, wholeY, same⟩ := both_eq_ok_iff.mp found
    obtain ⟨rfl, rfl⟩ := Prod.mk.inj same
    exact ⟨natAbs_lt_of_wholeCoordinate wholeX, natAbs_lt_of_wholeCoordinate wholeY⟩

end Spiral

namespace Draft

theorem wholePosition_eq_error_iff {x y : Int} : wholePosition x y = .error e ↔
    (Decimal.overflowBound ≤ x.natAbs ∨ Decimal.overflowBound ≤ y.natAbs) ∧
      e = .fields (outOfRange x y) := by
  have faults : outOfRange x y =
      (if Decimal.ofInt? x = none then [⟨"Node.x", .notNumber, x⟩] else []) ++
        if Decimal.ofInt? y = none then [⟨"Node.y", .notNumber, y⟩] else [] := by
    rw [outOfRange, if_congr (Decimal.ofInt?_eq_none_iff (n := x)).symm rfl rfl,
      if_congr (Decimal.ofInt?_eq_none_iff (n := y)).symm rfl rfl]
  rw [faults, ← Decimal.ofInt?_eq_none_iff, ← Decimal.ofInt?_eq_none_iff]
  unfold wholePosition
  generalize Decimal.ofInt? x = p, Decimal.ofInt? y = q
  cases p <;> cases q <;> simp [eq_comm]

theorem positionAt_eq_error_iff {angle : Float} :
    spiral.positionAt angle = .error e ↔
      ∃ p, spiral.point angle = .error p ∧ e = .placement p := by
  rw [Spiral.positionAt]
  cases found : spiral.point angle with
  | error p => simp [eq_comm]
  | ok place =>
    obtain ⟨smallX, smallY⟩ := Spiral.natAbs_lt_of_point found
    have whole := wholePosition_eq_error_iff (e := e) (x := place.1) (y := place.2)
    simp only [Nat.not_le.mpr smallX, Nat.not_le.mpr smallY, or_self, false_and] at whole
    simp [whole]

theorem position_eq_error_iff : draft.position spiral line = .error e ↔
    (∃ x y, line.coordinates = some (x, y) ∧
      (Decimal.overflowBound ≤ x.natAbs ∨ Decimal.overflowBound ≤ y.natAbs) ∧
      e = .fields (outOfRange x y)) ∨
    (line.coordinates = none ∧ ∃ p, spiral.point (spiral.turn draft.angle) = .error p ∧
      e = .placement p) := by
  cases own : line.coordinates with
  | some pair =>
    rw [position_of_coordinates own, map_eq_error_iff, wholePosition_eq_error_iff]
    simp only [Option.some.injEq, Prod.ext_iff, reduceCtorEq, false_and, or_false]
    constructor
    · exact fun large => ⟨_, _, ⟨rfl, rfl⟩, large⟩
    · rintro ⟨_, _, ⟨rfl, rfl⟩, large⟩
      exact large
  | none =>
    rw [position_of_none own, map_eq_error_iff, positionAt_eq_error_iff]
    simp

end Draft

namespace Line

theorem declaration?_eq_some_iff : declaration? raw = some line ↔
    read raw = .ok (some line) ∧ (Statement.read line.text).declares = true := by
  rw [declaration?]
  split
  next found reads =>
    rw [reads]
    by_cases declared : (Statement.read found.text).declares = true
    · simp only [declared, if_true, Option.some.injEq, Except.ok.injEq]
      constructor
      · rintro rfl
        exact ⟨rfl, declared⟩
      · exact And.left
    · simp only [declared, if_false, Except.ok.injEq, Option.some.injEq, reduceCtorEq, false_iff]
      rintro ⟨rfl, own⟩
      exact declared own
  next other =>
    simp only [reduceCtorEq, false_iff]
    exact fun own => other line own.1

theorem turns_cons (raw : List Char) (rest : List (List Char)) :
    Line.turns (raw :: rest) = Line.turns [raw] + Line.turns rest := by
  simp only [Line.turns, ← List.countP_append, ← List.filterMap_append, List.singleton_append]

theorem offendsAt_zero :
    OffendsAt spiral turns (raw :: rest) 0 e ↔ Offends spiral turns raw e := by
  simp [OffendsAt, Line.turns]

theorem offendsAt_succ : OffendsAt spiral turns (raw :: rest) (index + 1) e ↔
    OffendsAt spiral (turns + Line.turns [raw]) rest index e := by
  simp only [OffendsAt, List.getElem?_cons_succ, List.take_succ_cons,
    turns_cons raw (rest.take index), Nat.add_assoc]

end Line

namespace Draft

theorem angle_of_step (start : draft.angle = spiral.angleAfter turns)
    (steps : draft.step spiral index raw = .ok (entry, next)) :
    next.angle = spiral.angleAfter (turns + Line.turns [raw]) := by
  rcases step_declaration steps with ⟨none, -, rfl⟩ |
    ⟨line, node, shorthand, placed, own, -, found, shown, turned⟩
  · simpa [Line.turns, none] using start
  · rw [turned, (Line.draws_of_position found shown start).2]
    simp [Line.turns, own, List.countP_singleton]

theorem step_eq_error_of_declares (reads : Line.read raw = .ok (some line))
    (declared : (Statement.read line.text).declares = true) :
    draft.step spiral index raw = .error e ↔ draft.position spiral line = .error e := by
  simp only [step, reads, enter_of_declares declared, map_eq_error_iff]

theorem step_eq_error_iff (start : draft.angle = spiral.angleAfter turns) :
    draft.step spiral index raw = .error e ↔ Line.Offends spiral turns raw e := by
  constructor
  · intro fails
    cases reads : Line.read raw with
    | error cause =>
      obtain ⟨cut, long, speaks, found, first, rfl⟩ := Line.read_eq_error_iff.mp reads
      simp only [step, reads] at fails
      obtain rfl := Except.error.inj fails
      exact .numeral speaks found first
    | ok found =>
      cases found with
      | none =>
        rw [step_of_silent reads] at fails
        contradiction
      | some line =>
        cases declared : (Statement.read line.text).declares with
        | false =>
          rw [step_of_not_declares reads declared "" ⟨0, 0⟩] at fails
          contradiction
        | true =>
          have own := Line.declaration?_eq_some_iff.mpr ⟨reads, declared⟩
          rcases position_eq_error_iff.mp ((step_eq_error_of_declares reads declared).mp fails) with
            ⟨x, y, pair, large, rfl⟩ | ⟨absent, cause, failed, rfl⟩
          · exact .range own pair large
          · rw [start] at failed
            exact .placement own absent failed
  · intro offends
    cases offends with
    | numeral speaks found first =>
      have reads := Line.read_eq_error_iff.mpr ⟨_, _, speaks, found, first, rfl⟩
      simp only [step, reads]
    | range own pair large =>
      obtain ⟨reads, declared⟩ := Line.declaration?_eq_some_iff.mp own
      rw [step_eq_error_of_declares reads declared]
      exact position_eq_error_iff.mpr (.inl ⟨_, _, pair, large, rfl⟩)
    | placement own absent failed =>
      obtain ⟨reads, declared⟩ := Line.declaration?_eq_some_iff.mp own
      rw [step_eq_error_of_declares reads declared]
      refine position_eq_error_iff.mpr (.inr ⟨absent, _, ?_, rfl⟩)
      rw [start]
      exact failed

end Draft

/-- A reading fails with what is wrong at the first line that offends. -/
theorem Reading.ofLines_failure_iff (start : draft.angle = spiral.angleAfter turns) :
    (ofLines spiral draft index lines).failure = some e ↔
      ∃ k, Line.OffendsAt spiral turns lines k e ∧
        ∀ earlier < k, ∀ other, ¬ Line.OffendsAt spiral turns lines earlier other := by
  induction lines generalizing draft index turns with
  | nil => simp [ofLines, Line.OffendsAt]
  | cons raw rest ih =>
    have first : ∀ other, draft.step spiral index raw = .error other ↔
        Line.OffendsAt spiral turns (raw :: rest) 0 other := fun other =>
      (Draft.step_eq_error_iff start).trans Line.offendsAt_zero.symm
    rw [ofLines]
    cases steps : draft.step spiral index raw with
    | error cause =>
      simp only [steps, Except.error.injEq] at first
      constructor
      · intro failed
        exact ⟨0, (first e).mp (Option.some.inj failed),
          fun _ below => absurd below (Nat.not_lt_zero _)⟩
      · rintro ⟨k, offends, least⟩
        cases k with
        | zero => exact congrArg some ((first e).mpr offends)
        | succ k => exact absurd ((first cause).mp rfl) (least 0 (Nat.succ_pos k) cause)
    | ok found =>
      simp only [steps, reduceCtorEq, false_iff] at first
      rw [ih (Draft.angle_of_step start steps)]
      constructor
      · rintro ⟨k, offends, least⟩
        refine ⟨k + 1, Line.offendsAt_succ.mpr offends, fun earlier below other => ?_⟩
        cases earlier with
        | zero => exact first other
        | succ earlier =>
          rw [Line.offendsAt_succ]
          exact least earlier (Nat.lt_of_succ_lt_succ below) other
      · rintro ⟨k, offends, least⟩
        cases k with
        | zero => exact absurd offends (first e)
        | succ k =>
          refine ⟨k, Line.offendsAt_succ.mp offends, fun earlier below other => ?_⟩
          rw [← Line.offendsAt_succ]
          exact least (earlier + 1) (Nat.succ_lt_succ below) other

/-- Reading fails exactly when a line offends, with what is wrong at the first such line; every
other document has a diagram. -/
theorem Diagram.read_eq_error_iff_offends (spiral : Spiral) (document : String) :
    (∀ e, read spiral document = .error e ↔
      ∃ k, Line.OffendsAt spiral 0 (Text.splitLines document.toList) k e ∧ ∀ earlier < k,
        ∀ other, ¬ Line.OffendsAt spiral 0 (Text.splitLines document.toList) earlier other) ∧
    ((∃ d, read spiral document = .ok d) ↔
      ∀ k e, ¬ Line.OffendsAt spiral 0 (Text.splitLines document.toList) k e) := by
  have start : ({} : Draft).angle = spiral.angleAfter 0 := rfl
  have fails : ∀ e, read spiral document = .error e ↔ _ := fun e =>
    Reading.read_eq_error_iff.trans (Reading.ofLines_failure_iff start)
  refine ⟨fails, ?_, ?_⟩
  · rintro ⟨d, reads⟩ k
    -- the least index that offends would be where the reading fails
    induction k using Nat.strongRecOn with
    | ind k earlier =>
      intro e offends
      have failed := (fails e).mpr ⟨k, offends, earlier⟩
      rw [reads] at failed
      contradiction
  · intro none
    cases reads : read spiral document with
    | ok d => exact ⟨d, rfl⟩
    | error e =>
      obtain ⟨k, offends, -⟩ := (fails e).mp reads
      exact absurd offends (none k e)

/-- The spiral is asked for a position only when a node has none of its own. -/
example : Diagram.read { angleStep := 1 / 0 } "ent A (1, 2)\nlink A A\nent B" =
    .error (.placement .infiniteAngle) := by decide +kernel

end EERDiagram
