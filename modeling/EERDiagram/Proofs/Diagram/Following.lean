import EERDiagram.Proofs.Diagram.Placement

/-! Two readings of the same lines, one with a spiral that is a turn behind the other's. They
take the same ids, so they add the same entries up to the positions of nodes without a pair. -/
namespace EERDiagram

/-- A draft that will put its next node where the other one put its last. -/
structure Draft.Behind (spiral : Spiral) (ahead draft : Draft) : Prop where
  taken : draft.taken = ahead.taken
  angle : ahead.angle = spiral.turn draft.angle
  place : ∃ position, spiral.positionAt ahead.angle = .ok position

variable {spiral : Spiral} {ahead draft next final : Draft} {index : Nat} {raw : List Char}

namespace Draft

theorem Behind.position (behind : Behind spiral ahead draft)
    (placed : ahead.position spiral line = .ok (point, next)) :
    ∃ position follower, draft.position spiral line = .ok (position, follower) ∧
      Behind spiral next follower := by
  rcases position_cases placed with ⟨x, y, pair, whole, rfl⟩ | ⟨pair, found, rfl⟩
  · refine ⟨point, draft, ?_, behind⟩
    rw [position_of_coordinates pair, whole]
    rfl
  · obtain ⟨position, last⟩ := behind.place
    refine ⟨position, { draft with angle := ahead.angle }, ?_, behind.taken, rfl, point, found⟩
    rw [position_of_none pair, ← behind.angle, last]
    rfl

theorem Behind.step (behind : Behind spiral ahead draft)
    (steps : ahead.step spiral index raw = .ok (entry, next)) :
    ∃ other follower, draft.step spiral index raw = .ok (other, follower) ∧
      other.map Entry.unplaced = entry.map Entry.unplaced ∧ Behind spiral next follower := by
  rcases step_cases steps with ⟨reads, rfl, rfl⟩ | ⟨line, reads, declared, entered, rfl⟩ |
    ⟨line, point, placed, reads, declared, found, rfl, rfl⟩
  · exact ⟨none, draft, step_of_silent reads, rfl, behind⟩
  · refine ⟨_, draft, step_of_not_declares reads declared "" ⟨0, 0⟩, ?_, behind⟩
    rw [entered "" ⟨0, 0⟩]
  · obtain ⟨position, follower, given, after⟩ := behind.position found
    refine ⟨_, _, step_of_declares reads declared given, ?_, ?_, after.angle, after.place⟩
    · rw [Option.map_some, Option.map_some, behind.taken]
      exact congrArg some (Statement.unplaced_entry _ _ _ _ position point)
    · simp only [behind.taken, after.taken]

end Draft

theorem Reading.Runs.behind {entries : List Entry}
    (run : Runs spiral ahead index lines entries final)
    (behind : Draft.Behind spiral ahead draft) :
    ∃ others last, Runs spiral draft index lines others last ∧
      others.map Entry.unplaced = entries.map Entry.unplaced := by
  induction run generalizing draft with
  | nil => exact ⟨[], draft, .nil, rfl⟩
  | @cons ahead next final index raw rest entry entries steps run ih =>
    obtain ⟨other, follower, given, same, after⟩ := behind.step steps
    obtain ⟨others, last, second, alike⟩ := ih after
    refine ⟨other.toList ++ others, last, .cons given second, ?_⟩
    rw [List.map_append, List.map_append, alike]
    cases other <;> cases entry <;> simp_all

end EERDiagram
