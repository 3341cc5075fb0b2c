import EERDiagram.Artifact.Format
import EERDiagram.Proofs.Storage.Tree

/-! Saving a diagram in a tree. The directories above the file are made first, so a path that leads
nowhere is no obstacle; a file above it is one, and so is a directory in its place. -/
namespace EERDiagram

namespace Tree

def above (t : Tree) (path : Path) : List (List String) :=
  way (t.origin path.start) path.parent.names

/-- The place that a path leads to once everything above it is there. -/
def goal (t : Tree) (path : Path) : List String := target (t.origin path.start) path.names

/-- Something stands in the way of a new file. -/
def Blocks (t : Tree) (path : Path) : Prop :=
  (∃ p ∈ t.above path, (t.file? p).isSome = true) ∨ t.goal path ∈ t.above path ∨
    t.entry? (t.goal path) = some .directory

theorem Made.locate {t middle : Tree} {path : Path}
    (made : Made t (t.above path) (.ok ()) middle) : middle.locate path = .ok (t.goal path) := by
  obtain ⟨start, names⟩ := path
  have same := origin_congr made.workingDirectory start
  rcases List.eq_nil_or_concat names with rfl | ⟨names, name, rfl⟩
  · rw [locate_eq, same]
    rfl
  · rw [List.concat_eq_append] at made ⊢
    have clear : ∀ p ∈ way (middle.origin start) names, middle.entry? p = some .directory := by
      intro p member
      rw [same] at member
      rw [made.entries rfl, if_pos]
      rwa [above, parent_concat]
    rw [locate_below clear, same, goal, target_concat]

end Tree

theorem Artifact.run_save (d : Diagram) (output : Path) (t : Tree) :
    (save d output : StateM Tree _).run t =
      match (Storage.makeDirectories output.parent : StateM Tree _).run t with
      | (.error e, after) => (.error e, after)
      | (.ok (), after) => (Storage.writeText output (write d) : StateM Tree _).run after := by
  simp only [save, StateT.run, bind, StateT.bind]
  cases ran : (Storage.makeDirectories output.parent : StateM Tree _) t with
  | mk result after => cases result <;> rfl

/-- A diagram is saved unless something stands in the way of its file. No other file changes. -/
theorem Artifact.save_cases (d : Diagram) (output : Path) (t : Tree) :
    (t.Blocks output ∧ ∃ e after,
      (save d output : StateM Tree _).run t = (.error e, after) ∧ Tree.SameFiles t after) ∨
    (¬ t.Blocks output ∧ ∃ after, (save d output : StateM Tree _).run t = (.ok (), after) ∧
      Tree.Wrote t output (Text.encode (write d)) (t.goal output) after) := by
  have made := Tree.made_makeDirectories t output.parent
  rw [run_save]
  cases ran : (Storage.makeDirectories output.parent : StateM Tree _).run t with
  | mk result middle =>
    rw [ran] at made
    cases result with
    | error e => exact .inl ⟨.inl (made.fails.mp ⟨e, rfl⟩), e, middle, rfl, made.files⟩
    | ok done =>
      replace made : Tree.Made t (t.above output) (.ok ()) middle := made
      have clear : ¬ ∃ p ∈ t.above output, (t.file? p).isSome = true := by
        rw [← made.fails]
        simp
      have goal := made.entries rfl (t.goal output)
      simp only [Tree.run_writeText, made.locate]
      split
      next directory =>
        refine .inl ⟨.inr ?_, _, middle, rfl, made.files⟩
        rw [goal] at directory
        split at directory
        next member => exact .inl member
        next => exact .inr directory
      next free =>
        refine .inr ⟨?_, _, rfl, ?_⟩
        · rintro (file | member | directory)
          · exact clear file
          · exact free (goal.trans (if_pos member))
          · apply free
            rw [goal]
            split
            next => rfl
            next => exact directory
        · have wrote := Tree.wrote_put made.locate free (Text.encode (write d))
          exact ⟨wrote.located, wrote.file, fun p apart =>
            (wrote.others p apart).trans (made.files p)⟩

end EERDiagram
