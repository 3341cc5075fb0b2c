import EERDiagram.Proofs.Diagram.Reading
import EERDiagram.Proofs.Text.Splitting

/-! Text behind a document. Reading never looks ahead: what the lines of a document add, and
whether one of them fails, is the same whatever lines come after them. -/
namespace EERDiagram

namespace Reading

variable {spiral : Spiral} {draft : Draft} {index : Nat} {lines : List (List Char)}

/-- A reading that fails does not get to the lines behind it. -/
theorem ofLines_append_of_failure (more : List (List Char))
    (fails : (ofLines spiral draft index lines).failure = some e) :
    ofLines spiral draft index (lines ++ more) = ofLines spiral draft index lines := by
  induction lines generalizing draft index with
  | nil => contradiction
  | cons raw rest ih =>
    rw [List.cons_append, ofLines, ofLines]
    rw [ofLines] at fails
    cases steps : draft.step spiral index raw with
    | error other => rfl
    | ok found =>
      rw [steps] at fails
      simp only [ih fails]

end Reading

namespace Diagram

/-- What comes behind a document changes nothing of its diagram, and it mends no failure. -/
theorem read_append (spiral : Spiral) (document more : String) :
    (∀ m, read spiral (document ++ "\n" ++ more) = .ok m → ∃ d, read spiral document = .ok d ∧
      d.nodes <+: m.nodes ∧ d.links <+: m.links ∧ d.ignored <+: m.ignored) ∧
    ∀ e, read spiral document = .error e →
      read spiral (document ++ "\n" ++ more) = .error e := by
  have lines : Text.splitLines (document ++ "\n" ++ more).toList =
      Text.splitLines document.toList ++ Text.splitLines more.toList := by
    rw [String.toList_append, String.toList_append, List.append_assoc]
    exact Text.splitLines_append document.toList more.toList
  constructor
  · intro m reads
    obtain ⟨entries, final, run, rfl⟩ := Reading.read_eq_ok_iff.mp reads
    rw [lines] at run
    obtain ⟨first, middle, second, before, -, rfl⟩ := run.split
    refine ⟨ofEntries first, Reading.read_eq_ok_iff.mpr ⟨first, middle, before, rfl⟩, ?_⟩
    simp only [ofEntries, List.filterMap_append]
    exact ⟨List.prefix_append _ _, List.prefix_append _ _, List.prefix_append _ _⟩
  · intro e fails
    rw [Reading.read_eq_error_iff, Reading.ofDocument] at fails ⊢
    rw [lines, Reading.ofLines_append_of_failure _ fails, fails]

/-- The second text declares the owner of the first one's attribute, and takes its id once more. -/
theorem read_append_owner : ∃ d m, read {} "att b -> A (3, 4)" = .ok d ∧
    read {} ("att b -> A (3, 4)" ++ "\n" ++ "ent b_0 (1, 2)\nent A (5, 6)") = .ok m ∧
    d.nodes <+: m.nodes ∧ d.links <+: m.links ∧ d.ids = ["b_0"] ∧
    m.ids = ["b_0", "b_0_1", "A"] := by
  have reads : read {} ("att b -> A (3, 4)" ++ "\n" ++ "ent b_0 (1, 2)\nent A (5, 6)") = .ok
      ⟨[⟨"b_0", .attribute, "b", ⟨3, 4⟩, none, 0⟩, ⟨"b_0_1", .entity, "b_0", ⟨1, 2⟩, none, 1⟩,
        ⟨"A", .entity, "A", ⟨5, 6⟩, none, 2⟩], [⟨"A", "b_0", none, .solid⟩], []⟩ := by
    decide +kernel
  have front : read {} "att b -> A (3, 4)" = .ok
      ⟨[⟨"b_0", .attribute, "b", ⟨3, 4⟩, none, 0⟩], [⟨"A", "b_0", none, .solid⟩], []⟩ := by
    decide +kernel
  obtain ⟨d, own, nodes, links, -⟩ := (read_append {} _ _).1 _ reads
  obtain rfl := Except.ok.inj (front.symm.trans own)
  exact ⟨_, _, front, reads, nodes, links, rfl, rfl⟩

end Diagram
end EERDiagram
