import EERDiagram.Proofs.Diagram.Naming
import EERDiagram.Proofs.Diagram.Warnings

/-! Hierarchies without subclasses or members. The warning goes by the number of link ends at the
hierarchy and allows for one, the end of the link to the superclass. That link is the shorthand of
the hierarchy's own line, so the number says what it should only if the shorthand has one end
there. -/
namespace EERDiagram

/-- The links that the lines other than the one with an index give. -/
def Reading.linksBeside (spiral : Spiral) (document : String) (index : Nat) : List Link :=
  (((List.range (Text.splitLines document.toList).length).erase index).flatMap
    (share spiral document)).filterMap Entry.link?

def Document.superclass? (document : String) (h : Node) : Option String :=
  match Line.read (Document.line document h.line) with
  | .ok (some line) => (Statement.read line.text).owner?
  | _ => none

namespace Diagram

/-- The ends that a shorthand has at its own hierarchy. -/
def shorthandEnds (d : Diagram) (id : String) : Option String → Nat
  | some superclass => if superclass ∈ d.ids then if superclass = id then 2 else 1 else 0
  | none => 0

/-- Whether the number of link ends at a hierarchy tells if links other than its shorthand end
there. It does when the shorthand names another node, when it names the hierarchy itself and there
are others, and when it names no node or is missing and the others do not have just one end. -/
def Discerned (d : Diagram) (id : String) : Option String → Nat → Prop
  | some superclass, others =>
    if superclass ∈ d.ids then superclass = id → others ≠ 0 else others ≠ 1
  | none, others => others ≠ 1

variable {spiral : Spiral} {document : String} {d : Diagram} {h : Node} {id : String}
  {superclass : Option String} {own : Option Link} {links : List Link}

theorem discerned_iff : d.Discerned id superclass others ↔
    (d.shorthandEnds id superclass + others < 2 ↔ others = 0) := by
  cases superclass with
  | none =>
    rw [Discerned, shorthandEnds]
    omega
  | some superclass =>
    rw [Discerned, shorthandEnds]
    split
    next =>
      split
      next itself =>
        simp only [itself, true_implies]
        omega
      next other =>
        simp only [other, false_implies, true_iff]
        omega
    next => omega

theorem endsAt_shorthand (sources : own.map Link.source = superclass)
    (targets : ∀ link ∈ own, link.target = id) (member : id ∈ d.ids) :
    Link.endsAt (own.toList.filter (d.Resolves ·)) id = d.shorthandEnds id superclass := by
  subst sources
  cases own with
  | none => rfl
  | some link =>
    have target : link.target = id := targets link rfl
    simp only [Option.toList_some, Option.map_some, shorthandEnds, List.filter_singleton, Resolves,
      target, member, and_true]
    by_cases found : link.source ∈ d.ids
    · simp only [found, decide_true, cond_true, if_true, Link.endsAt, List.countP_singleton, target]
      by_cases itself : link.source = id <;> simp [itself]
    · simp [found, Link.endsAt]

theorem endsAt_resolvable (split : d.links.Perm (own.toList ++ links)) (id : String) :
    Link.endsAt d.resolvableLinks id = Link.endsAt (own.toList.filter (d.Resolves ·)) id +
      Link.endsAt (links.filter (d.Resolves ·)) id := by
  rw [resolvableLinks, Link.endsAt_perm (split.filter _), List.filter_append, Link.endsAt_append]

theorem links_perm (reads : read spiral document = .ok d) {index : Nat}
    (inside : index < (Text.splitLines document.toList).length) :
    d.links.Perm ((Reading.share spiral document index).filterMap Entry.link? ++
      Reading.linksBeside spiral document index) := by
  rw [congrArg Diagram.links (eq_ofEntries_shares reads), Reading.linksBeside, ofEntries,
    ← List.filterMap_append, ← List.flatMap_cons]
  exact ((List.perm_cons_erase (List.mem_range.mpr inside)).flatMap_right _).filterMap _

theorem shorthand_split (reads : read spiral document = .ok d) (member : h ∈ d.nodes) :
    ∃ own : Option Link, own.map Link.source = Document.superclass? document h ∧
      (∀ link ∈ own, link.target = h.id) ∧
      d.links.Perm (own.toList ++ Reading.linksBeside spiral document h.line.toNat) := by
  obtain ⟨index, middle, next, own, place, atIndex, steps, alone⟩ := share_of_mem reads member
  have split := links_perm reads (List.getElem?_eq_some_iff.mp atIndex).1
  have adds : Reading.Accounted index (Document.line document h.line) [.node h own]
      (ofEntries [.node h own]) :=
    Reading.accounted_of_step steps
  cases adds with
  | @node line _ _ speaks _ _ sources targets =>
    refine ⟨own, ?_, targets, ?_⟩
    · rw [sources, Document.superclass?, speaks]
    · rw [alone] at split
      rw [place, Int.toNat_natCast]
      cases own <;> exact split

/-- The warning about a hierarchy without subclasses or members is given exactly when no other link
than its shorthand ends there, as long as the number of ends tells that. -/
theorem emptyHierarchy_exact_iff (reads : read spiral document = .ok d) (member : h ∈ d.nodes)
    (hierarchy : h.kind.isHierarchy = true) :
    let others := (Reading.linksBeside spiral document h.line.toNat).filter (d.Resolves ·)
    (∃ own : Option Link, own.map Link.source = Document.superclass? document h ∧
      (∀ link ∈ own, link.target = h.id) ∧
      d.links.Perm (own.toList ++ Reading.linksBeside spiral document h.line.toNat)) ∧
    ((Warning.emptyHierarchy h ∈ d.warnings ↔ ∀ link ∈ others, ¬ link.Meets h.id) ↔
      d.Discerned h.id (Document.superclass? document h) (Link.endsAt others h.id)) := by
  intro others
  have parts := shorthand_split reads member
  refine ⟨parts, ?_⟩
  obtain ⟨own, sources, targets, split⟩ := parts
  have ends : Link.endsAt d.resolvableLinks h.id =
      d.shorthandEnds h.id (Document.superclass? document h) + Link.endsAt others h.id := by
    rw [endsAt_resolvable split, endsAt_shorthand sources targets (mem_ids member)]
  have told : Warning.emptyHierarchy h ∈ d.warnings ↔
      d.shorthandEnds h.id (Document.superclass? document h) + Link.endsAt others h.id < 2 := by
    rw [mem_warnings_emptyHierarchy, ends]
    simp only [member, hierarchy, true_and]
  rw [told, ← Link.endsAt_eq_zero_iff, discerned_iff]

/-- The shorthand names another node, and a second link comes from there, so nothing is told. -/
theorem emptyHierarchy_exact_doubled :
    let document := "ent A (1, 2)\nspec d -> A (3, 4)\nlink A d"
    let h : Node := ⟨"d", .specialization, "d", ⟨3, 4⟩, some "d", 1⟩
    ∃ d, read {} document = .ok d ∧ h ∈ d.nodes ∧ h.kind.isHierarchy = true ∧
      (Warning.emptyHierarchy h ∈ d.warnings ↔
        ∀ link ∈ (Reading.linksBeside {} document 1).filter (d.Resolves ·), ¬ link.Meets h.id) := by
  intro document h
  have reads : read {} document = .ok ⟨[⟨"A", .entity, "A", ⟨1, 2⟩, none, 0⟩, h],
      [⟨"A", "d", none, .double⟩, ⟨"A", "d", none, .solid⟩], []⟩ := by decide +kernel
  have superclass : Document.superclass? document h = some "A" := by decide +kernel
  have member : h ∈ [⟨"A", .entity, "A", ⟨1, 2⟩, none, 0⟩, h] := by simp
  obtain ⟨-, exact⟩ := emptyHierarchy_exact_iff reads member rfl
  refine ⟨_, reads, member, rfl, exact.mpr ?_⟩
  rw [superclass]
  exact fun itself => absurd itself (by decide)

/-- A subclass is linked to a hierarchy that has no superclass, and still the hierarchy is said to
have none. -/
theorem emptyHierarchy_told_of_subclass :
    let document := "ent B (1, 2)\nspec d (3, 4)\nlink d B"
    ∃ d h, read {} document = .ok d ∧ h ∈ d.nodes ∧ h.kind.isHierarchy = true ∧
      ¬ (Warning.emptyHierarchy h ∈ d.warnings ↔
        ∀ link ∈ (Reading.linksBeside {} document h.line.toNat).filter (d.Resolves ·),
          ¬ link.Meets h.id) := by
  intro document
  have reads : read {} document = .ok ⟨[⟨"B", .entity, "B", ⟨1, 2⟩, none, 0⟩,
      ⟨"d", .specialization, "d", ⟨3, 4⟩, some "d", 1⟩], [⟨"d", "B", none, .solid⟩], []⟩ := by
    decide +kernel
  have beside : Reading.linksBeside {} document 1 = [⟨"d", "B", none, .solid⟩] := by decide +kernel
  refine ⟨_, ⟨"d", .specialization, "d", ⟨3, 4⟩, some "d", 1⟩, reads, by simp, rfl, ?_⟩
  rw [show ((1 : Int).toNat) = 1 from rfl, beside]
  decide

end Diagram
end EERDiagram
