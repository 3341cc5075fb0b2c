import EERDiagram.Proofs.Diagram.Share
import EERDiagram.Proofs.Document.LinkLine

/-! Labels of links. A link line adds one link between the names it has, and the label reaches the
diagram as it is written unless it holds a coordinate pair: the first pair of a line is its
position wherever it stands, so it is taken out of the label. -/
namespace EERDiagram

open Coordinates (cut? erase maxDigits)

theorem Coordinates.erase_eq_self_iff : erase s = s ↔ cut? s = none := by
  constructor
  · intro same
    cases found : cut? s with
    | none => rfl
    | some cut =>
      obtain ⟨text, spelled, split⟩ := cut?_split found
      obtain ⟨inner, rfl, -⟩ := spelled.frame
      have lengths := congrArg List.length (same.trans split)
      simp only [erase, found, Cut.rest, List.length_append, List.length_cons] at lengths
      omega
  · intro absent
    rw [erase, absent]

variable {spiral : Spiral} {document : String} {index : Nat} {source target label : List Char}
  {total : Bool}

/-- The link that a link line adds, by the label it was written with. An empty label is none. -/
def Link.labelled (source target label : List Char) (total : Bool) : Link :=
  ⟨String.ofList source, String.ofList target,
    if label = [] then none else some (String.ofList label), if total then .double else .solid⟩

theorem Reading.share_linking (earlier : (ofFirst spiral document index).failure = none)
    (atIndex : (Text.splitLines document.toList)[index]? =
      some (Line.linking source target label total))
    (nameS : IsName source) (nameT : IsName target) (unquoted : '"' ∉ label)
    (short : ∀ cut, cut? label = some cut →
      cut.pair.x.digits.length ≤ maxDigits ∧ cut.pair.y.digits.length ≤ maxDigits) :
    share spiral document index = [.link (.labelled source target (erase label) total)] ∧
      (ofFirst spiral document (index + 1)).failure = none := by
  obtain ⟨draft, run⟩ := runs_ofFirst earlier
  obtain ⟨line, reads, text⟩ := Line.read_linking nameS nameT total short
  have unmarked : '"' ∉ erase label := fun member =>
    unquoted (Coordinates.erase_subset label member)
  have statement := Statement.read_linking nameS nameT unmarked total
  rw [← text] at statement
  have declared : (Statement.read line.text).declares = false := by
    rw [statement]
    rfl
  have steps : draft.step spiral index (Line.linking source target label total) =
      .ok (some (.link (.labelled source target (erase label) total)), draft) := by
    rw [Draft.step_of_not_declares reads declared "" ⟨0, 0⟩, statement]
    rfl
  exact share_of_step run atIndex steps

namespace Diagram

/-- A link line adds one link between its names. The label is the written one exactly when that
holds no coordinate pair; otherwise it is the written one without its first pair. -/
theorem link_labelled (earlier : (Reading.ofFirst spiral document index).failure = none)
    (atIndex : (Text.splitLines document.toList)[index]? =
      some (Line.linking source target label total))
    (nameS : IsName source) (nameT : IsName target) (nonempty : label ≠ []) (unquoted : '"' ∉ label)
    (short : ∀ cut, cut? label = some cut →
      cut.pair.x.digits.length ≤ maxDigits ∧ cut.pair.y.digits.length ≤ maxDigits) :
    ∃ link, Reading.share spiral document index = [.link link] ∧
      link.source = String.ofList source ∧ link.target = String.ofList target ∧
      link.style = (if total then .double else .solid) ∧
      link.label = (if erase label = [] then none else some (String.ofList (erase label))) ∧
      (link.label = some (String.ofList label) ↔ cut? label = none) ∧
      (Reading.ofFirst spiral document (index + 1)).failure = none ∧
      ∀ d, read spiral document = .ok d → link ∈ d.links := by
  obtain ⟨alone, succeeds⟩ :=
    Reading.share_linking earlier atIndex nameS nameT unquoted short
  have inside := (List.getElem?_eq_some_iff.mp atIndex).1
  refine ⟨_, alone, rfl, rfl, rfl, rfl, ?_, succeeds, ?_⟩
  · rw [← Coordinates.erase_eq_self_iff, Link.labelled]
    constructor
    · intro same
      split at same
      · contradiction
      · exact String.ofList_injective (Option.some.inj same)
    · intro kept
      rw [kept, if_neg nonempty]
  · intro d reads
    exact mem_links_of_share reads inside alone rfl

/-- A label with a pair in front of a multiplicity. -/
theorem link_labelled_beside_pair : ∃ link,
    Reading.share {} "link A B_2 \"(0, 7) N\" [total]" 0 = [.link link] ∧
      link.source = "A" ∧ link.target = "B_2" ∧ link.style = .double ∧ link.label = some " N" := by
  have atIndex : (Text.splitLines "link A B_2 \"(0, 7) N\" [total]".toList)[0]? =
      some (Line.linking "A".toList "B_2".toList "(0, 7) N".toList true) := by decide +kernel
  have nameS : IsName "A".toList := ⟨by decide +kernel, by decide +kernel⟩
  have nameT : IsName "B_2".toList := ⟨by decide +kernel, by decide +kernel⟩
  have found : cut? "(0, 7) N".toList =
      some ⟨[], ⟨⟨false, [0]⟩, ⟨false, [7]⟩⟩, " N".toList⟩ := by rfl
  have short : ∀ cut, cut? "(0, 7) N".toList = some cut →
      cut.pair.x.digits.length ≤ maxDigits ∧ cut.pair.y.digits.length ≤ maxDigits := by
    intro cut same
    obtain rfl := Option.some.inj (found.symm.trans same)
    decide
  obtain ⟨link, alone, source, target, style, label, -⟩ := link_labelled
    (show (Reading.ofFirst {} "link A B_2 \"(0, 7) N\" [total]" 0).failure = none from rfl)
    atIndex nameS nameT (by decide +kernel) (by decide +kernel) short
  exact ⟨link, alone, source, target, style, label⟩

/-- Minimum and maximum of a participation, written as ER diagrams have them, are read as the
line's position, and the link has no label. -/
theorem link_unlabelled :
    Text.splitLines "link A B \"(0,1)\"".toList =
      [Line.linking "A".toList "B".toList "(0,1)".toList false] ∧
    IsName "A".toList ∧ IsName "B".toList ∧ '"' ∉ "(0,1)".toList ∧ '\n' ∉ "(0,1)".toList ∧
    read {} "link A B \"(0,1)\"" = .ok ⟨[], [⟨"A", "B", none, .solid⟩], []⟩ ∧
    Reading.share {} "link A B \"(0,1)\"" 0 ≠ [.link ⟨"A", "B", some "(0,1)", .solid⟩] :=
  ⟨by decide +kernel, ⟨by decide +kernel, by decide +kernel⟩,
    ⟨by decide +kernel, by decide +kernel⟩, by decide +kernel, by decide +kernel,
    by decide +kernel, by decide +kernel⟩

end Diagram
end EERDiagram
