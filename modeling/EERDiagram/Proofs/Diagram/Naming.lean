import EERDiagram.Proofs.Diagram.Share
import EERDiagram.Proofs.Document.Scanning

/-! Names of nodes. Every node of a diagram has an id of its own, made from what its line says and
the number of that line, and a shorthand link ends at the node that it was written with. -/
namespace EERDiagram

namespace Statement

/-- What a declaration calls its node: the label, or the name of a hierarchy that has one. -/
def name? : Statement → Option String
  | .node _ label _ => some label
  | .hierarchy _ name _ => name
  | _ => none

/-- What the id of a declared node begins with. Hierarchies without a name go by their line. -/
def stem (index : Nat) (s : Statement) : String :=
  s.name?.getD ("spec" ++ Identifier.suffix index)

theorem name?_readLink (tokens : List Token) : (readLink tokens).name? = none := by
  rw [readLink.eq_def]
  split <;> rfl

theorem name?_readNode (command : String) (kind : Kind) (tokens : List Token) :
    (readNode command kind tokens).name? = (readHierarchy kind tokens).name? := by
  cases tokens with
  | nil => rfl
  | cons first rest => cases first <;> rfl

theorem word_mem_of_readHierarchy (named : (readHierarchy kind tokens).name? = some name) :
    .word name ∈ tokens := by
  rw [readHierarchy.eq_def] at named
  split at named
  next =>
    obtain rfl := Option.some.inj named
    exact List.mem_cons_self
  next => contradiction

theorem word_mem_of_name? (named : (ofTokens tokens).name? = some name) : .word name ∈ tokens := by
  rw [ofTokens.eq_def] at named
  split at named
  next => contradiction
  next first rest =>
    apply List.mem_cons_of_mem
    simp only at named
    split at named
    next => exact word_mem_of_readHierarchy (name?_readNode .. ▸ named)
    next =>
      split at named
      next => exact word_mem_of_readHierarchy named
      next =>
        split at named
        · simp [name?_readLink] at named
        · contradiction

/-- Names are words, so none is empty. -/
theorem name?_ne_empty (text : List Char) : (read text).name? ≠ some "" := fun named =>
  Token.empty_not_mem_scan text (word_mem_of_name? named)

theorem base_name? {s : Statement} (named : s.name? ≠ some "") (index : Nat) :
    Identifier.base s.name? index = s.stem index := by
  rw [stem, Identifier.base.eq_def]
  cases called : s.name? with
  | none => rfl
  | some name => exact if_neg fun empty => named (called.trans (congrArg some empty))

theorem newId_eq_numbered {s : Statement} (declared : s.declares = true)
    (named : s.name? ≠ some "") (taken : List String) (index : Nat) :
    ∃ copies, s.newId taken index = Identifier.numbered (s.stem index) index copies ∧
      ∀ text id position node shorthand, s.entry index text id position = .node node shorthand →
        node.kind.isAttribute = true → 1 ≤ copies := by
  have base := base_name? named index
  cases s with
  | node kind label owner =>
    obtain ⟨copies, same, least⟩ :=
      Identifier.allocate_eq_numbered taken (some label) kind index
    refine ⟨copies, base ▸ same, fun text id position node shorthand entered => ?_⟩
    obtain ⟨rfl, -⟩ := Entry.node.inj entered
    exact least
  | hierarchy kind name superclass =>
    obtain ⟨copies, same, least⟩ := Identifier.allocate_eq_numbered taken name kind index
    refine ⟨copies, base ▸ same, fun text id position node shorthand entered => ?_⟩
    obtain ⟨rfl, -⟩ := Entry.node.inj entered
    exact least
  | link | ignored => simp [declares] at declared

end Statement

namespace Diagram

variable {spiral : Spiral} {document : String} {d : Diagram} {node : Node}

theorem share_of_mem (reads : read spiral document = .ok d) (member : node ∈ d.nodes) :
    ∃ (index : Nat) (middle next : Draft) (shorthand : Option Link), node.line = index ∧
      (Text.splitLines document.toList)[index]? = some (Document.line document node.line) ∧
      middle.step spiral index (Document.line document node.line) =
        .ok (some (.node node shorthand), next) ∧
      Reading.share spiral document index = [.node node shorthand] := by
  obtain ⟨i, atIndex⟩ := List.mem_iff_getElem?.mp member
  obtain ⟨before, after, added, middle, shorthand, next, -, -, split, own, first, steps, -⟩ :=
    read_split reads atIndex
  have found : (Text.splitLines document.toList)[before.length]? =
      some (Document.line document node.line) := by
    rw [split]
    simp
  have earlier : Reading.Runs spiral {} 0 ((Text.splitLines document.toList).take before.length)
      added middle := by
    rw [split, List.take_left]
    exact first
  exact ⟨before.length, middle, next, shorthand, own, found, steps,
    (Reading.share_of_step earlier found steps).1⟩

theorem mem_ids (member : node ∈ d.nodes) : node.id ∈ d.ids := List.mem_map_of_mem member

end Diagram
end EERDiagram
