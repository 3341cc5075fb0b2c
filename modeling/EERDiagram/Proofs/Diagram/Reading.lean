import EERDiagram.Proofs.Diagram.Identity
import EERDiagram.Proofs.Diagram.Unplaced
import EERDiagram.Proofs.Document.Declaration
import EERDiagram.Proofs.Document.Rewriting

/-! Reading as a relation: what each line adds and what it leaves to the lines after it. A
statement's entry depends on the lines before it only through its id and its position. -/
namespace EERDiagram

/-- What a statement adds once its node, if it declares one, has an id and a position. -/
def Statement.entry (index : Nat) (text : List Char) (id : String) (position : Position) :
    Statement → Entry
  | .node kind label owner =>
    .node ⟨id, kind, label, position, none, index⟩
      (owner.map fun owner => ⟨owner, id, none, .solid⟩)
  | .hierarchy kind name superclass =>
    let discriminator := name.getD (Statement.defaultDiscriminator kind)
    .node ⟨id, kind, discriminator, position, some discriminator, index⟩
      (superclass.map fun superclass => ⟨superclass, id, none, .double⟩)
  | .link source target label style => .link ⟨source, target, label, style⟩
  | .ignored reason => .ignored ⟨index, String.ofList text, reason.message⟩

def Statement.newId (taken : List String) (index : Nat) : Statement → String
  | .node kind label _ => Identifier.allocate taken (some label) kind index
  | .hierarchy kind name _ => Identifier.allocate taken name kind index
  | _ => ""

theorem Statement.newId_not_mem {s : Statement} (declared : s.declares = true)
    (taken : List String) (index : Nat) : s.newId taken index ∉ taken := by
  cases s with
  | node kind label => exact Identifier.allocate_not_mem taken (some label) kind index
  | hierarchy kind name => exact Identifier.allocate_not_mem taken name kind index
  | link | ignored => simp [declares] at declared

namespace Statement

theorem entry_of_declares {s : Statement} (declared : s.declares = true) (index : Nat)
    (text : List Char) (id : String) (position : Position) :
    ∃ node shorthand, s.entry index text id position = .node node shorthand ∧ node.id = id ∧
      node.position = position ∧ node.line = index := by
  cases s with
  | node | hierarchy => exact ⟨_, _, rfl, rfl, rfl, rfl⟩
  | link | ignored => simp [declares] at declared

theorem node?_entry {s : Statement} (declared : s.declares = false) (index : Nat)
    (text : List Char) (id : String) (position : Position) :
    (s.entry index text id position).node? = none := by
  cases s with
  | node | hierarchy => simp [declares] at declared
  | link | ignored => rfl

theorem unplaced_entry (s : Statement) (index : Nat) (text : List Char) (id : String)
    (position other : Position) :
    (s.entry index text id position).unplaced = (s.entry index text id other).unplaced := by
  cases s <;> rfl

end Statement

/-- The position that the spiral has at an angle. -/
def Spiral.positionAt (spiral : Spiral) (angle : Float) : Except ReadingError Position :=
  match spiral.point angle with
  | .error e => .error (.placement e)
  | .ok (x, y) => Draft.wholePosition x y

namespace Draft

variable {spiral : Spiral} {draft next : Draft} {index : Nat} {line : Line} {raw : List Char}
  {entry : Option Entry} {node : Node} {point : Position}

theorem position_of_coordinates (own : line.coordinates = some (x, y)) :
    draft.position spiral line = (wholePosition x y).map (·, draft) := by
  simp [position, own]

theorem position_of_none (none : line.coordinates = none) :
    draft.position spiral line = (spiral.positionAt (spiral.turn draft.angle)).map
      (·, { draft with angle := spiral.turn draft.angle }) := by
  simp only [position, none, Spiral.positionAt]
  cases spiral.point (spiral.turn draft.angle) <;> rfl

theorem position_cases (placed : draft.position spiral line = .ok (point, next)) :
    (∃ x y, line.coordinates = some (x, y) ∧ wholePosition x y = .ok point ∧ next = draft) ∨
    (line.coordinates = none ∧ spiral.positionAt (spiral.turn draft.angle) = .ok point ∧
      next = { draft with angle := spiral.turn draft.angle }) := by
  cases own : line.coordinates with
  | some pair =>
    obtain ⟨x, y⟩ := pair
    rw [position_of_coordinates own] at placed
    cases whole : wholePosition x y with
    | error e =>
      rw [whole] at placed
      contradiction
    | ok found =>
      rw [whole] at placed
      obtain ⟨rfl, rfl⟩ := Prod.mk.inj (Except.ok.inj placed)
      exact .inl ⟨x, y, rfl, whole, rfl⟩
  | none =>
    rw [position_of_none own] at placed
    cases found : spiral.positionAt (spiral.turn draft.angle) with
    | error e =>
      rw [found] at placed
      contradiction
    | ok next =>
      rw [found] at placed
      obtain ⟨rfl, rfl⟩ := Prod.mk.inj (Except.ok.inj placed)
      exact .inr ⟨rfl, rfl, rfl⟩

theorem taken_of_position (placed : draft.position spiral line = .ok (point, next)) :
    next.taken = draft.taken := by
  rcases position_cases placed with ⟨-, -, -, -, rfl⟩ | ⟨-, -, rfl⟩ <;> rfl

theorem enter_of_declares (declared : (Statement.read line.text).declares = true) :
    draft.enter spiral index line = (draft.position spiral line).map fun (position, next) =>
      let s := Statement.read line.text
      let id := s.newId draft.taken index
      (s.entry index line.text id position, { next with taken := id :: next.taken }) := by
  cases statement : Statement.read line.text with
  | node kind label owner =>
    simp only [enter, statement, declare, Identifier.register, Statement.newId, Statement.entry]
    cases placed : draft.position spiral line with
    | error e => rfl
    | ok found =>
      simp only [Except.map, taken_of_position placed]
  | hierarchy kind name superclass =>
    simp only [enter, statement, declare, Identifier.register, Statement.newId, Statement.entry]
    cases placed : draft.position spiral line with
    | error e => rfl
    | ok found =>
      simp only [Except.map, taken_of_position placed]
  | link | ignored => simp [statement, Statement.declares] at declared

theorem enter_of_not_declares (declared : (Statement.read line.text).declares = false)
    (id : String) (position : Position) :
    draft.enter spiral index line =
      .ok ((Statement.read line.text).entry index line.text id position, draft) := by
  cases statement : Statement.read line.text with
  | node | hierarchy => simp [statement, Statement.declares] at declared
  | link | ignored => simp [enter, statement, Statement.entry]

theorem step_of_silent (reads : Line.read raw = .ok none) :
    draft.step spiral index raw = .ok (none, draft) := by
  simp only [step, reads]

theorem step_of_not_declares (reads : Line.read raw = .ok (some line))
    (declared : (Statement.read line.text).declares = false) (id : String) (point : Position) :
    draft.step spiral index raw =
      .ok (some ((Statement.read line.text).entry index line.text id point), draft) := by
  simp only [step, reads, enter_of_not_declares declared id point]
  rfl

theorem step_of_declares (reads : Line.read raw = .ok (some line))
    (declared : (Statement.read line.text).declares = true)
    (placed : draft.position spiral line = .ok (point, next)) :
    draft.step spiral index raw =
      .ok (some ((Statement.read line.text).entry index line.text
        ((Statement.read line.text).newId draft.taken index) point),
        { next with
          taken := (Statement.read line.text).newId draft.taken index :: next.taken }) := by
  simp only [step, reads, enter_of_declares declared, placed]
  rfl

/-- Everything a step can do: skip a silent line, add an entry that is no node, or add a node
with a new id and a position. -/
theorem step_cases (steps : draft.step spiral index raw = .ok (entry, next)) :
    (Line.read raw = .ok none ∧ entry = none ∧ next = draft) ∨
    (∃ line, Line.read raw = .ok (some line) ∧ (Statement.read line.text).declares = false ∧
      (∀ id position, entry = some ((Statement.read line.text).entry index line.text id position)) ∧
      next = draft) ∨
    (∃ line position placed, Line.read raw = .ok (some line) ∧
      (Statement.read line.text).declares = true ∧
      draft.position spiral line = .ok (position, placed) ∧
      entry = some ((Statement.read line.text).entry index line.text
        ((Statement.read line.text).newId draft.taken index) position) ∧
      next = { placed with
        taken := (Statement.read line.text).newId draft.taken index :: placed.taken }) := by
  simp only [step] at steps
  split at steps
  · contradiction
  next reads =>
    obtain ⟨rfl, rfl⟩ := Prod.mk.inj (Except.ok.inj steps)
    exact .inl ⟨reads, rfl, rfl⟩
  next line reads =>
    right
    cases declared : (Statement.read line.text).declares with
    | false =>
      refine .inl ⟨line, reads, declared, ?_, ?_⟩
      · intro id position
        rw [enter_of_not_declares declared id position] at steps
        exact (Prod.mk.inj (Except.ok.inj steps)).1.symm
      · rw [enter_of_not_declares declared "" ⟨0, 0⟩] at steps
        exact (Prod.mk.inj (Except.ok.inj steps)).2.symm
    | true =>
      rw [enter_of_declares declared] at steps
      cases placed : draft.position spiral line with
      | error e =>
        rw [placed] at steps
        contradiction
      | ok found =>
        rw [placed] at steps
        obtain ⟨rfl, rfl⟩ := Prod.mk.inj (Except.ok.inj steps)
        exact .inr ⟨line, found.1, found.2, reads, declared, placed, rfl, rfl⟩

theorem step_other (steps : draft.step spiral index raw = .ok (entry, next))
    (other : entry.bind Entry.node? = none) : next = draft := by
  rcases step_cases steps with ⟨-, -, same⟩ | ⟨-, -, -, -, same⟩ |
    ⟨line, position, placed, -, declared, -, rfl, -⟩
  · exact same
  · exact same
  · obtain ⟨node, shorthand, entered, -⟩ := Statement.entry_of_declares declared index line.text
      ((Statement.read line.text).newId draft.taken index) position
    rw [entered] at other
    contradiction

theorem step_node (steps : draft.step spiral index raw = .ok (some (.node node shorthand), next)) :
    ∃ line placed, Line.read raw = .ok (some line) ∧
      (Statement.read line.text).declares = true ∧
      draft.position spiral line = .ok (node.position, placed) ∧
      Entry.node node shorthand =
        (Statement.read line.text).entry index line.text node.id node.position ∧
      node.id = (Statement.read line.text).newId draft.taken index ∧ node.line = index ∧
      next = { placed with taken := node.id :: placed.taken } := by
  rcases step_cases steps with
    ⟨-, absent, -⟩ | ⟨line, -, declared, entered, -⟩ |
    ⟨line, position, placed, reads, declared, found, entered, rfl⟩
  · contradiction
  · have other := Statement.node?_entry declared index line.text "" ⟨0, 0⟩
    rw [← Option.some.inj (entered "" ⟨0, 0⟩)] at other
    contradiction
  · obtain ⟨other, link, same, ids, positions, lines⟩ := Statement.entry_of_declares declared index
      line.text ((Statement.read line.text).newId draft.taken index) position
    obtain ⟨rfl, rfl⟩ := Entry.node.inj ((Option.some.inj entered).trans same)
    rw [← ids] at same ⊢
    rw [← positions] at found same
    exact ⟨line, placed, reads, declared, found, same.symm, ids, lines, rfl⟩

end Draft

namespace Reading

/-- A reading that does not fail, from one draft to the next. -/
inductive Runs (spiral : Spiral) : Draft → Nat → List (List Char) → List Entry → Draft → Prop where
  | nil : Runs spiral draft index [] [] draft
  | cons {draft next final : Draft} {index : Nat} {raw : List Char} {rest : List (List Char)}
      {entry : Option Entry} {entries : List Entry} :
      draft.step spiral index raw = .ok (entry, next) →
      Runs spiral next (index + 1) rest entries final →
      Runs spiral draft index (raw :: rest) (entry.toList ++ entries) final

variable {spiral : Spiral} {draft middle final : Draft} {index : Nat}
  {before lines : List (List Char)} {entries others : List Entry}

theorem Runs.ofLines (run : Runs spiral draft index lines entries final) :
    ofLines spiral draft index lines = ⟨entries, none⟩ := by
  induction run with
  | nil => rfl
  | cons steps _ ih =>
    rw [Reading.ofLines, steps]
    simp only [ih]

theorem runs_of_ofLines (reads : ofLines spiral draft index lines = ⟨entries, none⟩) :
    ∃ final, Runs spiral draft index lines entries final := by
  induction lines generalizing draft index entries with
  | nil =>
    obtain rfl : [] = entries := (Reading.mk.inj reads).1
    exact ⟨draft, .nil⟩
  | cons raw rest ih =>
    rw [Reading.ofLines] at reads
    cases steps : draft.step spiral index raw with
    | error e => simp [steps] at reads
    | ok found =>
      obtain ⟨entry, next⟩ := found
      cases others : ofLines spiral next (index + 1) rest with
      | mk added failure =>
        simp only [steps, others, Reading.mk.injEq] at reads
        obtain ⟨rfl, rfl⟩ := reads
        obtain ⟨final, run⟩ := ih others
        exact ⟨final, .cons steps run⟩

theorem read_eq_ok_iff : Diagram.read spiral document = .ok d ↔
    ∃ entries final, Runs spiral {} 0 (Text.splitLines document.toList) entries final ∧
      d = .ofEntries entries := by
  constructor
  · intro reads
    cases reading : ofDocument spiral document with
    | mk entries failure =>
      simp only [Diagram.read, reading, diagram] at reads
      cases failure with
      | some e => contradiction
      | none =>
        obtain ⟨final, run⟩ := runs_of_ofLines reading
        exact ⟨entries, final, run, (Except.ok.inj reads).symm⟩
  · rintro ⟨entries, final, run, rfl⟩
    simp only [Diagram.read, ofDocument, run.ofLines, diagram]

theorem read_eq_error_iff :
    Diagram.read spiral document = .error e ↔ (ofDocument spiral document).failure = some e := by
  rw [Diagram.read, diagram]
  cases (ofDocument spiral document).failure with
  | none => simp
  | some other => simp

theorem Runs.append (first : Runs spiral draft index before entries middle)
    (second : Runs spiral middle (index + before.length) after others final) :
    Runs spiral draft index (before ++ after) (entries ++ others) final := by
  induction first with
  | nil => exact second
  | cons steps _ ih =>
    rw [List.append_assoc]
    refine .cons steps (ih ?_)
    rwa [List.length_cons, Nat.add_comm _ 1, ← Nat.add_assoc] at second

theorem Runs.split (run : Runs spiral draft index (before ++ lines) entries final) :
    ∃ first middle second, Runs spiral draft index before first middle ∧
      Runs spiral middle (index + before.length) lines second final ∧ entries = first ++ second := by
  induction before generalizing draft index entries with
  | nil => exact ⟨[], draft, entries, .nil, run, rfl⟩
  | cons raw before ih =>
    cases run with
    | cons steps run =>
      obtain ⟨first, middle, second, left, right, rfl⟩ := ih run
      refine ⟨_, middle, second, .cons steps left, ?_, (List.append_assoc _ _ _).symm⟩
      rwa [List.length_cons, Nat.add_comm _ 1, ← Nat.add_assoc]

theorem Runs.unique (left : Runs spiral draft index lines entries final)
    (right : Runs spiral draft index lines others last) : entries = others ∧ final = last := by
  induction left generalizing others with
  | nil =>
    cases right
    exact ⟨rfl, rfl⟩
  | cons steps _ ih =>
    cases right with
    | cons steps' run =>
      obtain ⟨rfl, rfl⟩ := Prod.mk.inj (Except.ok.inj (steps.symm.trans steps'))
      obtain ⟨rfl, rfl⟩ := ih run
      exact ⟨rfl, rfl⟩

theorem Runs.node_split (run : Runs spiral draft index lines entries final) {i : Nat}
    (atIndex : (entries.filterMap Entry.node?)[i]? = some node) :
    ∃ before raw after added middle shorthand next others,
      lines = before ++ raw :: after ∧
      Runs spiral draft index before added middle ∧
      middle.step spiral (index + before.length) raw = .ok (some (.node node shorthand), next) ∧
      Runs spiral next (index + before.length + 1) after others final ∧
      entries = added ++ .node node shorthand :: others ∧
      (added.filterMap Entry.node?).length = i := by
  induction run generalizing i with
  | nil => simp at atIndex
  | @cons draft next final index raw rest entry entries steps run ih =>
    rw [List.filterMap_append] at atIndex
    -- the node comes from the first line, or its index counts from the lines after that
    rcases Nat.lt_or_ge i (entry.toList.filterMap Entry.node?).length with here | later
    · rw [List.getElem?_append_left here] at atIndex
      cases entry with
      | none => simp at here
      | some entry =>
        cases entry with
        | node first shorthand =>
          obtain rfl : i = 0 := by simpa [Entry.node?] using here
          obtain rfl : first = node := by simpa [Entry.node?] using atIndex
          exact ⟨[], raw, rest, [], draft, shorthand, next, entries, rfl, .nil, steps, run, rfl,
            rfl⟩
        | link | ignored => exact absurd here (Nat.not_lt_zero i)
    · rw [List.getElem?_append_right later] at atIndex
      obtain ⟨before, other, after, added, middle, shorthand, following, others, rfl, first, found,
        second, rfl, position⟩ := ih atIndex
      have shift : index + (raw :: before).length = index + 1 + before.length := by
        rw [List.length_cons]
        omega
      refine ⟨raw :: before, other, after, entry.toList ++ added, middle, shorthand, following,
        others, rfl, .cons steps first, ?_, ?_, by simp, ?_⟩
      · rwa [shift]
      · rwa [shift]
      · rw [List.filterMap_append, List.length_append, position]
        omega

end Reading
end EERDiagram
