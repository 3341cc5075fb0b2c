import EERDiagram.Proofs.Diagram.Placement
import Mathlib.Data.List.Nodup

/-! What each line adds to the diagram of its document. A line is skipped, or it adds one node
with its shorthand link, one link or one ignored line, and the diagram consists of what the lines
add, in their order. -/
namespace EERDiagram

def Statement.owner? : Statement → Option String
  | .node _ _ owner => owner
  | .hierarchy _ _ superclass => superclass
  | _ => none

theorem Line.isSilent_of_read (reads : read raw = .ok none) : isSilent (content raw) = true := by
  cases speaks : isSilent (content raw) with
  | true => rfl
  | false =>
    simp only [read, speaks, Bool.false_eq_true, if_false] at reads
    cases found : Coordinates.cut? (content raw) with
    | none => simp [found] at reads
    | some cut =>
      simp only [found] at reads
      obtain ⟨x, y, -, -, same⟩ := both_eq_ok_iff.mp reads
      contradiction

namespace Reading

section Flat

variable {f : Nat → List α} {key : α → Int} {count index : Nat}

/-- Of the lists of all indexes, put together, one key selects the list of its index. -/
theorem filter_flatMap_range (own : ∀ i < count, ∀ a ∈ f i, key a = i) (bound : index < count) :
    ((List.range count).flatMap f).filter (key · = index) = f index := by
  have apart : ∀ i < count, i ≠ index → (f i).filter (key · = index) = [] := by
    intro i small other
    rw [List.filter_eq_nil_iff]
    intro a member
    simp only [own i small a member, decide_eq_true_eq]
    omega
  have all : (f index).filter (key · = index) = f index := by
    rw [List.filter_eq_self]
    intro a member
    simp [own index bound a member]
  obtain ⟨before, after, split⟩ := List.mem_iff_append.mp (List.mem_range.mpr bound)
  have distinct : (before ++ index :: after).Nodup := split ▸ List.nodup_range
  have others : ∀ part ⊆ List.range count, index ∉ part →
      part.flatMap (fun i => (f i).filter (key · = index)) = [] := by
    intro part inside absent
    rw [List.flatMap_eq_nil_iff]
    intro i member
    refine apart i (List.mem_range.mp (inside member)) ?_
    rintro rfl
    exact absent member
  have absent := (List.nodup_cons.mp (List.nodup_middle.mp distinct)).1
  rw [List.mem_append, not_or] at absent
  rw [List.filter_flatMap, split, List.flatMap_append, List.flatMap_cons, all,
    others before (by simp [split]) absent.1, others after (by simp [split]) absent.2,
    List.nil_append, List.append_nil]

theorem pairwise_flatMap_range (own : ∀ i < count, ∀ a ∈ f i, key a = i)
    (single : ∀ i < count, (f i).length ≤ 1) :
    ((List.range count).flatMap f).Pairwise (key · < key ·) := by
  rw [List.pairwise_flatMap]
  constructor
  · intro i member
    have short := single i (List.mem_range.mp member)
    cases list : f i with
    | nil => exact .nil
    | cons a rest =>
      rw [list, List.length_cons] at short
      obtain rfl : rest = [] := List.eq_nil_of_length_eq_zero (by omega)
      exact List.pairwise_singleton _ a
  · refine List.pairwise_lt_range.imp_of_mem ?_
    intro i j left right lower a memberA b memberB
    rw [own i (List.mem_range.mp left) a memberA, own j (List.mem_range.mp right) b memberB]
    omega

end Flat

/-- The reading of the first lines of a document. -/
def ofFirst (spiral : Spiral) (document : String) (count : Nat) : Reading :=
  ofLines spiral {} 0 ((Text.splitLines document.toList).take count)

/-- The share of a line: the entries that come with it to those of the lines before it. -/
def share (spiral : Spiral) (document : String) (index : Nat) : List Entry :=
  (ofFirst spiral document (index + 1)).entries.drop (ofFirst spiral document index).entries.length

/-- What a line may add, by what it says: its entries, and the nodes, links and ignored lines that
these are. -/
inductive Accounted (index : Nat) (raw : List Char) : List Entry → Diagram → Prop where
  | silent : Line.isSilent (Line.content raw) = true → Accounted index raw [] ⟨[], [], []⟩
  | node {line : Line} {node : Node} {shorthand : Option Link} :
      Line.read raw = .ok (some line) → (Statement.read line.text).declares = true →
      node.line = index → shorthand.map Link.source = (Statement.read line.text).owner? →
      (∀ link ∈ shorthand, link.target = node.id) →
      Accounted index raw [.node node shorthand] ⟨[node], shorthand.toList, []⟩
  | link {line : Line} {link : Link} : Line.read raw = .ok (some line) →
      Statement.read line.text = .link link.source link.target link.label link.style →
      Accounted index raw [.link link] ⟨[], [link], []⟩
  | ignored {line : Line} {entry : IgnoredLine} : Line.read raw = .ok (some line) →
      Statement.read line.text = .ignored reason →
      entry = ⟨index, String.ofList line.text, reason.message⟩ →
      Accounted index raw [.ignored entry] ⟨[], [], [entry]⟩

variable {spiral : Spiral} {document : String} {draft middle final : Draft} {index : Nat}
  {lines : List (List Char)} {raw : List Char} {added : List Entry} {entry : Option Entry}

theorem entries_append (spiral : Spiral) (draft : Draft) (index : Nat)
    (lines more : List (List Char)) :
    (ofLines spiral draft index lines).entries <+:
      (ofLines spiral draft index (lines ++ more)).entries := by
  induction lines generalizing draft index with
  | nil => exact List.nil_prefix
  | cons raw rest ih =>
    rw [List.cons_append, ofLines, ofLines]
    cases draft.step spiral index raw with
    | error e => exact List.prefix_rfl
    | ok found => exact (List.prefix_append_right_inj _).mpr (ih found.2 (index + 1))

theorem entries_ofFirst (spiral : Spiral) (document : String) (count : Nat) :
    (ofFirst spiral document count).entries =
      (List.range count).flatMap (share spiral document) := by
  induction count with
  | zero => rfl
  | succ count ih =>
    have longer : (ofFirst spiral document count).entries <+:
        (ofFirst spiral document (count + 1)).entries := by
      rw [ofFirst, ofFirst, List.take_add_one]
      exact entries_append spiral {} 0 _ _
    rw [List.range_succ, List.flatMap_append, List.flatMap_singleton, ← ih]
    exact (List.prefix_iff_eq_append.mp longer).symm

theorem runs_ofFirst (succeeds : (ofFirst spiral document count).failure = none) :
    ∃ final, Runs spiral {} 0 ((Text.splitLines document.toList).take count)
      (ofFirst spiral document count).entries final := by
  apply runs_of_ofLines
  rw [← succeeds]
  rfl

theorem share_of_step (first : Runs spiral {} 0 ((Text.splitLines document.toList).take index)
      added middle) (atIndex : (Text.splitLines document.toList)[index]? = some raw)
    (steps : middle.step spiral index raw = .ok (entry, next)) :
    share spiral document index = entry.toList ∧
      (ofFirst spiral document (index + 1)).failure = none := by
  have inside := (List.getElem?_eq_some_iff.mp atIndex).1
  have length := List.length_take_of_le (Nat.le_of_lt inside)
  have last : Runs spiral middle (0 + ((Text.splitLines document.toList).take index).length) [raw]
      (entry.toList ++ []) next := by
    rw [length, Nat.zero_add]
    exact .cons steps .nil
  have whole := (first.append last).ofLines
  rw [List.append_nil] at whole
  have grown : ofFirst spiral document (index + 1) = ⟨added ++ entry.toList, none⟩ := by
    rw [ofFirst, List.take_add_one, atIndex]
    exact whole
  have before : ofFirst spiral document index = ⟨added, none⟩ := first.ofLines
  rw [share, grown, before]
  exact ⟨List.drop_left, rfl⟩

theorem ofEntries_node (node : Node) (shorthand : Option Link) :
    Diagram.ofEntries [.node node shorthand] = ⟨[node], shorthand.toList, []⟩ := by
  cases shorthand <;> rfl

theorem ofEntries_flatMap (f : Nat → List Entry) (indexes : List Nat) :
    Diagram.ofEntries (indexes.flatMap f) =
      ⟨indexes.flatMap fun index => (Diagram.ofEntries (f index)).nodes,
        indexes.flatMap fun index => (Diagram.ofEntries (f index)).links,
        indexes.flatMap fun index => (Diagram.ofEntries (f index)).ignored⟩ := by
  simp only [Diagram.ofEntries, List.filterMap_flatMap]

theorem accounted_of_step (steps : draft.step spiral index raw = .ok (entry, next)) :
    Accounted index raw entry.toList (.ofEntries entry.toList) := by
  rcases Draft.step_cases steps with ⟨reads, rfl, -⟩ | ⟨line, reads, declared, entered, -⟩ |
    ⟨line, point, placed, reads, declared, -, rfl, -⟩
  · exact .silent (Line.isSilent_of_read reads)
  · rw [entered "" ⟨0, 0⟩]
    cases statement : Statement.read line.text with
    | node | hierarchy => simp [statement, Statement.declares] at declared
    | link source target label style => exact .link reads statement
    | ignored reason => exact .ignored reads statement rfl
  · cases statement : Statement.read line.text with
    | node kind label owner =>
      change Accounted index raw [.node _ _] (.ofEntries [.node _ _])
      rw [ofEntries_node]
      refine .node reads declared rfl ?_ ?_
      · rw [statement]
        cases owner <;> rfl
      · cases owner <;> simp
    | hierarchy kind name superclass =>
      change Accounted index raw [.node _ _] (.ofEntries [.node _ _])
      rw [ofEntries_node]
      refine .node reads declared rfl ?_ ?_
      · rw [statement]
        cases superclass <;> rfl
      · cases superclass <;> simp
    | link | ignored => simp [statement, Statement.declares] at declared

namespace Accounted

variable {entries : List Entry} {part : Diagram}

theorem part_eq (accounted : Accounted index raw entries part) : part = .ofEntries entries := by
  cases accounted with
  | node => rw [ofEntries_node]
  | silent | link | ignored => rfl

theorem length_ignored_le (accounted : Accounted index raw entries part) :
    part.ignored.length ≤ 1 := by
  cases accounted <;> simp

theorem line_node (accounted : Accounted index raw entries part) :
    ∀ node ∈ part.nodes, node.line = index := by
  cases accounted with
  | node _ _ own => simpa using own
  | silent | link | ignored => simp

theorem line_ignored (accounted : Accounted index raw entries part) :
    ∀ line ∈ part.ignored, line.line = index := by
  cases accounted with
  | ignored _ _ own => simp [own]
  | silent | node | link => simp

end Accounted

end Reading

namespace Diagram

variable {spiral : Spiral} {document : String} {d : Diagram}

/-- A document that is read is read line by line. -/
theorem runs_of_read (reads : read spiral document = .ok d) {index : Nat} {raw : List Char}
    (atIndex : (Text.splitLines document.toList)[index]? = some raw) :
    ∃ added middle entry next,
      Reading.Runs spiral {} 0 ((Text.splitLines document.toList).take index) added middle ∧
      middle.step spiral index raw = .ok (entry, next) := by
  obtain ⟨entries, final, run, -⟩ := Reading.read_eq_ok_iff.mp reads
  obtain ⟨inside, rfl⟩ := List.getElem?_eq_some_iff.mp atIndex
  rw [← List.take_append_drop index (Text.splitLines document.toList),
    List.drop_eq_getElem_cons inside] at run
  obtain ⟨added, middle, others, first, second, -⟩ := run.split
  cases second with
  | cons steps _ =>
    rw [List.length_take_of_le (Nat.le_of_lt inside), Nat.zero_add] at steps
    exact ⟨added, middle, _, _, first, steps⟩

theorem eq_ofEntries_shares (reads : read spiral document = .ok d) :
    d = ofEntries ((List.range (Text.splitLines document.toList).length).flatMap
      (Reading.share spiral document)) := by
  obtain ⟨entries, final, run, rfl⟩ := Reading.read_eq_ok_iff.mp reads
  rw [← Reading.entries_ofFirst, Reading.ofFirst, List.take_length, run.ofLines]

theorem mem_links_of_share (reads : read spiral document = .ok d)
    (inside : index < (Text.splitLines document.toList).length)
    (alone : Reading.share spiral document index = [entry]) (adds : entry.link? = some link) :
    link ∈ d.links := by
  rw [eq_ofEntries_shares reads]
  refine List.mem_filterMap.mpr ⟨entry, List.mem_flatMap.mpr ⟨index, ?_, ?_⟩, adds⟩
  · exact List.mem_range.mpr inside
  · rw [alone]
    exact List.mem_singleton_self entry

/-- Every line is accounted for once: the diagram is put together from what the lines add, in their
order, and the node or ignored line of an index is what that line adds. -/
theorem lines_accounted (reads : read spiral document = .ok d) :
    d = ofEntries ((List.range (Text.splitLines document.toList).length).flatMap
      (Reading.share spiral document)) ∧
    d.nodes.Pairwise (·.line < ·.line) ∧ d.ignored.Pairwise (·.line < ·.line) ∧
    ∃ part : Nat → Diagram,
      d.nodes = (List.range (Text.splitLines document.toList).length).flatMap (part · |>.nodes) ∧
      d.links = (List.range (Text.splitLines document.toList).length).flatMap (part · |>.links) ∧
      d.ignored =
        (List.range (Text.splitLines document.toList).length).flatMap (part · |>.ignored) ∧
      ∀ (index : Nat) raw, (Text.splitLines document.toList)[index]? = some raw →
        Reading.Accounted index raw (Reading.share spiral document index) (part index) ∧
        d.nodes.filter (fun node => node.line = (index : Int)) = (part index).nodes ∧
        d.ignored.filter (fun line => line.line = (index : Int)) = (part index).ignored := by
  have whole := eq_ofEntries_shares reads
  have parts := whole
  rw [Reading.ofEntries_flatMap] at parts
  have nodes := congrArg Diagram.nodes parts
  have ignored := congrArg Diagram.ignored parts
  have accounted : ∀ (index : Nat) raw, (Text.splitLines document.toList)[index]? = some raw →
      Reading.Accounted index raw (Reading.share spiral document index)
        (ofEntries (Reading.share spiral document index)) := by
    intro index raw atIndex
    obtain ⟨added, middle, entry, next, first, steps⟩ := runs_of_read reads atIndex
    rw [(Reading.share_of_step first atIndex steps).1]
    exact Reading.accounted_of_step steps
  have every := fun index (inside : index < (Text.splitLines document.toList).length) =>
    accounted index _ (List.getElem?_eq_getElem inside)
  have lineNode := fun index inside => (every index inside).line_node
  have lineIgnored := fun index inside => (every index inside).line_ignored
  refine ⟨whole, lines_increase reads, ?_, _, nodes, congrArg Diagram.links parts, ignored, ?_⟩
  · rw [ignored]
    exact Reading.pairwise_flatMap_range lineIgnored fun index inside =>
      (every index inside).length_ignored_le
  · intro index raw atIndex
    have inside := (List.getElem?_eq_some_iff.mp atIndex).1
    refine ⟨accounted index raw atIndex, ?_, ?_⟩
    · rw [nodes]
      exact Reading.filter_flatMap_range lineNode inside
    · rw [ignored]
      exact Reading.filter_flatMap_range lineIgnored inside

/-- The second line declares an attribute of the node on the first one, the third is a link and the
fourth says nothing. -/
theorem lines_accounted_shorthand :
    let document := "ent A (1, 2)\natt b -> A (3, 4)\nlink A c\nnote"
    let owner : Node := ⟨"A", .entity, "A", ⟨1, 2⟩, none, 0⟩
    let owned : Node := ⟨"b_1", .attribute, "b", ⟨3, 4⟩, none, 1⟩
    let shorthand : Link := ⟨"A", "b_1", none, .solid⟩
    let link : Link := ⟨"A", "c", none, .solid⟩
    let note : IgnoredLine := ⟨3, "note", (IgnoreReason.unknownCommand "note").message⟩
    ∃ (d : Diagram) (part : Nat → Diagram), read {} document = .ok d ∧
      d.nodes = [owner, owned] ∧ d.nodes = (List.range 4).flatMap (part · |>.nodes) ∧
      d.links = [shorthand, link] ∧ d.links = (List.range 4).flatMap (part · |>.links) ∧
      d.ignored = [note] ∧ d.ignored = (List.range 4).flatMap (part · |>.ignored) ∧
      Reading.Accounted 1 "att b -> A (3, 4)".toList (Reading.share {} document 1) (part 1) ∧
      part 1 = ⟨[owned], [shorthand], []⟩ ∧ part 2 = ⟨[], [link], []⟩ ∧
      part 3 = ⟨[], [], [note]⟩ := by
  intro document owner owned shorthand link note
  have reads : read {} document = .ok ⟨[owner, owned], [shorthand, link], [note]⟩ := by
    decide +kernel
  have count : (Text.splitLines document.toList).length = 4 := by decide +kernel
  obtain ⟨-, -, -, part, nodes, links, ignored, lines⟩ := lines_accounted reads
  rw [count] at nodes links ignored
  obtain ⟨second, -⟩ := lines 1 "att b -> A (3, 4)".toList (by decide +kernel)
  obtain ⟨third, -⟩ := lines 2 "link A c".toList (by decide +kernel)
  obtain ⟨fourth, -⟩ := lines 3 "note".toList (by decide +kernel)
  exact ⟨_, part, reads, rfl, nodes, rfl, links, rfl, ignored, second,
    second.part_eq.trans (by decide +kernel), third.part_eq.trans (by decide +kernel),
    fourth.part_eq.trans (by decide +kernel)⟩

end Diagram
end EERDiagram
