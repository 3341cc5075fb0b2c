import EERDiagram.Proofs.Diagram.Placement

/-! Moves made one after the other from one diagram, which is not read again in between. Each line
ends up with the pair of the last move that wrote on it, so of the moves of a node only the last one
counts, and the order of moves of different nodes does not. -/
namespace EERDiagram

open Coordinates (cut? erase)

structure Move where
  id : String
  x : Float
  y : Float
  deriving DecidableEq, Repr

namespace Document

/-- The document after a move of a node of the diagram, which may be older than the document. -/
def move (d : Diagram) (document : String) (m : Move) : String :=
  afterMove document (moveNode document d m.id m.x m.y)

def moveAll (d : Diagram) (document : String) (moves : List Move) : String :=
  moves.foldl (move d) document

end Document

namespace Move

/-- Moves to infinite coordinates or to NaN are not written. -/
def isFinite (m : Move) : Bool := Decimal.isFinite m.x && Decimal.isFinite m.y

/-- The last finite move of the node with an id. -/
def last? (moves : List Move) (id : String) : Option Move :=
  moves.reverse.find? fun m => m.id = id && m.isFinite

/-- The last finite move of each node of the diagram. -/
def lasts (d : Diagram) (moves : List Move) : List Move := d.ids.filterMap (last? moves)

/-- The pair that a move writes on a line. -/
def pairOn? (d : Diagram) (line : Nat) (m : Move) : Option (List Char) :=
  (d.find? m.id).bind fun node =>
    if node.line = line then (Coordinates.format m.x m.y).toOption else none

variable {d : Diagram} {m : Move} {moves others : List Move} {node : Node} {id : String} {k : Nat}

theorem pairOn?_eq_some_iff : m.pairOn? d k = some pair ↔
    ∃ node, d.find? m.id = some node ∧ node.line = k ∧
      Coordinates.format m.x m.y = .ok pair := by
  simp only [pairOn?, Option.bind_eq_some_iff]
  constructor
  · rintro ⟨node, found, same⟩
    split at same
    next own =>
      cases formatted : Coordinates.format m.x m.y with
      | error e => simp [formatted, Except.toOption] at same
      | ok other =>
        obtain rfl : other = pair := by simpa [formatted, Except.toOption] using same
        exact ⟨node, found, own, rfl⟩
    next => contradiction
  · rintro ⟨node, found, own, formatted⟩
    exact ⟨node, found, by simp [own, formatted, Except.toOption]⟩

theorem isSome_pairOn? (reads : Diagram.read spiral document = .ok d) (member : node ∈ d.nodes)
    (own : node.line = k) (m : Move) :
    (m.pairOn? d k).isSome = (decide (m.id = node.id) && m.isFinite) := by
  rw [Bool.eq_iff_iff, Option.isSome_iff_exists, Bool.and_eq_true, decide_eq_true_eq]
  constructor
  · rintro ⟨pair, written⟩
    obtain ⟨other, found, line, formatted⟩ := pairOn?_eq_some_iff.mp written
    obtain rfl := Diagram.eq_of_line reads member (List.mem_of_find?_eq_some found)
      (own.trans line.symm)
    obtain ⟨wholeX, wholeY, roundX, roundY, -⟩ := Document.format_eq_ok_iff.mp formatted
    refine ⟨(Diagram.find?_id found).symm, ?_⟩
    rw [isFinite, Decimal.isFinite_of_roundHalfUp roundX, Decimal.isFinite_of_roundHalfUp roundY]
    rfl
  · rintro ⟨same, finite⟩
    obtain ⟨finiteX, finiteY⟩ := Bool.and_eq_true_iff.mp finite
    obtain ⟨wholeX, wholeY, -, roundX, roundY, -⟩ :=
      Draft.wholePosition_of_isFinite finiteX finiteY
    refine ⟨Coordinates.write wholeX wholeY, pairOn?_eq_some_iff.mpr ⟨node, ?_, own, ?_⟩⟩
    · rw [same]
      exact Diagram.find?_of_mem (Diagram.ids_nodup reads) member
    · exact Document.format_eq_ok_iff.mpr ⟨wholeX, wholeY, roundX, roundY, rfl⟩

theorem findSome?_pairOn? (reads : Diagram.read spiral document = .ok d) (member : node ∈ d.nodes)
    (own : node.line = k) (moves : List Move) :
    moves.reverse.findSome? (pairOn? d k) = (last? moves node.id).bind (pairOn? d k) := by
  rw [last?]
  induction moves.reverse with
  | nil => rfl
  | cons m rest ih =>
    have written := isSome_pairOn? reads member own m
    rw [List.findSome?_cons, List.find?_cons, ← written, ih]
    cases pair : m.pairOn? d k with
    | none => rfl
    | some pair => exact pair.symm

theorem of_last? (found : last? moves id = some m) :
    m.id = id ∧ m.isFinite = true ∧ m ∈ moves := by
  have last := List.find?_some found
  rw [Bool.and_eq_true, decide_eq_true_eq] at last
  exact ⟨last.1, last.2, List.mem_reverse.mp (List.mem_of_find?_eq_some found)⟩

theorem last?_append (before after : List Move) (id : String) :
    last? (before ++ after) id = (last? after id).or (last? before id) := by
  rw [last?, List.reverse_append, List.find?_append]
  rfl

theorem last?_cons (m : Move) (rest : List Move) (id : String) :
    last? (m :: rest) id = (last? rest id).or (last? [m] id) :=
  last?_append [m] rest id

theorem last?_cons_of_ne (other : m.id ≠ id) (rest : List Move) :
    last? (m :: rest) id = last? rest id := by
  have absent : last? [m] id = none := by
    rw [last?, List.reverse_singleton, List.find?_singleton]
    simp [other]
  rw [last?_cons, absent, Option.or_none]

theorem last?_swap {a b : Move} (apart : a.id ≠ b.id) (rest : List Move) (id : String) :
    last? (a :: b :: rest) id = last? (b :: a :: rest) id := by
  by_cases own : a.id = id
  · have other : b.id ≠ id := own ▸ apart.symm
    rw [last?_cons, last?_cons_of_ne other, ← last?_cons, last?_cons_of_ne other]
  · rw [last?_cons_of_ne own, last?_cons b rest, last?_cons b (a :: rest), last?_cons_of_ne own]

theorem last?_overridden {a b : Move} (same : b.id = a.id) (finite : b.isFinite = true)
    (member : b ∈ moves) (id : String) : last? (a :: moves) id = last? moves id := by
  by_cases own : a.id = id
  · have later : (last? moves id).isSome = true := by
      rw [last?, List.find?_isSome]
      exact ⟨b, List.mem_reverse.mpr member, by simp [same, own, finite]⟩
    rw [last?_cons, Option.or_of_isSome later]
  · exact last?_cons_of_ne own moves

theorem mem_lasts : m ∈ lasts d moves ↔ m.id ∈ d.ids ∧ last? moves m.id = some m := by
  rw [lasts, List.mem_filterMap]
  constructor
  · rintro ⟨id, member, found⟩
    obtain ⟨rfl, -⟩ := of_last? found
    exact ⟨member, found⟩
  · rintro ⟨member, found⟩
    exact ⟨m.id, member, found⟩

theorem last?_of_perm (order : others.Perm (lasts d moves)) (member : id ∈ d.ids) :
    last? others id = last? moves id := by
  have last : ∀ m, last? others id = some m → last? moves id = some m := by
    intro m found
    obtain ⟨rfl, -, inside⟩ := of_last? found
    exact (mem_lasts.mp (order.mem_iff.mp inside)).2
  cases found : last? moves id with
  | some m =>
    obtain ⟨rfl, finite, -⟩ := of_last? found
    have inside : m ∈ others := order.mem_iff.mpr (mem_lasts.mpr ⟨member, found⟩)
    have some : (last? others m.id).isSome = true := by
      rw [last?, List.find?_isSome]
      exact ⟨m, List.mem_reverse.mpr inside, by simp [finite]⟩
    obtain ⟨other, again⟩ := Option.isSome_iff_exists.mp some
    rw [again, ← found, last other again]
  | none =>
    rw [Option.eq_none_iff_forall_ne_some]
    intro m again
    exact absurd (last m again) (by simp [found])

end Move

variable {spiral : Spiral} {document : String} {d : Diagram} {moves others : List Move}

/-- The lines of nodes that are moved hold one pair at most. -/
def Document.SinglePairs (document : String) (d : Diagram) (moves : List Move) : Prop :=
  ∀ m ∈ moves, ∀ node, d.find? m.id = some node →
    cut? (erase (line document node.line)) = none

namespace Document

theorem lines_move (d : Diagram) (document : String) (m : Move) (k : Nat) :
    (Text.splitLines (move d document m).toList)[k]? =
      (Text.splitLines document.toList)[k]?.map fun raw =>
        (m.pairOn? d k).elim raw (Line.withPair raw) := by
  rw [move, moveNode, Move.pairOn?]
  cases d.find? m.id with
  | none => simp [afterMove]
  | some node => exact lines_writePosition document node.line m.x m.y k

theorem lines_moveAll (single : SinglePairs document d moves) (k : Nat) :
    (Text.splitLines (moveAll d document moves).toList)[k]? =
      (Text.splitLines document.toList)[k]?.map fun raw =>
        (moves.reverse.findSome? (Move.pairOn? d k)).elim raw (Line.withPair raw) := by
  induction moves using List.reverseRecOn with
  | nil => simp [moveAll]
  | append_singleton moves m ih =>
    have earlier : SinglePairs document d moves := fun other member =>
      single other (List.mem_append_left _ member)
    rw [moveAll, List.foldl_concat, ← moveAll, lines_move, ih earlier, Option.map_map,
      List.reverse_append, List.reverse_singleton, List.singleton_append, List.findSome?_cons]
    apply Option.map_congr
    intro raw atLine
    cases written : m.pairOn? d k with
    | none => rfl
    | some pair =>
      cases before : moves.reverse.findSome? (Move.pairOn? d k) with
      | none => simp
      | some old =>
        -- the line was written before, so a node of the diagram declared it
        obtain ⟨other, member, pairOn⟩ := List.exists_of_findSome?_eq_some before
        obtain ⟨node, found, own, formatted⟩ := Move.pairOn?_eq_some_iff.mp pairOn
        obtain ⟨wholeX, wholeY, -, -, rfl⟩ := format_eq_ok_iff.mp formatted
        have onLine : line document node.line = raw := by
          rw [line, own, Int.toNat_natCast, List.getD_eq_getElem?_getD, atLine]
          rfl
        have alone := earlier other (List.mem_reverse.mp member) node found
        rw [onLine] at alone
        simp only [Function.comp_apply, Option.elim_some]
        exact Line.withPair_withPair alone (Coordinates.write_spells wholeX wholeY) pair

theorem moveAll_congr (reads : Diagram.read spiral document = .ok d)
    (single : SinglePairs document d moves) (alone : SinglePairs document d others)
    (same : ∀ id ∈ d.ids, Move.last? moves id = Move.last? others id) :
    moveAll d document moves = moveAll d document others := by
  apply eq_of_lines
  intro k
  have last : moves.reverse.findSome? (Move.pairOn? d k) =
      others.reverse.findSome? (Move.pairOn? d k) := by
    by_cases declared : ∃ node ∈ d.nodes, node.line = k
    · obtain ⟨node, member, own⟩ := declared
      rw [Move.findSome?_pairOn? reads member own, Move.findSome?_pairOn? reads member own,
        same node.id (List.mem_map_of_mem member)]
    · -- no node is on the line, so nothing is written there
      have absent : ∀ m : Move, m.pairOn? d k = none := by
        intro m
        rw [Option.eq_none_iff_forall_ne_some]
        intro pair written
        obtain ⟨node, found, own, -⟩ := Move.pairOn?_eq_some_iff.mp written
        exact declared ⟨node, List.mem_of_find?_eq_some found, own⟩
      rw [List.findSome?_eq_none_iff.mpr fun m _ => absent m,
        List.findSome?_eq_none_iff.mpr fun m _ => absent m]
  rw [lines_moveAll single, lines_moveAll alone, last]

theorem move_of_unwritten (d : Diagram) (document : String) {m : Move}
    (unwritten : d.find? m.id = none ∨ m.isFinite = false) : move d document m = document := by
  rw [move, moveNode]
  cases found : d.find? m.id with
  | none => rfl
  | some node =>
    have infinite : ¬ (Decimal.isFinite m.x = true ∧ Decimal.isFinite m.y = true) := by
      rw [← Bool.and_eq_true, ← Move.isFinite, unwritten.resolve_left (by simp [found])]
      exact Bool.false_ne_true
    simp only [writePosition, infinite, not_false_eq_true, if_true, afterMove]

/-- Moves from one diagram have a normal form: the last finite move of each node, in any order.
Other moves do nothing, neighbours of different nodes change places, and a move leaves no trace
when its node is moved again. -/
theorem moveAll_normal (reads : Diagram.read spiral document = .ok d)
    (single : SinglePairs document d moves) :
    (∀ others, others.Perm (Move.lasts d moves) →
      moveAll d document moves = moveAll d document others) ∧
    (∀ (m : Move) text, d.find? m.id = none ∨ m.isFinite = false → move d text m = text) ∧
    (∀ before a b after, moves = before ++ a :: b :: after → a.id ≠ b.id →
      moveAll d document moves = moveAll d document (before ++ b :: a :: after)) ∧
    (∀ before a after, moves = before ++ a :: after →
      (∃ b ∈ after, b.id = a.id ∧ b.isFinite = true) →
      moveAll d document moves = moveAll d document (before ++ after)) := by
  have fewer : ∀ others, others ⊆ moves → SinglePairs document d others :=
    fun others inside m member => single m (inside member)
  refine ⟨fun others order => ?_, fun m text => move_of_unwritten d text, ?_, ?_⟩
  · have inside : others ⊆ moves := fun m member =>
      (Move.of_last? (Move.mem_lasts.mp (order.mem_iff.mp member)).2).2.2
    exact moveAll_congr reads single (fewer others inside) fun id member =>
      (Move.last?_of_perm order member).symm
  · rintro before a b after rfl apart
    have inside : before ++ b :: a :: after ⊆ before ++ a :: b :: after :=
      ((List.Perm.swap a b after).append_left before).subset
    refine moveAll_congr reads single (fewer _ inside) fun id _ => ?_
    rw [Move.last?_append, Move.last?_append, Move.last?_swap apart]
  · rintro before a after rfl ⟨b, later, same, finite⟩
    have inside : before ++ after ⊆ before ++ a :: after :=
      ((List.sublist_cons_self a after).append_left before).subset
    refine moveAll_congr reads single (fewer _ inside) fun id _ => ?_
    rw [Move.last?_append, Move.last?_append, Move.last?_overridden same finite later]

/-- Two nodes are moved in turn, one of them twice, from the diagram as it was at first; the line
with a carriage return loses the pair in its middle. -/
theorem moveAll_normal_twice :
    let document := "ent (1, 2) A\r\nent B (8, 9)"
    let moves : List Move := [⟨"A", 7, 7⟩, ⟨"B", 3, 4⟩, ⟨"A", 5, 6⟩]
    ∃ d, Diagram.read {} document = .ok d ∧ SinglePairs document d moves ∧
      moveAll d document moves = moveAll d document [⟨"B", 3, 4⟩, ⟨"A", 5, 6⟩] ∧
      moveAll d document moves = "ent  A (5, 6)\r\nent B (3, 4)" := by
  intro document moves
  let d : Diagram :=
    ⟨[⟨"A", .entity, "A", ⟨1, 2⟩, none, 0⟩, ⟨"B", .entity, "B", ⟨8, 9⟩, none, 1⟩], [], []⟩
  have reads : Diagram.read {} document = .ok d := by decide +kernel
  have single : SinglePairs document d moves := by
    intro m _ node found
    have alone : d.nodes.all fun node => (cut? (erase (line document node.line))).isNone := by
      decide +kernel
    exact Option.isNone_iff_eq_none.mp
      (List.all_eq_true.mp alone node (List.mem_of_find?_eq_some found))
  obtain ⟨normal, -⟩ := moveAll_normal reads single
  have order : List.Perm [⟨"B", 3, 4⟩, ⟨"A", 5, 6⟩] (Move.lasts d moves) := by
    have lasts : Move.lasts d moves = [⟨"A", 5, 6⟩, ⟨"B", 3, 4⟩] := by decide +kernel
    rw [lasts]
    exact .swap _ _ _
  exact ⟨d, reads, single, normal _ order, by decide +kernel⟩

end Document

end EERDiagram
