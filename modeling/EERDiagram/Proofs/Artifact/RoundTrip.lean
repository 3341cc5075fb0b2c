import EERDiagram.Artifact.Format
import EERDiagram.Proofs.Json.RoundTrip

/-! Artifacts written and read. Every record is the record of the value that it is written as, and
every such value is faithful, so the text of a diagram holds the diagram. -/
namespace EERDiagram

theorem Kind.ofName?_name (kind : Kind) : Kind.ofName? kind.name = some kind := by
  cases kind <;> decide

theorem LinkStyle.ofName?_name (style : LinkStyle) : LinkStyle.ofName? style.name = some style := by
  cases style <;> decide

namespace Artifact

open Json (Value)

theorem number_real (x : Float) : Field.number (.real x) = .ok x := rfl

theorem integer_integer (n : Int) : Field.integer (.integer n) = .ok n := rfl

theorem toNode_ofNode (node : Node) : toNode (ofNode node) = .ok node := by
  obtain ⟨id, kind, label, position, discriminator, line⟩ := node
  have known : toKind (.text kind.name) = .ok kind := by simp only [toKind, Kind.ofName?_name]
  cases discriminator <;>
    simp [toNode, ofNode, require, lookup, Json.Members.find?, known, Field.text, number_real,
      integer_integer, Field.optionalText, bind, Except.bind, pure, Except.pure]

theorem toLink_ofLink (link : Link) : toLink (ofLink link) = .ok link := by
  obtain ⟨source, target, label, style⟩ := link
  have known : toStyle (.text style.name) = .ok style := by
    simp only [toStyle, LinkStyle.ofName?_name]
  cases label <;>
    simp [toLink, ofLink, require, lookup, Json.Members.find?, known, Field.text,
      Field.optionalText, bind, Except.bind, pure, Except.pure]

theorem toIgnored_ofIgnored (line : IgnoredLine) : toIgnored (ofIgnored line) = .ok line := by
  simp [toIgnored, ofIgnored, require, Json.Members.find?, Field.text, integer_integer, bind,
    Except.bind, pure, Except.pure]

theorem mapM_map {write : α → Value} {read : Value → Except ReadError α}
    (inverse : ∀ a, read (write a) = .ok a) (items : List α) :
    (items.map write).mapM read = .ok items := by
  have same : read ∘ write = fun a => pure a := funext inverse
  rw [List.mapM_map, same, List.mapM_pure, List.map_id']
  rfl

/-- The members of a diagram's value are the diagram, whatever it holds. -/
theorem toDiagram_ofDiagram (d : Diagram) : toDiagram (ofDiagram d) = .ok d := by
  simp [toDiagram, ofDiagram, lookup, Json.Members.find?, toItems, mapM_map toNode_ofNode,
    mapM_map toLink_ofLink, mapM_map toIgnored_ofIgnored, bind, Except.bind, pure, Except.pure]

theorem faithful_optional {value : Option String} (inside : member ∈ (match value with
    | some s => [(name, Value.text s)]
    | none => [])) : member.2.Faithful := by
  cases value with
  | none => contradiction
  | some s =>
    obtain rfl := List.mem_singleton.mp inside
    exact .text s

theorem ofNode_faithful {node : Node} (backX : Decimal.ReadsBack node.position.x)
    (backY : Decimal.ReadsBack node.position.y)
    (short : (Nat.toDigits 10 node.line.natAbs).length ≤ Json.maxDigits) :
    (ofNode node).Faithful := by
  refine .object (by cases node.discriminator <;> simp) fun member inside => ?_
  rcases List.mem_append.mp inside with own | optional
  · simp only [List.mem_cons, List.not_mem_nil, or_false] at own
    rcases own with rfl | rfl | rfl | rfl | rfl | rfl
    exacts [.text _, .text _, .text _, .real backX, .real backY, .integer short]
  · exact faithful_optional optional

theorem ofLink_faithful (link : Link) : (ofLink link).Faithful := by
  refine .object (by cases link.label <;> simp) fun member inside => ?_
  rcases List.mem_append.mp inside with own | optional
  · simp only [List.mem_cons, List.not_mem_nil, or_false] at own
    rcases own with rfl | rfl | rfl <;> exact .text _
  · exact faithful_optional optional

theorem ofIgnored_faithful {line : IgnoredLine}
    (short : (Nat.toDigits 10 line.line.natAbs).length ≤ Json.maxDigits) :
    (ofIgnored line).Faithful := by
  refine .object (by simp) fun member inside => ?_
  simp only [List.mem_cons, List.not_mem_nil, or_false] at inside
  rcases inside with rfl | rfl | rfl
  exacts [.integer short, .text _, .text _]

variable {d : Diagram}

theorem ofDiagram_faithful
    (back : ∀ node ∈ d.nodes,
      Decimal.ReadsBack node.position.x ∧ Decimal.ReadsBack node.position.y)
    (short : ∀ line ∈ d.nodes.map Node.line ++ d.ignored.map IgnoredLine.line,
      (Nat.toDigits 10 line.natAbs).length ≤ Json.maxDigits) : (ofDiagram d).Faithful := by
  have nodes : ∀ value ∈ d.nodes.map ofNode, value.Faithful := by
    intro value member
    obtain ⟨node, inside, rfl⟩ := List.mem_map.mp member
    exact ofNode_faithful (back node inside).1 (back node inside).2
      (short _ (List.mem_append_left _ (List.mem_map_of_mem inside)))
  have links : ∀ value ∈ d.links.map ofLink, value.Faithful := by
    intro value member
    obtain ⟨link, -, rfl⟩ := List.mem_map.mp member
    exact ofLink_faithful link
  have ignored : ∀ value ∈ d.ignored.map ofIgnored, value.Faithful := by
    intro value member
    obtain ⟨line, inside, rfl⟩ := List.mem_map.mp member
    exact ofIgnored_faithful (short _ (List.mem_append_right _ (List.mem_map_of_mem inside)))
  refine .object (by simp) fun member inside => ?_
  simp only [List.mem_cons, List.not_mem_nil, or_false] at inside
  rcases inside with rfl | rfl | rfl | rfl
  exacts [.text _, .array nodes, .array links, .array ignored]

/-- A diagram is read back from its text, field by field and in order, when its coordinates are
what their digits stand for and its line numbers are not too long to be read. -/
theorem read_write
    (back : ∀ node ∈ d.nodes,
      Decimal.ReadsBack node.position.x ∧ Decimal.ReadsBack node.position.y)
    (short : ∀ line ∈ d.nodes.map Node.line ++ d.ignored.map IgnoredLine.line,
      (Nat.toDigits 10 line.natAbs).length ≤ Json.maxDigits) : read (write d) = .ok d := by
  rw [read, write, Json.read_render (ofDiagram_faithful back short)]
  exact toDiagram_ofDiagram d

/-- Marks that are escaped, characters beyond the first plane, members that are empty or left out,
and doubles of every sort. -/
def awkward : Diagram where
  nodes := [
    ⟨"a\"\\/", .weakEntity, "\u0000\u001f\x7f\n\t", ⟨0.0 / 0.0, -1.0 / 0.0⟩, some "", -1⟩,
    ⟨"", .union, "é\u2028😀", ⟨-0.0, 0.1⟩, none, 100000000000000000000⟩,
    ⟨"a\"\\/", .derivedAttribute, "NaN", ⟨5e-324, 1e22⟩, some "\x7d,\"x\":1", 0⟩]
  links := [⟨"a", "b", some "", .double⟩, ⟨"b", "𝄞", none, .solid⟩]
  ignored := [⟨-7, "\r\"", ""⟩]

theorem read_write_awkward : read (write awkward) = .ok awkward := by
  apply read_write
  · simp only [awkward, List.forall_mem_cons]
    refine ⟨⟨?_, ?_⟩, ⟨?_, ?_⟩, ⟨?_, ?_⟩, by simp⟩
    all_goals exact fun _ => by decide +kernel
  · decide +kernel

end Artifact
end EERDiagram
