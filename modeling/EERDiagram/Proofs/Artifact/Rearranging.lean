import EERDiagram.Artifact.Format
import EERDiagram.Proofs.Fallible
import EERDiagram.Proofs.Json.Rearranging

/-! Artifacts with their members in another order and with others among them. Members are looked
up by name, in an order that the reader has of its own, so neither the diagram nor the error
depends on the order of the text or on names that are not looked up. -/
namespace EERDiagram.Artifact

open Json (Value Members ArrayText)

/-! The names that are looked up. -/

def diagramNames : List String := ["v", "nodes", "links", "ignored"]

def nodeNames : List String := ["id", "kind", "label", "x", "y", "discriminator", "line"]

def linkNames : List String := ["source", "target", "label", "style"]

def ignoredNames : List String := ["line", "text", "reason"]

/-! Records with the same under the names that are looked up. -/

section Records

variable {names : List String} {a b : Members} {record : Value → Except ReadError α}

/-- The members have the same under each of the names. -/
def Agree (names : List String) (a b : Members) : Prop :=
  ∀ name ∈ names, Members.find? name a = Members.find? name b

theorem Agree.require (agree : Agree names a b) (known : name ∈ names) :
    require (.object a) name = require (.object b) name := by
  simp only [Artifact.require, agree name known]

theorem Agree.lookup (agree : Agree names a b) (known : name ∈ names) (default : Value) :
    lookup (.object a) name default = lookup (.object b) name default := by
  simp only [Artifact.lookup, agree name known]

theorem toNode_congr (agree : Agree nodeNames a b) : toNode (.object a) = toNode (.object b) := by
  have required : ∀ name ∈ nodeNames, require (.object a) name = require (.object b) name :=
    fun _ => agree.require
  simp only [nodeNames, List.forall_mem_cons] at required
  obtain ⟨id, kind, label, x, y, -, line, -⟩ := required
  have discriminator := agree.lookup (by decide : "discriminator" ∈ nodeNames) .null
  simp only [toNode, id, kind, label, x, y, discriminator, line]

theorem toLink_congr (agree : Agree linkNames a b) : toLink (.object a) = toLink (.object b) := by
  have required : ∀ name ∈ linkNames, require (.object a) name = require (.object b) name :=
    fun _ => agree.require
  simp only [linkNames, List.forall_mem_cons] at required
  obtain ⟨source, target, -⟩ := required
  have label := agree.lookup (by decide : "label" ∈ linkNames) .null
  have style := agree.lookup (by decide : "style" ∈ linkNames) (.text LinkStyle.solid.name)
  simp only [toLink, source, target, label, style]

theorem toIgnored_congr (agree : Agree ignoredNames a b) :
    toIgnored (.object a) = toIgnored (.object b) := by
  have required : ∀ name ∈ ignoredNames, require (.object a) name = require (.object b) name :=
    fun _ => agree.require
  simp only [ignoredNames, List.forall_mem_cons] at required
  obtain ⟨line, text, reason, -⟩ := required
  simp only [toIgnored, line, text, reason]

/-! Texts of lists of records. -/

/-- The same text, or objects with the members of the one in any order in the other, and others
that are not looked up. -/
def RecordRearranged (names : List String) (s t : List Char) : Prop :=
  s = t ∨ Json.Rearranged names (fun _ => Eq) s t

/-- The same text, or arrays of as many records, rearranged one by one. -/
def RecordsRearranged (names : List String) (s t : List Char) : Prop :=
  s = t ∨ ∃ items items', ArrayText items s ∧ ArrayText items' t ∧
    List.Forall₂ (RecordRearranged names) items items'

theorem RecordRearranged.eq (rearranged : RecordRearranged names s t)
    (congr : ∀ a b, Agree names a b → record (.object a) = record (.object b))
    (value : Json.read s = .ok v) (value' : Json.read t = .ok w) : record v = record w := by
  rcases rearranged with rfl | rearranged
  · obtain rfl := Except.ok.inj (value.symm.trans value')
    rfl
  · obtain ⟨before, after, readBefore, readAfter, found⟩ := rearranged.found
    obtain rfl := Except.ok.inj (value.symm.trans readBefore)
    obtain rfl := Except.ok.inj (value'.symm.trans readAfter)
    exact congr before after fun name known => (found name known).eq

theorem records_eq (each : List.Forall₂ (RecordRearranged names) items items')
    (congr : ∀ a b, Agree names a b → record (.object a) = record (.object b))
    (own : List.Forall₂ (fun item v => Json.read item = .ok v) items values)
    (own' : List.Forall₂ (fun item v => Json.read item = .ok v) items' values') :
    values.mapM record = values'.mapM record := by
  induction each generalizing values values' with
  | nil =>
    cases own
    cases own'
    rfl
  | cons first _ ih =>
    cases own with
    | cons value own =>
      cases own' with
      | cons value' own' =>
        rw [List.mapM_cons, List.mapM_cons, first.eq congr value value', ih own own']

theorem RecordsRearranged.eq (rearranged : RecordsRearranged names s t)
    (congr : ∀ a b, Agree names a b → record (.object a) = record (.object b))
    (value : Json.read s = .ok v) (value' : Json.read t = .ok w) :
    toItems v >>= List.mapM record = toItems w >>= List.mapM record := by
  rcases rearranged with rfl | ⟨items, items', text, text', each⟩
  · obtain rfl := Except.ok.inj (value.symm.trans value')
    rfl
  · obtain ⟨values, readItems, own⟩ := text.read
    obtain ⟨values', readItems', own'⟩ := text'.read
    obtain rfl := Except.ok.inj (value.symm.trans readItems)
    obtain rfl := Except.ok.inj (value'.symm.trans readItems')
    exact records_eq each congr own own'

theorem list_eq (corresponds : Json.Corresponds (RecordsRearranged names) x y)
    (congr : ∀ a b, Agree names a b → record (.object a) = record (.object b)) (default : Value) :
    toItems (x.getD default) >>= List.mapM record =
      toItems (y.getD default) >>= List.mapM record := by
  cases corresponds with
  | none => rfl
  | some rearranged value value' => exact rearranged.eq congr value value'

end Records

/-! Texts of diagrams. -/

/-- How the value under a name may be altered: in the lists, record by record. -/
def Altered : String → List Char → List Char → Prop
  | "nodes" => RecordsRearranged nodeNames
  | "links" => RecordsRearranged linkNames
  | "ignored" => RecordsRearranged ignoredNames
  | _ => Eq

/-- Objects with the members of the one in any order in the other, the records in their lists
likewise, and others that are not looked up. -/
def Rearranged (s t : List Char) : Prop := Json.Rearranged diagramNames Altered s t

theorem toDiagram_congr {a b : Members} (version : Members.find? "v" a = Members.find? "v" b)
    (nodes : toItems (lookup (.object a) "nodes" (.array [])) >>= List.mapM toNode =
      toItems (lookup (.object b) "nodes" (.array [])) >>= List.mapM toNode)
    (links : toItems (lookup (.object a) "links" (.array [])) >>= List.mapM toLink =
      toItems (lookup (.object b) "links" (.array [])) >>= List.mapM toLink)
    (ignored : toItems (lookup (.object a) "ignored" (.array [])) >>= List.mapM toIgnored =
      toItems (lookup (.object b) "ignored" (.array [])) >>= List.mapM toIgnored) :
    toDiagram (.object a) = toDiagram (.object b) := by
  have regroup : ∀ {α β : Type} (x : Except ReadError (List Value))
      (record : Value → Except ReadError α) (rest : List α → Except ReadError β),
      (x >>= fun items => items.mapM record >>= rest) = (x >>= List.mapM record) >>= rest :=
    fun x record rest => (bind_assoc x _ _).symm
  simp only [toDiagram, version, regroup, nodes, links, ignored]

def faultyLink : Value := .object [("label", .integer 0)]

def faultyNode : Value := .object [("kind", .text "x"), ("id", .text "")]

def faultyNode' : Value := .object [("more", .null), ("id", .text ""), ("kind", .text "x")]

def faulty : Value := .object [("links", .array [faultyLink]), ("nodes", .array [faultyNode]),
  ("v", .text "1")]

def faulty' : Value := .object [("more", .array []), ("v", .text "1"),
  ("nodes", .array [faultyNode']), ("links", .array [faultyLink])]

theorem faultyLink_faithful : faultyLink.Faithful :=
  .object (by decide) (by simpa using .integer (by decide))

theorem faultyNode_faithful : faultyNode.Faithful :=
  .object (by decide) (by simpa using ⟨.text _, .text _⟩)

theorem faultyNode'_faithful : faultyNode'.Faithful :=
  .object (by decide) (by simpa using ⟨.null, .text _, .text _⟩)

theorem faultyNode_rearranged :
    Json.Rearranged nodeNames (fun _ => Eq) faultyNode.render faultyNode'.render := by
  refine Json.rearranged_render [("kind", .text "x"), ("id", .text "")] [("more", .null)]
    faultyNode_faithful faultyNode'_faithful ?_ (List.perm_reverse.mp (.refl _))
    (by simp [nodeNames])
  exact List.forall₂_same.mpr fun _ _ => ⟨rfl, rfl⟩

theorem faulty_rearranged : Rearranged faulty.render faulty'.render := by
  have links : (Value.array [faultyLink]).Faithful := .array (by simpa using faultyLink_faithful)
  have nodes : (Value.array [faultyNode]).Faithful := .array (by simpa using faultyNode_faithful)
  have nodes' : (Value.array [faultyNode']).Faithful := .array (by simpa using faultyNode'_faithful)
  have altered : RecordsRearranged nodeNames (Value.array [faultyNode]).render
      (Value.array [faultyNode']).render :=
    .inr ⟨_, _, Json.arrayText_render nodes, Json.arrayText_render nodes',
      .cons (.inr faultyNode_rearranged) .nil⟩
  refine Json.rearranged_render [("links", .array [faultyLink]), ("nodes", .array [faultyNode']),
    ("v", .text "1")] [("more", .array [])] (.object (by decide) ?_) (.object (by decide) ?_)
    ?_ (List.perm_reverse.mp (.refl _)) (by simp [diagramNames])
  · simpa using ⟨links, nodes, .text _⟩
  · simpa using ⟨.array (by simp), .text _, nodes', links⟩
  · exact .cons ⟨rfl, .inl rfl⟩ (.cons ⟨rfl, altered⟩ (.cons ⟨rfl, rfl⟩ .nil))

def failure (s : List Char) : Option String :=
  match read s with
  | .ok _ => none
  | .error e => some e.message

end EERDiagram.Artifact
