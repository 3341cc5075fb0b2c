import EERDiagram.Proofs.Json.RoundTrip
import Mathlib.Data.List.Nodup
import Mathlib.Data.List.Perm.Basic

/-! Objects with their members in another order and with others among them. What is found under a
name that only the other members lack is as it was. -/
namespace EERDiagram.Json

/-! Lookup in members with names of their own. -/

section Lookup

variable {name : String} {members : Members}

theorem Members.find?_eq_none_iff : find? name members = none ↔ name ∉ members.map Prod.fst := by
  induction members with
  | nil => simp [find?]
  | cons member members ih =>
    rw [find?]
    split
    next same => simp [same]
    next other => simp [ih, Ne.symm other]

theorem Members.find?_eq_some_iff (names : (members.map Prod.fst).Nodup) :
    find? name members = some v ↔ (name, v) ∈ members := by
  induction members with
  | nil => simp [find?]
  | cons member members ih =>
    obtain ⟨first, names⟩ := List.nodup_cons.mp names
    rw [find?]
    split
    next same =>
      subst same
      constructor
      · rintro ⟨⟩
        exact List.mem_cons_self
      · intro inside
        rcases List.mem_cons.mp inside with same | inside
        · rw [← same]
        · exact absurd (List.mem_map_of_mem inside) first
    next other =>
      rw [ih names, List.mem_cons, or_iff_right]
      rintro rfl
      exact other rfl

end Lookup

/-! The texts of arrays and objects, with the texts that they are made of. -/

def MemberText (part : List Char) (member : String × List Char) : Prop := ∃ called written,
  part = called ++ ':' :: written ∧ read called = .ok (.text member.1) ∧
    Spaced member.2 written ∧ ∃ v, read member.2 = .ok v

/-- The text is an object with these members in this order, each with a name of its own. -/
structure ObjectText (members : List (String × List Char)) (s : List Char) : Prop where
  names : (members.map Prod.fst).Nodup
  text : ∃ parts, Enclosed '\x7b' '\x7d' parts s ∧ List.Forall₂ MemberText parts members

def ArrayText (items : List (List Char)) (s : List Char) : Prop := ∃ parts,
  Enclosed '[' ']' parts s ∧
    List.Forall₂ (fun part item => Spaced item part ∧ ∃ v, read item = .ok v) parts items

theorem exists_forall₂ {R : α → β → Prop} {S : α → γ → Prop} {T : β → γ → Prop}
    (each : ∀ a b, R a b → ∃ c, S a c ∧ T b c) (pairs : List.Forall₂ R as bs) :
    ∃ cs, List.Forall₂ S as cs ∧ List.Forall₂ T bs cs := by
  induction pairs with
  | nil => exact ⟨[], .nil, .nil⟩
  | @cons a b as bs first _ ih =>
    obtain ⟨c, left, right⟩ := each a b first
    obtain ⟨cs, lefts, rights⟩ := ih
    exact ⟨c :: cs, .cons left lefts, .cons right rights⟩

theorem exists_partner {R : α → β → Prop} (pairs : List.Forall₂ R as bs) (inside : a ∈ as) :
    ∃ b ∈ bs, R a b := by
  induction pairs with
  | nil => contradiction
  | @cons c b as bs first _ ih =>
    rcases List.mem_cons.mp inside with rfl | inside
    · exact ⟨b, List.mem_cons_self, first⟩
    · obtain ⟨b', inside', related⟩ := ih inside
      exact ⟨b', List.mem_cons_of_mem _ inside', related⟩

theorem names_eq {R : String × α → String × β → Prop} (pairs : List.Forall₂ R as bs)
    (named : ∀ a b, R a b → b.1 = a.1) : as.map Prod.fst = bs.map Prod.fst := by
  rw [← List.forall₂_eq_eq_eq, List.forall₂_map_left_iff, List.forall₂_map_right_iff]
  exact pairs.imp fun a b related => (named a b related).symm

theorem ArrayText.read (text : ArrayText items s) : ∃ values, read s = .ok (.array values) ∧
    List.Forall₂ (fun item v => Json.read item = .ok v) items values := by
  obtain ⟨parts, enclosed, each⟩ := text
  obtain ⟨values, shown, own⟩ := exists_forall₂
    (S := fun part v => Json.read part = .ok v) (T := fun item v => Json.read item = .ok v)
    (fun part item ⟨spaced, v, value⟩ => ⟨v, read_spaced spaced value, value⟩) each
  exact ⟨values, read_array_iff.mpr ⟨parts, enclosed, shown⟩, own⟩

def Reads (member : String × List Char) (own : String × Value) : Prop :=
  own.1 = member.1 ∧ read member.2 = .ok own.2

theorem ObjectText.read (text : ObjectText members s) : ∃ own, read s = .ok (.object own) ∧
    (own.map Prod.fst).Nodup ∧ List.Forall₂ Reads members own := by
  obtain ⟨names, parts, enclosed, each⟩ := text
  obtain ⟨own, shown, reads⟩ := exists_forall₂ (S := IsMember) (T := Reads)
    (fun part member ⟨called, written, same, name, spaced, v, value⟩ =>
      ⟨(member.1, v), ⟨called, written, same, name, read_spaced spaced value⟩, rfl, value⟩) each
  rw [names_eq reads fun _ _ read => read.1] at names
  exact ⟨own, read_object_iff.mpr ⟨parts, own, enclosed, shown, (insertAll_of_nodup names).symm⟩,
    names, reads⟩

theorem exists_memberTexts (each : List.Forall₂ IsMember parts own) :
    ∃ members, List.Forall₂ MemberText parts members ∧ List.Forall₂ Reads members own := by
  obtain ⟨members, texts, reads⟩ := exists_forall₂ (S := MemberText) (T := flip Reads)
    (fun part member ⟨called, written, same, name, value⟩ =>
      ⟨(member.1, written), ⟨called, written, same, name, spaced_self written, _, value⟩, rfl,
        value⟩) each
  exact ⟨members, texts, reads.flip⟩

/-! Written arrays and objects are such texts. -/

theorem arrayText_render (faithful : (Value.array items).Faithful) :
    ArrayText (items.map Value.render) (Value.array items).render := by
  cases faithful with
  | array each =>
    refine ⟨items.map Value.render, ⟨[], space_nil, ?_⟩, ?_⟩
    · rw [Value.render, renderItems_eq]
      exact spaced_self _
    · rw [List.forall₂_map_left_iff, List.forall₂_map_right_iff, List.forall₂_same]
      exact fun item inside => ⟨spaced_self _, item, read_render (each item inside)⟩

theorem objectText_render {members : Members} (faithful : (Value.object members).Faithful) :
    ObjectText (members.map fun member => (member.1, member.2.render))
      (Value.object members).render := by
  cases faithful with
  | object names each =>
    refine ⟨by rwa [List.map_map], members.map renderMember, ⟨[], space_nil, ?_⟩, ?_⟩
    · rw [Value.render, renderMembers_eq]
      exact spaced_self _
    · rw [List.forall₂_map_left_iff, List.forall₂_map_right_iff, List.forall₂_same]
      exact fun member inside => ⟨_, _, rfl, read_render (.text member.1), spaced_self _, _,
        read_render (each member inside)⟩

/-- The second text is an object with the members of the first in any order, their values altered
as allowed, and with others whose names are not known. -/
def Rearranged (known : List String) (alters : String → List Char → List Char → Prop)
    (s t : List Char) : Prop := ∃ members kept added members',
  ObjectText members s ∧ ObjectText members' t ∧
    List.Forall₂ (fun old new => new.1 = old.1 ∧ alters old.1 old.2 new.2) members kept ∧
    members'.Perm (kept ++ added) ∧ ∀ member ∈ added, member.1 ∉ known

/-- Every text of an object is rearranged by writing its members in any order, with any others
among them whose names are not known. -/
theorem rearranged_of_perm (itself : ∀ name text, alters name text text)
    (enclosed : Enclosed '\x7b' '\x7d' parts s) (enclosed' : Enclosed '\x7b' '\x7d' parts' t)
    (order : parts'.Perm (parts ++ more)) (own : List.Forall₂ IsMember parts old)
    (others : List.Forall₂ IsMember more new) (names : ((old ++ new).map Prod.fst).Nodup)
    (unknown : ∀ member ∈ new, member.1 ∉ known) : Rearranged known alters s t := by
  obtain ⟨members, texts, reads⟩ := exists_memberTexts own
  obtain ⟨added, addedTexts, addedReads⟩ := exists_memberTexts others
  obtain ⟨members', texts', order'⟩ :=
    List.perm_comp_forall₂ order (List.rel_append texts addedTexts)
  rw [← names_eq (List.rel_append reads addedReads) fun _ _ read => read.1] at names
  have first : (members.map Prod.fst).Nodup := by
    rw [List.map_append] at names
    exact names.of_append_left
  refine ⟨members, members, added, members', ⟨first, parts, enclosed, texts⟩,
    ⟨(order'.map Prod.fst).nodup_iff.mpr names, parts', enclosed', texts'⟩,
    List.forall₂_same.mpr fun _ _ => ⟨rfl, itself _ _⟩, order', fun member inside => ?_⟩
  obtain ⟨read, inside', same, -⟩ := exists_partner addedReads inside
  rw [← same]
  exact unknown read inside'

theorem rearranged_render {members members' : Members} (kept added : Members)
    (faithful : (Value.object members).Faithful) (faithful' : (Value.object members').Faithful)
    (altered : List.Forall₂
      (fun old new => new.1 = old.1 ∧ alters old.1 old.2.render new.2.render) members kept)
    (order : members'.Perm (kept ++ added)) (unknown : ∀ member ∈ added, member.1 ∉ known) :
    Rearranged known alters (Value.object members).render (Value.object members').render := by
  refine ⟨_, kept.map fun member => (member.1, member.2.render),
    added.map fun member => (member.1, member.2.render), _, objectText_render faithful,
    objectText_render faithful', ?_, ?_, ?_⟩
  · rwa [List.forall₂_map_left_iff, List.forall₂_map_right_iff]
  · rw [← List.map_append]
    exact order.map _
  · rwa [List.forall_mem_map]

/-- What a known name has in both objects: nothing, or values that are read from texts of which
the one is an allowed alteration of the other. -/
inductive Corresponds (alters : List Char → List Char → Prop) : Option Value → Option Value → Prop
  where
  | none : Corresponds alters none none
  | some : alters u u' → read u = .ok v → read u' = .ok w → Corresponds alters (some v) (some w)

theorem Corresponds.eq (corresponds : Corresponds Eq x y) : x = y := by
  cases corresponds with
  | none => rfl
  | some alter value value' =>
    subst alter
    obtain rfl := Except.ok.inj (value.symm.trans value')
    rfl

/-- What is found under a known name depends neither on the order of the members nor on those
with other names. -/
theorem Rearranged.found (rearranged : Rearranged known alters s t) : ∃ before after,
    read s = .ok (.object before) ∧ read t = .ok (.object after) ∧
      ∀ name ∈ known, Corresponds (alters name) (Members.find? name before)
        (Members.find? name after) := by
  obtain ⟨members, kept, added, members', text, text', altered, order, unknown⟩ := rearranged
  obtain ⟨before, readBefore, names, reads⟩ := text.read
  obtain ⟨after, readAfter, names', reads'⟩ := text'.read
  refine ⟨before, after, readBefore, readAfter, fun name known => ?_⟩
  cases found : Members.find? name before with
  | none =>
    have absent : Members.find? name after = none := by
      rw [Members.find?_eq_none_iff] at found ⊢
      rw [← names_eq reads fun _ _ read => read.1,
        names_eq altered fun _ _ alter => alter.1] at found
      rw [← names_eq reads' fun _ _ read => read.1, (order.map Prod.fst).mem_iff, List.map_append,
        List.mem_append, not_or]
      refine ⟨found, fun inside => ?_⟩
      obtain ⟨member, more, rfl⟩ := List.mem_map.mp inside
      exact unknown member more known
    rw [absent]
    exact .none
  | some v =>
    have inside := (Members.find?_eq_some_iff names).mp found
    obtain ⟨⟨_, u⟩, old, rfl, value⟩ := exists_partner (R := flip Reads) reads.flip inside
    obtain ⟨⟨_, u'⟩, new, rfl, alter⟩ := exists_partner altered old
    obtain ⟨⟨_, w⟩, inside', rfl, value'⟩ :=
      exists_partner reads' (order.mem_iff.mpr (List.mem_append_left _ new))
    rw [(Members.find?_eq_some_iff names').mpr inside']
    exact .some alter value value'

end EERDiagram.Json
