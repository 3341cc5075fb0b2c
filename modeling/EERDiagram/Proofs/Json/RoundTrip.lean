import EERDiagram.Proofs.Json.Parts

/-! Values written and read. A value that holds nothing but what can be told from its text is read
back from it, with everything in its order. -/
namespace EERDiagram.Json

/-- What a text can tell: whole numbers that are short enough, doubles that their digits stand
for, and members with names of their own. -/
inductive Value.Faithful : Value → Prop where
  | null : Faithful .null
  | bool (value : Bool) : Faithful (.bool value)
  | integer {n : Int} : (Nat.toDigits 10 n.natAbs).length ≤ maxDigits → Faithful (.integer n)
  | real {x : Float} : Decimal.ReadsBack x → Faithful (.real x)
  | text (s : String) : Faithful (.text s)
  | array {items : List Value} : (∀ item ∈ items, Faithful item) → Faithful (.array items)
  | object {members : Members} : (members.map Prod.fst).Nodup →
      (∀ member ∈ members, Faithful member.2) → Faithful (.object members)

/-! What is written, by its parts. -/

theorem renderItems_eq (items : List Value) :
    renderItems items = joined (items.map Value.render) ++ [']'] := by
  induction items with
  | nil => rfl
  | cons item items ih =>
    cases items with
    | nil => rw [renderItems, List.map_singleton, joined_singleton]
    | cons next items =>
      simp only [List.map_cons] at ih ⊢
      rw [renderItems, ih, joined_cons]
      · simp
      · simp

def renderMember (member : String × Value) : List Char :=
  renderText member.1 ++ ':' :: member.2.render

theorem renderMembers_eq (members : Members) :
    renderMembers members = joined (members.map renderMember) ++ ['\x7d'] := by
  induction members with
  | nil => rfl
  | cons member members ih =>
    obtain ⟨name, value⟩ := member
    cases members with
    | nil =>
      rw [renderMembers, List.map_singleton, joined_singleton]
      simp [renderMember]
    | cons next members =>
      simp only [List.map_cons] at ih ⊢
      rw [renderMembers, ih, joined_cons]
      · simp [renderMember]
      · simp

/-! The value is read back. -/

theorem Value.Faithful.spells {v : Value} (faithful : v.Faithful) : Spells v.render v := by
  induction faithful with
  | null => exact spells_of_readScalar fun _ _ => rfl
  | bool value => cases value <;> exact spells_of_readScalar fun _ _ => rfl
  | @integer n short =>
    rw [Value.render]
    exact spells_of_readScalar fun _ => readScalar_renderInteger short
  | @real x back =>
    rw [Value.render]
    exact spells_of_readScalar fun _ => readScalar_number back
  | text s => exact spells_text (readName_renderText s)
  | @array items _ ih =>
    have each : List.Forall₂ Spans (items.map Value.render) items :=
      List.forall₂_map_left_iff.mpr (List.forall₂_same.mpr fun item inside =>
        (ih item inside).spans)
    rw [Value.render, renderItems_eq]
    exact spells_array space_nil each
  | @object members names _ ih =>
    have each : List.Forall₂ SpansMember (members.map renderMember) members :=
      List.forall₂_map_left_iff.mpr (List.forall₂_same.mpr fun member inside =>
        ⟨_, _, rfl, (spells_text (readName_renderText member.1)).spans, (ih member inside).spans⟩)
    have written := spells_object space_nil each
    rw [insertAll_of_nodup names] at written
    rw [Value.render, renderMembers_eq]
    exact written

/-- A faithful value is what its text holds. -/
theorem read_render {v : Value} (faithful : v.Faithful) : read v.render = .ok v :=
  read_eq_ok_iff.mpr faithful.spells.spans

end EERDiagram.Json
