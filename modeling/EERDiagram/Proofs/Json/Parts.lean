import EERDiagram.Proofs.Json.Spelling
import Mathlib.Data.List.Forall2

/-! Arrays and objects by their parts. An array is read from a text exactly when the text is
brackets around texts that the items are read from, with a comma between each two, and an object
likewise from the texts of its members. -/
namespace EERDiagram.Json

/-! What is read, from the text that is taken. The three readers call each other with one unit of
fuel less, so what holds of them goes from each unit to the next. -/

/-- What a value is read from spells it. -/
def ValuesTake (fuel : Nat) : Prop := ∀ s v rest, readValue fuel s = .ok (v, rest) →
  ∃ p, s = p ++ rest ∧ Spells p v

def ItemsTake (fuel : Nat) : Prop := ∀ s items rest,
  readItems fuel (skipSpace s) = .ok (items, rest) →
    ∃ parts, s = joined parts ++ ']' :: rest ∧ List.Forall₂ Spans parts items ∧ parts ≠ []

def MembersTake (fuel : Nat) : Prop := ∀ s earlier members rest,
  readMembers fuel earlier (skipSpace s) = .ok (members, rest) →
    ∃ parts own, s = joined parts ++ '\x7d' :: rest ∧ List.Forall₂ SpansMember parts own ∧
      parts ≠ [] ∧ members = Members.insertAll earlier own

theorem ValuesTake.spans (values : ValuesTake fuel)
    (read : readValue fuel (skipSpace s) = .ok (v, after)) (ends : skipSpace after = c :: rest) :
    ∃ part, s = part ++ c :: rest ∧ Spans part v := by
  obtain ⟨before, space, whole⟩ := exists_skipped s
  obtain ⟨gap, space', left⟩ := exists_skipped after
  obtain ⟨p, same, spells⟩ := values _ _ _ read
  refine ⟨before ++ (p ++ gap), ?_, p, ⟨before, gap, space, space', rfl⟩, spells⟩
  rw [whole, same, left, ends]
  simp

theorem ValuesTake.next (items : ItemsTake fuel) (members : MembersTake fuel) :
    ValuesTake (fuel + 1) := by
  intro s v rest read
  cases readAs_of_readValue read with
  | text called =>
    obtain ⟨p, rfl, takes⟩ := readName_eq_ok called
    exact ⟨_, rfl, spells_text takes⟩
  | @noItems t ends =>
    obtain ⟨gap, space, whole⟩ := exists_skipped t
    refine ⟨_, ?_, spells_array space .nil⟩
    rw [whole, ends]
    simp [bracketed, joined]
  | items inner =>
    obtain ⟨parts, rfl, each, -⟩ := items _ _ _ inner
    exact ⟨_, by simp [bracketed], spells_array space_nil each⟩
  | @noMembers t ends =>
    obtain ⟨gap, space, whole⟩ := exists_skipped t
    refine ⟨_, ?_, spells_object space .nil⟩
    rw [whole, ends]
    simp [bracketed, joined]
  | members inner =>
    obtain ⟨parts, own, rfl, each, -, rfl⟩ := members _ _ _ _ inner
    exact ⟨_, by simp [bracketed], spells_object space_nil each⟩
  | scalar read =>
    obtain ⟨c, p, rfl, -, takes⟩ := readScalar_eq_ok read
    exact ⟨_, rfl, spells_of_readScalar takes⟩

theorem ItemsTake.next (values : ValuesTake fuel) (items : ItemsTake fuel) :
    ItemsTake (fuel + 1) := by
  intro s own rest read
  obtain ⟨item, after, first, ⟨ends, rfl⟩ | ⟨more, others, ends, remain, rfl⟩⟩ :=
    readItems_eq_ok_iff.mp read
  · obtain ⟨part, rfl, spans⟩ := values.spans first ends
    exact ⟨[part], by rw [joined_singleton], .cons spans .nil, by simp⟩
  · obtain ⟨part, rfl, spans⟩ := values.spans first ends
    obtain ⟨parts, rfl, each, nonempty⟩ := items _ _ _ remain
    obtain ⟨next, parts, rfl⟩ := List.exists_cons_of_ne_nil nonempty
    exact ⟨part :: next :: parts, by rw [joined_cons]; simp, .cons spans each, by simp⟩

theorem MembersTake.next (values : ValuesTake fuel) (members : MembersTake fuel) :
    MembersTake (fuel + 1) := by
  intro s earlier all rest read
  obtain ⟨name, afterName, t, value, after, called, colon, valued, ends⟩ :=
    readMembers_eq_ok_iff.mp read
  obtain ⟨before, space, whole⟩ := exists_skipped s
  obtain ⟨gap, space', left⟩ := exists_skipped afterName
  obtain ⟨p, same, takes⟩ := readName_eq_ok called
  have name' : Spans (before ++ ('"' :: p ++ gap)) (.text name) :=
    ⟨_, ⟨before, gap, space, space', rfl⟩, spells_text takes⟩
  have start : s = before ++ ('"' :: p ++ gap) ++ ':' :: t := by
    rw [whole, same, left, colon]
    simp
  rcases ends with ⟨ends, rfl⟩ | ⟨more, ends, others⟩
  · obtain ⟨written, rfl, spans⟩ := values.spans valued ends
    refine ⟨[_], [(name, value)], ?_, .cons ⟨_, _, rfl, name', spans⟩ .nil, by simp, rfl⟩
    rw [joined_singleton, start]
    simp
  · obtain ⟨written, rfl, spans⟩ := values.spans valued ends
    obtain ⟨parts, own, rfl, each, nonempty, rfl⟩ := members _ _ _ _ others
    obtain ⟨next, parts, rfl⟩ := List.exists_cons_of_ne_nil nonempty
    refine ⟨_ :: next :: parts, (name, value) :: own, ?_, .cons ⟨_, _, rfl, name', spans⟩ each,
      by simp, rfl⟩
    rw [joined_cons, start]
    simp

theorem readers_take (fuel : Nat) : ValuesTake fuel ∧ ItemsTake fuel ∧ MembersTake fuel := by
  induction fuel with
  | zero =>
    refine ⟨?_, ?_, ?_⟩
    · intro s v rest read
      simp [readValue] at read
    · intro s items rest read
      simp [readItems] at read
    · intro s earlier members rest read
      simp [readMembers] at read
  | succ fuel ih =>
    obtain ⟨values, items, members⟩ := ih
    exact ⟨.next items members, .next values items, .next values members⟩

/-! Whole texts. -/

theorem read_eq_ok_iff : read s = .ok v ↔ Spans s v := by
  rw [read, bind_eq_ok_iff]
  constructor
  · rintro ⟨⟨value, rest⟩, taken, same⟩
    dsimp only at same
    split at same
    next ends =>
      obtain rfl := Except.ok.inj same
      obtain ⟨before, space, whole⟩ := exists_skipped s
      obtain ⟨p, front, spells⟩ := (readers_take _).1 _ _ _ taken
      exact ⟨p, ⟨before, rest, space, List.dropWhile_eq_nil_iff.mp ends, by rw [whole, front]⟩,
        spells⟩
    next => contradiction
  · rintro ⟨p, ⟨before, after, space, space', rfl⟩, spells⟩
    refine ⟨(v, after), ?_, if_pos (skipSpace_space space')⟩
    have delimits := space'.delimits delimits_nil
    rw [List.append_nil] at delimits
    rw [skipSpace_append space, spells.skipSpace]
    exact spells _ after (by simp only [List.length_append]; omega) delimits

theorem read_spaced (spaced : Spaced s part) (value : read s = .ok v) : read part = .ok v := by
  obtain ⟨before, after, space, space', rfl⟩ := spaced
  obtain ⟨p, ⟨front, back, blank, blank', rfl⟩, spells⟩ := read_eq_ok_iff.mp value
  refine read_eq_ok_iff.mpr ⟨p, ⟨before ++ front, back ++ after, space.append blank,
    blank'.append space', ?_⟩, spells⟩
  simp

/-- A text is its parts between two marks, a comma between each two, with space around them. -/
def Enclosed (opening closing : Char) (parts : List (List Char)) (s : List Char) : Prop :=
  ∃ gap, Space gap ∧ Spaced (bracketed opening closing gap parts) s

theorem Spells.array (spells : Spells s (.array items)) :
    ∃ gap parts, Space gap ∧ s = bracketed '[' ']' gap parts ∧ List.Forall₂ Spans parts items := by
  obtain ⟨fuel, way⟩ := spells.readAs
  cases way with
  | @noItems t ends =>
    obtain ⟨gap, space, whole⟩ := exists_skipped t
    exact ⟨gap, [], space, by rw [whole, ends]; simp [bracketed, joined], .nil⟩
  | items inner =>
    obtain ⟨parts, rfl, each, -⟩ := (readers_take fuel).2.1 _ _ _ inner
    exact ⟨[], parts, space_nil, by simp [bracketed], each⟩
  | scalar read => exact absurd (readScalar_isScalar read) Bool.false_ne_true

theorem Spells.object (spells : Spells s (.object members)) :
    ∃ gap parts own, Space gap ∧ s = bracketed '\x7b' '\x7d' gap parts ∧
      List.Forall₂ SpansMember parts own ∧ members = Members.insertAll [] own := by
  obtain ⟨fuel, way⟩ := spells.readAs
  cases way with
  | @noMembers t ends =>
    obtain ⟨gap, space, whole⟩ := exists_skipped t
    exact ⟨gap, [], [], space, by rw [whole, ends]; simp [bracketed, joined], .nil, rfl⟩
  | members inner =>
    obtain ⟨parts, own, rfl, each, -, rfl⟩ := (readers_take fuel).2.2 _ _ _ _ inner
    exact ⟨[], parts, own, space_nil, by simp [bracketed], each, rfl⟩
  | scalar read => exact absurd (readScalar_isScalar read) Bool.false_ne_true

/-- An array is read from a text exactly when the text is brackets around texts that its items are
read from. -/
theorem read_array_iff : read s = .ok (.array items) ↔ ∃ parts, Enclosed '[' ']' parts s ∧
    List.Forall₂ (fun part item => read part = .ok item) parts items := by
  simp only [read_eq_ok_iff]
  constructor
  · rintro ⟨p, spaced, spells⟩
    obtain ⟨gap, parts, space, rfl, each⟩ := spells.array
    exact ⟨parts, ⟨gap, space, spaced⟩, each⟩
  · rintro ⟨parts, ⟨gap, space, spaced⟩, each⟩
    exact ⟨_, spaced, spells_array space each⟩

def IsMember (part : List Char) (member : String × Value) : Prop := ∃ called written,
  part = called ++ ':' :: written ∧ read called = .ok (.text member.1) ∧
    read written = .ok member.2

theorem isMember_iff : IsMember part member ↔ SpansMember part member := by
  simp only [IsMember, SpansMember, read_eq_ok_iff]

/-- An object is read from a text exactly when the text is braces around the texts of members,
and the object is what these are when they are added one after the other. -/
theorem read_object_iff : read s = .ok (.object members) ↔ ∃ parts own,
    Enclosed '\x7b' '\x7d' parts s ∧ List.Forall₂ IsMember parts own ∧
      members = Members.insertAll [] own := by
  rw [read_eq_ok_iff]
  constructor
  · rintro ⟨p, spaced, spells⟩
    obtain ⟨gap, parts, own, space, rfl, each, same⟩ := spells.object
    exact ⟨parts, own, ⟨gap, space, spaced⟩, each.imp fun _ _ => isMember_iff.mpr, same⟩
  · rintro ⟨parts, own, ⟨gap, space, spaced⟩, each, rfl⟩
    exact ⟨_, spaced, spells_object space (each.imp fun _ _ => isMember_iff.mp)⟩

end EERDiagram.Json
