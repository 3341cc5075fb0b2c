import EERDiagram.Proofs.Fallible
import EERDiagram.Proofs.Json.Extent

/-! Texts that spell values. A text spells a value when the value is read from it in front of any
delimiter and nothing of it is left. Brackets around texts that spell the items spell an array,
and braces around names and texts that spell the values spell an object. -/
namespace EERDiagram.Json

/-! What values begin with. -/

def marks : List Char := scalarMarks ++ ['"', '[', '\x7b']

theorem apart_of_marks (front : c ∈ marks) : isSpace c = false ∧ c ≠ ']' ∧ c ≠ '\x7d' := by
  have all : marks.all (fun c => !isSpace c && c != ']' && c != '\x7d') = true := by decide
  simpa [and_assoc] using List.all_eq_true.mp all c front

theorem skipSpace_of_marks (front : c ∈ marks) : skipSpace (c :: s) = c :: s :=
  List.dropWhile_cons_of_neg (by simp [apart_of_marks front])

/-! Space. -/

def Space (s : List Char) : Prop := ∀ c ∈ s, isSpace c = true

theorem space_nil : Space [] := by simp [Space]

theorem Space.append (left : Space s) (right : Space t) : Space (s ++ t) :=
  List.forall_mem_append.mpr ⟨left, right⟩

theorem skipSpace_append (space : Space gap) (s : List Char) : skipSpace (gap ++ s) = skipSpace s :=
  List.dropWhile_append_of_pos space

theorem skipSpace_space (space : Space gap) : skipSpace gap = [] :=
  List.dropWhile_eq_nil_iff.mpr space

theorem exists_skipped (s : List Char) : ∃ gap, Space gap ∧ s = gap ++ skipSpace s :=
  ⟨s.takeWhile isSpace, fun _ => List.mem_takeWhile_imp, List.takeWhile_append_dropWhile.symm⟩

theorem Space.delimits (space : Space gap) (delimits : Delimits rest) : Delimits (gap ++ rest) := by
  intro c front
  rcases mem_head?_append front with front | front
  · have blank := space c (List.mem_of_mem_head? front)
    simp only [isSpace, Bool.or_eq_true, beq_iff_eq] at blank
    rcases blank with ((rfl | rfl) | rfl) | rfl <;> decide
  · exact delimits c front

/-! The readers, one step each. -/

theorem readValue_scalar (front : c ∈ scalarMarks) (fuel : Nat) :
    readValue (fuel + 1) (c :: s) = readScalar (c :: s) := by
  have all : scalarMarks.all (fun c => c != '"' && c != '[' && c != '\x7b') = true := by decide
  have apart := List.all_eq_true.mp all c front
  simp only [Bool.and_eq_true, bne_iff_ne, ne_eq] at apart
  rw [readValue.eq_def]
  simp only
  split
  next same => exact absurd (List.cons.inj same).1 apart.1.1
  next same => exact absurd (List.cons.inj same).1 apart.1.2
  next same => exact absurd (List.cons.inj same).1 apart.2
  next => rfl

theorem readValue_text (called : readName ('"' :: s) = .ok (text, rest)) :
    readValue (fuel + 1) ('"' :: s) = .ok (.text text, rest) := by
  simp only [readValue, called, bind, Except.bind, pure, Except.pure]

theorem readValue_array (starts : skipSpace s = c :: t) (front : c ∈ marks)
    (read : readItems fuel (skipSpace s) = .ok (items, rest)) :
    readValue (fuel + 1) ('[' :: s) = .ok (.array items, rest) := by
  simp only [readValue, starts] at read ⊢
  split
  next same => exact absurd (List.cons.inj same).1 (apart_of_marks front).2.1
  next => simp only [read, bind, Except.bind, pure, Except.pure]

theorem readValue_no_items (starts : skipSpace s = ']' :: rest) :
    readValue (fuel + 1) ('[' :: s) = .ok (.array [], rest) := by
  simp only [readValue, starts]

theorem readValue_no_members (starts : skipSpace s = '\x7d' :: rest) :
    readValue (fuel + 1) ('\x7b' :: s) = .ok (.object [], rest) := by
  simp only [readValue, starts]

theorem readValue_object (starts : skipSpace s = c :: t) (front : c ∈ marks)
    (read : readMembers fuel [] (skipSpace s) = .ok (members, rest)) :
    readValue (fuel + 1) ('\x7b' :: s) = .ok (.object members, rest) := by
  simp only [readValue, starts] at read ⊢
  split
  next same => exact absurd (List.cons.inj same).1 (apart_of_marks front).2.2
  next => simp only [read, bind, Except.bind, pure, Except.pure]

/-- The ways to read a value. -/
inductive ReadAs (fuel : Nat) (rest : Rest) : List Char → Value → Prop where
  | text : readName s = .ok (text, rest) → ReadAs fuel rest s (.text text)
  | noItems : skipSpace s = ']' :: rest → ReadAs fuel rest ('[' :: s) (.array [])
  | items : readItems fuel (skipSpace s) = .ok (items, rest) →
    ReadAs fuel rest ('[' :: s) (.array items)
  | noMembers : skipSpace s = '\x7d' :: rest → ReadAs fuel rest ('\x7b' :: s) (.object [])
  | members : readMembers fuel [] (skipSpace s) = .ok (members, rest) →
    ReadAs fuel rest ('\x7b' :: s) (.object members)
  | scalar : readScalar s = .ok (v, rest) → ReadAs fuel rest s v

theorem readAs_of_readValue (read : readValue (fuel + 1) s = .ok (v, rest)) :
    ReadAs fuel rest s v := by
  rw [readValue.eq_def] at read
  dsimp only at read
  split at read
  next t =>
    obtain ⟨⟨text, after⟩, called, same⟩ := bind_eq_ok_iff.mp read
    obtain ⟨rfl, rfl⟩ := Prod.mk.inj (Except.ok.inj same)
    exact .text called
  next t =>
    split at read
    next empty =>
      obtain ⟨rfl, rfl⟩ := Prod.mk.inj (Except.ok.inj read)
      exact .noItems empty
    next =>
      obtain ⟨⟨items, after⟩, inner, same⟩ := bind_eq_ok_iff.mp read
      obtain ⟨rfl, rfl⟩ := Prod.mk.inj (Except.ok.inj same)
      exact .items inner
  next t =>
    split at read
    next empty =>
      obtain ⟨rfl, rfl⟩ := Prod.mk.inj (Except.ok.inj read)
      exact .noMembers empty
    next =>
      obtain ⟨⟨members, after⟩, inner, same⟩ := bind_eq_ok_iff.mp read
      obtain ⟨rfl, rfl⟩ := Prod.mk.inj (Except.ok.inj same)
      exact .members inner
  next => exact .scalar read

theorem readItems_eq_ok_iff : readItems (fuel + 1) s = .ok (items, rest) ↔
    ∃ item after, readValue fuel s = .ok (item, after) ∧
      (skipSpace after = ']' :: rest ∧ items = [item] ∨
        ∃ more others, skipSpace after = ',' :: more ∧
          readItems fuel (skipSpace more) = .ok (others, rest) ∧ items = item :: others) := by
  simp only [readItems, bind_eq_ok_iff, Prod.exists]
  refine exists_congr fun item => exists_congr fun after => and_congr_right fun _ => ?_
  split
  next t starts => simp [starts, pure, Except.pure, and_comm, eq_comm]
  next more starts =>
    simp only [starts, bind_eq_ok_iff, Prod.exists, pure, Except.pure]
    constructor
    · rintro ⟨others, after', read, same⟩
      obtain ⟨rfl, rfl⟩ := Prod.mk.inj (Except.ok.inj same)
      exact .inr ⟨more, others, rfl, read, rfl⟩
    · rintro (⟨ends, -⟩ | ⟨more', others, same, read, rfl⟩)
      · exact absurd (List.cons.inj ends).1 (by decide)
      · obtain rfl := (List.cons.inj same).2
        exact ⟨others, rest, read, rfl⟩
  next last next => simpa [throw, throwThe, MonadExceptOf.throw] using
      ⟨fun ends => absurd ends (last rest), fun more starts => absurd starts (next more)⟩

theorem expect_eq_ok_iff : expect mark s = .ok rest ↔ s = mark :: rest := by
  cases s with
  | nil => simp [expect]
  | cons c others =>
    by_cases same : c = mark <;> simp [expect, same]

theorem readMembers_eq_ok_iff : readMembers (fuel + 1) earlier s = .ok (members, rest) ↔
    ∃ name afterName t value after, readName s = .ok (name, afterName) ∧
      skipSpace afterName = ':' :: t ∧ readValue fuel (skipSpace t) = .ok (value, after) ∧
      (skipSpace after = '\x7d' :: rest ∧ members = Members.insert name value earlier ∨
        ∃ more, skipSpace after = ',' :: more ∧
          readMembers fuel (Members.insert name value earlier) (skipSpace more) =
            .ok (members, rest)) := by
  simp only [readMembers, bind_eq_ok_iff, Prod.exists, expect_eq_ok_iff, exists_and_left]
  refine exists_congr fun name => exists_congr fun afterName => and_congr_right fun _ =>
    exists_congr fun t => and_congr_right fun _ => exists_congr fun value =>
    exists_congr fun after => and_congr_right fun _ => ?_
  split
  next t starts => simp [starts, pure, Except.pure, and_comm, eq_comm]
  next more starts => simp [starts]
  next last next => simpa [throw, throwThe, MonadExceptOf.throw] using
      ⟨fun ends => absurd ends (last rest), fun more starts => absurd starts (next more)⟩

/-! Texts that spell a value. -/

/-- In front of a delimiter, the value is what is read and the text all that is taken. -/
def Spells (s : List Char) (v : Value) : Prop := ∀ fuel rest, 2 * s.length ≤ fuel →
  Delimits rest → readValue fuel (s ++ rest) = .ok (v, rest)

def Spaced (s part : List Char) : Prop := ∃ before after, Space before ∧ Space after ∧
  part = before ++ (s ++ after)

/-- The part is a text that spells the value, with space around it. -/
def Spans (part : List Char) (v : Value) : Prop := ∃ s, Spaced s part ∧ Spells s v

theorem spaced_self (s : List Char) : Spaced s s :=
  ⟨[], [], space_nil, space_nil, (List.append_nil s).symm⟩

theorem Spells.spans (spells : Spells s v) : Spans s v := ⟨s, spaced_self s, spells⟩

theorem delimits_nil : Delimits [] := by simp [Delimits]

theorem delimits_cons (mark : c ∈ delimiters) (rest : List Char) : Delimits (c :: rest) := by
  simpa [Delimits] using mark

theorem front_of_readValue (read : readValue fuel s = .ok (v, rest)) :
    ∃ c t, s = c :: t ∧ c ∈ marks := by
  cases fuel with
  | zero => simp [readValue] at read
  | succ fuel =>
    cases readAs_of_readValue read with
    | text called =>
      obtain ⟨p, rfl, -⟩ := readName_eq_ok called
      exact ⟨'"', _, rfl, by decide⟩
    | noItems | items => exact ⟨'[', _, rfl, by decide⟩
    | noMembers | members => exact ⟨'\x7b', _, rfl, by decide⟩
    | scalar read =>
      obtain ⟨c, p, rfl, front, -⟩ := readScalar_eq_ok read
      exact ⟨c, _, rfl, List.mem_append_left _ front⟩

theorem Spells.front (spells : Spells s v) : ∃ c t, s = c :: t ∧ c ∈ marks := by
  obtain ⟨c, t, same, front⟩ :=
    front_of_readValue (spells _ [','] (Nat.le_refl _) (delimits_cons (by decide) []))
  cases s with
  | nil =>
    obtain ⟨rfl, -⟩ := List.cons.inj same
    exact absurd front (by decide)
  | cons d others =>
    obtain ⟨rfl, -⟩ := List.cons.inj same
    exact ⟨d, others, rfl, front⟩

theorem Spells.skipSpace (spells : Spells s v) (rest : List Char) :
    skipSpace (s ++ rest) = s ++ rest := by
  obtain ⟨c, t, rfl, front⟩ := spells.front
  exact skipSpace_of_marks front

theorem spells_of_step (step : ∀ fuel rest, 2 * p.length < fuel → Delimits rest →
    readValue (fuel + 1) (c :: p ++ rest) = .ok (v, rest)) : Spells (c :: p) v := by
  intro fuel rest enough delimits
  rw [List.length_cons] at enough
  obtain ⟨fuel, rfl⟩ : ∃ less, fuel = less + 1 := ⟨fuel - 1, by omega⟩
  exact step fuel rest (by omega) delimits

theorem spells_of_readScalar
    (read : ∀ rest, Delimits rest → readScalar (s ++ rest) = .ok (v, rest)) : Spells s v := by
  obtain ⟨c, p, whole, front, -⟩ := readScalar_eq_ok (read [] delimits_nil)
  rw [List.append_nil, List.append_nil] at whole
  subst whole
  exact spells_of_step fun fuel rest _ delimits =>
    (readValue_scalar front fuel).trans (read rest delimits)

theorem spells_text (called : ∀ rest, readName ('"' :: p ++ rest) = .ok (name, rest)) :
    Spells ('"' :: p) (.text name) :=
  spells_of_step fun _ rest _ _ => readValue_text (called rest)

theorem Spells.readAs (spells : Spells s v) : ∃ fuel, ReadAs fuel [] s v := by
  have read := spells (2 * s.length + 1) [] (by omega) delimits_nil
  rw [List.append_nil] at read
  exact ⟨_, readAs_of_readValue read⟩

theorem Spells.readName (spells : Spells s (.text name)) (rest : List Char) :
    readName (s ++ rest) = .ok (name, rest) := by
  obtain ⟨fuel, way⟩ := spells.readAs
  cases way with
  | text called =>
    obtain ⟨p, whole, takes⟩ := readName_eq_ok called
    rw [List.append_nil] at whole
    rw [whole]
    exact takes rest
  | scalar read => exact absurd (readScalar_isScalar read) Bool.false_ne_true

def Starts (part : List Char) : Prop := ∃ c t, c ∈ marks ∧
  ∀ rest, skipSpace (part ++ rest) = c :: (t ++ rest)

theorem Spans.starts (spans : Spans part v) : Starts part := by
  obtain ⟨s, ⟨before, after, space, -, rfl⟩, spells⟩ := spans
  obtain ⟨c, t, rfl, front⟩ := spells.front
  refine ⟨c, t ++ after, front, fun rest => ?_⟩
  rw [List.append_assoc, skipSpace_append space]
  simp [skipSpace_of_marks front]

theorem Spans.readValue (spans : Spans part v) (enough : 2 * part.length ≤ fuel)
    (delimits : Delimits rest) : ∃ gap, Space gap ∧
      readValue fuel (Json.skipSpace (part ++ rest)) = .ok (v, gap ++ rest) := by
  obtain ⟨s, ⟨before, after, space, space', rfl⟩, spells⟩ := spans
  simp only [List.length_append] at enough
  refine ⟨after, space', ?_⟩
  rw [List.append_assoc, skipSpace_append space, List.append_assoc, spells.skipSpace]
  exact spells fuel _ (by omega) (space'.delimits delimits)

/-! Parts with commas between them. -/

def joined (parts : List (List Char)) : List Char := [','].intercalate parts

theorem joined_singleton (part : List Char) : joined [part] = part := by
  simp [joined, List.intercalate]

theorem joined_cons (part next : List Char) (parts : List (List Char)) :
    joined (part :: next :: parts) = part ++ ',' :: joined (next :: parts) := by
  simp [joined, List.intercalate_cons_cons]

theorem skipSpace_gap (space : Space gap) (apart : isSpace c = false) (rest : List Char) :
    skipSpace (gap ++ c :: rest) = c :: rest := by
  rw [skipSpace_append space]
  exact List.dropWhile_cons_of_neg (by simp [apart])

theorem readItems_joined (each : List.Forall₂ Spans parts items) (nonempty : parts ≠ [])
    (enough : 2 * (joined parts).length < fuel) (rest : List Char) :
    readItems fuel (skipSpace (joined parts ++ ']' :: rest)) = .ok (items, rest) := by
  induction each generalizing fuel with
  | nil => contradiction
  | @cons part item parts items first each ih =>
    obtain ⟨fuel, rfl⟩ : ∃ less, fuel = less + 1 := ⟨fuel - 1, by omega⟩
    rw [readItems_eq_ok_iff]
    cases each with
    | nil =>
      rw [joined_singleton] at enough ⊢
      have enough' : 2 * part.length ≤ fuel := by omega
      obtain ⟨gap, space, read⟩ := first.readValue enough'
        (delimits_cons (c := ']') (by decide) rest)
      exact ⟨item, _, read, .inl ⟨skipSpace_gap space rfl rest, rfl⟩⟩
    | @cons next item' parts items second others =>
      rw [joined_cons] at enough ⊢
      simp only [List.length_append, List.length_cons] at enough
      have enough' : 2 * part.length ≤ fuel := by omega
      obtain ⟨gap, space, read⟩ := first.readValue enough'
        (delimits_cons (c := ',') (by decide) (joined (next :: parts) ++ ']' :: rest))
      refine ⟨item, _, by rwa [List.append_assoc], .inr ⟨_, _, skipSpace_gap space rfl _, ?_, rfl⟩⟩
      exact ih (List.cons_ne_nil _ _) (by omega)

def SpansMember (part : List Char) (member : String × Value) : Prop :=
  ∃ called written, part = called ++ ':' :: written ∧ Spans called (.text member.1) ∧
    Spans written member.2

def Members.insertAll (earlier members : Members) : Members :=
  members.foldl (fun all member => Members.insert member.1 member.2 all) earlier

theorem insert_fresh (fresh : name ∉ members.map Prod.fst) (value : Value) :
    Members.insert name value members = members ++ [(name, value)] := by
  induction members with
  | nil => rfl
  | cons member members ih =>
    simp only [List.map_cons, List.mem_cons, not_or] at fresh
    rw [Members.insert, if_neg (Ne.symm fresh.1), ih fresh.2]
    rfl

theorem insertAll_fresh {earlier members : Members}
    (names : ((earlier ++ members).map Prod.fst).Nodup) :
    earlier.insertAll members = earlier ++ members := by
  induction members generalizing earlier with
  | nil => simp [Members.insertAll]
  | cons member members ih =>
    have fresh : member.1 ∉ earlier.map Prod.fst := by
      rw [List.map_append, List.map_cons] at names
      intro inside
      exact (List.nodup_append.mp names).2.2 _ inside _ List.mem_cons_self rfl
    rw [List.append_cons] at names ⊢
    rw [Members.insertAll, List.foldl_cons, insert_fresh fresh]
    exact ih names

theorem insertAll_of_nodup {members : Members} (names : (members.map Prod.fst).Nodup) :
    Members.insertAll [] members = members := insertAll_fresh names

theorem readMembers_joined (each : List.Forall₂ SpansMember parts members) (nonempty : parts ≠ [])
    (enough : 2 * (joined parts).length < fuel) (earlier : Members) (rest : List Char) :
    readMembers fuel earlier (skipSpace (joined parts ++ '\x7d' :: rest)) =
      .ok (earlier.insertAll members, rest) := by
  induction each generalizing fuel earlier with
  | nil => contradiction
  | @cons part member parts members first each ih =>
    obtain ⟨name, value⟩ := member
    obtain ⟨fuel, rfl⟩ : ∃ less, fuel = less + 1 := ⟨fuel - 1, by omega⟩
    obtain ⟨_, written, rfl, ⟨n, ⟨before, after, space, space', rfl⟩, called⟩, spans⟩ := first
    -- The name is read up to the space before the colon, whatever comes after it.
    have name' : ∀ more, readName (skipSpace (before ++ (n ++ after) ++ ':' :: more)) =
        .ok (name, after ++ ':' :: more) := by
      intro more
      rw [List.append_assoc, skipSpace_append space, List.append_assoc, called.skipSpace]
      exact called.readName _
    rw [readMembers_eq_ok_iff]
    cases each with
    | nil =>
      rw [joined_singleton] at enough ⊢
      simp only [List.length_append, List.length_cons] at enough
      have enough' : 2 * written.length ≤ fuel := by omega
      obtain ⟨gap, blank, read⟩ := spans.readValue enough'
        (delimits_cons (c := '\x7d') (by decide) rest)
      rw [List.append_assoc, List.cons_append]
      exact ⟨name, _, _, value, _, name' _, skipSpace_gap space' rfl _, read,
        .inl ⟨skipSpace_gap blank rfl rest, rfl⟩⟩
    | @cons next member' parts members second others =>
      rw [joined_cons] at enough ⊢
      simp only [List.length_append, List.length_cons] at enough
      have enough' : 2 * written.length ≤ fuel := by omega
      obtain ⟨gap, blank, read⟩ := spans.readValue enough'
        (delimits_cons (c := ',') (by decide) (joined (next :: parts) ++ '\x7d' :: rest))
      rw [List.append_assoc, List.append_assoc, List.cons_append, List.cons_append]
      exact ⟨name, _, _, value, _, name' _, skipSpace_gap space' rfl _, read,
        .inr ⟨_, skipSpace_gap blank rfl _, ih (List.cons_ne_nil _ _) (by omega) _⟩⟩

theorem Starts.joined (first : Starts part) (parts : List (List Char)) :
    Starts (joined (part :: parts)) := by
  obtain ⟨c, t, front, starts⟩ := first
  cases parts with
  | nil => exact ⟨c, t, front, by rwa [joined_singleton]⟩
  | cons next parts =>
    refine ⟨c, t ++ ',' :: Json.joined (next :: parts), front, fun rest => ?_⟩
    rw [joined_cons, List.append_assoc, starts, List.append_assoc]

theorem SpansMember.starts (spans : SpansMember part member) : Starts part := by
  obtain ⟨called, written, rfl, name, -⟩ := spans
  obtain ⟨c, t, front, starts⟩ := name.starts
  refine ⟨c, t ++ ':' :: written, front, fun rest => ?_⟩
  rw [List.append_assoc, starts, List.append_assoc]

/-- What stands between two marks: parts with a comma between each two, after space. -/
def bracketed (opening closing : Char) (gap : List Char) (parts : List (List Char)) : List Char :=
  opening :: (gap ++ joined parts ++ [closing])

theorem spells_array (space : Space gap) (each : List.Forall₂ Spans parts items) :
    Spells (bracketed '[' ']' gap parts) (.array items) := by
  refine spells_of_step fun fuel rest enough _ => ?_
  simp only [List.length_append, List.length_singleton] at enough
  rw [List.cons_append, List.append_assoc, List.append_assoc]
  cases each with
  | nil => exact readValue_no_items (skipSpace_gap space rfl rest)
  | @cons part item parts items first each =>
    obtain ⟨c, t, front, starts⟩ := first.starts.joined parts
    have read : readItems fuel (skipSpace (joined (part :: parts) ++ ']' :: rest)) =
        .ok (item :: items, rest) :=
      readItems_joined (.cons first each) (List.cons_ne_nil _ _) (by omega) rest
    have begins := starts (']' :: rest)
    rw [← skipSpace_append space] at read begins
    exact readValue_array begins front read

theorem spells_object (space : Space gap) (each : List.Forall₂ SpansMember parts members) :
    Spells (bracketed '\x7b' '\x7d' gap parts) (.object (Members.insertAll [] members)) := by
  refine spells_of_step fun fuel rest enough _ => ?_
  simp only [List.length_append, List.length_singleton] at enough
  rw [List.cons_append, List.append_assoc, List.append_assoc]
  cases each with
  | nil => exact readValue_no_members (skipSpace_gap space rfl rest)
  | @cons part member parts members first each =>
    obtain ⟨c, t, front, starts⟩ := first.starts.joined parts
    have read : readMembers fuel [] (skipSpace (joined (part :: parts) ++ '\x7d' :: rest)) =
        .ok (Members.insertAll [] (member :: members), rest) :=
      readMembers_joined (.cons first each) (List.cons_ne_nil _ _) (by omega) [] rest
    have begins := starts ('\x7d' :: rest)
    rw [← skipSpace_append space] at read begins
    exact readValue_object begins front read

end EERDiagram.Json
