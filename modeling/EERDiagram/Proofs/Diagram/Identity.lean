import EERDiagram.Diagram.Basic
import Mathlib.Data.List.Basic

/-! Node ids. An id is the wish with copies of its line number behind it, and it is never given
twice. -/
namespace EERDiagram.Identifier

theorem length_suffix_pos (line : Int) : 0 < (suffix line).length := by
  simp only [suffix, String.length_append]
  exact Nat.lt_of_lt_of_le (by decide : 0 < "_".length) (Nat.le_add_right _ _)

/-- The ids that are at least as long as this one. They become fewer with every round. -/
def rivals (taken : List String) (id : String) : Nat :=
  taken.countP fun other => id.length ≤ other.length

theorem rivals_append_lt {taken : List String} {id extra : String} (positive : 0 < extra.length)
    (member : id ∈ taken) : rivals taken (id ++ extra) < rivals taken id := by
  rw [rivals, rivals, String.length_append,
    List.countP_eq_countP_filter_add taken (fun other => decide (id.length ≤ other.length))
      (fun other => decide (id.length + extra.length ≤ other.length))]
  have longer : taken.countP (fun other => decide (id.length + extra.length ≤ other.length)) ≤
      (taken.filter fun other => decide (id.length + extra.length ≤ other.length)).countP
        fun other => decide (id.length ≤ other.length) := by
    rw [List.countP_filter]
    apply List.countP_mono_left
    intro other _ long
    simp only [decide_eq_true_eq, Bool.and_eq_true] at long ⊢
    omega
  have itself : 0 < (taken.filter fun other =>
      !decide (id.length + extra.length ≤ other.length)).countP
        fun other => decide (id.length ≤ other.length) := by
    have shorter : ¬ id.length + extra.length ≤ id.length := by omega
    rw [List.countP_pos_iff]
    refine ⟨id, List.mem_filter.mpr ⟨member, ?_⟩, ?_⟩
    · rw [decide_eq_false shorter]
      rfl
    · exact decide_eq_true (Nat.le_refl _)
  omega

/-- The loop without a bound: a taken id gets the suffix once more, and a free one is the result. -/
inductive Lengthens (taken : List String) (extra : String) : String → Nat → String → Prop where
  | free {id : String} : id ∉ taken → Lengthens taken extra id 0 id
  | again {id result : String} {rounds : Nat} : id ∈ taken →
      Lengthens taken extra (id ++ extra) rounds result →
      Lengthens taken extra id (rounds + 1) result

/-- A bound of as many rounds as there are rivals does not cut the loop short. -/
theorem lengthens_lengthen {taken : List String} {id extra : String}
    (positive : 0 < extra.length) (enough : rivals taken id ≤ bound) :
    ∃ rounds, Lengthens taken extra id rounds (lengthen taken extra bound id) := by
  induction bound generalizing id with
  | zero =>
    refine ⟨0, .free fun member => ?_⟩
    have : 0 < rivals taken id := List.countP_pos_iff.mpr ⟨id, member, by simp⟩
    omega
  | succ bound ih =>
    rw [lengthen]
    split
    next member =>
      have := rivals_append_lt positive member
      obtain ⟨rounds, loop⟩ : ∃ rounds, Lengthens taken extra (id ++ extra) rounds
          (lengthen taken extra bound (id ++ extra)) := ih (by omega)
      exact ⟨rounds + 1, .again member loop⟩
    next free => exact ⟨0, .free free⟩

theorem Lengthens.not_mem {id : String} (loop : Lengthens taken extra id rounds result) :
    result ∉ taken := by
  induction loop with
  | free free => exact free
  | again _ _ ih => exact ih

def numbered (stem : String) (line : Int) (copies : Nat) : String :=
  stem ++ String.join (List.replicate copies (suffix line))

theorem numbered_zero (stem : String) (line : Int) : numbered stem line 0 = stem := by
  simp [numbered]

theorem numbered_succ (stem : String) (line : Int) (copies : Nat) :
    numbered (stem ++ suffix line) line copies = numbered stem line (copies + 1) := by
  simp [numbered, List.replicate_succ, String.append_assoc]

theorem numbered_numbered (stem : String) (line : Int) (i j : Nat) :
    numbered (numbered stem line i) line j = numbered stem line (i + j) := by
  induction i generalizing stem with
  | zero => rw [numbered_zero, Nat.zero_add]
  | succ i ih => rw [← numbered_succ, ih, numbered_succ, Nat.add_right_comm]

theorem Lengthens.numbered {id : String} (loop : Lengthens taken (suffix line) id rounds result) :
    result = Identifier.numbered id line rounds ∧
      ∀ k < rounds, Identifier.numbered id line k ∈ taken := by
  induction loop with
  | free => exact ⟨(numbered_zero _ line).symm, nofun⟩
  | again member _ ih =>
    refine ⟨ih.1.trans (numbered_succ ..), fun k less => ?_⟩
    cases k with
    | zero => rwa [numbered_zero]
    | succ k =>
      rw [← numbered_succ]
      exact ih.2 k (by omega)

/-- How many copies of the line number an id has at least. -/
def fewest (kind : Kind) : Nat := if kind.isAttribute then 1 else 0

theorem lengthens_allocate (taken : List String) (label : Option String) (kind : Kind)
    (line : Int) : ∃ rounds, Lengthens taken (suffix line)
      (numbered (base label line) line (fewest kind)) rounds (allocate taken label kind line) := by
  have first : allocate taken label kind line = lengthen taken (suffix line) taken.length
      (numbered (base label line) line (fewest kind)) := by
    simp only [allocate, fewest]
    split
    next => rw [← numbered_succ, numbered_zero]
    next => rw [numbered_zero]
  rw [first]
  exact lengthens_lengthen (length_suffix_pos line) List.countP_le_length

/-- A new id is one that no earlier node has. -/
theorem allocate_not_mem (taken : List String) (label : Option String) (kind : Kind) (line : Int) :
    allocate taken label kind line ∉ taken := by
  obtain ⟨rounds, loop⟩ := lengthens_allocate taken label kind line
  exact loop.not_mem

/-- An attribute's id has its line number at least once. -/
theorem allocate_eq_numbered (taken : List String) (label : Option String) (kind : Kind)
    (line : Int) : ∃ copies,
      allocate taken label kind line = numbered (base label line) line copies ∧
        (kind.isAttribute = true → 1 ≤ copies) := by
  obtain ⟨rounds, loop⟩ := lengthens_allocate taken label kind line
  refine ⟨fewest kind + rounds, loop.numbered.1.trans (numbered_numbered ..), fun always => ?_⟩
  rw [fewest, if_pos always]
  exact Nat.le_add_right 1 rounds

end EERDiagram.Identifier
