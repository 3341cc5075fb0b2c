import EERDiagram.Proofs.Diagram.Identity
import Mathlib.Data.Finset.Card
import Mathlib.Tactic.Ring

/-! How an id is found. The loop adds the line number until the id is free. Every round but the
last leaves a taken id behind, and these are distinct since each is longer than the one before, so
there are no more rounds than taken ids and the first free candidate is the one that is given. -/
namespace EERDiagram.Identifier

variable {taken : List String} {line : Int} {id result stem : String} {rounds : Nat}

theorem length_numbered (stem : String) (line : Int) (copies : Nat) :
    (numbered stem line copies).length = stem.length + copies * (suffix line).length := by
  induction copies generalizing stem with
  | zero => simp [numbered_zero]
  | succ copies ih =>
    rw [← numbered_succ, ih, String.length_append]
    ring

theorem numbered_injective (stem : String) (line : Int) :
    Function.Injective (numbered stem line) := by
  intro i j same
  have lengths := congrArg String.length same
  rw [length_numbered, length_numbered] at lengths
  exact Nat.eq_of_mul_eq_mul_right (length_suffix_pos line) (Nat.add_left_cancel lengths)

/-- There are no more rounds than taken ids, counted once each. -/
theorem Lengthens.rounds_le (loop : Lengthens taken (suffix line) id rounds result) :
    rounds ≤ taken.toFinset.card := by
  have inside : (Finset.range rounds).image (Identifier.numbered id line) ⊆ taken.toFinset := by
    intro other member
    obtain ⟨k, less, rfl⟩ := Finset.mem_image.mp member
    exact List.mem_toFinset.mpr (loop.numbered.2 k (Finset.mem_range.mp less))
  have := Finset.card_le_card inside
  rwa [Finset.card_image_of_injective _ (numbered_injective id line), Finset.card_range] at this

structure Wish where
  label : Option String
  kind : Kind
  line : Int
  deriving DecidableEq, Repr

def registerAll (taken : List String) : List Wish → List String × List String
  | [] => ([], taken)
  | wish :: rest =>
    let (id, taken) := register taken wish.label wish.kind wish.line
    let (ids, taken) := registerAll taken rest
    (id :: ids, taken)

theorem registerAll_taken (taken : List String) (wishes : List Wish) :
    (registerAll taken wishes).2 = (registerAll taken wishes).1.reverse ++ taken := by
  induction wishes generalizing taken with
  | nil => rfl
  | cons wish rest ih => simp [registerAll, register, ih]

theorem registerAll_fresh (taken : List String) (wishes : List Wish) :
    (registerAll taken wishes).1.Nodup ∧ ∀ id ∈ (registerAll taken wishes).1, id ∉ taken := by
  induction wishes generalizing taken with
  | nil => simp [registerAll]
  | cons wish rest ih =>
    have fresh := allocate_not_mem taken wish.label wish.kind wish.line
    obtain ⟨distinct, apart⟩ := ih (register taken wish.label wish.kind wish.line).2
    simp only [registerAll, register] at distinct apart ⊢
    refine ⟨List.nodup_cons.mpr ⟨fun member => apart _ member List.mem_cons_self, distinct⟩, ?_⟩
    rintro id (_ | ⟨_, member⟩)
    · exact fresh
    · exact fun inside => apart id member (List.mem_cons_of_mem _ inside)

/-- The copies that the loop ends with are the fewest that give a free id. -/
theorem Lengthens.isLeast {first : Nat}
    (loop : Lengthens taken (suffix line) (Identifier.numbered stem line first) rounds result) :
    IsLeast {k | first ≤ k ∧ Identifier.numbered stem line k ∉ taken} (first + rounds) := by
  obtain ⟨same, earlier⟩ := loop.numbered
  simp only [numbered_numbered] at same earlier
  refine ⟨⟨Nat.le_add_right _ _, same ▸ loop.not_mem⟩, ?_⟩
  rintro k ⟨least, free⟩
  obtain ⟨more, rfl⟩ := Nat.exists_eq_add_of_le least
  by_contra above
  exact free (earlier more (by omega))

/-- The label of one node may be what another's label is lengthened to. -/
example : (registerAll [] [⟨some "X", .entity, 2⟩, ⟨some "X_3", .entity, 3⟩,
    ⟨some "X", .entity, 3⟩]).1 = ["X", "X_3", "X_3_3"] := by
  decide +kernel

end EERDiagram.Identifier
