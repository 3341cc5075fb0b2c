/-! Computations that may fail: which of their parts an outcome is from. -/
namespace EERDiagram

variable {x : Except ε α} {y : Except ε β}

theorem bind_eq_ok_iff {f : α → Except ε β} : x >>= f = .ok b ↔ ∃ a, x = .ok a ∧ f a = .ok b := by
  cases x <;> simp [bind, Except.bind]

theorem both_eq_ok_iff {f : α → β → γ} :
    (do return f (← x) (← y)) = Except.ok r ↔ ∃ a b, x = .ok a ∧ y = .ok b ∧ r = f a b := by
  cases x <;> cases y <;> simp [bind, Except.bind, pure, Except.pure, eq_comm]

theorem map_eq_error_iff {f : α → β} : x.map f = .error e ↔ x = .error e := by
  cases x <;> simp [Except.map]

@[simp] theorem mapError_ok (f : ε → δ) : (Except.ok a : Except ε α).mapError f = .ok a := rfl

@[simp] theorem mapError_error (f : ε → δ) :
    (Except.error e : Except ε α).mapError f = .error (f e) := rfl

theorem mapError_eq_ok_iff {f : ε → δ} : x.mapError f = .ok a ↔ x = .ok a := by
  cases x <;> simp

end EERDiagram
