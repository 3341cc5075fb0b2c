import EERDiagram.Proofs.Fallible
import EERDiagram.Proofs.Diagram.Respacing
import EERDiagram.Settings.Basic
import EERDiagram.Yaml.Building

/-! What accepted settings are good for. The delay is checked against zero, which leaves NaN in,
and the spiral is not checked at all, so it need not reach a point for every node. -/
namespace EERDiagram

open Float.Model (UnpackedFloat)

/-- Every number but NaN is below zero or from zero on. -/
theorem Decimal.zero_le_iff {x : Float} : 0 ≤ x ↔ x.isNaN = false ∧ ¬ x < 0 := by
  have zero : (0 : Float).toModel.unpack = .zero .positive := rfl
  have atMost : 0 ≤ x ↔ (0 : Float).toModel.unpack.le x.toModel.unpack = true :=
    decide_eq_true_iff
  have below : x < 0 ↔ x.toModel.unpack.lt (0 : Float).toModel.unpack = true := decide_eq_true_iff
  rw [atMost, below, zero]
  change _ ↔ x.toModel.unpack.isNaN = false ∧ _
  cases x.toModel.unpack with
  | notANumber => exact iff_of_false nofun nofun
  | infinity sign =>
    cases sign with
    | negative => exact iff_of_false nofun fun own => own.2 rfl
    | positive => exact iff_of_true rfl ⟨rfl, nofun⟩
  | zero sign => exact iff_of_true rfl ⟨rfl, nofun⟩
  | finite sign =>
    cases sign with
    | negative => exact iff_of_false nofun fun own => own.2 rfl
    | positive => exact iff_of_true rfl ⟨rfl, nofun⟩

namespace Settings

variable {text : List Char} {s : Settings}

theorem not_negative_of_ofEntries (accepted : ofEntries d top = .ok s) :
    ¬ s.debounceSeconds < 0 := by
  simp only [ofEntries, bind_eq_ok_iff] at accepted
  obtain ⟨layout, -, editor, -, x, -, y, -, radius, -, step, -, growth, -, delay, -, accepted⟩ :=
    accepted
  split at accepted
  next => contradiction
  next permitted =>
    obtain rfl := Except.ok.inj accepted
    exact permitted

theorem not_negative_of_read [Yaml.Loader] (accepted : read text = .ok s) :
    ¬ s.debounceSeconds < 0 := by
  rw [read] at accepted
  split at accepted
  next => contradiction
  next => contradiction
  next d _ =>
    split at accepted
    next =>
      obtain rfl := Except.ok.inj accepted
      decide
    next => exact not_negative_of_ofEntries accepted
    next => contradiction

/-- Whatever the loader, settings that are accepted have a delay from zero on, unless it is NaN.
With them every document that has a diagram with the default ones has one too, exactly as long as
their spiral reaches a point for each node without coordinates. -/
theorem usable_iff [Yaml.Loader] (accepted : read text = .ok s) :
    (0 ≤ s.debounceSeconds ↔ s.debounceSeconds.isNaN = false) ∧
    ∀ document d, Diagram.read ({} : Settings).layout document = .ok d →
      ((∃ m, Diagram.read s.layout document = .ok m) ↔
        ∀ k < Line.turns (Text.splitLines document.toList), s.layout.Reaches k) := by
  refine ⟨?_, fun document d reads => Diagram.read_other_iff reads s.layout⟩
  rw [Decimal.zero_le_iff]
  exact and_iff_left (not_negative_of_read accepted)

/-- A spiral with an infinite step is good for a document whose nodes have coordinates. -/
theorem usable_iff_infinite_step : ∃ s, read "layout:\n  angle-step: .inf\n".toList = .ok s ∧
    0 ≤ s.debounceSeconds ∧ ∃ m, Diagram.read s.layout "ent A (1, 2)\nlink A A" = .ok m := by
  have accepted : read "layout:\n  angle-step: .inf\n".toList =
      .ok { layout := { angleStep := 1 / 0 } } := by decide +kernel
  obtain ⟨delay, documents⟩ := usable_iff accepted
  refine ⟨_, accepted, delay.mpr (by decide), ?_⟩
  have reads : Diagram.read ({} : Settings).layout "ent A (1, 2)\nlink A A" =
      .ok ⟨[⟨"A", .entity, "A", ⟨1, 2⟩, none, 0⟩], [⟨"A", "A", none, .solid⟩], []⟩ := by
    decide +kernel
  have placed : Line.turns (Text.splitLines "ent A (1, 2)\nlink A A".toList) = 0 := by
    decide +kernel
  refine (documents _ _ reads).mpr fun k below => ?_
  rw [placed] at below
  exact absurd below (Nat.not_lt_zero k)

/-- A delay of NaN passes the check. -/
theorem accepts_nan_delay : ∃ s, read "editor:\n  debounce-seconds: .nan\n".toList = .ok s ∧
    ¬ 0 ≤ s.debounceSeconds := by
  have accepted : read "editor:\n  debounce-seconds: .nan\n".toList =
      .ok { debounceSeconds := 0 / 0 } := by decide +kernel
  exact ⟨_, accepted, by decide⟩

end Settings
end EERDiagram
