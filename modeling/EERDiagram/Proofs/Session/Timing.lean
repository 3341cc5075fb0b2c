import EERDiagram.Session.Basic
import Mathlib.Data.List.Perm.Basic

/-! The timer of a session. A timer that nobody cancelled is the one that the session waits for,
so advancing the clock reads the text once or not at all. -/
namespace EERDiagram

def Clock.live (clock : Clock) : List Timer := clock.timers.filter (!·.cancelled)

namespace Session

/-- The handles of the timers that would read the text if they came due. -/
def live (s : Session) : List Nat :=
  match s.clock with
  | none => []
  | some clock => clock.live.map Timer.handle

/-- Only the pending timer is live. -/
def Timed (s : Session) : Prop := s.live = s.pending.toList

variable {s : Session}

theorem mem_live_cancel {clock : Clock} {handle : Nat} {timer : Timer}
    (member : timer ∈ (clock.cancel handle).live) :
    timer ∈ clock.live ∧ timer.handle ≠ handle := by
  obtain ⟨member, running⟩ := List.mem_filter.mp member
  obtain ⟨old, stands, rfl⟩ := List.mem_map.mp member
  by_cases same : old.handle = handle
  · simp [same] at running
  · simp only [same, if_false] at running ⊢
    exact ⟨List.mem_filter.mpr ⟨stands, running⟩, same⟩

theorem live_cancelPending (timed : s.Timed) : s.cancelPending.live = [] := by
  rw [Timed] at timed
  cases pending : s.pending with
  | none =>
    rw [cancelPending, pending]
    rw [timed, pending]
    rfl
  | some handle =>
    cases clock : s.clock with
    | none => simp [cancelPending, pending, clock, live]
    | some clock' =>
      simp only [live, clock, pending, Option.toList_some] at timed
      simp only [live, cancelPending, pending, clock, Option.map_some]
      rw [List.map_eq_nil_iff, List.eq_nil_iff_forall_not_mem]
      intro timer member
      obtain ⟨member, other⟩ := mem_live_cancel member
      have handles := List.mem_map_of_mem (f := Timer.handle) member
      rw [timed] at handles
      exact other (List.mem_singleton.mp handles)

theorem cancelPending_eq (s : Session) :
    s.cancelPending = { s with clock := s.cancelPending.clock, pending := none } := by
  cases pending : s.pending with
  | none =>
    cases s
    simp_all [cancelPending]
  | some handle => simp [cancelPending, pending]

theorem timed_cancelPending (timed : s.Timed) : s.cancelPending.Timed := by
  rw [Timed, live_cancelPending timed, cancelPending_eq]
  rfl

theorem clock_cancelPending : s.cancelPending.clock = none ↔ s.clock = none := by
  cases pending : s.pending <;> simp [cancelPending, pending]

theorem schedule_of_no_clock (absent : s.clock = none) :
    s.schedule = (s.cancelPending, .error .noClock) := by
  simp only [schedule, clock_cancelPending.mpr absent]

theorem schedule_of_clock (timed : s.Timed) (present : s.clock ≠ none) :
    ∃ clock handle, clock.live.map Timer.handle = [handle] ∧
      s.schedule = ({ s with clock := some clock, pending := some handle }, .ok ()) := by
  have quiet := live_cancelPending timed
  obtain ⟨clock, found⟩ := Option.ne_none_iff_exists'.mp (mt clock_cancelPending.mp present)
  refine ⟨(clock.schedule s.settings.debounceSeconds).1, clock.issued, ?_, ?_⟩
  · simp only [live, found, List.map_eq_nil_iff] at quiet
    simp only [Clock.live, Clock.schedule, List.filter_append] at quiet ⊢
    rw [quiet]
    rfl
  · have settings : s.cancelPending.settings = s.settings := by
      rw [cancelPending_eq]
    simp only [schedule, found, settings]
    rw [cancelPending_eq]
    rfl

theorem timed_schedule (timed : s.Timed) : s.schedule.1.Timed := by
  by_cases absent : s.clock = none
  · rw [schedule_of_no_clock absent]
    exact timed_cancelPending timed
  · obtain ⟨clock, handle, one, scheduled⟩ := schedule_of_clock timed absent
    rw [scheduled]
    exact one

theorem clock_schedule (timed : s.Timed) : s.schedule.1.clock = none ↔ s.clock = none := by
  by_cases absent : s.clock = none
  · rw [schedule_of_no_clock absent, clock_cancelPending]
  · obtain ⟨clock, handle, -, scheduled⟩ := schedule_of_clock timed absent
    rw [scheduled]
    simp [absent]

theorem schedule_eq (s : Session) :
    s.schedule.1 = { s with clock := s.schedule.1.clock, pending := s.schedule.1.pending } := by
  rw [schedule, cancelPending_eq]
  cases s.cancelPending.clock <;> rfl

theorem fire_of_cancelled (cancelled : due.filter (!·.cancelled) = []) :
    s.fire due = (s, .ok ()) := by
  induction due with
  | nil => rfl
  | cons timer rest ih =>
    rw [List.filter_cons] at cancelled
    split at cancelled
    · contradiction
    next running =>
      rw [fire, if_pos (by simpa using running), ih cancelled]

/-- One live timer among the due ones reads the text once. -/
theorem fire_of_single (single : due.filter (!·.cancelled) = [timer]) :
    s.fire due = ({ s with pending := none }.parse.1,
      { s with pending := none }.parse.2.map fun _ => ()) := by
  induction due with
  | nil => contradiction
  | cons first rest ih =>
    rw [List.filter_cons] at single
    split at single
    next running =>
      rw [fire, if_neg (by simpa using running)]
      cases parsed : { s with pending := none }.parse with
      | mk after outcome =>
        cases outcome with
        | error e => rfl
        | ok d => exact fire_of_cancelled (List.cons.inj single).2
    next cancelled =>
      rw [fire, if_pos (by simpa using cancelled), ih single]

def liveDue (s : Session) (seconds : Float) : List Timer :=
  match s.clock with
  | none => []
  | some clock => (clock.advance seconds).2.filter (!·.cancelled)

theorem live_advance (clock : Clock) (seconds : Float) :
    clock.live.Perm
      ((clock.advance seconds).2.filter (!·.cancelled) ++ (clock.advance seconds).1.live) := by
  have sorted := List.mergeSort_perm (clock.timers.filter (Clock.isDue (clock.now + seconds)))
    fun a b => a.deadline ≤ b.deadline
  have parts := List.filter_append_perm (Clock.isDue (clock.now + seconds)) clock.timers
  have apart := ((sorted.append_right _).trans parts).filter (!·.cancelled)
  rw [List.filter_append] at apart
  exact apart.symm

/-- Advancing the clock reads the text once, when the pending timer is due, or not at all. -/
theorem advance_cases (timed : s.Timed) (seconds : Float) :
    (s.liveDue seconds = [] ∧ ∃ clock, (clock = none ↔ s.clock = none) ∧ { s with clock }.Timed ∧
      s.advance seconds = ({ s with clock }, .ok ())) ∨
    ∃ timer clock, s.liveDue seconds = [timer] ∧ (clock = none ↔ s.clock = none) ∧
      { s with clock, pending := none }.Timed ∧
      s.advance seconds = ({ s with clock, pending := none }.parse.1,
        { s with clock, pending := none }.parse.2.map fun _ => ()) := by
  cases found : s.clock with
  | none =>
    left
    refine ⟨by simp [liveDue, found], none, by simp, ?_, ?_⟩
    · rwa [← found]
    · simp only [advance, found]
      rw [← found]
  | some clock =>
    -- the live timers are the due ones and the others, and there is one at most
    have same := (live_advance clock seconds).map Timer.handle
    simp only [Timed, live, found] at timed
    rw [timed, List.map_append] at same
    cases due : s.liveDue seconds with
    | nil =>
      left
      simp only [liveDue, found] at due
      rw [due, List.map_nil, List.nil_append] at same
      refine ⟨rfl, some (clock.advance seconds).1, by simp, ?_, ?_⟩
      · cases pending : s.pending with
        | none =>
          rw [pending] at same
          simpa [Timed, live, pending] using same.symm.eq_nil
        | some handle =>
          rw [pending] at same
          simp only [Timed, live]
          exact (List.singleton_perm.mp same).symm
      · simp only [advance, found]
        exact fire_of_cancelled due
    | cons timer more =>
      right
      simp only [liveDue, found] at due
      have count := same.length_eq
      rw [due] at count
      cases pending : s.pending with
      | none => simp [pending] at count
      | some handle =>
        simp only [pending, Option.toList_some, List.length_cons, List.length_nil,
          List.length_append, List.length_map] at count
        obtain rfl : more = [] := List.eq_nil_of_length_eq_zero (by omega)
        have rest : (clock.advance seconds).1.live = [] :=
          List.eq_nil_of_length_eq_zero (by omega)
        refine ⟨timer, some (clock.advance seconds).1, rfl, by simp, ?_, ?_⟩
        · simp [Timed, live, rest]
        · simp only [advance, found]
          exact fire_of_single due

end Session
end EERDiagram
