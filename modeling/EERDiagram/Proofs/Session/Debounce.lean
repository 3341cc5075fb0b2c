import EERDiagram.Proofs.Session.Agreement

/-! Debouncing. Setting the text puts one timer in the place of the one before it, so a reading by
a timer always answers the last change of the text, and answers it once. -/
namespace EERDiagram.Session

/-- The timers that would read the text if they came due. -/
def running (s : Session) : List Timer := (s.clock.map Clock.live).getD []

/-- Whether a step sets the text, itself or by releasing a node. -/
def setsText (s : Session) : Step → Bool
  | .setText _ => true
  | .endDrag => s.draggedNode.isSome
  | _ => false

def setsTextIn (s : Session) : List Step → Bool
  | [] => false
  | step :: steps => s.setsText step || (s.perform step).1.setsTextIn steps

def setTimes (s : Session) : List Step → List Float
  | [] => []
  | step :: steps =>
    (if s.setsText step then s.clock.toList.map Clock.now else []) ++
      (s.perform step).1.setTimes steps

/-- The timers that a step runs to read the text. -/
def fired (s : Session) : Step → List Timer
  | .advance seconds => s.liveDue seconds
  | _ => []

/-- Steps after which no timer is left, unless the text is set. -/
def disarms (s : Session) : Step → Bool
  | .parseNow | .close => true
  | step => s.fired step != []

def issued (s : Session) : Nat := (s.clock.map Clock.issued).getD 0

def nextTimer? (s : Session) : Option Timer :=
  s.clock.map fun clock => ⟨clock.issued, clock.now + s.settings.debounceSeconds, false⟩

/-- The alarm is the one running timer, and the session waits for it. -/
structure Armed (s : Session) (alarm : Option Timer) : Prop where
  running : s.running = alarm.toList
  pending : s.pending = alarm.map Timer.handle

variable {s : Session} {alarm : Option Timer} {step : Step} {steps : List Step}
  {settings : Settings} {clock : Option Clock} {text : String}

theorem live_eq (s : Session) : s.live = s.running.map Timer.handle := by
  cases clock : s.clock <;> simp [live, running, clock]

theorem Armed.timed (armed : s.Armed alarm) : s.Timed := by
  rw [Timed, live_eq, armed.running, armed.pending]
  cases alarm <;> rfl

theorem running_cancelPending (timed : s.Timed) : s.cancelPending.running = [] := by
  have quiet := live_cancelPending timed
  rwa [live_eq, List.map_eq_nil_iff] at quiet

theorem issued_cancelPending (s : Session) : s.cancelPending.issued = s.issued := by
  cases pending : s.pending <;> cases clock : s.clock <;>
    simp [issued, cancelPending, pending, clock, Clock.cancel]

theorem nextTimer?_cancelPending (s : Session) : s.cancelPending.nextTimer? = s.nextTimer? := by
  cases pending : s.pending <;> cases clock : s.clock <;>
    simp [nextTimer?, cancelPending, pending, clock, Clock.cancel]

theorem Armed.cancelPending (armed : s.Armed alarm) : s.cancelPending.Armed none where
  running := running_cancelPending armed.timed
  pending := by
    rw [cancelPending_eq]
    rfl

theorem Armed.schedule (armed : s.Armed alarm) : s.schedule.1.Armed s.nextTimer? := by
  have quiet := armed.cancelPending
  rw [← nextTimer?_cancelPending]
  cases clock : s.cancelPending.clock with
  | none =>
    simp only [Session.schedule, nextTimer?, clock]
    exact quiet
  | some clock' =>
    have silent : clock'.live = [] := by simpa [Session.running, clock] using quiet.running
    simp only [Session.schedule, nextTimer?, clock]
    refine ⟨?_, rfl⟩
    simp only [Clock.live] at silent
    simp [Session.running, Clock.live, Clock.schedule, silent]

theorem Armed.congr {s' : Session} (armed : s.Armed alarm) (clock : s'.clock = s.clock)
    (pending : s'.pending = s.pending) : s'.Armed alarm where
  running := by rw [Session.running, clock, ← Session.running, armed.running]
  pending := pending.trans armed.pending

theorem Armed.parse (armed : s.Armed alarm) : s.parse.1.Armed alarm := by
  rcases parse_cases s with ⟨d, -, parsed⟩ | ⟨e, -, parsed⟩ <;> rw [parsed] <;>
    exact armed.congr rfl rfl

theorem clock_fire (s : Session) (due : List Timer) : (s.fire due).1.clock = s.clock := by
  induction due generalizing s with
  | nil => rfl
  | cons timer rest ih =>
    rw [fire]
    split
    · exact ih s
    · rcases parse_cases { s with pending := none } with ⟨d, -, parsed⟩ | ⟨e, -, parsed⟩ <;>
        simp only [parsed]
      exact ih _

theorem clock_advance (s : Session) (seconds : Float) :
    (s.advance seconds).1.clock = s.clock.map fun clock => (clock.advance seconds).1 := by
  cases clock : s.clock with
  | none => simp [advance, clock]
  | some clock' => simp [advance, clock, clock_fire]

/-- Advancing the clock parts the running timers into the due ones and the others. -/
theorem running_advance (s : Session) (seconds : Float) :
    s.running.Perm (s.liveDue seconds ++ (s.advance seconds).1.running) := by
  rw [running, running, clock_advance]
  cases clock : s.clock with
  | none => simp [liveDue, clock]
  | some clock' =>
    simp only [liveDue, clock]
    exact live_advance clock' seconds

theorem mem_running_of_fired (member : timer ∈ s.fired step) : timer ∈ s.running := by
  cases step with
  | advance seconds =>
    exact (running_advance s seconds).symm.subset (List.mem_append_left _ member)
  | setText | parseNow | beginDrag | dragTo | endDrag | close => contradiction

theorem Armed.advance (armed : s.Armed alarm) (seconds : Float) :
    (s.advance seconds).1.Armed (if s.disarms (.advance seconds) then none else alarm) := by
  have parts := running_advance s seconds
  rw [armed.running] at parts
  rcases advance_cases armed.timed seconds with
    ⟨due, clock, -, -, same⟩ | ⟨timer, clock, due, -, -, same⟩
  · have quiet : s.disarms (.advance seconds) = false := by simp [disarms, fired, due]
    rw [due, List.nil_append] at parts
    rw [quiet]
    refine ⟨?_, ?_⟩
    · cases alarm with
      | none => exact parts.nil_eq.symm
      | some timer => exact (List.singleton_perm.mp parts).symm
    · rw [same]
      exact armed.pending
  · have last : (s.advance seconds).1.running = [] := by
      have count := parts.length_eq
      rw [due] at count
      apply List.eq_nil_of_length_eq_zero
      cases alarm with
      | none => simp at count
      | some timer => simpa using count
    have stops : s.disarms (.advance seconds) = true := by simp [disarms, fired, due]
    rw [stops]
    refine ⟨last, ?_⟩
    rw [same]
    rcases parse_cases { s with clock, pending := none } with ⟨d, -, parsed⟩ | ⟨e, -, parsed⟩ <;>
      rw [parsed] <;> rfl

/-- What a step leaves of the timer: a new one when the text is set, none after a reading or when
the session is closed, and otherwise the one there was. -/
theorem Armed.perform (armed : s.Armed alarm) (step : Step) :
    (s.perform step).1.Armed
      (if s.setsText step then s.nextTimer? else if s.disarms step then none else alarm) := by
  cases step with
  | setText text => exact Armed.schedule (s := { s with text }) (armed.congr rfl rfl)
  | parseNow => exact armed.cancelPending.parse
  | beginDrag id =>
    simp only [Session.perform, beginDrag]
    split <;> exact armed.congr rfl rfl
  | dragTo x y =>
    simp only [Session.perform, dragTo]
    split <;> exact armed.congr rfl rfl
  | endDrag =>
    cases found : s.draggedNode with
    | none =>
      have silent : s.setsText .endDrag = false := by simp [setsText, found]
      simp only [Session.perform]
      rw [silent, endDrag_of_not_dragged found]
      exact armed.congr rfl rfl
    | some node =>
      have sets : s.setsText .endDrag = true := by simp [setsText, found]
      simp only [Session.perform]
      rw [sets, endDrag_of_dragged found]
      exact Armed.schedule (s := { s with dragged := none, text := _ }) (armed.congr rfl rfl)
  | close => exact armed.cancelPending
  | advance seconds => exact armed.advance seconds

theorem issued_schedule (s : Session) :
    s.schedule.1.issued = s.issued + s.clock.toList.length := by
  rw [← issued_cancelPending s]
  cases clock : s.cancelPending.clock with
  | none =>
    have absent := clock_cancelPending.mp clock
    simp [schedule, issued, clock, absent]
  | some clock' =>
    obtain ⟨old, present⟩ := Option.ne_none_iff_exists'.mp
      (mt (clock_cancelPending (s := s)).mpr (by simp [clock]))
    simp [schedule, issued, clock, present, Clock.schedule]

theorem issued_perform (s : Session) (step : Step) :
    (s.perform step).1.issued =
      s.issued + if s.setsText step then s.clock.toList.length else 0 := by
  have parse_issued : ∀ s : Session, s.parse.1.issued = s.issued := by
    intro s
    rcases parse_cases s with ⟨d, -, parsed⟩ | ⟨e, -, parsed⟩
    · rw [parsed]
      rfl
    · rw [parsed]
  cases step with
  | setText text => exact issued_schedule { s with text }
  | parseNow => exact (parse_issued _).trans (issued_cancelPending s)
  | beginDrag id =>
    simp only [perform, beginDrag]
    split <;> rfl
  | dragTo x y =>
    simp only [perform, dragTo]
    split <;> rfl
  | endDrag =>
    simp only [perform]
    cases found : s.draggedNode with
    | none => simp [endDrag_of_not_dragged found, setsText, found, issued]
    | some node =>
      rw [endDrag_of_dragged found]
      simp only [setsText, found, Option.isSome_some, if_true]
      exact issued_schedule { s with dragged := none, text := _ }
  | close => exact issued_cancelPending s
  | advance seconds =>
    simp only [perform, issued, clock_advance]
    cases s.clock <;> rfl

theorem issued_run (s : Session) (steps : List Step) : s.issued ≤ (s.run steps).issued := by
  induction steps generalizing s with
  | nil => exact Nat.le_refl _
  | cons step steps ih =>
    refine Nat.le_trans ?_ (ih (s.perform step).1)
    rw [issued_perform]
    exact Nat.le_add_right _ _

/-- The handles of running timers, and of those still to come, are not below the bound. -/
structure Beyond (s : Session) (bound : Nat) : Prop where
  issued : bound ≤ s.issued
  running : ∀ timer ∈ s.running, bound ≤ timer.handle

theorem handle_of_nextTimer? (next : s.nextTimer? = some timer) :
    timer.handle = s.issued ∧ s.clock.toList.length = 1 := by
  obtain ⟨clock, found, rfl⟩ := Option.map_eq_some_iff.mp next
  simp [Session.issued, found]

theorem Beyond.perform (beyond : s.Beyond bound) (armed : s.Armed alarm) (step : Step) :
    (s.perform step).1.Beyond bound where
  issued := by
    rw [issued_perform]
    exact Nat.le_add_right_of_le beyond.issued
  running := by
    intro timer member
    rw [(armed.perform step).running, Option.mem_toList] at member
    split at member
    · rw [(handle_of_nextTimer? member).1]
      exact beyond.issued
    · split at member
      · contradiction
      · apply beyond.running
        rw [armed.running, Option.mem_toList]
        exact member

/-- Each running timer comes due one delay after the last of the times. -/
def Dated (s : Session) (times : List Float) : Prop :=
  ∀ timer ∈ s.running, ∃ time, times.getLast? = some time ∧
    timer.deadline = time + s.settings.debounceSeconds

theorem Dated.perform (dated : s.Dated times) (armed : s.Armed alarm) (step : Step) :
    (s.perform step).1.Dated
      (times ++ if s.setsText step then s.clock.toList.map Clock.now else []) := by
  intro timer member
  rw [(perform_effect armed.timed step).1.settings]
  rw [(armed.perform step).running, Option.mem_toList] at member
  cases sets : s.setsText step with
  | true =>
    rw [sets, if_pos rfl] at member
    obtain ⟨clock, found, rfl⟩ := Option.map_eq_some_iff.mp member
    exact ⟨clock.now, by simp [found], rfl⟩
  | false =>
    rw [sets, if_neg Bool.false_ne_true] at member
    split at member
    · contradiction
    · simp only [Bool.false_eq_true, if_false, List.append_nil]
      apply dated
      rw [armed.running, Option.mem_toList]
      exact member

theorem Armed.run (armed : s.Armed alarm) (steps : List Step) :
    ∃ alarm, (s.run steps).Armed alarm := by
  induction steps generalizing s alarm with
  | nil => exact ⟨alarm, armed⟩
  | cons step steps ih => exact ih (armed.perform step)

theorem Dated.run (dated : s.Dated times) (armed : s.Armed alarm) (steps : List Step) :
    (s.run steps).Dated (times ++ s.setTimes steps) := by
  induction steps generalizing s alarm times with
  | nil =>
    rw [setTimes, List.append_nil]
    exact dated
  | cons step steps ih =>
    rw [setTimes, ← List.append_assoc]
    exact ih (dated.perform armed step) (armed.perform step)

theorem Beyond.run (beyond : s.Beyond bound) (armed : s.Armed alarm) (steps : List Step) :
    (s.run steps).Beyond bound := by
  induction steps generalizing s alarm with
  | nil => exact beyond
  | cons step steps ih => exact ih (beyond.perform armed step) (armed.perform step)

theorem Armed.run_of_none (armed : s.Armed none) (keeps : s.setsTextIn steps = false) :
    (s.run steps).Armed none := by
  induction steps generalizing s with
  | nil => exact armed
  | cons step steps ih =>
    rw [setsTextIn, Bool.or_eq_false_iff] at keeps
    apply ih _ keeps.2
    have next := armed.perform step
    rw [keeps.1, if_neg Bool.false_ne_true, ite_self] at next
    exact next

theorem Armed.setsTextIn_of_fired (armed : s.Armed none)
    (fires : (s.run steps).fired step ≠ []) : s.setsTextIn steps = true := by
  by_contra keeps
  have quiet := armed.run_of_none (Bool.eq_false_iff.mpr keeps)
  obtain ⟨timer, member⟩ := List.exists_mem_of_ne_nil _ fires
  have running := mem_running_of_fired member
  rw [quiet.running] at running
  contradiction

theorem Armed.setsTextIn_of_disarms (armed : s.Armed alarm) (stops : s.disarms step = true)
    (keeps : s.setsText step = false)
    (fires : ((s.perform step).1.run steps).fired later ≠ []) :
    (s.perform step).1.setsTextIn steps = true := by
  have next := armed.perform step
  rw [keeps, if_neg Bool.false_ne_true, stops, if_pos rfl] at next
  exact next.setsTextIn_of_fired fires

/-- How the timer of a session behaves from one of its states on. -/
structure Debounced (s : Session) : Prop where
  /-- One timer runs while a reading is pending, and none otherwise. -/
  single : s.running.length = if s.pending.isSome then 1 else 0
  /-- A timer that comes due reads the text as it is then, and time alone reads nothing. -/
  current : ∀ seconds,
    (s.liveDue seconds = [] ∧ ∃ clock, s.advance seconds = ({ s with clock }, .ok ())) ∨
    ∃ timer clock, s.liveDue seconds = [timer] ∧
      s.advance seconds = ({ s with clock, pending := none }.parse.1,
        { s with clock, pending := none }.parse.2.map fun _ => ())
  /-- A timer never fires once the text was set again. -/
  superseded : ∀ setter between later after step handle, s.setsText setter = true →
    (s.perform setter).1.pending = some handle →
    ((s.perform setter).1.run between).setsText later = true →
    ∀ timer ∈ ((s.perform setter).1.run (between ++ later :: after)).fired step,
      timer.handle ≠ handle
  /-- Between two readings by a timer the text is set. -/
  apart : ∀ first between second, s.fired first ≠ [] →
    ((s.perform first).1.run between).fired second ≠ [] →
    (s.perform first).1.setsTextIn between = true
  /-- After a reading on demand, or the end of the session, no timer fires until the text is
  set. -/
  stopped : ∀ stop between step, stop = .parseNow ∨ stop = .close →
    ((s.perform stop).1.run between).fired step ≠ [] →
    (s.perform stop).1.setsTextIn between = true

theorem Armed.superseded (armed : s.Armed alarm) (sets : s.setsText setter = true)
    (waits : (s.perform setter).1.pending = some handle)
    (again : ((s.perform setter).1.run between).setsText later = true)
    (fires : timer ∈ ((s.perform setter).1.run (between ++ later :: after)).fired step) :
    timer.handle ≠ handle := by
  have first := armed.perform setter
  rw [sets, if_pos rfl] at first
  obtain ⟨old, next, same⟩ := Option.map_eq_some_iff.mp (first.pending.symm.trans waits)
  obtain ⟨own, present⟩ := handle_of_nextTimer? next
  have fresh : (s.perform setter).1.issued = handle + 1 := by
    rw [issued_perform, sets, if_pos rfl, present, ← same, own]
  obtain ⟨middle, armed'⟩ := first.run between
  have second := armed'.perform later
  rw [again, if_pos rfl] at second
  -- the second setting leaves one timer, whose handle is new, and only newer ones follow
  have beyond : (((s.perform setter).1.run between).perform later).1.Beyond (handle + 1) := by
    have grown := issued_run (s.perform setter).1 between
    rw [fresh] at grown
    refine ⟨?_, fun timer member => ?_⟩
    · rw [issued_perform]
      exact Nat.le_add_right_of_le grown
    · rw [second.running, Option.mem_toList] at member
      rw [(handle_of_nextTimer? member).1]
      exact grown
  rw [run_append] at fires
  have newer := (beyond.run second after).running timer (mem_running_of_fired fires)
  omega

theorem Armed.debounced (armed : s.Armed alarm) : s.Debounced where
  single := by
    rw [armed.running, armed.pending]
    cases alarm <;> rfl
  current seconds := by
    rcases advance_cases armed.timed seconds with
      ⟨due, clock, -, -, same⟩ | ⟨timer, clock, due, -, -, same⟩
    · exact .inl ⟨due, clock, same⟩
    · exact .inr ⟨timer, clock, due, same⟩
  superseded _ _ _ _ _ _ sets waits again _ fires := armed.superseded sets waits again fires
  apart first between second fires later := by
    cases first with
    | advance seconds =>
      have stops : s.disarms (.advance seconds) = true := by simpa [disarms] using fires
      exact armed.setsTextIn_of_disarms stops rfl later
    | setText | parseNow | beginDrag | dragTo | endDrag | close => contradiction
  stopped stop between step asked fires := by
    rcases asked with rfl | rfl
    · exact armed.setsTextIn_of_disarms rfl rfl fires
    · exact armed.setsTextIn_of_disarms rfl rfl fires

theorem armed_begin (begins : begin? settings clock text = .ok s)
    (fresh : ∀ c ∈ clock, c.live = []) : s.Armed none := by
  obtain ⟨diagram, -, rfl⟩ := begin?_eq_ok.mp begins
  refine ⟨?_, rfl⟩
  cases clock with
  | none => rfl
  | some clock' => exact fresh clock' rfl

/-- In all its states a session is debounced, and its timer comes due one delay after the text
was last set. -/
theorem run_debounced (begins : begin? settings clock text = .ok s)
    (fresh : ∀ c ∈ clock, c.live = []) (steps : List Step) :
    (s.run steps).Debounced ∧ (s.run steps).Dated (s.setTimes steps) := by
  have armed := armed_begin begins fresh
  obtain ⟨alarm, after⟩ := armed.run steps
  have dated : s.Dated [] := by
    intro timer member
    rw [armed.running] at member
    contradiction
  exact ⟨after.debounced, dated.run armed steps⟩

/-- The text is set a second time, by a release, before the first timer comes due. -/
theorem run_debounced_superseded :
    let steps := [.setText "ent (99", .advance 0.25, .beginDrag "A", .endDrag, .advance 0.125]
    (sample.run steps).running = [⟨1, 0.25 + 0.3, false⟩] ∧
      (sample.run steps).pending.isSome = true ∧
      ∃ time, (sample.setTimes steps).getLast? = some time ∧ 0.25 + 0.3 = time + (0.3 : Float) := by
  intro steps
  obtain ⟨debounced, dated⟩ := run_debounced begin?_sample fresh_sample steps
  have running : (sample.run steps).running = [⟨1, 0.25 + 0.3, false⟩] := by decide +kernel
  have one := debounced.single
  rw [running] at one
  have waits : (sample.run steps).pending.isSome = true := by
    by_contra none
    simp [none] at one
  refine ⟨running, waits, ?_⟩
  have due := dated ⟨1, 0.25 + 0.3, false⟩ (by rw [running]; exact List.mem_singleton_self _)
  rw [(stays_run (s := sample) rfl steps).settings] at due
  exact due

end EERDiagram.Session
