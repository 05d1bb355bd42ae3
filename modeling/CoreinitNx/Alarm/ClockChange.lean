import CoreinitNx.Alarm.Firing
import CoreinitNx.Alarm.Oversleep

namespace CoreinitNx.Alarm

variable {s s' t : State} {e : Event} {a : OSAlarm} {cb : OSAlarmCallback} {due duration : OSTime}
  {tick : Int}

-- A step that leaves the alarm pending: nothing supersedes it, and a pass does not collect it.
def Pends (a : OSAlarm) (due : OSTime) (s : State) (e : Event) (s' : State) : Prop :=
  Step s e s' ∧ ¬Supersedes s a e ∧ (e = .pass → ¬due ≤ s.clock.osGetTime)

def PendsThrough (a : OSAlarm) (due : OSTime) : State → List (Event × State) → Prop
  | _, [] => True
  | s, (e, s') :: trace => Pends a due s e s' ∧ PendsThrough a due s' trace

-- The first system tick at which a pass may collect the alarm is `tick`, or now if that is past.
def FirstAt (due : OSTime) (tick : Int) (s : State) : Prop :=
  max s.clock.systemTime.toInt (deadline s.clock due) = max s.clock.systemTime.toInt tick

structure DueAt (a : OSAlarm) (cb : OSAlarmCallback) (due : OSTime) (tick : Int) (s : State) :
    Prop where
  first : FirstAt due tick s
  collected : ∀ later, collections a (schedulerPass s later) =
    if tick ≤ s.clock.systemTime.toInt then [(a, cb)] else []

def AlwaysDueAt (a : OSAlarm) (cb : OSAlarmCallback) (due : OSTime) (tick : Int) :
    State → List (Event × State) → Prop
  | s, [] => DueAt a cb due tick s
  | s, (_, s') :: trace => DueAt a cb due tick s ∧ AlwaysDueAt a cb due tick s' trace

-- The clock moves on as the system time does, or the alarm was due by then and still is.
def ClockKept (due : OSTime) (s s' : State) : Prop :=
  s'.clock.osGetTime.toInt - s.clock.osGetTime.toInt =
      s'.clock.systemTime.toInt - s.clock.systemTime.toInt ∨
    deadline s.clock due ≤ s'.clock.systemTime.toInt ∧ due ≤ s'.clock.osGetTime

def ClockKeptThrough (due : OSTime) : State → List (Event × State) → Prop
  | _, [] => True
  | s, (_, s') :: trace => ClockKept due s s' ∧ ClockKeptThrough due s' trace

theorem Step.systemTime_le (hs : Step s e s') :
    s.clock.systemTime.toInt ≤ s'.clock.systemTime.toInt := by
  cases hs with
  | call op => exact Int.le_of_eq (by rw [call_clock])
  | pass _ _ hle => exact Int64.le_iff_toInt_le.1 hle
  | tick hle => exact Int64.le_iff_toInt_le.1 hle
  | requestStop => exact Int.le_of_eq (by rw [wake_clock])
  | startThread | skip | fire | finish | resume | timeout | setTime | exit | shutdown =>
    exact Int.le_refl _

theorem firstAt_iff (hs : Step s e s') (hfirst : FirstAt due tick s) :
    FirstAt due tick s' ↔ ClockKept due s s' := by
  have hle := hs.systemTime_le
  rw [FirstAt, deadline] at *
  rw [ClockKept, deadline, Int64.le_iff_toInt_le]
  omega

theorem dueAt_iff (ha : ArmedFor s.alarms a due 0 cb) : DueAt a cb due tick s ↔ FirstAt due tick s := by
  refine ⟨DueAt.first, fun hfirst => ⟨hfirst, fun later => ?_⟩⟩
  have hdue : tick ≤ s.clock.systemTime.toInt ↔ due ≤ s.clock.osGetTime := by
    rw [FirstAt, deadline] at hfirst
    rw [Int64.le_iff_toInt_le]
    omega
  by_cases hnow : due ≤ s.clock.osGetTime
  · rw [if_pos (hdue.2 hnow)]
    exact ha.collections_due hnow
  · rw [if_neg fun h => hnow (hdue.1 h)]
    exact ha.collections_early hnow

theorem AlwaysDueAt.head {trace : List (Event × State)} (h : AlwaysDueAt a cb due tick s trace) :
    DueAt a cb due tick s := by
  cases trace with
  | nil => exact h
  | cons p trace => exact h.1

theorem alwaysDueAt_iff {trace : List (Event × State)} (ha : ArmedFor s.alarms a due 0 cb)
    (hfirst : FirstAt due tick s) (hpends : PendsThrough a due s trace) :
    AlwaysDueAt a cb due tick s trace ↔ ClockKeptThrough due s trace := by
  induction trace generalizing s with
  | nil => exact ⟨fun _ => trivial, fun _ => (dueAt_iff ha).2 hfirst⟩
  | cons p trace ih =>
    obtain ⟨e, s'⟩ := p
    obtain ⟨⟨hstep, hsup, hpass⟩, hrest⟩ := hpends
    have ha' := hstep.keeps hsup hpass ha
    constructor
    · rintro ⟨-, halways⟩
      have hfirst' := halways.head.first
      exact ⟨(firstAt_iff hstep hfirst).1 hfirst', (ih ha' hfirst' hrest).1 halways⟩
    · rintro ⟨hkept, hrestKept⟩
      have hfirst' := (firstAt_iff hstep hfirst).2 hkept
      exact ⟨(dueAt_iff ha).2 hfirst, (ih ha' hfirst' hrest).2 hrestKept⟩

theorem firstAt_armed_iff (s : State) (duration : OSTime) :
    FirstAt (s.clock.osGetTime + duration) (s.clock.systemTime.toInt + duration.toInt) s ↔
      SumExact s.clock.osGetTime duration := by
  have h1 := s.clock.osGetTime.le_toInt
  have h2 := s.clock.osGetTime.toInt_lt
  have h3 := duration.le_toInt
  have h4 := duration.toInt_lt
  rw [FirstAt, SumExact, deadline, Int64.toInt_add, Int.bmod_def]
  omega

theorem set_step (hs : Step s (.call (.set a duration cb) (.ret 1)) s') :
    s'.clock = s.clock ∧ ArmedFor s'.alarms a (s.clock.osGetTime + duration) 0 cb := by
  refine ⟨?_, step_arms hs rfl⟩
  generalize he : Event.call (.set a duration cb) (.ret 1) = e at hs
  cases hs with
  | call op => exact call_clock s op
  | startThread | pass | skip | fire | finish | resume | timeout | tick | setTime | requestStop
  | exit | shutdown => cases he

theorem duration_immune_iff {trace : List (Event × State)}
    (hs : Step s (.call (.set a duration cb) (.ret 1)) s')
    (hpends : PendsThrough a (s.clock.osGetTime + duration) s' trace) :
    AlwaysDueAt a cb (s.clock.osGetTime + duration)
        (s.clock.systemTime.toInt + duration.toInt) s' trace ↔
      SumExact s.clock.osGetTime duration ∧
        ClockKeptThrough (s.clock.osGetTime + duration) s' trace := by
  obtain ⟨hclock, ha⟩ := set_step hs
  have hfirst : FirstAt (s.clock.osGetTime + duration)
      (s.clock.systemTime.toInt + duration.toInt) s' ↔ SumExact s.clock.osGetTime duration := by
    rw [← firstAt_armed_iff, FirstAt, FirstAt, hclock]
  constructor
  · intro halways
    have hexact := hfirst.1 halways.head.first
    exact ⟨hexact, (alwaysDueAt_iff ha (hfirst.2 hexact) hpends).1 halways⟩
  · rintro ⟨hexact, hkept⟩
    exact (alwaysDueAt_iff ha (hfirst.2 hexact) hpends).2 hkept

-- What the condition asks of a call that sets the clock.
theorem clockKept_setTime_iff {time : OSTime} :
    ClockKept due s { s with clock := s.clock.osSetAbsoluteSystemTime time } ↔
      time = s.clock.osGetTime ∨ due ≤ s.clock.osGetTime ∧ due ≤ time := by
  have hnow : (s.clock.osSetAbsoluteSystemTime time).osGetTime = time := by
    rw [Clock.osGetTime, Clock.osSetAbsoluteSystemTime]
    exact Int64.sub_add_cancel _ _
  have hsys : (s.clock.osSetAbsoluteSystemTime time).systemTime = s.clock.systemTime := rfl
  simp only [ClockKept, hnow, hsys, deadline]
  rw [← Int64.toInt_inj, Int64.le_iff_toInt_le, Int64.le_iff_toInt_le]
  omega

-- The clock is set to what it reads, ticks on, and the pass comes 50 ticks after the arming.
theorem duration_immune_iff_same_time :
    ∃ s' trace, Step (State.initial ⟨0, 0⟩) (.call (.set 4 50 7) (.ret 1)) s' ∧
      PendsThrough 4 50 s' trace ∧ trace.length = 2 ∧ AlwaysDueAt 4 7 50 50 s' trace := by
  let s₀ := State.initial ⟨0, 0⟩
  let s₁ := (call (.set 4 50 7) s₀).2
  let s₂ : State := { s₁ with clock := s₁.clock.osSetAbsoluteSystemTime 0 }
  let s₃ : State := { s₂ with clock := { s₂.clock with systemTime := 50 } }
  have hset := Step.call s₀ (.set 4 50 7)
  have hreply : (call (.set 4 50 7) s₀).1 = .ret 1 := by decide +kernel
  rw [hreply] at hset
  have hpends : PendsThrough 4 50 s₁ [(.setTime 0, s₂), (.tick, s₃)] :=
    ⟨⟨.setTime s₁ 0, id, nofun⟩, ⟨.tick (by decide +kernel), id, nofun⟩, trivial⟩
  have hkept : ClockKeptThrough 50 s₁ [(.setTime 0, s₂), (.tick, s₃)] :=
    ⟨.inl (by decide +kernel), .inl (by decide +kernel), trivial⟩
  have hexact : SumExact s₀.clock.osGetTime 50 := by
    rw [SumExact]
    decide +kernel
  exact ⟨s₁, _, hset, hpends, rfl, (duration_immune_iff hset hpends).2 ⟨hexact, hkept⟩⟩

-- Set for 50 ticks, then the clock is set to 1000: the alarm is due with no tick gone by.
theorem duration_changes_with_clock :
    ¬∀ (s s' : State) (a : OSAlarm) (duration : OSTime) (cb : OSAlarmCallback)
      (trace : List (Event × State)),
      SumExact s.clock.osGetTime duration →
      Step s (.call (.set a duration cb) (.ret 1)) s' →
      PendsThrough a (s.clock.osGetTime + duration) s' trace →
      AlwaysDueAt a cb (s.clock.osGetTime + duration)
        (s.clock.systemTime.toInt + duration.toInt) s' trace := by
  intro hall
  let s₀ := State.initial ⟨0, 0⟩
  let s₁ := (call (.set 4 50 7) s₀).2
  let s₂ : State := { s₁ with clock := s₁.clock.osSetAbsoluteSystemTime 1000 }
  have hset := Step.call s₀ (.set 4 50 7)
  have hreply : (call (.set 4 50 7) s₀).1 = .ret 1 := by decide +kernel
  rw [hreply] at hset
  have hexact : SumExact s₀.clock.osGetTime 50 := by
    rw [SumExact]
    decide +kernel
  have halways := hall s₀ s₁ 4 50 7 [(.setTime 1000, s₂)] hexact hset
    ⟨⟨.setTime s₁ 1000, id, nofun⟩, trivial⟩
  have hfirst := halways.2.first
  rw [FirstAt] at hfirst
  exact absurd hfirst (by decide +kernel)

end CoreinitNx.Alarm
