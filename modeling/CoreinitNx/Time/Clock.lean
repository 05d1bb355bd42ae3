import Mathlib
import CoreinitNx.Ticks
import CoreinitNx.Library.Transition

namespace CoreinitNx.Time

def kWiiUCoreClockHz : UInt32 := 1243125000

structure OSSystemInfo where
  busClockSpeed : UInt32
  coreClockSpeed : UInt32
  baseTime : OSTime
deriving DecidableEq, Repr

-- `armTick` is what `armGetSystemTick` reads, and `userClock` what `timeGetCurrentTime` does, if it
-- answers; `info` is filled in when it is first asked for.
structure World where
  armTick : UInt64
  userClock : Option UInt64
  info : OSSystemInfo
  ready : Bool
deriving DecidableEq, Repr

def systemTimeTicks (armTick : UInt64) : OSTime := (armTick * 3315 / 1024).toInt64

def computeBaseTime (userClock : Option UInt64) (armTick : UInt64) : OSTime :=
  match userClock with
  | none => 0
  | some unixSeconds =>
      (unixSeconds.toInt64 - kUnixToCafeEpoch) * kWiiUTimerHz.toInt64 - systemTimeTicks armTick

def osGetSystemInfo (s : World) : World :=
  if s.ready then s
  else { s with
    info := ⟨kWiiUBusClockHz, kWiiUCoreClockHz, computeBaseTime s.userClock s.armTick⟩
    ready := true }

def osGetSystemTime (s : World) : OSTime := systemTimeTicks s.armTick

def osGetTime (s : World) : OSTime × World :=
  let s := osGetSystemInfo s
  (s.info.baseTime + osGetSystemTime s, s)

def osGetSystemTick (s : World) : Int32 := (osGetSystemTime s).toInt32

def osGetTick (s : World) : Int32 × World :=
  let (time, s) := osGetTime s
  (time.toInt32, s)

def osSetAbsoluteSystemTime (s : World) (time : OSTime) : World :=
  let s := osGetSystemInfo s
  { s with info := { s.info with baseTime := time - osGetSystemTime s } }

inductive Event where
  | passes
  | getSystemInfo
  | getTime (time : OSTime)
  | getTick (tick : Int32)
  | set (time : OSTime)
deriving DecidableEq, Repr

-- The host's tick counter only counts on; its calendar clock may be set or fail at any moment.
inductive Step : World → Event → World → Prop
  | passes {s : World} {t : UInt64} {u : Option UInt64} : s.armTick ≤ t →
      Step s .passes { s with armTick := t, userClock := u }
  | getSystemInfo {s : World} : Step s .getSystemInfo (osGetSystemInfo s)
  | getTime {s : World} : Step s (.getTime (osGetTime s).1) (osGetTime s).2
  | getTick {s : World} : Step s (.getTick (osGetTick s).1) (osGetTick s).2
  | set {s : World} (time : OSTime) : Step s (.set time) (osSetAbsoluteSystemTime s time)

def Event.sets : Event → Bool
  | .set _ => true
  | .passes | .getSystemInfo | .getTime _ | .getTick _ => false

-- The clock that the alarms read.
def World.clock (s : World) : Clock := ⟨s.info.baseTime, osGetSystemTime s⟩

variable {s s' : World} {e : Event} {es : List Event}

theorem osGetSystemInfo_ready (s : World) : (osGetSystemInfo s).ready = true := by
  rw [osGetSystemInfo]
  split
  next h => exact h
  next => rfl

theorem osGetSystemInfo_of_ready (h : s.ready = true) : osGetSystemInfo s = s := if_pos h

theorem osGetSystemInfo_armTick (s : World) : (osGetSystemInfo s).armTick = s.armTick := by
  rw [osGetSystemInfo]
  split <;> rfl

theorem osGetTime_clock (s : World) : (osGetTime s).1 = (osGetSystemInfo s).clock.osGetTime := rfl

theorem osSetAbsoluteSystemTime_clock (s : World) (time : OSTime) :
    (osSetAbsoluteSystemTime s time).clock =
      (osGetSystemInfo s).clock.osSetAbsoluteSystemTime time := rfl

-- No step but a set moves the base, once it is there.
theorem Step.baseTime (hs : Step s e s') (hr : s.ready = true) (he : e.sets = false) :
    s'.ready = true ∧ s'.info = s.info := by
  cases hs with
  | passes => exact ⟨hr, rfl⟩
  | getSystemInfo | getTime | getTick =>
    change (osGetSystemInfo s).ready = true ∧ (osGetSystemInfo s).info = s.info
    rw [osGetSystemInfo_of_ready hr]
    exact ⟨hr, rfl⟩
  | set => cases he

theorem Run.info (run : Transition.Run Step s es s') (hr : s.ready = true)
    (hes : ∀ e ∈ es, e.sets = false) : s'.ready = true ∧ s'.info = s.info :=
  run.invariant_of (I := fun c => c.ready = true ∧ c.info = s.info) hes ⟨hr, rfl⟩
    fun _ _ _ he hi hs => by
      obtain ⟨h1, h2⟩ := hs.baseTime hi.1 he
      exact ⟨h1, h2.trans hi.2⟩

theorem Run.getTime (run : Transition.Run Step s es s') (hr : s.ready = true)
    (hes : ∀ e ∈ es, e.sets = false) :
    (osGetTime s').1 = (osGetTime s).1 + (osGetSystemTime s' - osGetSystemTime s) := by
  obtain ⟨hr', hinfo⟩ := Run.info run hr hes
  simp only [osGetTime, osGetSystemInfo_of_ready hr, osGetSystemInfo_of_ready hr', hinfo]
  grind

-- `time` is what the clock shows in `a`: it is set, or it is first read and the host knows the date.
def Shows (a : World) (time : OSTime) (b : World) : Prop :=
  Step a (.set time) b ∨ a.ready = false ∧ b = osGetSystemInfo a ∧
    ∃ unixSeconds, a.userClock = some unixSeconds ∧
      time = (unixSeconds.toInt64 - kUnixToCafeEpoch) * kWiiUTimerHz.toInt64

theorem Shows.getTime {a b : World} {time : OSTime} (h : Shows a time b) :
    b.ready = true ∧ (osGetTime b).1 = time ∧ osGetSystemTime b = osGetSystemTime a := by
  rcases h with hset | ⟨hr, rfl, u, hu, rfl⟩
  · cases hset
    have hready : (osSetAbsoluteSystemTime a time).ready = true := osGetSystemInfo_ready a
    have htick : (osSetAbsoluteSystemTime a time).armTick = a.armTick := osGetSystemInfo_armTick a
    refine ⟨hready, ?_, by rw [osGetSystemTime, htick, osGetSystemTime]⟩
    simp only [osGetTime, osGetSystemInfo_of_ready hready]
    simp only [osSetAbsoluteSystemTime, osGetSystemTime]
    grind
  · have hready := osGetSystemInfo_ready a
    have htick := osGetSystemInfo_armTick a
    refine ⟨hready, ?_, by rw [osGetSystemTime, htick, osGetSystemTime]⟩
    simp only [osGetTime, osGetSystemInfo_of_ready hready, osGetSystemTime, htick]
    rw [osGetSystemInfo, hr, if_neg Bool.false_ne_true]
    simp only [computeBaseTime, hu]
    grind

-- 62156250 / 19200000 is 3315 / 1024, and the product does not wrap for nine years.
def InUptime (armTick : UInt64) : Prop := armTick.toNat * 3315 < 2 ^ 64

example : 9 * 365 * 86400 * 19200000 * 3315 < 2 ^ 64 ∧ 62156250 * 1024 = 19200000 * 3315 := by decide

theorem InUptime.mono {t u : UInt64} (h : InUptime u) (hle : t ≤ u) : InUptime t := by
  rw [UInt64.le_iff_toNat_le] at hle
  exact Nat.lt_of_le_of_lt (Nat.mul_le_mul_right 3315 hle) h

theorem Run.getTick {a b : World} (run : Transition.Run Step a es b) (hr : a.ready = true)
    (hes : ∀ e ∈ es, e.sets = false) :
    (osGetTick b).1 - (osGetTick a).1 = (osGetSystemTime b - osGetSystemTime a).toInt32 := by
  have htime := Run.getTime run hr hes
  change (osGetTime b).1.toInt32 - (osGetTime a).1.toInt32 = _
  rw [htime, Int64.toInt32_add]
  grind

end CoreinitNx.Time
