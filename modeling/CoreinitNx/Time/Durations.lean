import CoreinitNx.Alarm.Armed
import CoreinitNx.Event.Basic
import CoreinitNx.Library.Rescale
import CoreinitNx.SpinLock

namespace CoreinitNx.Time

open Rescale

-- What `svcSleepThread` is called with, if it is.
def osSleepTicks (ticks : OSTime) : Option UInt64 :=
  if ticks ≤ 0 then none else some (ticks.toUInt64 * 32000 / 1989)

def sleepNs (ticks : OSTime) : Nat := ((osSleepTicks ticks).getD 0).toNat

def eventOffset (systemTick : UInt64) (timeout : OSTime) : Nat :=
  (Event.deadlineAt systemTick timeout - systemTick).toNat

def spinOffset (systemTick : UInt64) (timeout : OSTime) : Nat :=
  (SpinLock.deadlineAt systemTick timeout - systemTick).toNat

def dueOf (s : Alarm.State) (alarm : Alarm.OSAlarm) (time : OSTime) : OSTime :=
  ((Alarm.osSetAlarm s alarm time 0).2.alarms.at alarm).due

-- The exact count is `t * 1024 / 3315`; the offset is at most that and less than two below it.
def HostTicks (t : OSTime) (offset : Nat) : Prop :=
  (offset : Int) * 3315 ≤ t.toInt * 1024 ∧ t.toInt * 1024 < ((offset : Int) + 2) * 3315

structure Exact (s : Alarm.State) (alarm : Alarm.OSAlarm) (tick : UInt64) (t : OSTime) : Prop where
  sleep : (sleepNs t : Int) = t.toInt * 32000 / 1989
  event : HostTicks t (eventOffset tick t)
  spin : HostTicks t (spinOffset tick t)
  agree : eventOffset tick t ≤ spinOffset tick t + 2 ∧ spinOffset tick t ≤ eventOffset tick t + 2
  later : s.clock.osGetTime < dueOf s alarm t

structure NoShorter (s : Alarm.State) (alarm : Alarm.OSAlarm) (tick : UInt64) (t t' : OSTime) :
    Prop where
  sleep : sleepNs t ≤ sleepNs t'
  event : eventOffset tick t ≤ eventOffset tick t'
  spin : spinOffset tick t ≤ spinOffset tick t'
  alarm : dueOf s alarm t ≤ dueOf s alarm t'

variable {s : Alarm.State} {alarm : Alarm.OSAlarm} {tick : UInt64} {t t' : OSTime}

section Conversions

variable (hpos : 0 < t)
include hpos

theorem toUInt64_toNat : t.toUInt64.toNat = t.toInt.toNat :=
  Int64.toNat_toUInt64_of_le (Int64.le_of_lt hpos)

theorem toInt_pos : 0 < t.toInt := Int64.lt_iff_toInt_lt.1 hpos

theorem sleepNs_eq : sleepNs t = t.toInt.toNat * 32000 % 2 ^ 64 / 1989 := by
  have hnot : ¬t ≤ 0 := Int64.not_le.2 hpos
  simp [sleepNs, osSleepTicks, hnot, UInt64.toNat_div, UInt64.toNat_mul, toUInt64_toNat hpos]

theorem sleepNs_exact_iff :
    (sleepNs t : Int) = t.toInt * 32000 / 1989 ↔ t.toInt * 32000 < 2 ^ 64 := by
  have hint := toInt_pos hpos
  have hwrap := wrapped_eq_iff (w := 2 ^ 64) (p := 32000) (q := 1989) (x := t.toInt.toNat)
    (by decide) (by decide)
  rw [sleepNs_eq hpos]
  omega

theorem eventOffset_eq (hfits : t.toInt * 32000 < 2 ^ 64) :
    eventOffset tick t = t.toInt.toNat * 32000 / 1989 * 192 / 10000 := by
  have hint := toInt_pos hpos
  have hns : (ticksToNs t).toNat = t.toInt.toNat * 32000 / 1989 := by
    have hgt : t > 0 := hpos
    simp only [ticksToNs, hgt, if_true, UInt64.toNat_div, UInt64.toNat_mul, toUInt64_toNat hpos,
      UInt64.reduceToNat]
    omega
  rw [eventOffset, Event.deadlineAt, UInt64.add_comm, UInt64.add_sub_cancel, UInt64.toNat_div,
    UInt64.toNat_mul, hns]
  simp only [UInt64.reduceToNat]
  omega

theorem spinOffset_eq (hfits : t.toInt * 32000 < 2 ^ 64) :
    spinOffset tick t = t.toInt.toNat * 1024 / 3315 := by
  have hint := toInt_pos hpos
  have hgt : t > 0 := hpos
  rw [spinOffset, SpinLock.deadlineAt, if_pos hgt, UInt64.add_comm, UInt64.add_sub_cancel,
    UInt64.toNat_div, UInt64.toNat_mul, toUInt64_toNat hpos]
  simp only [UInt64.reduceToNat]
  omega

theorem hostTicks_event (hfits : t.toInt * 32000 < 2 ^ 64) : HostTicks t (eventOffset tick t) := by
  have hint := toInt_pos hpos
  rw [HostTicks, eventOffset_eq hpos hfits]
  omega

theorem hostTicks_spin (hfits : t.toInt * 32000 < 2 ^ 64) : HostTicks t (spinOffset tick t) := by
  have hint := toInt_pos hpos
  rw [HostTicks, spinOffset_eq hpos hfits]
  omega

end Conversions

theorem HostTicks.agree {i j : Nat} (hi : HostTicks t i) (hj : HostTicks t j) :
    i ≤ j + 2 ∧ j ≤ i + 2 := by
  obtain ⟨hilow, hihigh⟩ := hi
  obtain ⟨hjlow, hjhigh⟩ := hj
  omega

theorem dueOf_eq (halarm : alarm ≠ 0) : dueOf s alarm t = s.clock.osGetTime + t :=
  (Alarm.arm_armedFor halarm).at.due_eq

theorem later_iff (halarm : alarm ≠ 0) (hpos : 0 < t) :
    s.clock.osGetTime < dueOf s alarm t ↔ s.clock.osGetTime.toInt + t.toInt < 2 ^ 63 := by
  have hint := toInt_pos hpos
  have hlow := s.clock.osGetTime.le_toInt
  have hhigh := s.clock.osGetTime.toInt_lt
  have hlt := t.toInt_lt
  rw [dueOf_eq halarm, Int64.lt_iff_toInt_lt, Int64.toInt_add, Int.bmod_def]
  omega

theorem exact_iff (halarm : alarm ≠ 0) (hpos : 0 < t) :
    Exact s alarm tick t ↔
      t.toInt * 32000 < 2 ^ 64 ∧ s.clock.osGetTime.toInt + t.toInt < 2 ^ 63 := by
  constructor
  · intro h
    exact ⟨(sleepNs_exact_iff hpos).1 h.sleep, (later_iff halarm hpos).1 h.later⟩
  · rintro ⟨hfits, hnow⟩
    have hevent : HostTicks t (eventOffset tick t) := hostTicks_event hpos hfits
    have hspin : HostTicks t (spinOffset tick t) := hostTicks_spin hpos hfits
    exact ⟨(sleepNs_exact_iff hpos).2 hfits, hevent, hspin, hevent.agree hspin,
      (later_iff halarm hpos).2 hnow⟩

theorem noShorter (halarm : alarm ≠ 0) (hpos : 0 < t) (hle : t ≤ t')
    (hfits : t'.toInt * 32000 < 2 ^ 64)
    (hnow : s.clock.osGetTime.toInt + t'.toInt < 2 ^ 63) : NoShorter s alarm tick t t' := by
  have hpos' : 0 < t' := Int64.lt_of_lt_of_le hpos hle
  have hint := toInt_pos hpos
  have hint' := Int64.le_iff_toInt_le.1 hle
  have hfits₁ : t.toInt * 32000 < 2 ^ 64 := by omega
  have hexact := (sleepNs_exact_iff hpos).2 hfits₁
  have hexact' := (sleepNs_exact_iff hpos').2 hfits
  constructor
  case sleep => omega
  case event =>
    rw [eventOffset_eq hpos hfits₁, eventOffset_eq hpos' hfits]
    omega
  case spin =>
    rw [spinOffset_eq hpos hfits₁, spinOffset_eq hpos' hfits]
    omega
  case alarm =>
    have hlow := s.clock.osGetTime.le_toInt
    rw [dueOf_eq halarm, dueOf_eq halarm, Int64.le_iff_toInt_le, Int64.toInt_add, Int64.toInt_add,
      Int.bmod_def, Int.bmod_def]
    omega

theorem durations_exact_iff (s : Alarm.State) (alarm : Alarm.OSAlarm) (tick : UInt64)
    (t t' : OSTime) (halarm : alarm ≠ 0) (hpos : 0 < t) (hle : t ≤ t') :
    (Exact s alarm tick t ∧ Exact s alarm tick t' ∧ NoShorter s alarm tick t t') ↔
      t'.toInt * 32000 < 2 ^ 64 ∧ s.clock.osGetTime.toInt + t'.toInt < 2 ^ 63 := by
  have hpos' : 0 < t' := Int64.lt_of_lt_of_le hpos hle
  have hint' := Int64.le_iff_toInt_le.1 hle
  constructor
  · rintro ⟨-, hexact, -⟩
    exact (exact_iff halarm hpos').1 hexact
  · rintro ⟨hfits, hnow⟩
    exact ⟨(exact_iff halarm hpos).2 ⟨by omega, by omega⟩,
      (exact_iff halarm hpos').2 ⟨hfits, hnow⟩, noShorter halarm hpos hle hfits hnow⟩

theorem durations_exact_iff_second :
    let s := Alarm.State.initial ⟨0, 0⟩
    Exact s 1 0 1 ∧ Exact s 1 0 62156250 ∧ NoShorter s 1 0 1 62156250 :=
  (durations_exact_iff (Alarm.State.initial ⟨0, 0⟩) 1 0 1 62156250 (by decide) (by decide)
    (by decide)).2 (by decide)

-- Some three hundred years: the sleep and the wait on an event do not wait at all.
theorem durations_wrap :
    let s := Alarm.State.initial ⟨0, 1⟩
    (osSleepTicks 0x800000000000000 = some 0 ∧ eventOffset 0 0x800000000000000 = 0) ∧
      ¬Exact s 1 0 0x800000000000000 ∧ ¬NoShorter s 1 0 1 0x800000000000000 ∧
      ¬s.clock.osGetTime < dueOf s 1 0x7FFFFFFFFFFFFFFF := by
  intro s
  refine ⟨by decide, fun hexact => ?_, fun hshorter => ?_, by decide⟩
  · exact absurd ((exact_iff (by decide) (by decide)).1 hexact).1 (by decide)
  · exact absurd hshorter.sleep (by decide)

end CoreinitNx.Time
