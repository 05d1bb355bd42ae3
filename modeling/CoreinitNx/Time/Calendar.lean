import CoreinitNx.Library.Rescale
import CoreinitNx.Time.Conversion

namespace CoreinitNx.Time

open CInt Gregorian Rescale

def OSCalendarTime.yearDay (ct : OSCalendarTime) : Int :=
  daysBeforeMonth ct.tm_year.toInt ct.month + (ct.tm_mday.toInt - 1)

-- What is left of the microseconds once they have been ticks.
def OSCalendarTime.keptMicroseconds (ct : OSCalendarTime) : Int :=
  rescale 1000000 hz (rescale hz 1000000 ct.microseconds)

def OSCalendarTime.normalized (ct : OSCalendarTime) : OSCalendarTime :=
  { ct with
    tm_wday := Int32.ofInt (weekday ct.day)
    tm_yday := Int32.ofInt ct.yearDay
    tm_msec := Int32.ofInt (ct.keptMicroseconds / 1000)
    tm_usec := Int32.ofInt (ct.keptMicroseconds % 1000) }

section RoundTrip

variable {ct : OSCalendarTime} (h : ct.Valid)
include h

theorem tickCount_div : ct.tickCount / hz = ct.cafeSeconds := by
  obtain ⟨hlow, hhigh⟩ := subTicks_bounds h
  rw [OSCalendarTime.tickCount, OSCalendarTime.wholeTicks]
  rw [Int.add_comm, Int.add_mul_ediv_right _ _ (by decide), Int.ediv_eq_zero_of_lt hlow hhigh,
    Int.zero_add]

theorem tickCount_mod : ct.tickCount % hz = ct.microseconds * hz / 1000000 := by
  obtain ⟨hlow, hhigh⟩ := subTicks_bounds h
  rw [OSCalendarTime.tickCount, OSCalendarTime.wholeTicks]
  rw [Int.add_comm, Int.add_mul_emod_self_right, Int.emod_eq_of_lt hlow hhigh]

theorem cafeSeconds_div : (ct.cafeSeconds + 946684800) / 86400 = ct.day := by
  have hsod := secondOfDay_bounds h
  rw [OSCalendarTime.cafeSeconds]
  omega

theorem cafeSeconds_mod : (ct.cafeSeconds + 946684800) % 86400 = ct.secondOfDay := by
  have hsod := secondOfDay_bounds h
  rw [OSCalendarTime.cafeSeconds]
  omega

theorem calendarOf_eq : calendarOf ct.tm_year.toInt ct.month ct.tm_mday.toInt ct.secondOfDay
    ct.keptMicroseconds = ct.normalized := by
  have hmon := mon_bounds h
  have hmonth : (ct.month : Int) - 1 = ct.tm_mon.toInt := by
    rw [OSCalendarTime.month]
    omega
  obtain ⟨-, _, _, _, _, _, _, -, -, -, -⟩ := h
  have hhour : ct.secondOfDay / 3600 = ct.tm_hour.toInt := by
    rw [OSCalendarTime.secondOfDay]
    omega
  have hmin : ct.secondOfDay % 3600 / 60 = ct.tm_min.toInt := by
    rw [OSCalendarTime.secondOfDay]
    omega
  have hsec : ct.secondOfDay % 60 = ct.tm_sec.toInt := by
    rw [OSCalendarTime.secondOfDay]
    omega
  rw [calendarOf]
  rw [hmonth, hhour, hmin, hsec]
  simp only [Int32.ofInt_toInt]
  rfl

theorem subMicroseconds_tickCount {t : OSTime} (ht : t.toInt = ct.tickCount) :
    subMicroseconds t = ct.keptMicroseconds := by
  rw [subMicroseconds]
  rw [ht, tickCount_mod h]
  rfl

theorem tickCount_toCalendar {t : OSTime} (ht : t.toInt = ct.tickCount) :
    osTicksToCalendarTime t = some ct.normalized := by
  have hday : dayNumber ct.tm_year.toInt ct.month ct.tm_mday.toInt =
      (t.toInt / hz + 946684800) / 86400 := by
    rw [ht, tickCount_div h, cafeSeconds_div h]
    rfl
  rw [osTicksToCalendarTime_eq h.date hday, subMicroseconds_tickCount h ht, ht, tickCount_div h,
    cafeSeconds_mod h, calendarOf_eq h]

end RoundTrip

theorem calendar_round_trip (ct : OSCalendarTime) (h : ct.Valid)
    (whole : FitsInt64 ct.wholeTicks) (full : FitsInt64 ct.tickCount) :
    ∃ t ct', osCalendarTimeToTicks ct = some t ∧ osTicksToCalendarTime t = some ct' ∧
      ct'.tm_year = ct.tm_year ∧ ct'.tm_mon = ct.tm_mon ∧ ct'.tm_mday = ct.tm_mday ∧
      ct'.tm_hour = ct.tm_hour ∧ ct'.tm_min = ct.tm_min ∧ ct'.tm_sec = ct.tm_sec ∧
      ct'.tm_wday.toInt = weekday ct.day ∧ ct'.tm_yday.toInt = ct.yearDay := by
  have hyday := dayOfYear_bounds h.date
  have hyear := yearLength_le ct.tm_year.toInt
  have hwday : 0 ≤ weekday ct.day ∧ weekday ct.day < 7 := by
    rw [weekday]
    omega
  refine ⟨Int64.ofInt ct.tickCount, ct.normalized, osCalendarTimeToTicks_eq h whole full,
    tickCount_toCalendar h (Int64.toInt_ofInt_of_le full.1 full.2), rfl, rfl, rfl, rfl, rfl,
    rfl, Int32.toInt_ofInt_of_le (by omega) (by omega), Int32.toInt_ofInt_of_le ?_ ?_⟩
  all_goals
    rw [OSCalendarTime.yearDay]
    omega

-- A leap day of 5 BC.
def leapDay : OSCalendarTime where
  tm_sec := 30
  tm_min := 45
  tm_hour := 13
  tm_mday := 29
  tm_mon := 1
  tm_year := -4
  tm_wday := 0
  tm_yday := 0
  tm_msec := 7
  tm_usec := 1

theorem calendar_round_trip_leap_day :
    ∃ t ct', osCalendarTimeToTicks leapDay = some t ∧ osTicksToCalendarTime t = some ct' ∧
      ct'.tm_year = -4 ∧ ct'.tm_mon = 1 ∧ ct'.tm_mday = 29 ∧ ct'.tm_hour = 13 ∧
      ct'.tm_min = 45 ∧ ct'.tm_sec = 30 ∧ ct'.tm_wday.toInt = weekday leapDay.day ∧
      ct'.tm_yday.toInt = leapDay.yearDay :=
  calendar_round_trip leapDay (by decide +kernel) (by decide +kernel) (by decide +kernel)

end CoreinitNx.Time
