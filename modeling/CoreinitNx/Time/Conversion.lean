import CoreinitNx.Time.Civil

namespace CoreinitNx.Time

open CInt Gregorian

def hz : Int := kWiiUTimerHz.toNat

theorem hz_eq : hz = 62156250 := rfl

def OSCalendarTime.month (ct : OSCalendarTime) : Nat := (ct.tm_mon.toInt + 1).toNat

-- `tm_wday` and `tm_yday` are only written, so they may hold anything.
@[mk_iff]
structure OSCalendarTime.Valid (ct : OSCalendarTime) : Prop where
  date : ValidDate ct.tm_year.toInt ct.month ct.tm_mday.toInt
  hour_nonneg : 0 ≤ ct.tm_hour.toInt
  hour_le : ct.tm_hour.toInt ≤ 23
  min_nonneg : 0 ≤ ct.tm_min.toInt
  min_le : ct.tm_min.toInt ≤ 59
  sec_nonneg : 0 ≤ ct.tm_sec.toInt
  sec_le : ct.tm_sec.toInt ≤ 59
  msec_nonneg : 0 ≤ ct.tm_msec.toInt
  msec_le : ct.tm_msec.toInt ≤ 999
  usec_nonneg : 0 ≤ ct.tm_usec.toInt
  usec_le : ct.tm_usec.toInt ≤ 999

instance (ct : OSCalendarTime) : Decidable ct.Valid :=
  decidable_of_iff _ (OSCalendarTime.valid_iff ct).symm

def OSCalendarTime.day (ct : OSCalendarTime) : Int :=
  dayNumber ct.tm_year.toInt ct.month ct.tm_mday.toInt

def OSCalendarTime.secondOfDay (ct : OSCalendarTime) : Int :=
  ct.tm_hour.toInt * 3600 + ct.tm_min.toInt * 60 + ct.tm_sec.toInt

def OSCalendarTime.cafeSeconds (ct : OSCalendarTime) : Int :=
  ct.day * 86400 + ct.secondOfDay - 946684800

def OSCalendarTime.microseconds (ct : OSCalendarTime) : Int :=
  ct.tm_msec.toInt * 1000 + ct.tm_usec.toInt

def OSCalendarTime.wholeTicks (ct : OSCalendarTime) : Int := ct.cafeSeconds * hz

def OSCalendarTime.tickCount (ct : OSCalendarTime) : Int :=
  ct.wholeTicks + ct.microseconds * hz / 1000000

section ToTicks

variable {ct : OSCalendarTime} (h : ct.Valid)
include h

theorem mon_bounds : 0 ≤ ct.tm_mon.toInt ∧ ct.tm_mon.toInt ≤ 11 := by
  have hpos := h.date.month_pos
  have hle := h.date.month_le
  rw [OSCalendarTime.month] at hpos hle
  omega

theorem mday_le : ct.tm_mday.toInt ≤ 31 := h.date.day_le.trans (monthLength_le _ _)

theorem secondOfDay_bounds : 0 ≤ ct.secondOfDay ∧ ct.secondOfDay < 86400 := by
  obtain ⟨-, _, _, _, _, _, _, -, -, -, -⟩ := h
  rw [OSCalendarTime.secondOfDay]
  omega

theorem microseconds_bounds : 0 ≤ ct.microseconds ∧ ct.microseconds < 1000000 := by
  obtain ⟨-, -, -, -, -, -, -, _, _, _, _⟩ := h
  rw [OSCalendarTime.microseconds]
  omega

theorem subTicks_bounds :
    0 ≤ ct.microseconds * hz / 1000000 ∧ ct.microseconds * hz / 1000000 < hz := by
  have hmicros := microseconds_bounds h
  rw [hz_eq]
  omega

theorem cafeSeconds_bounds (full : FitsInt64 ct.tickCount) :
    -200000000000 < ct.cafeSeconds ∧ ct.cafeSeconds < 200000000000 := by
  have hsub := subTicks_bounds h
  obtain ⟨hlow, hhigh⟩ := full
  rw [OSCalendarTime.tickCount, OSCalendarTime.wholeTicks] at hlow hhigh
  rw [hz_eq] at *
  omega

variable (hlow : -200000000000 < ct.cafeSeconds) (hhigh : ct.cafeSeconds < 200000000000)
include hlow hhigh

theorem day_bounds : -3000000 < ct.day ∧ ct.day < 3000000 := by
  have hsod := secondOfDay_bounds h
  rw [OSCalendarTime.cafeSeconds] at hlow hhigh
  omega

theorem daysFromCivil_day :
    daysFromCivil ct.tm_year.toInt (UInt32.ofInt (ct.tm_mon.toInt + 1))
      (UInt32.ofInt ct.tm_mday.toInt) = some ct.day := by
  have hmon := mon_bounds h
  have hmday := mday_le h
  have hone := h.date.day_pos
  have hday := day_bounds h hlow hhigh
  have hm : (UInt32.ofInt (ct.tm_mon.toInt + 1)).toNat = ct.month := by
    have hint := toNat_ofInt (x := ct.tm_mon.toInt + 1) (by omega) (by omega)
    rw [OSCalendarTime.month]
    omega
  have hd : ((UInt32.ofInt ct.tm_mday.toInt).toNat : Int) = ct.tm_mday.toInt :=
    toNat_ofInt (by omega) (by omega)
  have hnumber : dayNumber ct.tm_year.toInt (UInt32.ofInt (ct.tm_mon.toInt + 1)).toNat
      (UInt32.ofInt ct.tm_mday.toInt).toNat = ct.day := by
    rw [hm, hd]
    rfl
  rw [daysFromCivil_eq (by rw [hm, hd]; exact h.date) (by omega) (by omega), hnumber]

-- With valid fields only the ticks of the whole seconds and the final sum can overflow.
theorem osCalendarTimeToTicks_checked :
    osCalendarTimeToTicks ct = (int64 ct.wholeTicks).bind fun _ =>
      (int64 ct.tickCount).bind fun ticks => some (Int64.ofInt ticks) := by
  have hmon := mon_bounds h
  have hday := day_bounds h hlow hhigh
  have hcivil := daysFromCivil_day h hlow hhigh
  have hsod : ct.day * 86400 + ct.tm_hour.toInt * 3600 + ct.tm_min.toInt * 60 + ct.tm_sec.toInt -
      kUnixToCafeEpoch.toInt = ct.cafeSeconds := by
    rw [OSCalendarTime.cafeSeconds, OSCalendarTime.secondOfDay]
    have hepoch : kUnixToCafeEpoch.toInt = 946684800 := rfl
    omega
  have hmicros := microseconds_bounds h
  have hdiv : (ct.microseconds * hz).tdiv 1000000 = ct.microseconds * hz / 1000000 := by
    rw [hz_eq]
    exact Int.tdiv_eq_ediv_of_nonneg (by omega)
  have hproduct : int64 (ct.microseconds * hz) = some (ct.microseconds * hz) := by
    rw [hz_eq]
    exact int64_eq (by omega) (by omega)
  obtain ⟨-, _, _, _, _, _, _, _, _, _, _⟩ := h
  have hhz : (kWiiUTimerHz.toNat : Int) = hz := rfl
  rw [osCalendarTimeToTicks]
  simp only [Option.bind_eq_bind, Option.pure_def, hhz]
  rw [int32_bind (by omega) (by omega), hcivil, Option.bind_some,
    int32_bind (by omega) (by omega), int32_bind (by omega) (by omega),
    int64_bind (by omega) (by omega), int64_bind (by omega) (by omega),
    int64_bind (by omega) (by omega), int64_bind (by omega) (by omega), hsod,
    int64_bind (by omega) (by omega)]
  change (int64 ct.wholeTicks).bind _ = _
  by_cases hwhole : FitsInt64 ct.wholeTicks
  · rw [int64_bind hwhole.1 hwhole.2, int64_bind hwhole.1 hwhole.2,
      int64_bind (by omega) (by omega)]
    change (int64 ct.microseconds).bind _ = _
    rw [int64_bind (by omega) (by omega), hproduct, Option.bind_some, hdiv]
    rfl
  · rw [int64_eq_none hwhole]
    rfl

omit hlow hhigh in
theorem osCalendarTimeToTicks_eq (whole : FitsInt64 ct.wholeTicks)
    (full : FitsInt64 ct.tickCount) :
    osCalendarTimeToTicks ct = some (Int64.ofInt ct.tickCount) := by
  obtain ⟨hlow, hhigh⟩ := cafeSeconds_bounds h full
  rw [osCalendarTimeToTicks_checked h hlow hhigh, int64_bind whole.1 whole.2,
    int64_bind full.1 full.2]

theorem fits_of_osCalendarTimeToTicks {t : OSTime} (ht : osCalendarTimeToTicks ct = some t) :
    FitsInt64 ct.wholeTicks ∧ FitsInt64 ct.tickCount := by
  rw [osCalendarTimeToTicks_checked h hlow hhigh] at ht
  obtain ⟨_, hwhole, hrest⟩ := Option.bind_eq_some_iff.mp ht
  obtain ⟨_, hfull, -⟩ := Option.bind_eq_some_iff.mp hrest
  exact ⟨fits_of_int64 hwhole, fits_of_int64 hfull⟩

end ToTicks

def calendarOf (y : Int) (m : Nat) (d sod usec : Int) : OSCalendarTime where
  tm_year := Int32.ofInt y
  tm_mon := Int32.ofInt (m - 1)
  tm_mday := Int32.ofInt d
  tm_hour := Int32.ofInt (sod / 3600)
  tm_min := Int32.ofInt (sod % 3600 / 60)
  tm_sec := Int32.ofInt (sod % 60)
  tm_wday := Int32.ofInt (weekday (dayNumber y m d))
  tm_yday := Int32.ofInt (daysBeforeMonth y m + (d - 1))
  tm_msec := Int32.ofInt (usec / 1000)
  tm_usec := Int32.ofInt (usec % 1000)

theorem weekday_eq (day : Int) : (day.tmod 7 + 11).tmod 7 = weekday day := by
  have hmod := Int.tmod_eq_emod (a := day) (b := 7)
  rw [weekday]
  rw [Int.tmod_eq_emod_of_nonneg] <;> split at hmod <;> omega

theorem usec_toNat {rem : Int} (hnonneg : 0 ≤ rem) (hlt : rem < hz) :
    ((UInt64.ofInt rem * 1000000 / kWiiUTimerHz).toNat : Int) = rem * 1000000 / hz := by
  rw [hz_eq] at *
  have hrem : (UInt64.ofInt rem).toNat = rem.toNat := by
    rw [UInt64.ofInt]
    rw [Int.emod_eq_of_lt hnonneg (by omega)]
    exact UInt64.toNat_ofNat_of_lt' (by rw [UInt64.size]; omega)
  have hmillion : (1000000 : UInt64).toNat = 1000000 := rfl
  have htimer : kWiiUTimerHz.toNat = 62156250 := rfl
  rw [UInt64.toNat_div, UInt64.toNat_mul, hrem, hmillion, htimer, Nat.mod_eq_of_lt (by omega)]
  omega

def subMicroseconds (t : OSTime) : Int := t.toInt % hz * 1000000 / hz

section ToCalendar

variable {t : OSTime} {y d : Int} {m : Nat} (h : ValidDate y m d)
include h

theorem year_bounds (hlow : -3000000 < dayNumber y m d) (hhigh : dayNumber y m d < 3000000) :
    -100000 < y ∧ y < 100000 := by
  have heq := dayNumber_eq h
  have hle := eraDay_le h
  rw [marchYear] at heq
  split at heq <;> omega

theorem daysFromCivil_newYear (hlow : -3000000 < dayNumber y m d)
    (hhigh : dayNumber y m d < 3000000) :
    daysFromCivil (Int32.ofInt y).toInt 1 1 = some (dayNumber y 1 1) := by
  have hyear := year_bounds h hlow hhigh
  have hint : (Int32.ofInt y).toInt = y := Int32.toInt_ofInt_of_le (by omega) (by omega)
  have hfirst := dayNumber_eq (newYear_valid y)
  have hle := eraDay_le (newYear_valid y)
  have hnumber : dayNumber y (UInt32.toNat 1) (UInt32.toNat 1) = dayNumber y 1 1 := rfl
  rw [marchYear] at hfirst
  rw [hint]
  exact daysFromCivil_eq (m := 1) (d := 1) (newYear_valid y) (by omega) (by omega)

omit h in
theorem dayOfYear_eq (y : Int) (m : Nat) (d : Int) :
    dayNumber y m d - dayNumber y 1 1 = daysBeforeMonth y m + (d - 1) := by
  simp only [dayNumber]
  simp only [daysBeforeMonth, monthLength]
  omega

theorem osTicksToCalendarTime_eq
    (hday : dayNumber y m d = (t.toInt / hz + 946684800) / 86400) :
    osTicksToCalendarTime t = some (calendarOf y m d ((t.toInt / hz + 946684800) % 86400)
      (subMicroseconds t)) := by
  have htimeLow := t.le_toInt
  have htimeHigh := t.toInt_lt
  have hsecs : -200000000000 < t.toInt / hz ∧ t.toInt / hz < 200000000000 := by
    rw [hz_eq]
    omega
  have hrem : 0 ≤ t.toInt % hz ∧ t.toInt % hz < hz := by
    rw [hz_eq]
    omega
  have hlow : -3000000 < dayNumber y m d := by omega
  have hhigh : dayNumber y m d < 3000000 := by omega
  have hmonth : (Int32.ofInt m).toInt = m := by
    have hle := h.month_le
    exact Int32.toInt_ofInt_of_le (by omega) (by omega)
  have hyday := dayOfYear_bounds h
  have hyear := yearLength_le y
  have husec := usec_toNat hrem.1 hrem.2
  have hhz : (kWiiUTimerHz.toNat : Int) = hz := rfl
  have hepoch : kUnixToCafeEpoch.toInt = 946684800 := rfl
  rw [osTicksToCalendarTime]
  simp only [hhz, hepoch, Option.bind_eq_bind, Option.pure_def]
  rw [floorDivMod_eq htimeLow htimeHigh (by decide) (by decide), Option.bind_some,
    int64_bind (by omega) (by omega),
    floorDivMod_eq (by omega) (by omega) (by decide) (by decide), Option.bind_some, ← hday,
    civilFromDays_eq h (by omega) (by omega), Option.bind_some, hmonth,
    int32_bind (by have := h.month_pos; omega) (by have := h.month_le; omega),
    daysFromCivil_newYear h hlow hhigh, Option.bind_some, dayOfYear_eq,
    int64_bind (by omega) (by omega), weekday_eq]
  have hsod : 0 ≤ (t.toInt / hz + 946684800) % 86400 := by omega
  have hmsec : ((UInt64.ofInt (t.toInt % hz) * 1000000 / kWiiUTimerHz / 1000).toNat : Int) =
      t.toInt % hz * 1000000 / hz / 1000 := by
    rw [← husec, UInt64.toNat_div]
    rfl
  have hmicro : ((UInt64.ofInt (t.toInt % hz) * 1000000 / kWiiUTimerHz % 1000).toNat : Int) =
      t.toInt % hz * 1000000 / hz % 1000 := by
    rw [← husec, UInt64.toNat_mod]
    rfl
  rw [hmsec, hmicro, Int.tdiv_eq_ediv_of_nonneg hsod, Int.tmod_eq_emod_of_nonneg hsod,
    Int.tmod_eq_emod_of_nonneg hsod, Int.tdiv_eq_ediv_of_nonneg (by omega)]
  rfl

end ToCalendar

section Fields

variable (y : Int) (m : Nat) (d : Int) {sod usec : Int}

theorem calendarOf_time (usec : Int) (h : 0 ≤ sod ∧ sod < 86400) :
    (calendarOf y m d sod usec).tm_hour.toInt = sod / 3600 ∧
      (calendarOf y m d sod usec).tm_min.toInt = sod % 3600 / 60 ∧
      (calendarOf y m d sod usec).tm_sec.toInt = sod % 60 := by
  refine ⟨?_, ?_, ?_⟩ <;> exact Int32.toInt_ofInt_of_le (by omega) (by omega)

theorem calendarOf_subsecond (sod : Int) (h : 0 ≤ usec ∧ usec < 1000000) :
    (calendarOf y m d sod usec).tm_msec.toInt = usec / 1000 ∧
      (calendarOf y m d sod usec).tm_usec.toInt = usec % 1000 := by
  constructor <;> exact Int32.toInt_ofInt_of_le (by omega) (by omega)

theorem calendarOf_secondOfDay (h : 0 ≤ sod ∧ sod < 86400) :
    (calendarOf y m d sod usec).secondOfDay = sod := by
  obtain ⟨hhour, hmin, hsec⟩ := calendarOf_time y m d usec h
  rw [OSCalendarTime.secondOfDay]
  omega

theorem calendarOf_microseconds (h : 0 ≤ usec ∧ usec < 1000000) :
    (calendarOf y m d sod usec).microseconds = usec := by
  obtain ⟨hmsec, hmicro⟩ := calendarOf_subsecond y m d sod h
  rw [OSCalendarTime.microseconds]
  omega

variable {y m d} (h : ValidDate y m d) (hlow : -3000000 < dayNumber y m d)
  (hhigh : dayNumber y m d < 3000000)
include h hlow hhigh

theorem calendarOf_date (sod usec : Int) :
    (calendarOf y m d sod usec).tm_year.toInt = y ∧ (calendarOf y m d sod usec).month = m ∧
      (calendarOf y m d sod usec).tm_mday.toInt = d := by
  have hyear := year_bounds h hlow hhigh
  have hpos := h.month_pos
  have hle := h.month_le
  have hone := h.day_pos
  have hday := h.day_le.trans (monthLength_le y m)
  have hmon : (Int32.ofInt ((m : Int) - 1)).toInt = m - 1 :=
    Int32.toInt_ofInt_of_le (by omega) (by omega)
  refine ⟨Int32.toInt_ofInt_of_le (by omega) (by omega), ?_,
    Int32.toInt_ofInt_of_le (by omega) (by omega)⟩
  rw [OSCalendarTime.month, calendarOf]
  rw [hmon]
  omega

theorem calendarOf_day (sod usec : Int) :
    (calendarOf y m d sod usec).day = dayNumber y m d := by
  obtain ⟨hyear, hmonth, hmday⟩ := calendarOf_date h hlow hhigh sod usec
  rw [OSCalendarTime.day]
  rw [hyear, hmonth, hmday]

theorem calendarOf_valid (hsod : 0 ≤ sod ∧ sod < 86400) (husec : 0 ≤ usec ∧ usec < 1000000) :
    (calendarOf y m d sod usec).Valid := by
  obtain ⟨hyear, hmonth, hmday⟩ := calendarOf_date h hlow hhigh sod usec
  obtain ⟨hhour, hmin, hsec⟩ := calendarOf_time y m d usec hsod
  obtain ⟨hmsec, hmicro⟩ := calendarOf_subsecond y m d sod husec
  constructor
  case date =>
    rw [hyear, hmonth, hmday]
    exact h
  all_goals omega

end Fields

theorem exists_civil (t : OSTime) :
    ∃ y m d, ValidDate y m d ∧ dayNumber y m d = (t.toInt / hz + 946684800) / 86400 ∧
      -3000000 < dayNumber y m d ∧ dayNumber y m d < 3000000 := by
  have hlow := t.le_toInt
  have hhigh := t.toInt_lt
  obtain ⟨y, m, d, hvalid, hday⟩ := exists_date ((t.toInt / hz + 946684800) / 86400)
  refine ⟨y, m, d, hvalid, hday, ?_⟩
  rw [hday, hz_eq]
  omega

theorem exists_calendar (t : OSTime) :
    ∃ ct, osTicksToCalendarTime t = some ct ∧ ct.Valid ∧ ct.cafeSeconds = t.toInt / hz ∧
      ct.microseconds = subMicroseconds t := by
  obtain ⟨y, m, d, hvalid, hday, hbounds⟩ := exists_civil t
  have hsod : 0 ≤ (t.toInt / hz + 946684800) % 86400 ∧
      (t.toInt / hz + 946684800) % 86400 < 86400 := by omega
  have husec : 0 ≤ subMicroseconds t ∧ subMicroseconds t < 1000000 := by
    rw [subMicroseconds]
    rw [hz_eq]
    omega
  refine ⟨_, osTicksToCalendarTime_eq hvalid hday,
    calendarOf_valid hvalid hbounds.1 hbounds.2 hsod husec, ?_,
    calendarOf_microseconds y m d husec⟩
  rw [OSCalendarTime.cafeSeconds]
  rw [calendarOf_day hvalid hbounds.1 hbounds.2, calendarOf_secondOfDay y m d hsod, hday]
  omega

end CoreinitNx.Time
