import Mathlib.Data.List.Lex
import CoreinitNx.Time.SubSecond

namespace CoreinitNx.Time

open CInt Gregorian

-- Most significant field first; the order of lists is lexicographic.
def OSCalendarTime.fields (ct : OSCalendarTime) : List Int :=
  [ct.tm_year.toInt, ct.tm_mon.toInt, ct.tm_mday.toInt, ct.tm_hour.toInt, ct.tm_min.toInt,
    ct.tm_sec.toInt, ct.tm_msec.toInt, ct.tm_usec.toInt]

variable {ct ct' : OSCalendarTime} {t s : OSTime}

theorem day_lt (h : ct.Valid) (h' : ct'.Valid)
    (hlt : ct.tm_year.toInt < ct'.tm_year.toInt ∨ ct.tm_year.toInt = ct'.tm_year.toInt ∧
      (ct.tm_mon.toInt < ct'.tm_mon.toInt ∨ ct.tm_mon.toInt = ct'.tm_mon.toInt ∧
        ct.tm_mday.toInt < ct'.tm_mday.toInt)) : ct.day < ct'.day := by
  have hmon := mon_bounds h
  have hmon' := mon_bounds h'
  have hdate := h.date
  rw [OSCalendarTime.day, OSCalendarTime.day]
  rcases hlt with hyear | ⟨hyear, hmonth | ⟨hmonth, hday⟩⟩
  · exact dayNumber_lt_of_year h.date h'.date hyear
  · rw [hyear] at hdate ⊢
    refine dayNumber_lt_of_month hdate h'.date ?_
    rw [OSCalendarTime.month, OSCalendarTime.month]
    omega
  · have hsame : ct.month = ct'.month := by rw [OSCalendarTime.month, hmonth, OSCalendarTime.month]
    rw [hyear, hsame, dayNumber, dayNumber]
    omega

theorem secondOfDay_lt (h : ct.Valid) (h' : ct'.Valid)
    (hlt : ct.tm_hour.toInt < ct'.tm_hour.toInt ∨ ct.tm_hour.toInt = ct'.tm_hour.toInt ∧
      (ct.tm_min.toInt < ct'.tm_min.toInt ∨ ct.tm_min.toInt = ct'.tm_min.toInt ∧
        ct.tm_sec.toInt < ct'.tm_sec.toInt)) : ct.secondOfDay < ct'.secondOfDay := by
  obtain ⟨-, -, -, _, _, _, _, -, -, -, -⟩ := h
  obtain ⟨-, -, -, _, _, _, _, -, -, -, -⟩ := h'
  simp only [OSCalendarTime.secondOfDay]
  omega

theorem microseconds_lt (h : ct.Valid) (h' : ct'.Valid)
    (hlt : ct.tm_msec.toInt < ct'.tm_msec.toInt ∨ ct.tm_msec.toInt = ct'.tm_msec.toInt ∧
      ct.tm_usec.toInt < ct'.tm_usec.toInt) : ct.microseconds < ct'.microseconds := by
  obtain ⟨-, -, -, -, -, -, -, _, _, _, _⟩ := h
  obtain ⟨-, -, -, -, -, -, -, _, _, _, _⟩ := h'
  simp only [OSCalendarTime.microseconds]
  omega

theorem seconds_lt_of_day (h : ct.Valid) (h' : ct'.Valid) (hlt : ct.day < ct'.day) :
    ct.cafeSeconds < ct'.cafeSeconds := by
  have hsod := secondOfDay_bounds h
  have hsod' := secondOfDay_bounds h'
  simp only [OSCalendarTime.cafeSeconds]
  omega

theorem seconds_lt_of_fields (h : ct.Valid) (h' : ct'.Valid) (hlt : ct.fields < ct'.fields) :
    ct.cafeSeconds < ct'.cafeSeconds ∨
      ct.cafeSeconds = ct'.cafeSeconds ∧ ct.microseconds < ct'.microseconds := by
  simp only [OSCalendarTime.fields, List.cons_lt_cons_iff, List.not_lt_nil, and_false, or_false]
    at hlt
  rcases hlt with hyear | ⟨hyear, hmon | ⟨hmon, hmday | ⟨hmday, htime⟩⟩⟩
  · exact .inl (seconds_lt_of_day h h' (day_lt h h' (.inl hyear)))
  · exact .inl (seconds_lt_of_day h h' (day_lt h h' (.inr ⟨hyear, .inl hmon⟩)))
  · exact .inl (seconds_lt_of_day h h' (day_lt h h' (.inr ⟨hyear, .inr ⟨hmon, hmday⟩⟩)))
  have hday : ct.day = ct'.day := by
    simp only [OSCalendarTime.day, OSCalendarTime.month, hyear, hmon, hmday]
  rcases htime with hhour | ⟨hhour, hmin | ⟨hmin, hsec | ⟨hsec, hsub⟩⟩⟩
  · left
    have hlt := secondOfDay_lt h h' (.inl hhour)
    simp only [OSCalendarTime.cafeSeconds, hday]
    omega
  · left
    have hlt := secondOfDay_lt h h' (.inr ⟨hhour, .inl hmin⟩)
    simp only [OSCalendarTime.cafeSeconds, hday]
    omega
  · left
    have hlt := secondOfDay_lt h h' (.inr ⟨hhour, .inr ⟨hmin, hsec⟩⟩)
    simp only [OSCalendarTime.cafeSeconds, hday]
    omega
  · right
    refine ⟨?_, microseconds_lt h h' hsub⟩
    simp only [OSCalendarTime.cafeSeconds, OSCalendarTime.secondOfDay, hday, hhour, hmin, hsec]

theorem fields_mono (hle : t ≤ s) (hct : osTicksToCalendarTime t = some ct)
    (hct' : osTicksToCalendarTime s = some ct') : ct.fields ≤ ct'.fields := by
  obtain ⟨_, hsome, h, hsecs, hmicros⟩ := exists_calendar t
  obtain ⟨_, hsome', h', hsecs', hmicros'⟩ := exists_calendar s
  obtain rfl := Option.some.inj (hsome.symm.trans hct)
  obtain rfl := Option.some.inj (hsome'.symm.trans hct')
  have hint := Int64.le_iff_toInt_le.1 hle
  apply not_lt.1
  intro hlt
  have hearlier := seconds_lt_of_fields h' h hlt
  rw [hsecs, hsecs', hmicros, hmicros', subMicroseconds, subMicroseconds, hz_eq] at hearlier
  omega

theorem calendar_days (hct : osTicksToCalendarTime t = some ct) :
    ct.tm_wday.toInt = weekday ct.day ∧ ct.tm_yday.toInt = ct.yearDay := by
  obtain ⟨y, m, d, hvalid, hday, hbounds⟩ := exists_civil t
  have hyday := dayOfYear_bounds hvalid
  have hyear := yearLength_le y
  rw [osTicksToCalendarTime_eq hvalid hday] at hct
  obtain rfl := Option.some.inj hct
  obtain ⟨hy, hm, hd⟩ := calendarOf_date hvalid hbounds.1 hbounds.2
    ((t.toInt / hz + 946684800) % 86400) (subMicroseconds t)
  rw [calendarOf_day hvalid hbounds.1 hbounds.2, OSCalendarTime.yearDay, hy, hm, hd]
  have hwday : 0 ≤ weekday (dayNumber y m d) ∧ weekday (dayNumber y m d) < 7 := by
    rw [weekday]
    omega
  refine ⟨Int32.toInt_ofInt_of_le ?_ ?_, Int32.toInt_ofInt_of_le ?_ ?_⟩ <;> omega

theorem le_tickCount_add (hsecs : ct.cafeSeconds = t.toInt / hz)
    (hmicros : ct.microseconds = subMicroseconds t) : t.toInt ≤ ct.tickCount + 63 := by
  rw [subMicroseconds] at hmicros
  rw [OSCalendarTime.tickCount, OSCalendarTime.wholeTicks]
  rw [hsecs, hmicros, hz_eq]
  omega

theorem ticks_to_calendar_and_back :
    (∀ t : OSTime, -2 ^ 63 + hz ≤ t.toInt → ∃ ct t', osTicksToCalendarTime t = some ct ∧
      ct.Valid ∧ 0 ≤ ct.tm_wday.toInt ∧ ct.tm_wday.toInt ≤ 6 ∧ 0 ≤ ct.tm_yday.toInt ∧
      ct.tm_yday.toInt < yearLength ct.tm_year.toInt ∧ osCalendarTimeToTicks ct = some t' ∧
      t.toInt - 63 ≤ t'.toInt ∧ t'.toInt ≤ t.toInt ∧ t'.toInt / hz = t.toInt / hz) ∧
    ∀ t s : OSTime, t ≤ s → ∀ ct ct', osTicksToCalendarTime t = some ct →
      osTicksToCalendarTime s = some ct' → ct.fields ≤ ct'.fields := by
  refine ⟨?_, fun t s hle ct ct' => fields_mono hle⟩
  intro t hfirst
  obtain ⟨ct, hct, hvalid, hsecs, hmicros⟩ := exists_calendar t
  obtain ⟨hwday, hyday⟩ := calendar_days hct
  have hle := tickCount_le hsecs hmicros
  have hge := le_tickCount_add hsecs hmicros
  have hlt := t.toInt_lt
  have hwhole : ct.wholeTicks = t.toInt / hz * hz := congrArg (· * hz) hsecs
  have hstart : -2 ^ 63 ≤ ct.wholeTicks := by
    rw [hwhole]
    rw [hz_eq] at hfirst ⊢
    omega
  obtain ⟨whole, full⟩ := (fits_iff hvalid (by omega)).2 hstart
  have hint := Int64.toInt_ofInt_of_le full.1 full.2
  have hrange := dayOfYear_bounds hvalid.date
  refine ⟨ct, Int64.ofInt ct.tickCount, hct, hvalid, ?_, ?_, ?_, ?_,
    osCalendarTimeToTicks_eq hvalid whole full, ?_, ?_, ?_⟩
  · rw [hwday, weekday]
    omega
  · rw [hwday, weekday]
    omega
  · rw [hyday]
    exact hrange.1
  · rw [hyday]
    exact hrange.2
  · rw [hint]
    omega
  · rw [hint]
    exact hle
  · rw [hint, tickCount_div hvalid, hsecs]

theorem ticks_to_calendar_and_back_negative :
    ∃ ct t', osTicksToCalendarTime (-1) = some ct ∧ ct.Valid ∧
      osCalendarTimeToTicks ct = some t' ∧ (-64 : Int) ≤ t'.toInt ∧ t'.toInt ≤ -1 := by
  obtain ⟨ct, t', hct, hvalid, -, -, -, -, ht', hlow, hhigh, -⟩ :=
    ticks_to_calendar_and_back.1 (-1) (by decide)
  exact ⟨ct, t', hct, hvalid, ht', hlow, hhigh⟩

end CoreinitNx.Time
