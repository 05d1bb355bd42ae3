import CoreinitNx.Time.Calendar

namespace CoreinitNx.Time

open CInt Gregorian Rescale

def KeepsSubSecond (ct : OSCalendarTime) : Prop :=
  ∃ t ct', osCalendarTimeToTicks ct = some t ∧ osTicksToCalendarTime t = some ct' ∧
    ct'.tm_msec = ct.tm_msec ∧ ct'.tm_usec = ct.tm_usec

-- What a guest does to a timestamp it reads and writes back without changing it.
def rewrites (t : OSTime) : Nat → Option OSTime
  | 0 => some t
  | n + 1 => (rewrites t n).bind fun s => (osTicksToCalendarTime s).bind osCalendarTimeToTicks

def NeverDrifts (t : OSTime) : Prop :=
  ∃ ct, osTicksToCalendarTime t = some ct ∧
    ∀ n, ∃ s ct', rewrites t n = some s ∧ osTicksToCalendarTime s = some ct' ∧
      ct'.tm_msec = ct.tm_msec ∧ ct'.tm_usec = ct.tm_usec

section Fields

variable {ct ct' : OSCalendarTime}

theorem keptMicroseconds_eq_iff : ct.keptMicroseconds = ct.microseconds ↔ 32 ∣ ct.microseconds := by
  rw [OSCalendarTime.keptMicroseconds]
  rw [rescale_back_iff (by decide) (by decide), hz_eq]
  omega

theorem keptMicroseconds_bounds (h : ct.Valid) :
    0 ≤ ct.keptMicroseconds ∧ ct.keptMicroseconds < 1000000 := by
  obtain ⟨hlow, hhigh⟩ := microseconds_bounds h
  simp only [OSCalendarTime.keptMicroseconds, rescale]
  rw [hz_eq]
  omega

theorem normalized_subsecond_iff (h : ct.Valid) :
    (ct.normalized.tm_msec = ct.tm_msec ∧ ct.normalized.tm_usec = ct.tm_usec) ↔
      ct.keptMicroseconds = ct.microseconds := by
  obtain ⟨hlow, hhigh⟩ := keptMicroseconds_bounds h
  have hmsec : ct.normalized.tm_msec.toInt = ct.keptMicroseconds / 1000 :=
    Int32.toInt_ofInt_of_le (by omega) (by omega)
  have husec : ct.normalized.tm_usec.toInt = ct.keptMicroseconds % 1000 :=
    Int32.toInt_ofInt_of_le (by omega) (by omega)
  obtain ⟨-, -, -, -, -, -, -, _, _, _, _⟩ := h
  rw [← Int32.toInt_inj, ← Int32.toInt_inj, hmsec, husec]
  rw [OSCalendarTime.microseconds]
  omega

theorem keepsSubSecond_iff_fits (h : ct.Valid) (hlow : -200000000000 < ct.cafeSeconds)
    (hhigh : ct.cafeSeconds < 200000000000) :
    KeepsSubSecond ct ↔
      32 ∣ ct.microseconds ∧ FitsInt64 ct.wholeTicks ∧ FitsInt64 ct.tickCount := by
  rw [← keptMicroseconds_eq_iff, ← normalized_subsecond_iff h]
  constructor
  · rintro ⟨t, ct', ht, hct', hsame⟩
    obtain ⟨whole, full⟩ := fits_of_osCalendarTimeToTicks h hlow hhigh ht
    rw [osCalendarTimeToTicks_eq h whole full] at ht
    cases ht
    rw [tickCount_toCalendar h (Int64.toInt_ofInt_of_le full.1 full.2)] at hct'
    cases hct'
    exact ⟨hsame, whole, full⟩
  · rintro ⟨hsame, whole, full⟩
    exact ⟨_, _, osCalendarTimeToTicks_eq h whole full,
      tickCount_toCalendar h (Int64.toInt_ofInt_of_le full.1 full.2), hsame⟩

theorem fits_iff (h : ct.Valid) (hhigh : ct.tickCount < 2 ^ 63) :
    FitsInt64 ct.wholeTicks ∧ FitsInt64 ct.tickCount ↔ -2 ^ 63 ≤ ct.wholeTicks := by
  have hsub := subTicks_bounds h
  simp only [FitsInt64, OSCalendarTime.tickCount] at *
  omega

end Fields

section Ticks

variable {t s : OSTime} {ct ct' : OSCalendarTime}

-- 1989 ticks are 32 microseconds.
theorem subMicroseconds_dvd_iff : 32 ∣ subMicroseconds t ↔ t.toInt % 1989 ≤ 62 := by
  have hmod : t.toInt % hz % 1989 = t.toInt % 1989 := Int.emod_emod_of_dvd _ (by decide)
  have hsplit : subMicroseconds t =
      32 * (t.toInt % hz / 1989) + 32 * (t.toInt % hz % 1989) / 1989 := by
    rw [subMicroseconds]
    rw [hz_eq]
    omega
  have hnonneg := Int.emod_nonneg t.toInt (b := 1989) (by decide)
  have hlt := Int.emod_lt_of_pos t.toInt (b := 1989) (by decide)
  rw [hsplit, hmod, Int.dvd_add_right (dvd_mul_right 32 _)]
  generalize t.toInt % 1989 = j at hnonneg hlt
  constructor
  · rintro ⟨k, hk⟩
    omega
  · intro hj
    have hzero : 32 * j / 1989 = 0 := Int.ediv_eq_zero_of_lt (by omega) (by omega)
    exact hzero ▸ dvd_zero 32

theorem tickCount_le (hsecs : ct.cafeSeconds = t.toInt / hz)
    (hmicros : ct.microseconds = subMicroseconds t) : ct.tickCount ≤ t.toInt := by
  rw [subMicroseconds] at hmicros
  rw [OSCalendarTime.tickCount, OSCalendarTime.wholeTicks]
  rw [hsecs, hmicros, hz_eq]
  omega

theorem subsecond_eq_of_microseconds (h : ct.Valid) (h' : ct'.Valid)
    (heq : ct'.microseconds = ct.microseconds) :
    ct'.tm_msec = ct.tm_msec ∧ ct'.tm_usec = ct.tm_usec := by
  obtain ⟨-, -, -, -, -, -, -, _, _, _, _⟩ := h
  obtain ⟨-, -, -, -, -, -, -, _, _, _, _⟩ := h'
  simp only [OSCalendarTime.microseconds] at heq
  rw [← Int32.toInt_inj, ← Int32.toInt_inj]
  omega

theorem rewrite_step (hexact : 32 ∣ subMicroseconds s) (hstart : -2 ^ 63 ≤ s.toInt / hz * hz) :
    ∃ s', (osTicksToCalendarTime s).bind osCalendarTimeToTicks = some s' ∧
      s'.toInt / hz = s.toInt / hz ∧ subMicroseconds s' = subMicroseconds s := by
  obtain ⟨ct, hct, hvalid, hsecs, hmicros⟩ := exists_calendar s
  have hle := tickCount_le hsecs hmicros
  have hlt := s.toInt_lt
  have hwhole : ct.wholeTicks = s.toInt / hz * hz := congrArg (· * hz) hsecs
  obtain ⟨whole, full⟩ := (fits_iff hvalid (by omega)).mpr (hwhole ▸ hstart)
  have hint := Int64.toInt_ofInt_of_le full.1 full.2
  have hkept : ct.keptMicroseconds = ct.microseconds := keptMicroseconds_eq_iff.mpr (hmicros ▸ hexact)
  refine ⟨Int64.ofInt ct.tickCount, ?_, ?_, ?_⟩
  · rw [hct, Option.bind_some, osCalendarTimeToTicks_eq hvalid whole full]
  · rw [hint, tickCount_div hvalid, hsecs]
  · calc subMicroseconds (Int64.ofInt ct.tickCount)
        = ct.keptMicroseconds := subMicroseconds_tickCount hvalid hint
      _ = ct.microseconds := hkept
      _ = subMicroseconds s := hmicros

theorem rewrites_keep (hexact : 32 ∣ subMicroseconds t) (hstart : -2 ^ 63 ≤ t.toInt / hz * hz)
    (n : Nat) : ∃ s, rewrites t n = some s ∧ s.toInt / hz = t.toInt / hz ∧
      subMicroseconds s = subMicroseconds t := by
  induction n with
  | zero => exact ⟨t, rfl, rfl, rfl⟩
  | succ n ih =>
    obtain ⟨s, hs, hsecs, hmicros⟩ := ih
    obtain ⟨s', hs', hsecs', hmicros'⟩ :=
      rewrite_step (s := s) (hmicros ▸ hexact) (hsecs ▸ hstart)
    refine ⟨s', ?_, hsecs'.trans hsecs, hmicros'.trans hmicros⟩
    rw [rewrites, hs, Option.bind_some, hs']

theorem neverDrifts_iff :
    NeverDrifts t ↔ t.toInt % 1989 ≤ 62 ∧ -2 ^ 63 ≤ t.toInt / hz * hz := by
  rw [← subMicroseconds_dvd_iff]
  obtain ⟨ct, hct, hvalid, hsecs, hmicros⟩ := exists_calendar t
  constructor
  · rintro ⟨ct₀, hct₀, hsame⟩
    obtain rfl : ct = ct₀ := Option.some.inj (hct.symm.trans hct₀)
    obtain ⟨s, ct', hs, hct', hkept⟩ := hsame 1
    have honce : osCalendarTimeToTicks ct = some s := by
      rw [← hs, rewrites, rewrites, Option.bind_some, hct, Option.bind_some]
    have hbounds : -200000000000 < ct.cafeSeconds ∧ ct.cafeSeconds < 200000000000 := by
      have hlow := t.le_toInt
      have hhigh := t.toInt_lt
      rw [hsecs, hz_eq]
      omega
    obtain ⟨hexact, whole, -⟩ := (keepsSubSecond_iff_fits hvalid hbounds.1 hbounds.2).mp
      ⟨s, ct', honce, hct', hkept⟩
    rw [OSCalendarTime.wholeTicks] at whole
    exact ⟨hmicros ▸ hexact, hsecs ▸ whole.1⟩
  · rintro ⟨hexact, hstart⟩
    refine ⟨ct, hct, fun n => ?_⟩
    obtain ⟨s, hs, -, hkept⟩ := rewrites_keep hexact hstart n
    obtain ⟨ct', hct', hvalid', -, hmicros'⟩ := exists_calendar s
    exact ⟨s, ct', hs, hct', subsecond_eq_of_microseconds hvalid hvalid'
      (hmicros'.trans (hkept.trans hmicros.symm))⟩

end Ticks

theorem subsecond_round_trip_iff (ct : OSCalendarTime) (h : ct.Valid)
    (full : FitsInt64 ct.tickCount) (t : OSTime) :
    (KeepsSubSecond ct ↔ 32 ∣ ct.microseconds ∧ -2 ^ 63 ≤ ct.wholeTicks) ∧
      (NeverDrifts t ↔ t.toInt % 1989 ≤ 62 ∧ -2 ^ 63 ≤ t.toInt / hz * hz) := by
  obtain ⟨hlow, hhigh⟩ := cafeSeconds_bounds h full
  refine ⟨?_, neverDrifts_iff⟩
  rw [keepsSubSecond_iff_fits h hlow hhigh, fits_iff h full.2]

def millennium (usec : Int32) : OSCalendarTime where
  tm_sec := 0
  tm_min := 0
  tm_hour := 0
  tm_mday := 1
  tm_mon := 0
  tm_year := 2000
  tm_wday := 6
  tm_yday := 0
  tm_msec := 0
  tm_usec := usec

theorem subsecond_round_trip_iff_32 : KeepsSubSecond (millennium 32) ∧ NeverDrifts 1989 := by
  obtain ⟨hkeeps, hdrifts⟩ :=
    subsecond_round_trip_iff (millennium 32) (by decide +kernel) (by decide +kernel) 1989
  exact ⟨hkeeps.mpr (by decide +kernel), hdrifts.mpr (by decide +kernel)⟩

theorem subsecond_lost_microsecond :
    (millennium 1).Valid ∧ FitsInt64 (millennium 1).tickCount ∧ ¬ KeepsSubSecond (millennium 1) ∧
      ¬ NeverDrifts 63 := by
  have hticks : osCalendarTimeToTicks (millennium 1) = some 62 := by decide +kernel
  have hsource : osTicksToCalendarTime 63 = some (millennium 1) := by decide +kernel
  have hback : osTicksToCalendarTime 62 = some (millennium 0) := by decide +kernel
  refine ⟨by decide +kernel, by decide +kernel, ?_, ?_⟩
  · rintro ⟨t, ct', ht, hct', -, husec⟩
    obtain rfl := Option.some.inj (hticks.symm.trans ht)
    obtain rfl := Option.some.inj (hback.symm.trans hct')
    exact absurd husec (by decide)
  · rintro ⟨ct, hct, hsame⟩
    obtain rfl := Option.some.inj (hsource.symm.trans hct)
    obtain ⟨s, ct', hs, hct', -, husec⟩ := hsame 1
    rw [rewrites, rewrites, Option.bind_some, hsource, Option.bind_some, hticks] at hs
    obtain rfl := Option.some.inj hs
    obtain rfl := Option.some.inj (hback.symm.trans hct')
    exact absurd husec (by decide)

end CoreinitNx.Time
