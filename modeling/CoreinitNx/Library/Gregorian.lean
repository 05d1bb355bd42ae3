import Mathlib.Tactic.IntervalCases
import Mathlib.Tactic.MkIffOfInductiveProp

namespace Gregorian

def isLeap (y : Int) : Prop := y % 4 = 0 ∧ (y % 100 ≠ 0 ∨ y % 400 = 0)

instance (y : Int) : Decidable (isLeap y) := inferInstanceAs (Decidable (_ ∧ _))

def yearLength (y : Int) : Int := if isLeap y then 366 else 365

-- Months are numbered from 1; there are no days in the others.
def monthLength (y : Int) : Nat → Int
  | 1 | 3 | 5 | 7 | 8 | 10 | 12 => 31
  | 4 | 6 | 9 | 11 => 30
  | 2 => if isLeap y then 29 else 28
  | _ => 0

def daysBeforeMonth (y : Int) : Nat → Int
  | 0 => 0
  | m + 1 => daysBeforeMonth y m + monthLength y m

def daysInYears (y : Int) : Nat → Int
  | 0 => 0
  | n + 1 => daysInYears y n + yearLength (y + n)

def daysBeforeYear (y : Int) : Int :=
  if 1970 ≤ y then daysInYears 1970 (y - 1970).toNat else -daysInYears y (1970 - y).toNat

-- Days from 1970-01-01, counted year by year and month by month.
def dayNumber (y : Int) (m : Nat) (d : Int) : Int :=
  daysBeforeYear y + daysBeforeMonth y m + (d - 1)

-- 0 is a Sunday; 1970-01-01 was a Thursday.
def weekday (day : Int) : Int := (day + 4) % 7

@[mk_iff]
structure ValidDate (y : Int) (m : Nat) (d : Int) : Prop where
  month_pos : 1 ≤ m
  month_le : m ≤ 12
  day_pos : 1 ≤ d
  day_le : d ≤ monthLength y m

instance (y : Int) (m : Nat) (d : Int) : Decidable (ValidDate y m d) :=
  decidable_of_iff _ (validDate_iff y m d).symm

theorem monthLength_le (y : Int) (m : Nat) : monthLength y m ≤ 31 := by
  simp only [monthLength]
  split <;> first | decide | split <;> decide

theorem yearLength_eq (y : Int) :
    yearLength y = 365 + (y / 4 - (y - 1) / 4) - (y / 100 - (y - 1) / 100) +
      (y / 400 - (y - 1) / 400) := by
  rw [yearLength]
  split
  next hleap =>
    rw [isLeap] at hleap
    omega
  next hleap =>
    rw [isLeap] at hleap
    omega

theorem yearLength_le (y : Int) : yearLength y ≤ 366 := by
  rw [yearLength]
  split <;> decide

theorem daysInYears_eq (y : Int) (n : Nat) :
    daysInYears y n = 365 * n + ((y + n - 1) / 4 - (y - 1) / 4) -
      ((y + n - 1) / 100 - (y - 1) / 100) + ((y + n - 1) / 400 - (y - 1) / 400) := by
  induction n with
  | zero =>
    rw [daysInYears, Nat.cast_zero]
    omega
  | succ n ih =>
    have hsucc : y + (n + 1 : Nat) - 1 = y + n := by omega
    rw [daysInYears, ih, yearLength_eq, hsucc]
    omega

theorem daysBeforeYear_eq (y : Int) :
    daysBeforeYear y = 365 * y + (y - 1) / 4 - (y - 1) / 100 + (y - 1) / 400 - 719527 := by
  rw [daysBeforeYear]
  split <;> rw [daysInYears_eq] <;> omega

variable {y d : Int} {m : Nat}

theorem daysBeforeMonth_bounds (hpos : 1 ≤ m) (hle : m ≤ 12) :
    0 ≤ daysBeforeMonth y m ∧ daysBeforeMonth y m + monthLength y m ≤ yearLength y := by
  rw [yearLength]
  interval_cases m <;> simp only [daysBeforeMonth, monthLength] <;> split <;> decide

theorem dayOfYear_bounds (h : ValidDate y m d) :
    0 ≤ daysBeforeMonth y m + (d - 1) ∧ daysBeforeMonth y m + (d - 1) < yearLength y := by
  obtain ⟨hpos, hle, hone, hlast⟩ := h
  obtain ⟨hlow, hhigh⟩ := daysBeforeMonth_bounds (y := y) hpos hle
  omega

theorem daysBeforeYear_succ (y : Int) :
    daysBeforeYear (y + 1) = daysBeforeYear y + yearLength y := by
  rw [daysBeforeYear_eq, daysBeforeYear_eq, yearLength_eq]
  omega

theorem daysBeforeMonth_last (y : Int) : daysBeforeMonth y 12 + 31 = yearLength y := by
  rw [yearLength]
  simp only [daysBeforeMonth, monthLength]
  split <;> decide

theorem daysBeforeYear_mono {y y' : Int} (h : y ≤ y') : daysBeforeYear y ≤ daysBeforeYear y' := by
  rw [daysBeforeYear_eq, daysBeforeYear_eq]
  omega

theorem monthLength_nonneg (y : Int) (m : Nat) : 0 ≤ monthLength y m := by
  simp only [monthLength]
  split <;> first | decide | split <;> decide

theorem daysBeforeMonth_mono (y : Int) {m m' : Nat} (h : m ≤ m') :
    daysBeforeMonth y m ≤ daysBeforeMonth y m' := by
  induction h with
  | refl => exact le_rfl
  | step _ ih => exact ih.trans (Int.le_add_of_nonneg_right (monthLength_nonneg y _))

theorem dayNumber_lt_of_year {y y' d d' : Int} {m m' : Nat} (h : ValidDate y m d)
    (h' : ValidDate y' m' d') (hlt : y < y') : dayNumber y m d < dayNumber y' m' d' := by
  have hend := (dayOfYear_bounds h).2
  have hstart := (dayOfYear_bounds h').1
  have hyears := daysBeforeYear_mono (Int.add_one_le_of_lt hlt)
  rw [daysBeforeYear_succ] at hyears
  rw [dayNumber, dayNumber]
  omega

theorem dayNumber_lt_of_month {d d' : Int} {m m' : Nat} (h : ValidDate y m d)
    (h' : ValidDate y m' d') (hlt : m < m') : dayNumber y m d < dayNumber y m' d' := by
  have hmonths := daysBeforeMonth_mono y (Nat.succ_le_of_lt hlt)
  have hend := h.day_le
  have hstart := h'.day_pos
  rw [daysBeforeMonth] at hmonths
  rw [dayNumber, dayNumber]
  omega

theorem monthLength_pos (hpos : 1 ≤ m) (hle : m ≤ 12) : 1 ≤ monthLength y m := by
  interval_cases m <;> simp only [monthLength] <;> first | decide | split <;> decide

theorem newYear_valid (y : Int) : ValidDate y 1 1 :=
  ⟨le_rfl, by decide, le_rfl, monthLength_pos le_rfl (by decide)⟩

def nextDate (y : Int) (m : Nat) (d : Int) : Int × Nat × Int :=
  if d < monthLength y m then (y, m, d + 1)
  else if m < 12 then (y, m + 1, 1)
  else (y + 1, 1, 1)

def previousDate (y : Int) (m : Nat) (d : Int) : Int × Nat × Int :=
  if 1 < d then (y, m, d - 1)
  else if 1 < m then (y, m - 1, monthLength y (m - 1))
  else (y - 1, 12, 31)

theorem nextDate_valid (h : ValidDate y m d) :
    ValidDate (nextDate y m d).1 (nextDate y m d).2.1 (nextDate y m d).2.2 := by
  obtain ⟨hpos, hle, hone, hlast⟩ := h
  rw [nextDate]
  split
  next hmonth =>
    dsimp only
    exact ⟨hpos, hle, by omega, hmonth⟩
  next =>
    split <;> dsimp only
    next hyear => exact ⟨by omega, hyear, le_rfl, monthLength_pos (by omega) hyear⟩
    next => exact newYear_valid (y + 1)

theorem dayNumber_nextDate (h : ValidDate y m d) :
    dayNumber (nextDate y m d).1 (nextDate y m d).2.1 (nextDate y m d).2.2 =
      dayNumber y m d + 1 := by
  obtain ⟨hpos, hle, hone, hlast⟩ := h
  simp only [nextDate, dayNumber]
  split
  next =>
    dsimp only
    omega
  next =>
    split <;> dsimp only
    next =>
      rw [daysBeforeMonth]
      omega
    next =>
      obtain rfl : m = 12 := by omega
      have hmonths := daysBeforeMonth_last y
      have hlen : monthLength y 12 = 31 := rfl
      have hfirst : daysBeforeMonth (y + 1) 1 = 0 := rfl
      rw [daysBeforeYear_succ]
      omega

theorem previousDate_valid (h : ValidDate y m d) :
    ValidDate (previousDate y m d).1 (previousDate y m d).2.1 (previousDate y m d).2.2 := by
  obtain ⟨hpos, hle, hone, hlast⟩ := h
  rw [previousDate]
  split
  next =>
    dsimp only
    exact ⟨hpos, hle, by omega, by omega⟩
  next =>
    split <;> dsimp only
    next => exact ⟨by omega, by omega, monthLength_pos (by omega) (by omega), le_rfl⟩
    next => exact ⟨by decide, le_rfl, by decide, le_rfl⟩

theorem dayNumber_previousDate (h : ValidDate y m d) :
    dayNumber (previousDate y m d).1 (previousDate y m d).2.1 (previousDate y m d).2.2 =
      dayNumber y m d - 1 := by
  obtain ⟨hpos, hle, hone, hlast⟩ := h
  simp only [previousDate, dayNumber]
  split
  next =>
    dsimp only
    omega
  next =>
    split <;> dsimp only
    next hmonth =>
      obtain ⟨n, rfl⟩ : ∃ n, m = n + 1 := ⟨m - 1, by omega⟩
      rw [daysBeforeMonth, Nat.add_sub_cancel]
      omega
    next =>
      obtain rfl : m = 1 := by omega
      have hyear := daysBeforeYear_succ (y - 1)
      have hmonths := daysBeforeMonth_last (y - 1)
      have hfirst : daysBeforeMonth y 1 = 0 := rfl
      rw [Int.sub_add_cancel] at hyear
      omega

theorem exists_date (day : Int) : ∃ y m d, ValidDate y m d ∧ dayNumber y m d = day := by
  induction day using Int.induction_on with
  | zero => exact ⟨1970, 1, 1, ⟨le_rfl, by decide, le_rfl, by decide⟩, rfl⟩
  | succ n ih =>
    obtain ⟨y, m, d, hvalid, hday⟩ := ih
    exact ⟨_, _, _, nextDate_valid hvalid, by rw [dayNumber_nextDate hvalid, hday]⟩
  | pred n ih =>
    obtain ⟨y, m, d, hvalid, hday⟩ := ih
    exact ⟨_, _, _, previousDate_valid hvalid, by rw [dayNumber_previousDate hvalid, hday]⟩

-- The year that starts in March, with its months and days counted from 0.
def marchYear (y : Int) (m : Nat) : Int := if m ≤ 2 then y - 1 else y

def marchMonth (m : Nat) : Int := if m ≤ 2 then m + 9 else m - 3

def marchDay (m : Nat) (d : Int) : Int := (153 * marchMonth m + 2) / 5 + d - 1

-- January and February are counted on from the December before them.
theorem daysBeforeMonth_march (hpos : 1 ≤ m) (hle : m ≤ 12) :
    daysBeforeMonth y m = (153 * marchMonth m + 2) / 5 +
      if m ≤ 2 then -306 else yearLength y - 306 := by
  rw [yearLength]
  by_cases hleap : isLeap y <;> interval_cases m <;>
    simp only [daysBeforeMonth, monthLength, hleap, if_true, if_false] <;> decide

theorem dayNumber_march (hpos : 1 ≤ m) (hle : m ≤ 12) :
    dayNumber y m d = 365 * marchYear y m + marchYear y m / 4 - marchYear y m / 100 +
      marchYear y m / 400 + marchDay m d - 719468 := by
  rw [dayNumber, daysBeforeMonth_march hpos hle, daysBeforeYear_eq, marchYear, marchDay,
    yearLength_eq]
  split <;> omega

-- The 400 years of an era have 146097 days, and the leap day ends its year.
theorem dayNumber_era (hpos : 1 ≤ m) (hle : m ≤ 12) :
    dayNumber y m d = marchYear y m / 400 * 146097 +
      (365 * (marchYear y m % 400) + marchYear y m % 400 / 4 - marchYear y m % 400 / 100 +
        marchDay m d) - 719468 := by
  rw [dayNumber_march hpos hle]
  omega

theorem marchMonth_bounds (hpos : 1 ≤ m) (hle : m ≤ 12) :
    0 ≤ marchMonth m ∧ marchMonth m ≤ 11 := by
  rw [marchMonth]
  split <;> omega

-- Only the last month of the year, February, is shorter than the formula lets it be.
theorem day_le_marchMonth (h : ValidDate y m d) :
    d ≤ (153 * marchMonth m + 155) / 5 - (153 * marchMonth m + 2) / 5 ∧
      (marchMonth m = 11 → d ≤ if isLeap (marchYear y m + 1) then 29 else 28) := by
  obtain ⟨hpos, hle, -, hlast⟩ := h
  by_cases hfeb : m = 2
  · subst hfeb
    have hyear : marchYear y 2 + 1 = y := Int.sub_add_cancel y 1
    rw [hyear]
    refine ⟨?_, fun _ => hlast⟩
    have hleap : monthLength y 2 ≤ 29 := by
      rw [monthLength]
      split <;> omega
    exact (hlast.trans hleap).trans (by decide)
  · refine ⟨hlast.trans ?_, fun hm => ?_⟩
    · interval_cases m <;> first | exact absurd rfl hfeb | simp [monthLength, marchMonth]
    · rw [marchMonth] at hm
      split at hm <;> omega

theorem marchDay_bounds (h : ValidDate y m d) :
    0 ≤ marchDay m d ∧ marchDay m d ≤ if isLeap (marchYear y m + 1) then 365 else 364 := by
  obtain ⟨hday, hfeb⟩ := day_le_marchMonth h
  obtain ⟨hpos, hle, hone, -⟩ := h
  obtain ⟨hlow, hhigh⟩ := marchMonth_bounds hpos hle
  rw [marchDay]
  constructor
  · omega
  · split at hfeb <;> rename_i hleap <;> simp only [hleap, if_true, if_false] <;> omega

section Era

def yearStart (yoe : Nat) : Nat := 365 * yoe + yoe / 4 - yoe / 100

def lastDay (yoe : Nat) : Nat := if isLeap (yoe + 1) then 365 else 364

-- The year of the era a day falls in: the days that leap days put in are taken out first.
def yearOfEra (doe : Nat) : Nat := (doe - doe / 1460 + doe / 36524 - doe / 146096) / 365

variable {yoe doy doe doe' mp d : Nat}

theorem yearOfEra_mono (h : doe ≤ doe') (hlast : doe' ≤ 146096) :
    yearOfEra doe ≤ yearOfEra doe' := by
  refine Nat.div_le_div_right ?_
  omega

theorem yearOfEra_ends : ∀ yoe < 400, yearOfEra (yearStart yoe) = yoe ∧
    yearOfEra (yearStart yoe + lastDay yoe) = yoe ∧ yearStart yoe + lastDay yoe ≤ 146096 := by
  decide +kernel

theorem yearOfEra_eq (hyoe : yoe < 400) (hdoy : doy ≤ lastDay yoe) :
    yearOfEra (yearStart yoe + doy) = yoe := by
  obtain ⟨hfirst, hlast, hle⟩ := yearOfEra_ends yoe hyoe
  apply Nat.le_antisymm
  · calc yearOfEra (yearStart yoe + doy)
        ≤ yearOfEra (yearStart yoe + lastDay yoe) := yearOfEra_mono (by omega) hle
      _ = yoe := hlast
  · calc yoe = yearOfEra (yearStart yoe) := hfirst.symm
      _ ≤ yearOfEra (yearStart yoe + doy) := yearOfEra_mono (by omega) (by omega)

theorem monthOfYear_eq (hmp : mp ≤ 11) (hone : 1 ≤ d)
    (hd : d ≤ (153 * mp + 155) / 5 - (153 * mp + 2) / 5) :
    (5 * ((153 * mp + 2) / 5 + d - 1) + 2) / 153 = mp := by
  interval_cases mp <;> omega

end Era

-- The place of a date in its era of 400 years, which starts on the first of March.
def eraYear (y : Int) (m : Nat) : Nat := (marchYear y m % 400).toNat

def eraDay (y : Int) (m : Nat) (d : Int) : Nat := yearStart (eraYear y m) + (marchDay m d).toNat

theorem eraYear_lt : eraYear y m < 400 := by
  rw [eraYear]
  omega

theorem marchDay_le_lastDay (h : ValidDate y m d) :
    (marchDay m d).toNat ≤ lastDay (eraYear y m) := by
  obtain ⟨hnonneg, hle⟩ := marchDay_bounds h
  have hyear : (eraYear y m : Int) = marchYear y m % 400 := Int.toNat_of_nonneg (by omega)
  have hleap : isLeap (eraYear y m + 1) ↔ isLeap (marchYear y m + 1) := by
    simp only [isLeap]
    omega
  rw [lastDay]
  simp only [hleap]
  split at hle <;> rename_i hcase <;> simp only [hcase, if_true, if_false] <;> omega

theorem marchDay_le (h : ValidDate y m d) : (marchDay m d).toNat ≤ 365 := by
  refine (marchDay_le_lastDay h).trans ?_
  rw [lastDay]
  split <;> omega

theorem eraDay_le (h : ValidDate y m d) : eraDay y m d ≤ 146096 :=
  (Nat.add_le_add_left (marchDay_le_lastDay h) _).trans (yearOfEra_ends _ eraYear_lt).2.2

theorem yearOfEra_eraDay (h : ValidDate y m d) : yearOfEra (eraDay y m d) = eraYear y m :=
  yearOfEra_eq eraYear_lt (marchDay_le_lastDay h)

theorem monthOfYear_marchDay (h : ValidDate y m d) :
    (5 * (marchDay m d).toNat + 2) / 153 = (marchMonth m).toNat := by
  obtain ⟨hlow, hhigh⟩ := marchMonth_bounds h.month_pos h.month_le
  have hday := (day_le_marchMonth h).1
  have hone := h.day_pos
  obtain ⟨mp, hmp⟩ := Int.eq_ofNat_of_zero_le hlow
  have hsplit : (marchDay m d).toNat = (153 * mp + 2) / 5 + d.toNat - 1 := by
    rw [marchDay]
    omega
  rw [hmp] at hday hhigh ⊢
  have hle : mp ≤ 11 := Int.ofNat_le.mp hhigh
  have hlast : d.toNat ≤ (153 * mp + 155) / 5 - (153 * mp + 2) / 5 := by
    interval_cases mp <;> omega
  rw [hsplit, Int.toNat_natCast]
  exact monthOfYear_eq hle (by omega) hlast

theorem dayNumber_eq (h : ValidDate y m d) :
    dayNumber y m d = marchYear y m / 400 * 146097 + eraDay y m d - 719468 := by
  obtain ⟨hnonneg, -⟩ := marchDay_bounds h
  rw [dayNumber_era h.month_pos h.month_le]
  rw [eraDay, yearStart, eraYear]
  omega

end Gregorian
