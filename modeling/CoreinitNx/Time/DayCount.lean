import CoreinitNx.Time.Civil

namespace CoreinitNx.Time

open CInt Gregorian

section Forward

variable {y : Int} {m d : UInt32}

theorem daysFromCivil_eq_none (h : ValidDate y m.toNat d.toNat)
    (hfits : FitsInt64 (dayNumber y m.toNat d.toNat))
    (hover : 2 ^ 63 ≤ dayNumber y m.toNat d.toNat + 719468) : daysFromCivil y m d = none := by
  have heq := dayNumber_eq h
  have hsum : ¬ FitsInt64 (marchYear y m.toNat / 400 * 146097 + eraDay y m.toNat d.toNat) := by
    rw [FitsInt64]
    omega
  rw [daysFromCivil_sum h hfits]
  by_cases hera : FitsInt64 (marchYear y m.toNat / 400 * 146097)
  · rw [int64_bind hera.1 hera.2, int64_eq_none hsum, Option.bind_none]
  · rw [int64_eq_none hera, Option.bind_none]

theorem daysFromCivil_eq_iff (h : ValidDate y m.toNat d.toNat)
    (hfits : FitsInt64 (dayNumber y m.toNat d.toNat)) :
    daysFromCivil y m d = some (dayNumber y m.toNat d.toNat) ↔
      dayNumber y m.toNat d.toNat + 719468 < 2 ^ 63 := by
  refine ⟨fun hsome => ?_, daysFromCivil_eq h hfits.1⟩
  by_contra hover
  rw [daysFromCivil_eq_none h hfits (not_lt.1 hover)] at hsome
  cases hsome

end Forward

section Dates

variable {y : Int} {m : Nat} {d : Int}

def InYear (day y : Int) : Prop := ∃ m d, ValidDate y m d ∧ dayNumber y m d = day

theorem exists_unsigned (h : ValidDate y m d) :
    ∃ m' d' : UInt32, m'.toNat = m ∧ (d'.toNat : Int) = d := by
  obtain ⟨hpos, hle, hone, hlast⟩ := h
  have hday := hlast.trans (monthLength_le y m)
  have hmonth : m < UInt32.size := by
    rw [UInt32.size]
    omega
  exact ⟨UInt32.ofNat m, UInt32.ofInt d, UInt32.toNat_ofNat_of_lt' hmonth,
    toNat_ofInt (by omega) (by omega)⟩

theorem dayNumber_int32 {y : Int32} (h : ValidDate y.toInt m d) :
    -2 ^ 63 ≤ dayNumber y.toInt m d ∧ dayNumber y.toInt m d + 719468 < 2 ^ 63 := by
  have heq := dayNumber_eq h
  have hle := eraDay_le h
  have hlow := y.le_toInt
  have hhigh := y.toInt_lt
  rw [marchYear] at heq
  split at heq <;> constructor <;> omega

end Dates

theorem daysFromCivil_nextDate {y y' : Int} {m d m' d' : UInt32}
    (h : ValidDate y m.toNat d.toNat)
    (hnext : nextDate y m.toNat d.toNat = (y', m'.toNat, (d'.toNat : Int)))
    (hlow : -2 ^ 63 ≤ dayNumber y m.toNat d.toNat)
    (hhigh : dayNumber y' m'.toNat d'.toNat + 719468 < 2 ^ 63) :
    ∃ n, daysFromCivil y m d = some n ∧ daysFromCivil y' m' d' = some (n + 1) := by
  have hvalid := nextDate_valid h
  have hday := dayNumber_nextDate h
  rw [hnext] at hvalid hday
  dsimp only at hvalid hday
  refine ⟨_, daysFromCivil_eq h hlow (by omega), ?_⟩
  rw [daysFromCivil_eq hvalid (by omega) hhigh, hday]

theorem civilFromDays_daysFromCivil {y : Int32} {m d : UInt32}
    (h : ValidDate y.toInt m.toNat d.toNat) :
    daysFromCivil y.toInt m d = some (dayNumber y.toInt m.toNat d.toNat) ∧
      civilFromDays (dayNumber y.toInt m.toNat d.toNat) = some (y, m.toInt32, d.toInt32) := by
  obtain ⟨hlow, hhigh⟩ := dayNumber_int32 h
  refine ⟨daysFromCivil_eq h hlow hhigh, ?_⟩
  rw [civilFromDays_eq h hlow hhigh, Int32.ofInt_toInt, toInt32_eq rfl, toInt32_eq rfl]

theorem daysFromCivil_civilFromDays {n : Int} {y : Int32} (h : InYear n y.toInt) :
    ∃ m d : UInt32, ValidDate y.toInt m.toNat d.toNat ∧
      civilFromDays n = some (y, m.toInt32, d.toInt32) ∧ daysFromCivil y.toInt m d = some n := by
  obtain ⟨month, day, hvalid, rfl⟩ := h
  obtain ⟨m, d, rfl, rfl⟩ := exists_unsigned hvalid
  obtain ⟨hdays, hcivil⟩ := civilFromDays_daysFromCivil hvalid
  exact ⟨m, d, hvalid, hcivil, hdays⟩

theorem days_from_civil_counts :
    (∀ (y : Int) (m d : UInt32), ValidDate y m.toNat d.toNat →
      FitsInt64 (dayNumber y m.toNat d.toNat) →
      (daysFromCivil y m d = some (dayNumber y m.toNat d.toNat) ↔
        dayNumber y m.toNat d.toNat + 719468 < 2 ^ 63)) ∧
    (∀ (y y' : Int) (m d m' d' : UInt32), ValidDate y m.toNat d.toNat →
      nextDate y m.toNat d.toNat = (y', m'.toNat, (d'.toNat : Int)) →
      -2 ^ 63 ≤ dayNumber y m.toNat d.toNat →
      dayNumber y' m'.toNat d'.toNat + 719468 < 2 ^ 63 →
      ∃ n, daysFromCivil y m d = some n ∧ daysFromCivil y' m' d' = some (n + 1)) ∧
    (∀ (y : Int32) (m d : UInt32), ValidDate y.toInt m.toNat d.toNat →
      ∃ n, daysFromCivil y.toInt m d = some n ∧
        civilFromDays n = some (y, m.toInt32, d.toInt32)) ∧
    ∀ (n : Int) (y : Int32), InYear n y.toInt →
      ∃ m d : UInt32, ValidDate y.toInt m.toNat d.toNat ∧
        civilFromDays n = some (y, m.toInt32, d.toInt32) ∧
        daysFromCivil y.toInt m d = some n := by
  refine ⟨?_, ?_, ?_, ?_⟩
  · intro y m d h hfits
    exact daysFromCivil_eq_iff h hfits
  · intro y y' m d m' d' h hnext hlow hhigh
    exact daysFromCivil_nextDate h hnext hlow hhigh
  · intro y m d h
    exact ⟨_, civilFromDays_daysFromCivil h⟩
  · intro n y h
    exact daysFromCivil_civilFromDays h

-- The last day of an era, and the first one of the next.
theorem days_from_civil_counts_era_end :
    daysFromCivil 2000 2 29 = some (dayNumber 2000 2 29) ∧
      (∃ n, daysFromCivil 2000 2 29 = some n ∧ daysFromCivil 2000 3 1 = some (n + 1)) ∧
      (∃ n, daysFromCivil 2000 2 29 = some n ∧ civilFromDays n = some (2000, 2, 29)) ∧
      ∃ m d : UInt32, ValidDate 2000 m.toNat d.toNat ∧
        civilFromDays 11016 = some (2000, m.toInt32, d.toInt32) ∧
        daysFromCivil 2000 m d = some 11016 := by
  obtain ⟨hcount, hnext, hback, hforth⟩ := days_from_civil_counts
  exact ⟨(hcount 2000 2 29 (by decide) (by decide)).2 (by decide),
    hnext 2000 2000 2 29 3 1 (by decide) (by decide) (by decide) (by decide),
    hback 2000 2 29 (by decide), hforth 11016 2000 ⟨2, 29, by decide, by decide⟩⟩

theorem days_from_civil_overflows :
    ValidDate 25252734927767000 (1 : UInt32).toNat (1 : UInt32).toNat ∧
      FitsInt64 (dayNumber 25252734927767000 (1 : UInt32).toNat (1 : UInt32).toNat) ∧
      daysFromCivil 25252734927767000 1 1 = none := by
  have hyears := daysBeforeYear_eq 25252734927767000
  refine ⟨newYear_valid _, ?_, by decide +kernel⟩
  change FitsInt64 (daysBeforeYear 25252734927767000 + (0 + 0) + 0)
  rw [hyears]
  decide

end CoreinitNx.Time
