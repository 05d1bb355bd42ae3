import CoreinitNx.Library.Gregorian
import CoreinitNx.Time.Basic

namespace CoreinitNx.Time

open CInt Gregorian

section Unsigned

variable {m d mp yoe doy doe : UInt32}

theorem marchMonth_toNat (hpos : 1 ≤ m.toNat) (hle : m.toNat ≤ 12) :
    ((m + if m > 2 then -3 else 9).toNat : Int) = marchMonth m.toNat := by
  have htwo : m > 2 ↔ 2 < m.toNat := UInt32.lt_iff_toNat_lt
  have hneg : (-3 : UInt32).toNat = 4294967293 := rfl
  have hnine : (9 : UInt32).toNat = 9 := rfl
  rw [marchMonth]
  by_cases hm : m.toNat ≤ 2
  · rw [if_neg (by rw [htwo]; omega), if_pos hm, UInt32.toNat_add, hnine]
    omega
  · rw [if_pos (by rw [htwo]; omega), if_neg hm, UInt32.toNat_add, hneg]
    omega

theorem dayOfYear_toNat (hmp : mp.toNat ≤ 11) (hone : 1 ≤ d.toNat) (hd : d.toNat ≤ 31) :
    ((153 * mp + 2) / 5 + d - 1).toNat = (153 * mp.toNat + 2) / 5 + d.toNat - 1 := by
  refine sub_toNat (add_toNat (div_toNat (add_toNat (mul_toNat rfl rfl ?_) rfl ?_) rfl) rfl ?_)
    rfl ?_ <;> omega

theorem yearStart_toNat (hyoe : yoe.toNat < 400) :
    (365 * yoe + yoe / 4 - yoe / 100).toNat = yearStart yoe.toNat := by
  refine sub_toNat (add_toNat (mul_toNat rfl rfl ?_) (div_toNat rfl rfl) ?_) (div_toNat rfl rfl)
    ?_ <;> omega

theorem yearOfEra_toNat (hdoe : doe.toNat ≤ 146096) :
    ((doe - doe / 1460 + doe / 36524 - doe / 146096) / 365).toNat = yearOfEra doe.toNat := by
  refine div_toNat (sub_toNat (add_toNat (sub_toNat rfl (div_toNat rfl rfl) ?_)
    (div_toNat rfl rfl) ?_) (div_toNat rfl rfl) ?_) rfl <;> omega

theorem monthOfYear_toNat (hdoy : doy.toNat ≤ 365) :
    ((5 * doy + 2) / 153).toNat = (5 * doy.toNat + 2) / 153 := by
  refine div_toNat (add_toNat (mul_toNat rfl rfl ?_) rfl ?_) rfl <;> omega

theorem dayOfMonth_toNat (hmp : mp.toNat ≤ 11) (hdoy : doy.toNat ≤ 365)
    (hstart : (153 * mp.toNat + 2) / 5 ≤ doy.toNat) :
    (doy - (153 * mp + 2) / 5 + 1).toNat = doy.toNat - (153 * mp.toNat + 2) / 5 + 1 := by
  refine add_toNat (sub_toNat rfl (div_toNat (add_toNat (mul_toNat rfl rfl ?_) rfl ?_) rfl) ?_)
    rfl ?_ <;> omega

end Unsigned

variable {y : Int} {m d : UInt32}

theorem marchYear_uint (y : Int) (m : UInt32) :
    (y - if m ≤ 2 then 1 else 0) = marchYear y m.toNat := by
  have htwo : m ≤ 2 ↔ m.toNat ≤ 2 := UInt32.le_iff_toNat_le
  rw [marchYear]
  simp only [htwo]
  split <;> omega

theorem eraDay_toNat (h : ValidDate y m.toNat d.toNat) {yoe : UInt32}
    (hyoe : yoe.toNat = eraYear y m.toNat) :
    (yoe * 365 + yoe / 4 - yoe / 100 + ((153 * (m + if m > 2 then -3 else 9) + 2) / 5 + d - 1)).toNat =
      eraDay y m.toNat d.toNat := by
  have hmp := marchMonth_toNat h.month_pos h.month_le
  have hmonth := marchMonth_bounds h.month_pos h.month_le
  have hyear := eraYear_lt (y := y) (m := m.toNat)
  have hday := (day_le_marchMonth h).1
  have hone := h.day_pos
  have hle := eraDay_le h
  have hdoy : (marchDay m.toNat d.toNat).toNat =
      (153 * (m + if m > 2 then -3 else 9).toNat + 2) / 5 + d.toNat - 1 := by
    rw [marchDay]
    omega
  rw [eraDay, hdoy, ← hyoe] at hle
  rw [eraDay, hdoy, ← hyoe, UInt32.mul_comm yoe]
  refine add_toNat (yearStart_toNat (by omega)) (dayOfYear_toNat ?_ ?_ ?_) ?_ <;> omega

-- The sum that can be too large is the one of the days since the first of March of the year 0.
theorem daysFromCivil_sum (h : ValidDate y m.toNat d.toNat)
    (hfits : FitsInt64 (dayNumber y m.toNat d.toNat)) :
    daysFromCivil y m d = (int64 (marchYear y m.toNat / 400 * 146097)).bind fun eraDays =>
      (int64 (eraDays + eraDay y m.toNat d.toNat)).bind fun days => int64 (days - 719468) := by
  obtain ⟨hlow, hhigh⟩ := hfits
  have heq := dayNumber_eq h
  have hle := eraDay_le h
  have hyoe : (UInt32.ofInt (marchYear y m.toNat - marchYear y m.toNat / 400 * 400)).toNat =
      eraYear y m.toNat := by
    have hint := toNat_ofInt (x := marchYear y m.toNat - marchYear y m.toNat / 400 * 400)
      (by omega) (by omega)
    rw [eraYear]
    omega
  have hdoe := eraDay_toNat h hyoe
  rw [daysFromCivil]
  simp only [Option.bind_eq_bind]
  rw [marchYear_uint, int64_bind (by omega) (by omega), floorDiv_eq (by omega) (by omega),
    Option.bind_some, int64_bind (by omega) (by omega), int64_bind (by omega) (by omega), hdoe]

theorem daysFromCivil_eq (h : ValidDate y m.toNat d.toNat)
    (hlow : -2 ^ 63 ≤ dayNumber y m.toNat d.toNat)
    (hhigh : dayNumber y m.toNat d.toNat + 719468 < 2 ^ 63) :
    daysFromCivil y m d = some (dayNumber y m.toNat d.toNat) := by
  have heq := dayNumber_eq h
  have hle := eraDay_le h
  rw [daysFromCivil_sum h ⟨hlow, by omega⟩, int64_bind (by omega) (by omega),
    int64_bind (by omega) (by omega), int64_eq (by omega) (by omega), heq]

section Inverse

variable {m : Nat} {d : Int} {doe yoe doy mp : UInt32} (h : ValidDate y m d)
include h

theorem yearOfEra_uint (hdoe : doe.toNat = eraDay y m d) :
    ((doe - doe / 1460 + doe / 36524 - doe / 146096) / 365).toNat = eraYear y m := by
  rw [yearOfEra_toNat (hdoe ▸ eraDay_le h), hdoe, yearOfEra_eraDay h]

omit h in
theorem dayOfYear_uint (hdoe : doe.toNat = eraDay y m d) (hyoe : yoe.toNat = eraYear y m) :
    (doe - (365 * yoe + yoe / 4 - yoe / 100)).toNat = (marchDay m d).toNat := by
  have hstart : (365 * yoe + yoe / 4 - yoe / 100).toNat = yearStart (eraYear y m) := by
    rw [yearStart_toNat (hyoe ▸ eraYear_lt), hyoe]
  rw [sub_toNat hdoe hstart (Nat.le_add_right _ _)]
  exact Nat.add_sub_cancel_left _ _

theorem monthOfYear_uint (hdoy : doy.toNat = (marchDay m d).toNat) :
    ((5 * doy + 2) / 153).toNat = (marchMonth m).toNat := by
  rw [monthOfYear_toNat (hdoy ▸ marchDay_le h), hdoy, monthOfYear_marchDay h]

theorem dayOfMonth_uint (hdoy : doy.toNat = (marchDay m d).toNat)
    (hmp : mp.toNat = (marchMonth m).toNat) :
    (doy - (153 * mp + 2) / 5 + 1).toNat = d.toNat := by
  have hmonth := marchMonth_bounds h.month_pos h.month_le
  have hle := marchDay_le h
  have hone := h.day_pos
  rw [marchDay] at hdoy hle
  rw [dayOfMonth_toNat] <;> omega

theorem month_uint (hmp : mp.toNat = (marchMonth m).toNat) :
    (mp + if mp < 10 then 3 else -9).toNat = m := by
  have hpos := h.month_pos
  have hle := h.month_le
  have hten : mp < 10 ↔ mp.toNat < 10 := UInt32.lt_iff_toNat_lt
  have hneg : (-9 : UInt32).toNat = 4294967287 := rfl
  have hthree : (3 : UInt32).toNat = 3 := rfl
  rw [marchMonth] at hmp
  split at hmp
  · by_cases hmonth : mp.toNat < 10
    · rw [if_pos (hten.mpr hmonth), UInt32.toNat_add, hthree]
      omega
    · rw [if_neg (mt hten.mp hmonth), UInt32.toNat_add, hneg]
      omega
  · rw [if_pos (hten.mpr (by omega)), UInt32.toNat_add, hthree]
    omega

theorem civilFromDays_eq (hlow : -2 ^ 63 ≤ dayNumber y m d)
    (hhigh : dayNumber y m d + 719468 < 2 ^ 63) :
    civilFromDays (dayNumber y m d) = some (Int32.ofInt y, Int32.ofInt m, Int32.ofInt d) := by
  have heq := dayNumber_eq h
  have hle := eraDay_le h
  have hmonth := marchMonth_bounds h.month_pos h.month_le
  have hera : (dayNumber y m d + 719468) / 146097 = marchYear y m / 400 := by omega
  have hdoe : (UInt32.ofInt (dayNumber y m d + 719468 - marchYear y m / 400 * 146097)).toNat =
      eraDay y m d := by
    have hint := toNat_ofInt (x := dayNumber y m d + 719468 - marchYear y m / 400 * 146097)
      (by omega) (by omega)
    omega
  have hyoe := yearOfEra_uint h hdoe
  have hdoy := dayOfYear_uint hdoe hyoe
  have hmp := monthOfYear_uint h hdoy
  have hdd := dayOfMonth_uint h hdoy hmp
  have hmm := month_uint h hmp
  have hyear : (eraYear y m : Int) + marchYear y m / 400 * 400 = marchYear y m := by
    rw [eraYear]
    omega
  have hwhole : (marchYear y m + if m ≤ 2 then 1 else 0) = y := by
    rw [marchYear]
    split <;> omega
  rw [civilFromDays]
  simp only [Option.bind_eq_bind, Option.pure_def]
  rw [int64_bind (by omega) (by omega), floorDiv_eq (by omega) (by omega), hera, Option.bind_some,
    int64_bind (by omega) (by omega), int64_bind (by omega) (by omega),
    int64_bind (by omega) (by omega), hyoe, hyear, int64_bind (by omega) (by omega)]
  simp only [UInt32.le_iff_toNat_le, hmm, UInt32.reduceToNat, hwhole]
  rw [int64_bind (by omega) (by omega), toInt32_eq hmm, toInt32_eq hdd,
    Int.toNat_of_nonneg (by have := h.day_pos; omega)]

end Inverse

end CoreinitNx.Time
