import Mathlib.Data.Nat.Basic
import Mathlib.Algebra.Order.Group.Nat
import Mathlib.Tactic.Ring
import Mathlib.Order.Bounds.Defs

namespace Alignment

def floorTo (a v : Nat) : Nat := v / a * a

def ceilTo (a v : Nat) : Nat := floorTo a (v + a - 1)

theorem floorTo_le (a v : Nat) : floorTo a v ≤ v := Nat.div_mul_le_self v a

theorem lt_floorTo_add {a : Nat} (ha : 0 < a) (v : Nat) : v < floorTo a v + a := by
  have h := Nat.div_add_mod v a
  have hm := Nat.mod_lt v ha
  rw [Nat.mul_comm] at h
  rw [floorTo]
  omega

theorem dvd_floorTo (a v : Nat) : a ∣ floorTo a v := Nat.dvd_mul_left a _

theorem le_floorTo_of_dvd {a x v : Nat} (hx : a ∣ x) (h : x ≤ v) : x ≤ floorTo a v := by
  rcases Nat.eq_zero_or_pos a with rfl | ha
  · simp [Nat.eq_zero_of_zero_dvd hx]
  · obtain ⟨q, rfl⟩ := hx
    have hq : q ≤ v / a := (Nat.le_div_iff_mul_le ha).2 (by rwa [Nat.mul_comm])
    rw [Nat.mul_comm]
    exact Nat.mul_le_mul_right a hq

theorem le_ceilTo {a : Nat} (ha : 0 < a) (v : Nat) : v ≤ ceilTo a v := by
  have := lt_floorTo_add ha (v + a - 1)
  rw [ceilTo]
  omega

theorem ceilTo_lt_add {a : Nat} (ha : 0 < a) (v : Nat) : ceilTo a v < v + a := by
  have := floorTo_le a (v + a - 1)
  rw [ceilTo]
  omega

theorem dvd_ceilTo (a v : Nat) : a ∣ ceilTo a v := dvd_floorTo a _

theorem ceilTo_le_of_dvd {a x v : Nat} (ha : 0 < a) (hv : a ∣ v) (h : x ≤ v) : ceilTo a x ≤ v := by
  obtain ⟨q, rfl⟩ := hv
  obtain ⟨c, hc⟩ := dvd_ceilTo a x
  have hlt := ceilTo_lt_add ha x
  rw [hc] at hlt ⊢
  refine Nat.mul_le_mul_left a (Nat.le_of_lt_succ (Nat.lt_of_mul_lt_mul_left (a := a) ?_))
  rw [Nat.mul_succ]
  omega

theorem isLeast_ceilTo {a : Nat} (ha : 0 < a) (v : Nat) : IsLeast {x | a ∣ x ∧ v ≤ x} (ceilTo a v) :=
  ⟨⟨dvd_ceilTo a v, le_ceilTo ha v⟩, fun _ hx => ceilTo_le_of_dvd ha hx.1 hx.2⟩

theorem isGreatest_floorTo (a v : Nat) : IsGreatest {x | a ∣ x ∧ x ≤ v} (floorTo a v) :=
  ⟨⟨dvd_floorTo a v, floorTo_le a v⟩, fun _ hx => le_floorTo_of_dvd hx.1 hx.2⟩

theorem ceilTo_mono {a x y : Nat} (ha : 0 < a) (h : x ≤ y) : ceilTo a x ≤ ceilTo a y :=
  ceilTo_le_of_dvd ha (dvd_ceilTo a y) (h.trans (le_ceilTo ha y))

-- Rounding up is adjoint to rounding down.
theorem ceilTo_le_iff {a : Nat} (ha : 0 < a) {x v : Nat} : ceilTo a x ≤ v ↔ x ≤ floorTo a v :=
  ⟨fun h => (le_ceilTo ha x).trans (le_floorTo_of_dvd (dvd_ceilTo a x) h),
    fun h => (ceilTo_le_of_dvd ha (dvd_floorTo a v) h).trans (floorTo_le a v)⟩

-- The tiles of width `a` that meet `[x, x + n)` make up one interval.
theorem exists_tile_iff {a : Nat} (ha : 0 < a) {x n p : Nat} (hn : 0 < n) :
    (∃ t, a ∣ t ∧ (t ≤ p ∧ p < t + a) ∧ ∃ q, (t ≤ q ∧ q < t + a) ∧ x ≤ q ∧ q < x + n) ↔
      floorTo a x ≤ p ∧ p < ceilTo a (x + n) := by
  constructor
  · rintro ⟨t, ht, ⟨hle, hlt⟩, q, ⟨hq, hqt⟩, hx, hxn⟩
    have hfloor : floorTo a x ≤ t := by
      obtain ⟨k, rfl⟩ := ht
      obtain ⟨m, hm⟩ := dvd_floorTo a x
      have hbelow := floorTo_le a x
      rw [hm] at hbelow ⊢
      refine Nat.mul_le_mul_left a (Nat.le_of_lt_succ (Nat.lt_of_mul_lt_mul_left (a := a) ?_))
      rw [Nat.mul_succ]
      omega
    have hceil : t + a ≤ ceilTo a (x + n) := by
      obtain ⟨k, rfl⟩ := ht
      obtain ⟨m, hm⟩ := dvd_ceilTo a (x + n)
      have habove := le_ceilTo ha (x + n)
      rw [hm] at habove ⊢
      rw [← Nat.mul_succ]
      refine Nat.mul_le_mul_left a (Nat.succ_le_of_lt (Nat.lt_of_mul_lt_mul_left (a := a) ?_))
      omega
    omega
  · rintro ⟨hfloor, hceil⟩
    have hlast : floorTo a p < x + n := by
      apply Nat.lt_of_not_le
      intro hle
      have hceiling := ceilTo_le_of_dvd ha (dvd_floorTo a p) hle
      have hbelow := floorTo_le a p
      omega
    have hfirst : floorTo a x ≤ floorTo a p := le_floorTo_of_dvd (dvd_floorTo a x) hfloor
    have hx := lt_floorTo_add ha x
    refine ⟨floorTo a p, dvd_floorTo a p, ⟨floorTo_le a p, lt_floorTo_add ha p⟩,
      max x (floorTo a p), ?_, ?_⟩
    all_goals omega

theorem and_not_mask {w k : Nat} (v : Nat) (hv : v < 2 ^ w) (hk : k ≤ w) :
    v &&& (2 ^ w - 1 - (2 ^ k - 1)) = floorTo (2 ^ k) v := by
  have hbit (i : Nat) : (2 ^ w - 1 - (2 ^ k - 1)).testBit i = (decide (i < w) && !decide (i < k)) := by
    have hpos : 2 ^ k - 1 < 2 ^ w :=
      lt_of_lt_of_le (Nat.sub_lt (Nat.two_pow_pos k) one_pos) (Nat.pow_le_pow_right two_pos hk)
    have hshape : 2 ^ w - 1 - (2 ^ k - 1) = 2 ^ w - (2 ^ k - 1 + 1) := by omega
    rw [hshape, Nat.testBit_two_pow_sub_succ hpos, Nat.testBit_two_pow_sub_one]
  apply Nat.eq_of_testBit_eq
  intro i
  rw [Nat.testBit_and, hbit, floorTo, Nat.testBit_mul_two_pow, Nat.testBit_div_two_pow]
  by_cases hi : i < k
  · simp [hi, Nat.not_le.2 hi]
  · have hki : k ≤ i := Nat.not_lt.1 hi
    by_cases hw : i < w
    · simp [hi, hw, hki, Nat.sub_add_cancel hki]
    · have hz : v.testBit i = false :=
        Nat.testBit_lt_two_pow (lt_of_lt_of_le hv (Nat.pow_le_pow_right two_pos (Nat.not_lt.1 hw)))
      simp [hi, hw, hki, Nat.sub_add_cancel hki, hz]

end Alignment
