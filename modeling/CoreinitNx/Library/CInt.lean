import Mathlib.Data.Int.Order.Basic
import Mathlib.Tactic.Linarith

namespace CInt

def FitsInt64 (x : Int) : Prop := -2 ^ 63 ≤ x ∧ x < 2 ^ 63

instance (x : Int) : Decidable (FitsInt64 x) := inferInstanceAs (Decidable (_ ∧ _))

-- Signed arithmetic whose result does not fit is undefined.
def int64 (x : Int) : Option Int := if FitsInt64 x then some x else none

def int32 (x : Int) : Option Int := if -2 ^ 31 ≤ x ∧ x < 2 ^ 31 then some x else none

-- `(a >= 0 ? a : a - (b - 1)) / b`
def floorDiv (a b : Int) : Option Int :=
  if 0 ≤ a then
    some (a.tdiv b)
  else do
    let shifted ← int64 (a - (b - 1))
    return shifted.tdiv b

-- A quotient rounds towards zero; the branch on the remainder's sign makes it round down.
def floorDivMod (a b : Int) : Option (Int × Int) :=
  if a.tmod b < 0 then do
    let rem ← int64 (a.tmod b + b)
    let quot ← int64 (a.tdiv b - 1)
    return (quot, rem)
  else
    some (a.tdiv b, a.tmod b)

variable {x a b : Int}

theorem int64_eq (hlow : -2 ^ 63 ≤ x) (hhigh : x < 2 ^ 63) : int64 x = some x :=
  if_pos ⟨hlow, hhigh⟩

theorem int64_bind {β : Type} {f : Int → Option β} (hlow : -2 ^ 63 ≤ x) (hhigh : x < 2 ^ 63) :
    (int64 x).bind f = f x := by
  rw [int64_eq hlow hhigh, Option.bind_some]

theorem int64_eq_none (h : ¬ FitsInt64 x) : int64 x = none := if_neg h

theorem fits_of_int64 (h : int64 x = some a) : FitsInt64 x := by
  by_contra hfits
  rw [int64_eq_none hfits] at h
  cases h

theorem int32_eq (hlow : -2 ^ 31 ≤ x) (hhigh : x < 2 ^ 31) : int32 x = some x :=
  if_pos ⟨hlow, hhigh⟩

theorem int32_bind {β : Type} {f : Int → Option β} (hlow : -2 ^ 31 ≤ x) (hhigh : x < 2 ^ 31) :
    (int32 x).bind f = f x := by
  rw [int32_eq hlow hhigh, Option.bind_some]

theorem toNat_ofInt (hlow : 0 ≤ x) (hhigh : x < 2 ^ 32) :
    ((UInt32.ofInt x).toNat : Int) = x := by
  have hsize : x.toNat < UInt32.size := by
    rw [UInt32.size]
    omega
  rw [UInt32.ofInt]
  rw [Int.emod_eq_of_lt hlow hhigh, UInt32.toNat_ofNat_of_lt' hsize, Int.toNat_of_nonneg hlow]

theorem tdiv_sub (hb : 0 < b) (ha : a < 0) : (a - (b - 1)).tdiv b = a / b := by
  have hneg : a - (b - 1) = -(b - 1 - a) := by omega
  have hmod := Int.mul_ediv_add_emod a b
  have hnonneg := Int.emod_nonneg a hb.ne'
  have hlt := Int.emod_lt_of_pos a hb
  have hsplit : b - 1 - a = (b - 1 - a % b) + b * -(a / b) := by
    rw [Int.mul_neg]
    omega
  rw [hneg, Int.neg_tdiv, Int.tdiv_eq_ediv_of_nonneg (by omega), hsplit,
    Int.add_mul_ediv_left _ _ hb.ne', Int.ediv_eq_zero_of_lt (by omega) (by omega),
    Int.zero_add, Int.neg_neg]

theorem floorDiv_eq (hb : 0 < b) (hlow : -2 ^ 63 ≤ a - (b - 1)) :
    floorDiv a b = some (a / b) := by
  rw [floorDiv]
  split
  next ha => rw [Int.tdiv_eq_ediv_of_nonneg ha]
  next ha =>
    rw [int64_eq hlow (by omega)]
    simp only [Option.bind_eq_bind, Option.bind_some, Option.pure_def]
    rw [tdiv_sub hb (by omega)]

theorem neg_le_ediv {k : Int} (hk : 0 ≤ k) (hb : 0 < b) (ha : -k ≤ a) : -k ≤ a / b := by
  rw [Int.le_ediv_iff_mul_le hb]
  nlinarith

theorem ediv_lt {k : Int} (hk : 0 < k) (hb : 0 < b) (ha : a < k) : a / b < k := by
  rw [Int.ediv_lt_iff_lt_mul hb]
  nlinarith

theorem floorDivMod_eq (hlow : -2 ^ 63 ≤ a) (hhigh : a < 2 ^ 63) (hb : 0 < b)
    (hfits : b < 2 ^ 63) : floorDivMod a b = some (a / b, a % b) := by
  have hnonneg := Int.emod_nonneg a hb.ne'
  have hlt := Int.emod_lt_of_pos a hb
  have hquotLow := neg_le_ediv (by decide) hb hlow
  have hquotHigh := ediv_lt (by decide) hb hhigh
  rw [floorDivMod]
  rw [Int.tdiv_eq_ediv, Int.tmod_eq_emod, Int.sign_eq_one_of_pos hb]
  by_cases hexact : 0 ≤ a ∨ b ∣ a
  · rw [if_pos hexact, if_pos hexact, Nat.cast_zero, Int.sub_zero, Int.add_zero, if_neg (by omega)]
  · rw [if_neg hexact, if_neg hexact, Int.natAbs_of_nonneg hb.le, if_pos (by omega),
      int64_eq (by omega) (by omega), int64_eq (by omega) (by omega), Int.sub_add_cancel,
      Int.add_sub_cancel]
    rfl

section Unsigned

variable {u w : UInt32} {i j : Nat}

theorem add_toNat (hu : u.toNat = i) (hw : w.toNat = j) (h : i + j < 2 ^ 32) :
    (u + w).toNat = i + j := by
  rw [UInt32.toNat_add, hu, hw, Nat.mod_eq_of_lt h]

theorem mul_toNat (hu : u.toNat = i) (hw : w.toNat = j) (h : i * j < 2 ^ 32) :
    (u * w).toNat = i * j := by
  rw [UInt32.toNat_mul, hu, hw, Nat.mod_eq_of_lt h]

theorem sub_toNat (hu : u.toNat = i) (hw : w.toNat = j) (h : j ≤ i) :
    (u - w).toNat = i - j := by
  subst hu hw
  exact UInt32.toNat_sub_of_le u w (UInt32.le_iff_toNat_le.mpr h)

theorem div_toNat (hu : u.toNat = i) (hw : w.toNat = j) : (u / w).toNat = i / j := by
  rw [UInt32.toNat_div, hu, hw]

theorem toInt32_eq (hu : u.toNat = i) : u.toInt32 = Int32.ofInt i := by
  subst hu
  exact Int32.toBitVec.inj (by simp)

end Unsigned

end CInt
