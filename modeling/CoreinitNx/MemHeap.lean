import CoreinitNx.Library.Alignment
import CoreinitNx.HandleTable

namespace CoreinitNx

open Alignment

abbrev Memory := UInt64 → UInt8

def memset (memory : Memory) (start : UInt64) (value : UInt8) (size : UInt32) : Memory :=
  fun p => if start ≤ p ∧ p.toNat < start.toNat + size.toNat then value else memory p

def memHeapFlagZeroAllocated : UInt32 := 1

def isPow2 (v : UInt32) : Bool := v != 0 && (v &&& (v - 1)) == 0

def alignUp (v : UInt64) (a : UInt32) : UInt64 := (v + a.toUInt64 - 1) &&& ~~~(a - 1).toUInt64

def alignDown (v : UInt64) (a : UInt32) : UInt64 := v &&& ~~~(a - 1).toUInt64

def normaliseAlignment (alignment : Int32) : UInt32 × Bool :=
  let a := (if alignment < 0 then -alignment else alignment).toUInt32
  (if isPow2 a then a else 4, alignment < 0)

-- Addresses the guest can own: every rounding up by at most 2^31 stays below 2^64.
def userSpaceEnd : Nat := 2 ^ 63

def InUserSpace (base : UInt64) (size : UInt32) : Prop :=
  base.toNat + size.toNat ≤ userSpaceEnd

def IsAlignment (a : UInt32) : Prop := ∃ k ≤ 31, a.toNat = 2 ^ k

theorem isPow2_iff (v : UInt32) : isPow2 v = true ↔ v.toNat.isPowerOfTwo := by
  rw [← Nat.ne_zero_and_sub_one_eq_zero_iff_isPowerOfTwo]
  have hz : v ≠ 0 ↔ v.toNat ≠ 0 := by simp [← UInt32.toNat_inj]
  rw [isPow2, Bool.and_eq_true, bne_iff_ne, beq_iff_eq, hz]
  refine and_congr_right fun hv => ?_
  have hone : (1 : UInt32) ≤ v := by
    rw [UInt32.le_iff_toNat_le]; exact Nat.one_le_iff_ne_zero.2 hv
  rw [← UInt32.toNat_inj, UInt32.toNat_and, UInt32.toNat_sub_of_le _ _ hone]
  rfl

theorem isAlignment_of_isPow2 {v : UInt32} (h : isPow2 v = true) : IsAlignment v := by
  obtain ⟨k, hk⟩ := (isPow2_iff v).1 h
  refine ⟨k, ?_, hk⟩
  have hlt : 2 ^ k < 2 ^ 32 := hk ▸ v.toNat_lt
  have := (Nat.pow_lt_pow_iff_right (by decide : 1 < 2)).1 hlt
  omega

theorem isAlignment_normaliseAlignment (alignment : Int32) :
    IsAlignment (normaliseAlignment alignment).1 := by
  simp only [normaliseAlignment]
  generalize (if alignment < 0 then -alignment else alignment).toUInt32 = a
  by_cases h : isPow2 a = true
  · rw [if_pos h]
    exact isAlignment_of_isPow2 h
  · rw [if_neg h]
    exact ⟨2, by decide, rfl⟩

theorem IsAlignment.pos {a : UInt32} (h : IsAlignment a) : 0 < a.toNat := by
  obtain ⟨k, -, hk⟩ := h
  rw [hk]
  exact Nat.two_pow_pos k

theorem IsAlignment.le {a : UInt32} (h : IsAlignment a) : a.toNat ≤ 2 ^ 31 := by
  obtain ⟨k, hle, hk⟩ := h
  rw [hk]
  exact Nat.pow_le_pow_right two_pos hle

theorem IsAlignment.toNat_alignDown {a : UInt32} (h : IsAlignment a) (v : UInt64) :
    (alignDown v a).toNat = floorTo a.toNat v.toNat := by
  have hpos := h.pos
  obtain ⟨k, hk31, hk⟩ := h
  have hone : (1 : UInt32) ≤ a := by rw [UInt32.le_iff_toNat_le]; exact hpos
  have hmask : (a - 1).toUInt64.toNat = 2 ^ k - 1 := by
    rw [UInt32.toNat_toUInt64, UInt32.toNat_sub_of_le _ _ hone, hk]; rfl
  rw [alignDown, UInt64.toNat_and, UInt64.toNat_not, hmask, hk]
  exact and_not_mask v.toNat v.toNat_lt (by omega)

theorem IsAlignment.toNat_alignUp {a : UInt32} (h : IsAlignment a) {v : UInt64}
    (hv : v.toNat + a.toNat ≤ 2 ^ 64) :
    (alignUp v a).toNat = ceilTo a.toNat v.toNat := by
  have hpos := h.pos
  have hsum : (v + a.toUInt64 - 1).toNat = v.toNat + a.toNat - 1 := by
    simp only [UInt64.toNat_sub, UInt64.toNat_add, UInt32.toNat_toUInt64, UInt64.toNat_one]
    omega
  rw [ceilTo, ← hsum]
  exact h.toNat_alignDown _

theorem toNat_dataStart {heap : UInt64} {header : UInt32}
    (h : heap.toNat + header.toNat + 4 ≤ 2 ^ 64) :
    (alignUp (heap + header.toUInt64) 4).toNat = ceilTo 4 (heap.toNat + header.toNat) := by
  have hfour : IsAlignment 4 := ⟨2, by decide, rfl⟩
  have h4 : (4 : UInt32).toNat = 4 := rfl
  have hsum : (heap + header.toUInt64).toNat = heap.toNat + header.toNat := by
    rw [UInt64.toNat_add, UInt32.toNat_toUInt64, Nat.mod_eq_of_lt (by omega)]
  rw [hfour.toNat_alignUp, hsum, h4]
  rwa [hsum, h4]

theorem InUserSpace.toNat_add {base : UInt64} {size : UInt32} (h : InUserSpace base size) :
    (base + size.toUInt64).toNat = base.toNat + size.toNat := by
  rw [InUserSpace, userSpaceEnd] at h
  rw [UInt64.toNat_add, UInt32.toNat_toUInt64, Nat.mod_eq_of_lt (by omega)]

theorem toNat_gap {x y : UInt64} (h : y.toNat ≤ x.toNat) (hlt : x.toNat - y.toNat < 2 ^ 32) :
    (x - y).toUInt32.toNat = x.toNat - y.toNat := by
  rw [UInt64.toNat_toUInt32, UInt64.toNat_sub_of_le _ _ (UInt64.le_iff_toNat_le.2 h)]
  exact Nat.mod_eq_of_lt hlt

theorem toNat_atLeastOne (n : UInt32) :
    (if n = 0 then 1 else n : UInt32).toNat = max n.toNat 1 := by
  by_cases hz : n = 0
  · rw [hz]
    rfl
  · rw [if_neg hz]
    have hpos : n.toNat ≠ 0 := fun h => hz (UInt32.toNat_inj.1 h)
    omega

-- How both kinds of heap are looked up: by the address that the guest has, and a flag of theirs.
section Lookup

variable {Host : Type} [HostObject Host] {alive : Host → Bool} {table : HandleTable Host}
  {heap k : UInt64}

def liveAt (alive : Host → Bool) (table : HandleTable Host) (heap : UInt64) :
    Option Host × HandleTable Host :=
  if heap = 0 then (none, table)
  else
    let (h, table) := table.get heap
    (if alive h then some h else none, table)

theorem liveAt_view : (liveAt alive table heap).2.view k = table.view k := by
  rw [liveAt]
  split <;> simp

theorem liveAt_of_live (hz : heap ≠ 0) (hl : alive (table.view heap) = true) :
    (liveAt alive table heap).1 = some (table.view heap) := by
  simp [liveAt, hz, HandleTable.get_fst, hl]

theorem liveAt_of_dead (h : heap = 0 ∨ alive (table.view heap) = false) :
    (liveAt alive table heap).1 = none := by
  rw [liveAt]
  by_cases hz : heap = 0
  · rw [if_pos hz]
  · rw [if_neg hz]
    have hdead := h.resolve_left hz
    simp [HandleTable.get_fst, hdead]

theorem dead_or_alive (alive : Host → Bool) (table : HandleTable Host) (heap : UInt64) :
    (heap = 0 ∨ alive (table.view heap) = false) ∨
      heap ≠ 0 ∧ alive (table.view heap) = true := by
  by_cases hz : heap = 0
  · exact .inl (.inl hz)
  · cases hl : alive (table.view heap) with
    | false => exact .inl (.inr rfl)
    | true => exact .inr ⟨hz, rfl⟩

end Lookup

example : normaliseAlignment (-64) = (64, true) ∧ normaliseAlignment 12 = (4, false) := by decide

end CoreinitNx
