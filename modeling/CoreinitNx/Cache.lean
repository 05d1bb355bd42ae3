import CoreinitNx.MemHeap

namespace CoreinitNx.Cache

open Alignment

def lineSize : Nat := 32

def roundToCacheLine (size : UInt32) : UInt32 := (size + 0x1F) &&& ~~~0x1F

-- The flush that follows leaves the contents as they are.
def dcZeroRange (memory : Memory) (addr : UInt64) (size : UInt32) : Memory :=
  if addr = 0 ∨ size = 0 then memory else memset memory addr 0 (roundToCacheLine size)

-- `p` is in an aligned line that meets `[addr, addr + size)`.
def OnLineOf (addr : UInt64) (size : UInt32) (p : UInt64) : Prop :=
  ∃ line, lineSize ∣ line ∧ (line ≤ p.toNat ∧ p.toNat < line + lineSize) ∧
    ∃ q, (line ≤ q ∧ q < line + lineSize) ∧ addr.toNat ≤ q ∧ q < addr.toNat + size.toNat

def ZeroesItsLines (addr : UInt64) (size : UInt32) : Prop :=
  ∀ memory p, (OnLineOf addr size p → dcZeroRange memory addr size p = 0) ∧
    (¬OnLineOf addr size p → dcZeroRange memory addr size p = memory p)

variable {addr p : UInt64} {size : UInt32}

theorem roundToCacheLine_toNat (size : UInt32) :
    (roundToCacheLine size).toNat = floorTo lineSize ((size.toNat + 31) % 2 ^ 32) := by
  rw [roundToCacheLine, UInt32.toNat_and, UInt32.toNat_add]
  exact and_not_mask _ (Nat.mod_lt _ (by decide)) (by decide : 5 ≤ 32)

theorem roundToCacheLine_of_le (h : size.toNat ≤ 2 ^ 32 - 32) :
    (roundToCacheLine size).toNat = ceilTo lineSize size.toNat := by
  rw [roundToCacheLine_toNat, Nat.mod_eq_of_lt (by omega)]
  rfl

theorem roundToCacheLine_of_lt (h : 2 ^ 32 - 32 < size.toNat) : roundToCacheLine size = 0 := by
  have hlt := size.toNat_lt
  rw [← UInt32.toNat_inj, roundToCacheLine_toNat, floorTo, UInt32.toNat_zero]
  rw [lineSize]
  omega

theorem onLineOf_iff (hsize : 0 < size.toNat) :
    OnLineOf addr size p ↔ floorTo lineSize addr.toNat ≤ p.toNat ∧
      p.toNat < ceilTo lineSize (addr.toNat + size.toNat) :=
  exists_tile_iff (by decide) hsize

theorem onLineOf_self (hsize : 0 < size.toNat) : OnLineOf addr size addr := by
  have hfloor := floorTo_le lineSize addr.toNat
  have hceil := le_ceilTo (by decide : 0 < lineSize) (addr.toNat + size.toNat)
  exact (onLineOf_iff hsize).2 ⟨hfloor, by omega⟩

theorem ceilTo_add_of_dvd (h : lineSize ∣ addr.toNat) :
    ceilTo lineSize (addr.toNat + size.toNat) = addr.toNat + ceilTo lineSize size.toNat := by
  obtain ⟨k, hk⟩ := h
  rw [ceilTo, ceilTo, floorTo, floorTo, hk, lineSize]
  omega

theorem dcZeroRange_of_ne (haddr : addr ≠ 0) (hsize : 0 < size.toNat) (memory : Memory) :
    dcZeroRange memory addr size = memset memory addr 0 (roundToCacheLine size) := by
  have hne : size ≠ 0 := by
    rintro rfl
    exact absurd hsize (by decide)
  rw [dcZeroRange, if_neg (not_or.2 ⟨haddr, hne⟩)]

theorem zeroesItsLines_of_aligned (hsize : 0 < size.toNat) (haddr : addr ≠ 0)
    (haligned : lineSize ∣ addr.toNat) (hfits : size.toNat ≤ 2 ^ 32 - 32) :
    ZeroesItsLines addr size := by
  intro memory p
  have hfloor : floorTo lineSize addr.toNat = addr.toNat :=
    Nat.div_mul_cancel haligned
  have hset : OnLineOf addr size p ↔
      addr ≤ p ∧ p.toNat < addr.toNat + (roundToCacheLine size).toNat := by
    rw [onLineOf_iff hsize, hfloor, ceilTo_add_of_dvd haligned, roundToCacheLine_of_le hfits,
      UInt64.le_iff_toNat_le]
  rw [dcZeroRange_of_ne haddr hsize, memset]
  constructor
  · intro hon
    rw [if_pos (hset.1 hon)]
  · intro hoff
    rw [if_neg (fun hin => hoff (hset.2 hin))]

-- A memory of ones shows which bytes a call leaves.
theorem zeroed_of_onLineOf (h : ZeroesItsLines addr size) (hon : OnLineOf addr size p) :
    dcZeroRange (fun _ => 1) addr size p = 0 :=
  (h _ p).1 hon

theorem mem_of_zeroed (h : dcZeroRange (fun _ => 1) addr size p = 0) :
    addr ≠ 0 ∧ addr ≤ p ∧ p.toNat < addr.toNat + (roundToCacheLine size).toNat := by
  have hone : ¬(1 : UInt8) = 0 := by decide
  rw [dcZeroRange] at h
  split at h
  next => exact absurd h hone
  next hne =>
    rw [memset] at h
    split at h
    next hin => exact ⟨fun hz => hne (.inl hz), hin⟩
    next => exact absurd h hone

theorem dc_zero_range_lines_iff (addr : UInt64) (size : UInt32) (hsize : 0 < size) :
    ZeroesItsLines addr size ↔
      addr ≠ 0 ∧ lineSize ∣ addr.toNat ∧ size.toNat ≤ 2 ^ 32 - 32 := by
  have hpos : 0 < size.toNat := UInt32.lt_iff_toNat_lt.1 hsize
  constructor
  · intro h
    obtain ⟨hne, -, hlast⟩ := mem_of_zeroed (zeroed_of_onLineOf h (onLineOf_self hpos))
    refine ⟨hne, ?_, ?_⟩
    · have hfloor := floorTo_le lineSize addr.toNat
      have hstart : (UInt64.ofNat (floorTo lineSize addr.toNat)).toNat =
          floorTo lineSize addr.toNat :=
        UInt64.toNat_ofNat_of_lt' (lt_of_le_of_lt hfloor addr.toNat_lt)
      have hceil := le_ceilTo (by decide : 0 < lineSize) (addr.toNat + size.toNat)
      have hon : OnLineOf addr size (UInt64.ofNat (floorTo lineSize addr.toNat)) := by
        rw [onLineOf_iff hpos, hstart]
        exact ⟨Nat.le_refl _, by omega⟩
      obtain ⟨-, hle, -⟩ := mem_of_zeroed (zeroed_of_onLineOf h hon)
      rw [UInt64.le_iff_toNat_le, hstart] at hle
      have heq := Nat.le_antisymm hfloor hle
      exact heq ▸ dvd_floorTo lineSize addr.toNat
    · apply Nat.le_of_not_lt
      intro hover
      rw [roundToCacheLine_of_lt hover] at hlast
      exact absurd hlast (Nat.lt_irrefl _)
  · rintro ⟨haddr, haligned, hfits⟩
    exact zeroesItsLines_of_aligned hpos haddr haligned hfits

theorem dc_zero_range_lines_iff_one_byte : ZeroesItsLines 0x1000 1 :=
  (dc_zero_range_lines_iff 0x1000 1 (by decide)).2 (by decide)

-- One byte in the middle of a line takes half of the next line with it.
theorem dc_zero_range_spills : ¬ZeroesItsLines 0x1010 1 := by
  intro h
  have hoff : ¬OnLineOf 0x1010 1 0x1020 := by
    rw [onLineOf_iff (by decide)]
    decide
  exact absurd ((h (fun _ => 1) 0x1020).2 hoff) (by decide)

end CoreinitNx.Cache
