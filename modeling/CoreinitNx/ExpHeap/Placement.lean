import CoreinitNx.ExpHeap.Basic
import CoreinitNx.Library.Tiling

namespace CoreinitNx.ExpHeap

open Alignment Tiling

namespace Block

def lo (b : Block) : Nat := b.start.toNat

def hi (b : Block) : Nat := b.start.toNat + b.size.toNat

def lowest (b : Block) (a : UInt32) : Nat := ceilTo a.toNat (b.lo + expBlockSize.toNat)

def highest (b : Block) (size a : UInt32) : Nat := floorTo a.toNat (b.hi - size.toNat)

def Blank (b : Block) : Prop := b.payload = 0 ∧ b.payloadSize = 0

def Holds (b : Block) : Prop :=
  b.lo + expBlockSize.toNat ≤ b.payload.toNat ∧ b.payload.toNat + b.payloadSize.toNat ≤ b.hi ∧
    0 < b.payloadSize.toNat

def Sound (b : Block) : Prop := if b.used then b.Holds else b.Blank

end Block

variable {b : Block} {a size : UInt32}

@[simp] theorem toNat_expBlockSize : expBlockSize.toNat = 20 := rfl

@[simp] theorem toNat_minSplit : minSplit.toNat = 24 := rfl

theorem hi_eq {s z : Nat} (hs : b.start.toNat = s) (hz : b.size.toNat = z) : b.hi = s + z := by
  rw [Block.hi, hs, hz]

theorem toNat_stop (hb : b.hi ≤ userSpaceEnd) : b.stop.toNat = b.hi := by
  rw [Block.hi, userSpaceEnd] at *
  rw [Block.stop, UInt64.toNat_add, UInt32.toNat_toUInt64, Nat.mod_eq_of_lt (by omega)]

theorem toNat_lowest (ha : IsAlignment a) (hb : b.hi ≤ userSpaceEnd) :
    (alignUp (b.start + expBlockSize.toUInt64) a).toNat = b.lowest a := by
  have hle := ha.le
  have hsum : (b.start + expBlockSize.toUInt64).toNat = b.lo + expBlockSize.toNat := by
    rw [Block.hi, userSpaceEnd] at hb
    rw [UInt64.toNat_add, UInt32.toNat_toUInt64, Block.lo, toNat_expBlockSize,
      Nat.mod_eq_of_lt (by omega)]
  rw [Block.hi, userSpaceEnd] at hb
  rw [ha.toNat_alignUp, hsum, Block.lowest]
  rw [hsum, Block.lo, toNat_expBlockSize]
  omega

theorem toNat_fitInFree (ha : IsAlignment a) (hb : b.hi ≤ userSpaceEnd) :
    (fitInFree b a).toNat = b.hi - b.lowest a := by
  have hstop := toNat_stop hb
  have hlow := toNat_lowest ha hb
  have hge : b.lo + 20 ≤ b.lowest a := le_ceilTo ha.pos _
  simp only [fitInFree, ge_iff_le, UInt64.le_iff_toNat_le, hstop, hlow]
  split
  next h => simp [Nat.sub_eq_zero_of_le h]
  next h =>
    have hlt : b.lowest a ≤ b.hi := (Nat.not_le.1 h).le
    have hsz := b.size.toNat_lt
    rw [toNat_gap, hstop, hlow]
    · rwa [hstop, hlow]
    · rw [hstop, hlow]
      rw [Block.hi, Block.lo] at *
      omega

-- The bottom placement rounds down from the end of the block and still clears the header.
theorem lowest_le_highest (h : size.toNat ≤ b.hi - b.lowest a) (hs : 0 < size.toNat) :
    b.lowest a ≤ b.highest size a := by
  apply le_floorTo_of_dvd (dvd_ceilTo _ _)
  change b.lowest a ≤ b.hi - size.toNat
  omega

structure Placement.Fits (p : Placement) (free : Block) (size a : UInt32) : Prop where
  start_le : free.lo ≤ p.blockStart.toNat
  header : p.blockStart.toNat + expBlockSize.toNat ≤ p.payload.toNat
  payload_le : p.payload.toNat + size.toNat ≤ p.blockEnd.toNat
  end_le : p.blockEnd.toNat ≤ free.hi
  aligned : a.toNat ∣ p.payload.toNat

variable {free : Block} {fromBottom : Bool}

theorem place_bottom (ha : IsAlignment a) (hb : free.hi ≤ userSpaceEnd) (hs : 0 < size.toNat)
    (hfit : size.toNat ≤ (fitInFree free a).toNat) :
    ∃ p, place free size a true = some p ∧ p.Fits free size a ∧
      p.blockEnd.toNat = free.hi ∧ p.payload.toNat = free.highest size a ∧
      p.blockStart.toNat + expBlockSize.toNat = p.payload.toNat := by
  rw [toNat_fitInFree ha hb] at hfit
  have hstop := toNat_stop hb
  have hlow := lowest_le_highest hfit hs
  have hge : free.lo + 20 ≤ free.lowest a := le_ceilTo ha.pos _
  have hhigh : free.highest size a ≤ free.hi - size.toNat := floorTo_le _ _
  have hsub : (free.stop - size.toUInt64).toNat = free.hi - size.toNat := by
    rw [UInt64.toNat_sub_of_le, hstop, UInt32.toNat_toUInt64]
    rw [UInt64.le_iff_toNat_le, hstop, UInt32.toNat_toUInt64]
    omega
  have hpay : (alignDown (free.stop - size.toUInt64) a).toNat = free.highest size a := by
    rw [ha.toNat_alignDown, hsub, Block.highest]
  have hhead : (alignDown (free.stop - size.toUInt64) a - expBlockSize.toUInt64).toNat =
      free.highest size a - 20 := by
    rw [UInt64.toNat_sub_of_le, hpay, UInt32.toNat_toUInt64, toNat_expBlockSize]
    rw [UInt64.le_iff_toNat_le, hpay, UInt32.toNat_toUInt64, toNat_expBlockSize]
    omega
  have hok : ¬alignDown (free.stop - size.toUInt64) a - expBlockSize.toUInt64 < free.start := by
    rw [UInt64.lt_iff_toNat_lt, hhead]
    change ¬_ < free.lo
    omega
  refine ⟨_, by simp only [place, if_true]; rw [if_neg hok], ?_, hstop, hpay, ?_⟩
  swap
  · rw [hhead, hpay, toNat_expBlockSize]
    omega
  constructor
  case start_le => rw [hhead]; omega
  case header => rw [hhead, hpay, toNat_expBlockSize]; omega
  case payload_le => rw [hpay, hstop]; omega
  case end_le => exact hstop.le
  case aligned => rw [hpay]; exact dvd_floorTo _ _

theorem place_top (ha : IsAlignment a) (hb : free.hi ≤ userSpaceEnd) (hs : 0 < size.toNat)
    (hfit : size.toNat ≤ (fitInFree free a).toNat) :
    ∃ p, place free size a false = some p ∧ p.Fits free size a ∧
      p.blockStart = free.start ∧ p.payload.toNat = free.lowest a ∧
      p.blockEnd.toNat = free.lowest a + size.toNat := by
  rw [toNat_fitInFree ha hb] at hfit
  have hstop := toNat_stop hb
  have hlow := toNat_lowest ha hb
  have hge : free.lo + 20 ≤ free.lowest a := le_ceilTo ha.pos _
  have hend : (alignUp (free.start + expBlockSize.toUInt64) a + size.toUInt64).toNat =
      free.lowest a + size.toNat := by
    rw [userSpaceEnd] at hb
    rw [UInt64.toNat_add, hlow, UInt32.toNat_toUInt64]
    apply Nat.mod_eq_of_lt
    omega
  have hok : ¬alignUp (free.start + expBlockSize.toUInt64) a + size.toUInt64 > free.stop := by
    rw [gt_iff_lt, UInt64.lt_iff_toNat_lt, hend, hstop]
    omega
  refine ⟨_, by simp only [place, Bool.false_eq_true, if_false]; rw [if_neg hok], ?_, rfl, hlow,
    hend⟩
  constructor
  case start_le => exact le_rfl
  case header => rw [hlow]; exact hge
  case payload_le => rw [hend, hlow]
  case end_le => rw [hend]; omega
  case aligned => rw [hlow]; exact dvd_ceilTo _ _

theorem place_fits (ha : IsAlignment a) (hb : free.hi ≤ userSpaceEnd) (hs : 0 < size.toNat)
    (hfit : size.toNat ≤ (fitInFree free a).toNat) (fromBottom : Bool) :
    ∃ p, place free size a fromBottom = some p ∧ p.Fits free size a ∧
      (fromBottom = true → p.blockEnd.toNat = free.hi) ∧
      (fromBottom = false → p.blockStart = free.start) := by
  cases fromBottom with
  | true =>
    obtain ⟨p, hp, hf, he, -⟩ := place_bottom ha hb hs hfit
    exact ⟨p, hp, hf, fun _ => he, by simp⟩
  | false =>
    obtain ⟨p, hp, hf, he, -⟩ := place_top ha hb hs hfit
    exact ⟨p, hp, hf, by simp, fun _ => he⟩

structure Carves (free : Block) (size : UInt32) (payload : UInt64) (used : Block)
    (mid : List Block) : Prop where
  tiles : Tiles Block.lo Block.hi mid free.lo free.hi
  separated : Separated (fun b => b.used = false) mid
  sound : ∀ b ∈ mid, b.Sound
  mem : used ∈ mid
  only : ∀ b ∈ mid, b.used = true → b = used
  used_eq : used.used = true
  payload_eq : used.payload = payload
  payloadSize_eq : used.payloadSize = size

variable {p : Placement}

theorem Placement.Fits.toNat_size (hp : p.Fits free size a) :
    (p.blockEnd - p.blockStart).toUInt32.toNat = p.blockEnd.toNat - p.blockStart.toNat := by
  obtain ⟨h1, h2, h3, h4, -⟩ := hp
  have hsz := free.size.toNat_lt
  rw [Block.hi, Block.lo] at *
  exact toNat_gap (by omega) (by omega)

theorem block_holds (hp : p.Fits free size a) (hs : 0 < size.toNat) {b : Block}
    (hpay : b.payload = p.payload) (hsize : b.payloadSize = size)
    (hlo : b.lo ≤ p.blockStart.toNat) (hhi : p.blockEnd.toNat ≤ b.hi) : b.Holds := by
  obtain ⟨-, h2, h3, -, -⟩ := hp
  refine ⟨?_, ?_, hsize ▸ hs⟩
  · rw [hpay]; omega
  · rw [hpay, hsize]; omega

theorem sound_of_used {b : Block} (hu : b.used = true) (h : b.Holds) : b.Sound := by
  rw [Block.Sound, if_pos hu]
  exact h

theorem freeBlock_sound (start : UInt64) (size : UInt32) : (freeBlock start size).Sound :=
  ⟨rfl, rfl⟩

theorem carves_single (used : Block) (hlo : used.lo = free.lo) (hhi : used.hi = free.hi)
    (hu : used.used = true) (h : used.Holds) :
    Carves free used.payloadSize used.payload used [used] := by
  obtain ⟨h1, h2, h3⟩ := h
  refine ⟨⟨hlo, by omega, hhi⟩, .singleton _, ?_, by simp, by simp, hu, rfl, rfl⟩
  intro b hb
  obtain rfl := List.mem_singleton.1 hb
  exact sound_of_used hu ⟨h1, h2, h3⟩

theorem carves_pair {used rest : Block} (first : Bool) (hu : used.used = true) (h : used.Holds)
    (hr : rest.used = false) (hs : rest.Sound)
    (ht : Tiles Block.lo Block.hi (if first then [used, rest] else [rest, used]) free.lo free.hi) :
    Carves free used.payloadSize used.payload used (if first then [used, rest] else [rest, used]) := by
  have hmem : ∀ b ∈ (if first then [used, rest] else [rest, used]), b = used ∨ b = rest := by
    cases first <;> simp [or_comm]
  refine ⟨ht, ?_, ?_, by cases first <;> simp, ?_, hu, rfl, rfl⟩
  · cases first <;> simp [Separated, hu]
  · intro b hb
    rcases hmem b hb with rfl | rfl
    · exact sound_of_used hu h
    · exact hs
  · intro b hb hbu
    rcases hmem b hb with rfl | rfl
    · rfl
    · simp [hr] at hbu

theorem replacement_bottom (hp : p.Fits free size a) (hs : 0 < size.toNat)
    (hend : p.blockEnd.toNat = free.hi) :
    ∃ used, Carves free size p.payload used (replacement free p size true) := by
  have hlen := hp.toNat_size
  have hfree := free.size.toNat_lt
  have hfhi : free.hi = free.lo + free.size.toNat := rfl
  obtain ⟨h1, h2, h3, h4, -⟩ := id hp
  rw [toNat_expBlockSize] at h2
  have hbefore : (p.blockStart - free.start).toUInt32.toNat = p.blockStart.toNat - free.lo :=
    toNat_gap h1 (by change _ - free.lo < _; omega)
  have hhi : (p.block size true).hi = p.blockEnd.toNat :=
    (hi_eq (s := p.blockStart.toNat) rfl hlen).trans (by omega)
  simp only [replacement, if_true, ge_iff_le, gt_iff_lt, UInt32.le_iff_toNat_le,
    UInt32.lt_iff_toNat_lt, hbefore, toNat_minSplit]
  split
  next hge =>
    have hrest : (freeBlock free.start (p.blockStart - free.start).toUInt32).hi =
        p.blockStart.toNat :=
      (hi_eq (b := freeBlock _ _) (s := free.lo) rfl hbefore).trans (by omega)
    refine ⟨_, carves_pair false rfl (block_holds hp hs rfl rfl le_rfl hhi.ge) rfl
      (freeBlock_sound _ _) ⟨rfl, ?_, hrest.symm, ?_, hhi.trans hend⟩⟩
    · rw [hrest]; change free.lo < _; omega
    · rw [hhi]; change p.blockStart.toNat < _; omega
  next hlt =>
    split
    next hpos =>
      have hsum : ((p.block size true).size + (p.blockStart - free.start).toUInt32).toNat =
          free.size.toNat := by
        change UInt32.toNat ((p.blockEnd - p.blockStart).toUInt32 + _) = _
        rw [UInt32.toNat_add, hlen, hbefore, Nat.mod_eq_of_lt (by omega)]
        omega
      let used := { p.block size true with
        start := free.start, size := (p.block size true).size + (p.blockStart - free.start).toUInt32 }
      have hwide : used.hi = free.hi := hi_eq (s := free.lo) rfl hsum
      exact ⟨_, carves_single used rfl hwide rfl
        (block_holds hp hs rfl rfl h1 (hend.trans hwide.symm).le)⟩
    next hzero =>
      have hz : p.blockStart.toNat = free.lo := by
        have : ¬0 < p.blockStart.toNat - free.lo := hzero
        omega
      exact ⟨_, carves_single (p.block size true) hz (hhi.trans hend) rfl (block_holds hp hs rfl rfl le_rfl hhi.ge)⟩

theorem replacement_top (hp : p.Fits free size a) (hb : free.hi ≤ userSpaceEnd)
    (hs : 0 < size.toNat) (hstart : p.blockStart = free.start) :
    ∃ used, Carves free size p.payload used (replacement free p size false) := by
  have hlen := hp.toNat_size
  have hfree := free.size.toNat_lt
  have hfhi : free.hi = free.lo + free.size.toNat := rfl
  have hstop := toNat_stop hb
  obtain ⟨h1, h2, h3, h4, -⟩ := id hp
  rw [toNat_expBlockSize] at h2
  have hlo : p.blockStart.toNat = free.lo := by rw [hstart]; rfl
  have hafter : (free.stop - p.blockEnd).toUInt32.toNat = free.hi - p.blockEnd.toNat := by
    rw [← hstop]
    exact toNat_gap (hstop ▸ h4) (by omega)
  have hhi : (p.block size false).hi = p.blockEnd.toNat :=
    (hi_eq (s := p.blockStart.toNat) rfl hlen).trans (by omega)
  simp only [replacement, Bool.false_eq_true, if_false, ge_iff_le, UInt32.le_iff_toNat_le, hafter,
    toNat_minSplit]
  split
  next hge =>
    have hrest : (freeBlock p.blockEnd (free.stop - p.blockEnd).toUInt32).hi = free.hi :=
      (hi_eq (s := p.blockEnd.toNat) rfl hafter).trans (by omega)
    refine ⟨_, carves_pair true rfl (block_holds hp hs rfl rfl le_rfl hhi.ge) rfl
      (freeBlock_sound _ _) ⟨hlo, ?_, hhi.symm, ?_, hrest⟩⟩
    · rw [hhi]; change p.blockStart.toNat < _; omega
    · rw [hrest]; change p.blockEnd.toNat < _; omega
  next hlt =>
    have hsum : ((p.block size false).size + (free.stop - p.blockEnd).toUInt32).toNat =
        free.size.toNat := by
      change UInt32.toNat ((p.blockEnd - p.blockStart).toUInt32 + _) = _
      rw [UInt32.toNat_add, hlen, hafter, Nat.mod_eq_of_lt (by omega)]
      omega
    let used := { p.block size false with
      size := (p.block size false).size + (free.stop - p.blockEnd).toUInt32 }
    have hwide : used.hi = free.hi := (hi_eq (s := p.blockStart.toNat) rfl hsum).trans (by omega)
    exact ⟨_, carves_single used hlo hwide rfl (block_holds hp hs rfl rfl le_rfl (h4.trans hwide.ge))⟩

end CoreinitNx.ExpHeap
