import CoreinitNx.FrmHeap.Disjoint
import CoreinitNx.Library.Contents

namespace CoreinitNx.FrmHeap

open Contents

def HostFrmHeap.zeroes (h : HostFrmHeap) : Prop := h.flags &&& memHeapFlagZeroAllocated ≠ 0

instance (h : HostFrmHeap) : Decidable h.zeroes := inferInstanceAs (Decidable (_ ≠ _))

-- The bytes that a call clears: where they start, and how many.
def cleared (s : FrmHeaps) (heap : UInt64) : Call → Option (UInt64 × UInt32)
  | .alloc size alignment =>
    if heap ≠ 0 ∧ (s.heaps.view heap).live = true ∧ (s.heaps.view heap).zeroes then
      (allocateIn (s.heaps.view heap) (requested size) alignment).map fun r =>
        (r.1, requested size)
    else none
  | _ => none

def InBlock (block : UInt64 × UInt32) (x : UInt64) : Prop :=
  block.1.toNat ≤ x.toNat ∧ x.toNat < block.1.toNat + block.2.toNat

instance (block : UInt64 × UInt32) (x : UInt64) : Decidable (InBlock block x) :=
  inferInstanceAs (Decidable (_ ∧ _))

def clear (memory : Memory) : Option (UInt64 × UInt32) → Memory
  | some block => fun x => if InBlock block x then 0 else memory x
  | none => memory

theorem memset_zero (memory : Memory) (start : UInt64) (size : UInt32) :
    memset memory start 0 size = clear memory (some (start, size)) := by
  funext x
  exact if_congr (and_congr_left fun _ => UInt64.le_iff_toNat_le) rfl rfl

section Memory

variable {s : FrmHeaps} {heap : UInt64} {c : Call}

theorem cleared_dead (hdead : heap = 0 ∨ (s.heaps.view heap).live = false) :
    cleared s heap c = none := by
  cases c with
  | alloc size alignment =>
    rw [cleared, if_neg]
    rintro ⟨hz, hl, -⟩
    rcases hdead with h | h
    · exact hz h
    · rw [hl] at h
      cases h
  | _ => rfl

theorem exec_memory (s : FrmHeaps) (heap : UInt64) (c : Call) :
    (exec s heap c).2.memory = clear s.memory (cleared s heap c) := by
  have hmem := live_memory s heap
  rcases dead_or_live s heap with hdead | ⟨hz, hl⟩
  · have hnone := live_of_dead hdead
    rw [cleared_dead hdead, clear]
    cases c with
    | create size flags =>
      rw [exec, memCreateFrmHeapEx]
      split
      next => rfl
      next =>
        dsimp only
        split <;> rfl
    | destroy => rw [exec, memDestroyFrmHeap, hnone]; exact hmem
    | alloc size alignment => rw [exec, memAllocFromFrmHeapEx, hnone]; exact hmem
    | free mode => rw [exec, memFreeToFrmHeap, hnone]; exact hmem
    | record tag => rw [exec, memRecordStateForFrmHeap, hnone]; exact hmem
    | freeByState tag => rw [exec, memFreeByStateToFrmHeap, hnone]; exact hmem
    | adjust => rw [exec, memAdjustFrmHeap, hnone]; exact hmem
  · have hsome := live_of_live hz hl
    cases c with
    | create size flags =>
      rw [exec, memCreateFrmHeapEx]
      split
      next => rfl
      next =>
        dsimp only
        split <;> rfl
    | destroy => rw [exec, memDestroyFrmHeap, hsome]; exact hmem
    | free mode => rw [exec, memFreeToFrmHeap, hsome]; exact hmem
    | record tag => rw [exec, memRecordStateForFrmHeap, hsome]; exact hmem
    | freeByState tag =>
      rw [exec, memFreeByStateToFrmHeap, hsome]
      dsimp only
      split <;> exact hmem
    | adjust =>
      rw [exec, memAdjustFrmHeap, hsome]
      dsimp only
      split <;> exact hmem
    | alloc size alignment =>
      rw [exec, memAllocFromFrmHeapEx, hsome, cleared]
      dsimp only
      rw [← requested]
      cases ha : allocateIn (s.heaps.view heap) (requested size) alignment with
      | none =>
        dsimp only
        rw [Option.map_none, ite_self]
        exact hmem
      | some r =>
        dsimp only
        rw [Option.map_some, hmem, memset_zero]
        by_cases hzero : (s.heaps.view heap).zeroes
        · have hflag : (s.heaps.view heap).flags &&& memHeapFlagZeroAllocated ≠ 0 := hzero
          rw [if_pos hflag, if_pos ⟨hz, hl, hzero⟩]
        · have hflag : ¬(s.heaps.view heap).flags &&& memHeapFlagZeroAllocated ≠ 0 := hzero
          rw [if_neg hflag, if_neg fun h => hzero h.2.2]
          rfl

-- A clear is of the block that the allocation returns.
theorem cleared_some {block : UInt64 × UInt32} (h : cleared s heap c = some block) :
    ∃ n alignment h', c = .alloc n alignment ∧ block.2 = requested n ∧
      allocateIn (s.heaps.view heap) (requested n) alignment = some (block.1, h') := by
  cases c with
  | alloc n alignment =>
    rw [cleared] at h
    split at h
    next =>
      obtain ⟨⟨r, h'⟩, ha, hr⟩ := Option.map_eq_some_iff.1 h
      cases hr
      exact ⟨n, alignment, h', rfl, rfl, ha⟩
    next => cases h
  | _ => cases h

end Memory

-- `live` is not the program's: the live allocations of one heap.
structure Watched where
  heaps : FrmHeaps
  live : List Allocation

-- `write` is the game's own, at any address.
inductive Event where
  | call (heap : UInt64) (c : Call) (result : UInt64) (cleared : Option (UInt64 × UInt32))
  | write (x : UInt64) (v : UInt8)
deriving DecidableEq, Repr

namespace Watched

def after (heap : UInt64) (a : Watched) (k : UInt64) (c : Call) : Watched where
  heaps := (exec a.heaps k c).2
  live :=
    if k = heap then track (a.heaps.heaps.view heap) a.live (exec a.heaps heap c).1 c else a.live

def poke (a : Watched) (x : UInt64) (v : UInt8) : Watched :=
  { a with heaps := { a.heaps with memory := Function.update a.heaps.memory x v } }

-- The call leaves `p` allocated.
def Keeps (h : HostFrmHeap) (p : Allocation) : Call → Prop
  | .create _ _ | .destroy => False
  | .free mode => ¬p.FreedBy mode
  | .freeByState tag => ∀ idx st, selected h tag = some (idx, st) → p.recorded ≤ idx
  | .alloc _ _ | .record _ | .adjust => True

inductive Step (heap : UInt64) (p : Allocation) : Watched → Event → Watched → Prop
  | call {a : Watched} {k : UInt64} {c : Call} :
      (k = heap → Keeps (a.heaps.heaps.view heap) p c) →
      Step heap p a (.call k c (exec a.heaps k c).1 (cleared a.heaps k c)) (after heap a k c)
  | write {a : Watched} {x : UInt64} {v : UInt8} : Step heap p a (.write x v) (a.poke x v)

-- What the heap itself clears is not counted: it clears only what it hands out.
def written (heap : UInt64) : Event → UInt64 → Option UInt8
  | .write y v, x => if x = y then some v else none
  | .call k _ _ block, x => if k ≠ heap ∧ ∃ b ∈ block, InBlock b x then some 0 else none

structure Holds (heap : UInt64) (p : Allocation) (a : Watched) : Prop where
  separate : Separate (a.heaps.heaps.view heap) a.live
  mem : p ∈ a.live

section Kept

variable {heap k : UInt64} {p : Allocation} {a b d : Watched} {c : Call} {e : Event}
  {es : List Event} {x : UInt64} {h : HostFrmHeap} {live : List Allocation} {r : UInt64}

theorem Keeps.keepsHeap (hk : Keeps h p c) : c.keepsHeap = true := by
  cases c with
  | create | destroy => exact hk.elim
  | _ => rfl

theorem Keeps.mem_track (hk : Keeps h p c) (hp : p ∈ live) : p ∈ track h live r c := by
  cases c with
  | create | destroy => exact hk.elim
  | record | adjust => exact hp
  | alloc n alignment =>
    rw [track]
    split
    next => exact hp
    next => exact List.mem_cons_of_mem _ hp
  | free mode => exact List.mem_filter.2 ⟨hp, decide_eq_true hk⟩
  | freeByState tag =>
    rw [track]
    cases hsel : selected h tag with
    | none => exact hp
    | some found => exact List.mem_filter.2 ⟨hp, decide_eq_true (hk found.1 found.2 hsel)⟩

theorem Holds.step (hz : heap ≠ 0) (hh : Holds heap p a) (hs : Step heap p a e b) :
    Holds heap p b := by
  cases hs with
  | write => exact ⟨hh.separate, hh.mem⟩
  | @call k c hkeep =>
    rw [after]
    by_cases hk : k = heap
    · subst hk
      rw [if_pos rfl]
      exact ⟨hh.separate.call hz (hkeep rfl).keepsHeap, (hkeep rfl).mem_track hh.mem⟩
    · rw [if_neg hk]
      refine ⟨?_, hh.mem⟩
      rw [exec_elsewhere _ c hk]
      exact hh.separate

-- The heap clears nothing of a live allocation of its own.
theorem Holds.not_cleared (hh : Holds heap p a) (hx : InBlock (p.start, p.size) x)
    {block : UInt64 × UInt32} (hb : cleared a.heaps heap c = some block) : ¬InBlock block x := by
  obtain ⟨n, alignment, h', -, hsize, ha⟩ := cleared_some hb
  have hapart := hh.separate.apart_alloc ha 0 p hh.mem
  obtain ⟨hlo, hhi⟩ := hx
  rintro ⟨hlo', hhi'⟩
  rw [hsize] at hhi'
  rcases hapart with hd | hd <;> rw [Allocation.stop] at hd <;> dsimp only at hd hlo hhi <;> omega

theorem Holds.memory (hh : Holds heap p a) (hx : InBlock (p.start, p.size) x)
    (hs : Step heap p a e b) :
    b.heaps.memory x = (written heap e x).getD (a.heaps.memory x) := by
  cases hs with
  | @write y v =>
    change Function.update a.heaps.memory y v x = _
    rw [written]
    by_cases hy : x = y
    · rw [if_pos hy, hy, Function.update_self, Option.getD_some]
    · rw [if_neg hy, Function.update_of_ne hy, Option.getD_none]
  | @call k c hkeep =>
    change (exec a.heaps k c).2.memory x = _
    rw [exec_memory, written]
    cases hb : cleared a.heaps k c with
    | none =>
      rw [if_neg fun h => by obtain ⟨-, b, hb, -⟩ := h; cases hb]
      rfl
    | some block =>
      rw [clear]
      dsimp only
      by_cases hw : InBlock block x
      · have hk : k ≠ heap := by
          rintro rfl
          exact hh.not_cleared hx hb hw
        rw [if_pos hw, if_pos ⟨hk, block, rfl, hw⟩, Option.getD_some]
      · rw [if_neg hw, if_neg fun h => by obtain ⟨-, b, hb, hw'⟩ := h; cases hb; exact hw hw']
        rfl

end Kept

def allocated (s : FrmHeaps) (heap : UInt64) (n : UInt32) (alignment : Int32) : Allocation where
  start := (memAllocFromFrmHeapEx s heap n alignment).1
  size := requested n
  alignment := alignment
  recorded := (s.heaps.view heap).states.length

section Private

variable {s : FrmHeaps} {heap : UInt64} {size n : UInt32} {live : List Allocation}
  {alignment : Int32} {es : List Event} {d : Watched}

theorem holds_alloc (hz : heap ≠ 0) (hs : Separate (s.heaps.view heap) live)
    (hok : (memAllocFromFrmHeapEx s heap n alignment).1 ≠ 0) :
    Holds heap (allocated s heap n alignment)
      ⟨(memAllocFromFrmHeapEx s heap n alignment).2, allocated s heap n alignment :: live⟩ := by
  have hcall := hs.call (c := .alloc n alignment) hz rfl
  rw [exec, track, if_neg hok] at hcall
  exact ⟨hcall, List.mem_cons_self⟩

theorem alloc_memory (hz : heap ≠ 0) (hs : Separate (s.heaps.view heap) live)
    (hok : (memAllocFromFrmHeapEx s heap n alignment).1 ≠ 0) {x : UInt64}
    (hx : InBlock ((allocated s heap n alignment).start, (allocated s heap n alignment).size) x) :
    (memAllocFromFrmHeapEx s heap n alignment).2.memory x =
      if (s.heaps.view heap).zeroes then 0 else s.memory x := by
  have hmem := exec_memory s heap (.alloc n alignment)
  obtain ⟨h', ha⟩ := exec_alloc_result hz hs.alive n alignment hok
  rw [exec] at hmem
  rw [hmem, cleared]
  by_cases hzero : (s.heaps.view heap).zeroes
  · rw [if_pos hzero, if_pos ⟨hz, hs.alive, hzero⟩, ha]
    exact if_pos hx
  · rw [if_neg hzero, if_neg fun h => hzero h.2.2]
    rfl

-- What a heap hands out is memory of its own until a free or a state gives it back: cleared if
-- the heap says so, and from then on what the game, or another heap that reaches there, last wrote.
theorem frm_allocation_is_private (hr : Reachable heap size s live)
    (hok : (memAllocFromFrmHeapEx s heap n alignment).1 ≠ 0)
    (after : Transition.Run (Step heap (allocated s heap n alignment))
      ⟨(memAllocFromFrmHeapEx s heap n alignment).2, allocated s heap n alignment :: live⟩ es d) :
    allocated s heap n alignment ∈ d.live ∧ d.live.Pairwise Allocation.Apart ∧
      ∀ x, InBlock ((allocated s heap n alignment).start, (allocated s heap n alignment).size) x →
        d.heaps.memory x = (lastWrite (written heap) x es).getD
          (if (s.heaps.view heap).zeroes then 0 else s.memory x) := by
  obtain ⟨hz, hs⟩ := hr.separate
  have hstart := holds_alloc hz hs hok
  have hend : Holds heap (allocated s heap n alignment) d :=
    after.invariant_of (fun _ _ => trivial) hstart fun _ _ _ _ hh hs => hh.step hz hs
  refine ⟨hend.mem, hend.separate.apart, fun x hx => ?_⟩
  rw [← alloc_memory hz hs hok hx]
  refine (run_cell (m := fun a : Watched => a.heaps.memory)
    (I := Holds heap (allocated s heap n alignment)) after hstart fun hh hs => ?_).2
  exact ⟨hh.step hz hs, hh.memory hx hs⟩

-- The head block is cleared of what was written there before, and keeps its bytes when the tail
-- block is cleared and given back twice over.
theorem frm_allocation_is_private_two_ended :
    ∃ d : Watched, d.live = [⟨0x104C, 16, 4, 0⟩] ∧ d.heaps.memory 0x104E = 7 ∧
      d.heaps.memory 0x104F = 0 ∧ d.heaps.memory 0x105C = 9 := by
  have hroom : InUserSpace 0x1000 0x200 := by
    rw [InUserSpace, userSpaceEnd]
    decide
  have hcreate := Reachable.create ⟨HandleTable.empty, fun _ => 9⟩ 1 hroom (by decide)
  have hwritten := hcreate.write 0x104F 5
  generalize hs : ({ (memCreateFrmHeapEx ⟨HandleTable.empty, fun _ => 9⟩ 0x1000 0x200 1).2 with
    memory := Function.update (fun _ => 9) 0x104F 5 } : FrmHeaps) = s at hwritten
  have hkept : ¬(allocated s 0x1000 16 4).FreedBy 2 := by
    rw [← hs]
    decide +kernel
  have h0 : Transition.Run (Step 0x1000 (allocated s 0x1000 16 4))
      ⟨(memAllocFromFrmHeapEx s 0x1000 16 4).2, [allocated s 0x1000 16 4]⟩ _ _ :=
    .single (.write (x := 0x104E) (v := 7))
  have h1 := h0.snoc (.call (k := 0x1000) (c := .record 1) fun _ => trivial)
  have h2 := h1.snoc (.call (k := 0x1000) (c := .alloc 16 (-4)) fun _ => trivial)
  have h3 := h2.snoc (.call (k := 0x1000) (c := .freeByState 1) fun _ _ _ _ => by
    rw [allocated, ← hs]
    exact Nat.zero_le _)
  have h4 := h3.snoc (.call (k := 0x1000) (c := .free 2) fun _ => hkept)
  subst hs
  obtain ⟨-, -, hbytes⟩ := frm_allocation_is_private hwritten (by decide) h4
  exact ⟨_, by decide +kernel, (hbytes 0x104E (by decide +kernel)).trans (by decide +kernel),
    (hbytes 0x104F (by decide +kernel)).trans (by decide +kernel), by decide +kernel⟩

end Private

end Watched

end CoreinitNx.FrmHeap
