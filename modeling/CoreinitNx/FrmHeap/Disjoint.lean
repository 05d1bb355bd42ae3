import CoreinitNx.FrmHeap.Runs

namespace CoreinitNx.FrmHeap

-- `recorded` is how many states were on record when the allocation was made.
structure Allocation where
  start : UInt64
  size : UInt32
  alignment : Int32
  recorded : Nat
deriving DecidableEq, Repr

namespace Allocation

def fromTail (a : Allocation) : Bool := (normaliseAlignment a.alignment).2

def stop (a : Allocation) : Nat := a.start.toNat + a.size.toNat

def Aligned (a : Allocation) : Prop := (normaliseAlignment a.alignment).1.toNat ∣ a.start.toNat

def Apart (a b : Allocation) : Prop := a.stop ≤ b.start.toNat ∨ b.stop ≤ a.start.toNat

def FreedBy (mode : UInt32) (a : Allocation) : Prop :=
  if a.fromTail then mode &&& memFrmHeapFreeTail ≠ 0 else mode &&& memFrmHeapFreeHead ≠ 0

instance (mode : UInt32) (a : Allocation) : Decidable (a.FreedBy mode) := by
  rw [FreedBy]
  infer_instance

end Allocation

-- The live allocations of the heap after a call on it, from those before and the result.
def track (h : HostFrmHeap) (live : List Allocation) (result : UInt64) : Call → List Allocation
  | .alloc size alignment =>
    if result = 0 then live else ⟨result, requested size, alignment, h.states.length⟩ :: live
  | .free mode => live.filter fun a => ¬a.FreedBy mode
  | .freeByState tag =>
    match selected h tag with
    | none => live
    | some (idx, _) => live.filter fun a => a.recorded ≤ idx
  | .record _ | .adjust | .create _ _ | .destroy => live

inductive Reachable (heap : UInt64) (size : UInt32) : FrmHeaps → List Allocation → Prop
  | create (s : FrmHeaps) (flags : UInt32) : InUserSpace heap size →
      (memCreateFrmHeapEx s heap size flags).1 ≠ 0 →
      Reachable heap size (memCreateFrmHeapEx s heap size flags).2 []
  | call {s : FrmHeaps} {live : List Allocation} (c : Call) : Reachable heap size s live →
      c.keepsHeap = true →
      Reachable heap size (exec s heap c).2
        (track (s.heaps.view heap) live (exec s heap c).1 c)
  | elsewhere {s : FrmHeaps} {live : List Allocation} (other : UInt64) (c : Call) :
      Reachable heap size s live → other ≠ heap → Reachable heap size (exec s other c).2 live
  -- The game's own, at any address.
  | write {s : FrmHeaps} {live : List Allocation} (x : UInt64) (v : UInt8) :
      Reachable heap size s live →
      Reachable heap size { s with memory := Function.update s.memory x v } live

-- The two ends keep off the live allocations, whatever has become of the region between them.
structure Clear (start head tail : UInt64) (live : List Allocation) : Prop where
  start_head : start.toNat ≤ head.toNat
  start_tail : start.toNat ≤ tail.toNat
  head_room : head.toNat ≤ userSpaceEnd
  tail_room : tail.toNat ≤ userSpaceEnd
  heads : ∀ a ∈ live, a.fromTail = false → a.stop ≤ head.toNat
  tails : ∀ a ∈ live, a.fromTail = true → tail.toNat ≤ a.start.toNat
  order : head.toNat ≤ tail.toNat ∨ ∀ a ∈ live, a.fromTail = false

structure Separate (h : HostFrmHeap) (live : List Allocation) : Prop where
  alive : h.live = true
  start_pos : 0 < h.dataStart.toNat
  start_end : h.dataStart.toNat ≤ h.dataEnd.toNat
  end_room : h.dataEnd.toNat ≤ userSpaceEnd
  ends : Clear h.dataStart h.head h.tail live
  states : ∀ i st, h.states[i]? = some st →
    Clear h.dataStart st.head st.tail (live.filter fun a => a.recorded ≤ i)
  recorded : ∀ a ∈ live, a.recorded ≤ h.states.length
  apart : live.Pairwise Allocation.Apart
  aligned : ∀ a ∈ live, a.Aligned

variable {h h' : HostFrmHeap} {live live' : List Allocation} {start head tail r : UInt64}
  {size : UInt32} {alignment : Int32}

theorem Clear.mono (h : Clear start head tail live) (hsub : live' ⊆ live) :
    Clear start head tail live' :=
  ⟨h.start_head, h.start_tail, h.head_room, h.tail_room, fun a ha => h.heads a (hsub ha),
    fun a ha => h.tails a (hsub ha), h.order.imp id fun hall a ha => hall a (hsub ha)⟩

theorem Clear.apart {a : Allocation} (h : Clear start head tail live)
    (hhead : head.toNat ≤ a.start.toNat) (htail : a.stop ≤ tail.toNat) :
    ∀ b ∈ live, a.Apart b := by
  intro b hb
  cases hside : b.fromTail with
  | false => exact .inr ((h.heads b hb hside).trans hhead)
  | true => exact .inl (htail.trans (h.tails b hb hside))

theorem Clear.push_head {a : Allocation} {stop : UInt64} (h : Clear start head tail live)
    (hside : a.fromTail = false) (hhead : head.toNat ≤ a.start.toNat)
    (hstop : stop.toNat = a.stop) (htail : stop.toNat ≤ tail.toNat) :
    Clear start stop tail (a :: live) := by
  have hup : head.toNat ≤ stop.toNat := by
    rw [hstop]
    exact hhead.trans (Nat.le_add_right _ _)
  refine ⟨h.start_head.trans hup, h.start_tail, htail.trans h.tail_room, h.tail_room, ?_, ?_,
    .inl htail⟩
  · intro b hb hbside
    rcases List.mem_cons.1 hb with rfl | hb
    · exact hstop.ge
    · exact (h.heads b hb hbside).trans hup
  · intro b hb hbside
    rcases List.mem_cons.1 hb with rfl | hb
    · rw [hside] at hbside
      cases hbside
    · exact h.tails b hb hbside

theorem Clear.push_tail {a : Allocation} (h : Clear start head tail live)
    (hside : a.fromTail = true) (hhead : head.toNat ≤ a.start.toNat)
    (htail : a.stop ≤ tail.toNat) : Clear start head a.start (a :: live) := by
  have hdown : a.start.toNat ≤ tail.toNat := (Nat.le_add_right _ _).trans htail
  refine ⟨h.start_head, h.start_head.trans hhead, h.head_room, hdown.trans h.tail_room, ?_, ?_,
    .inl hhead⟩
  · intro b hb hbside
    rcases List.mem_cons.1 hb with rfl | hb
    · rw [hside] at hbside
      cases hbside
    · exact h.heads b hb hbside
  · intro b hb hbside
    rcases List.mem_cons.1 hb with rfl | hb
    · exact le_rfl
    · exact hdown.trans (h.tails b hb hbside)

theorem Separate.apart_alloc (hs : Separate h live)
    (ha : allocateIn h size alignment = some (r, h')) (n : Nat) :
    ∀ b ∈ live, (⟨r, size, alignment, n⟩ : Allocation).Apart b := by
  obtain ⟨-, ⟨-, -, hhead, htail⟩ | ⟨-, stop, -, hhead, hstop, htail⟩⟩ :=
    allocateIn_some hs.ends.head_room hs.ends.tail_room ha
  · exact hs.ends.apart hhead htail
  · exact hs.ends.apart hhead (hstop.symm.trans_le htail)

theorem Separate.alloc (hs : Separate h live) (ha : allocateIn h size alignment = some (r, h')) :
    Separate h' (⟨r, size, alignment, h.states.length⟩ :: live) := by
  generalize ha' : (⟨r, size, alignment, h.states.length⟩ : Allocation) = a
  have hstart : a.start = r := ha' ▸ rfl
  have hside : a.fromTail = (normaliseAlignment alignment).2 := ha' ▸ rfl
  have hstop : a.stop = r.toNat + size.toNat := ha' ▸ rfl
  have hapart : ∀ b ∈ live, a.Apart b := ha' ▸ hs.apart_alloc ha h.states.length
  have hstates : ∀ i st, h.states[i]? = some st →
      Clear h.dataStart st.head st.tail ((a :: live).filter fun a => a.recorded ≤ i) := by
    intro i st hst
    obtain ⟨hi, -⟩ := List.getElem?_eq_some_iff.1 hst
    have hlater : ¬decide (a.recorded ≤ i) = true := by
      rw [← ha']
      simpa using hi
    have hsame : (a :: live).filter (fun a => decide (a.recorded ≤ i)) =
        live.filter fun a => decide (a.recorded ≤ i) := List.filter_cons_of_neg hlater
    rw [hsame]
    exact hs.states i st hst
  have hrecorded : ∀ b ∈ a :: live, b.recorded ≤ h.states.length :=
    List.forall_mem_cons.2 ⟨ha' ▸ le_rfl, hs.recorded⟩
  obtain ⟨hdvd, hcase⟩ := allocateIn_some hs.ends.head_room hs.ends.tail_room ha
  have haligned : ∀ b ∈ a :: live, b.Aligned :=
    List.forall_mem_cons.2 ⟨ha' ▸ hdvd, hs.aligned⟩
  rw [← hside, ← hstop] at hcase
  rcases hcase with ⟨htop, rfl, hhead, htail⟩ | ⟨hbottom, stop, rfl, hhead, hat, htail⟩
  · have hends := hs.ends.push_tail htop (hstart ▸ hhead) htail
    rw [hstart] at hends
    exact ⟨hs.alive, hs.start_pos, hs.start_end, hs.end_room, hends, hstates, hrecorded,
      List.pairwise_cons.2 ⟨hapart, hs.apart⟩, haligned⟩
  · have hends := hs.ends.push_head hbottom (hstart ▸ hhead) hat htail
    exact ⟨hs.alive, hs.start_pos, hs.start_end, hs.end_room, hends, hstates, hrecorded,
      List.pairwise_cons.2 ⟨hapart, hs.apart⟩, haligned⟩

theorem Separate.alloc_ne_zero (hs : Separate h live)
    (ha : allocateIn h size alignment = some (r, h')) : r ≠ 0 := by
  rintro rfl
  have hpos := hs.start_pos
  have hstart := hs.ends.start_head
  have hzero : (0 : UInt64).toNat = 0 := rfl
  obtain ⟨-, ⟨-, -, hhead, -⟩ | ⟨-, stop, -, hhead, -⟩⟩ :=
    allocateIn_some hs.ends.head_room hs.ends.tail_room ha <;> omega

theorem Separate.record (hs : Separate h live) (tag : UInt32) :
    Separate { h with states := h.states ++ [⟨tag, h.head, h.tail⟩] } live := by
  refine ⟨hs.alive, hs.start_pos, hs.start_end, hs.end_room, hs.ends, fun i st hst => ?_, fun a ha => ?_,
    hs.apart, hs.aligned⟩
  · by_cases hi : i < h.states.length
    · rw [List.getElem?_append_left hi] at hst
      exact hs.states i st hst
    · rw [List.getElem?_append_right (Nat.not_lt.1 hi)] at hst
      have hmem := List.mem_of_getElem? hst
      obtain rfl := List.mem_singleton.1 hmem
      exact hs.ends.mono List.filter_sublist.subset
  · rw [List.length_append]
    exact (hs.recorded a ha).trans (Nat.le_add_right _ _)

theorem Separate.freeByState {tag : UInt32} {idx : Nat} {st : State} (hs : Separate h live)
    (hsel : selected h tag = some (idx, st)) :
    Separate { h with head := st.head, tail := st.tail, states := h.states.take idx }
      (live.filter fun a => a.recorded ≤ idx) := by
  have hget : h.states[idx]? = some st := by
    obtain ⟨i, -, hi⟩ := Option.bind_eq_some_iff.1 hsel
    obtain ⟨st', hget, heq⟩ := Option.map_eq_some_iff.1 hi
    cases heq
    exact hget
  obtain ⟨hlt, -⟩ := List.getElem?_eq_some_iff.1 hget
  refine ⟨hs.alive, hs.start_pos, hs.start_end, hs.end_room, hs.states idx st hget, fun i st' hst => ?_,
    fun a ha => ?_, hs.apart.filter _, fun a ha => hs.aligned a ((List.mem_filter.1 ha).1)⟩
  · have hst' : h.states[i]? = some st' := by
      rw [List.getElem?_take] at hst
      split at hst
      next => exact hst
      next => cases hst
    refine (hs.states i st' hst').mono fun a ha => ?_
    rw [List.mem_filter] at ha ⊢
    exact ⟨(List.mem_filter.1 ha.1).1, ha.2⟩
  · have hle := (List.mem_filter.1 ha).2
    rw [List.length_take, Nat.min_eq_left hlt.le]
    simpa using hle

theorem Separate.adjust (hs : Separate h live) :
    Separate { h with dataEnd := h.head, tail := h.head } live := by
  have hends := hs.ends
  refine ⟨hs.alive, hs.start_pos, hends.start_head, hends.head_room, ?_, hs.states, hs.recorded, hs.apart,
    hs.aligned⟩
  refine ⟨hends.start_head, hends.start_head, hends.head_room, hends.head_room, hends.heads, ?_,
    .inl le_rfl⟩
  intro a ha hside
  rcases hends.order with hle | hnone
  · exact hle.trans (hends.tails a ha hside)
  · rw [hnone a ha] at hside
    cases hside

theorem freeIn_eq (h : HostFrmHeap) (mode : UInt32) : freeIn h mode =
    { h with
      head := if mode &&& memFrmHeapFreeHead ≠ 0 then h.dataStart else h.head
      tail := if mode &&& memFrmHeapFreeTail ≠ 0 then h.dataEnd else h.tail
      states := if mode &&& memFrmHeapFreeAll = memFrmHeapFreeAll then [] else h.states } := by
  simp only [freeIn]
  split <;> split <;> split <;> rfl

theorem Clear.free {stop : UInt64} (h : Clear start head tail live)
    (hstop : start.toNat ≤ stop.toNat) (hroom : stop.toNat ≤ userSpaceEnd) (mode : UInt32) :
    Clear start (if mode &&& memFrmHeapFreeHead ≠ 0 then start else head)
      (if mode &&& memFrmHeapFreeTail ≠ 0 then stop else tail)
      (live.filter fun a => ¬a.FreedBy mode) := by
  have hkept : ∀ a ∈ live.filter (fun a => ¬a.FreedBy mode), a ∈ live ∧ ¬a.FreedBy mode := by
    intro a ha
    simpa using List.mem_filter.1 ha
  refine ⟨?_, ?_, ?_, ?_, fun a ha hside => ?_, fun a ha hside => ?_, ?_⟩
  · split
    next => exact le_rfl
    next => exact h.start_head
  · split
    next => exact hstop
    next => exact h.start_tail
  · split
    next => exact h.start_head.trans h.head_room
    next => exact h.head_room
  · split
    next => exact hroom
    next => exact h.tail_room
  · obtain ⟨hmem, hnot⟩ := hkept a ha
    rw [Allocation.FreedBy, hside, if_neg Bool.false_ne_true] at hnot
    rw [if_neg hnot]
    exact h.heads a hmem hside
  · obtain ⟨hmem, hnot⟩ := hkept a ha
    rw [Allocation.FreedBy, hside, if_pos rfl] at hnot
    rw [if_neg hnot]
    exact h.tails a hmem hside
  · by_cases htail : mode &&& memFrmHeapFreeTail ≠ 0
    · refine .inr fun a ha => ?_
      obtain ⟨-, hnot⟩ := hkept a ha
      refine eq_false_of_ne_true fun hside => hnot ?_
      rwa [Allocation.FreedBy, hside, if_pos rfl]
    · rw [if_neg htail]
      split
      next => exact .inl h.start_tail
      next => exact h.order.imp id fun hall a ha => hall a (hkept a ha).1

theorem freedBy_all {mode : UInt32} (h : mode &&& memFrmHeapFreeAll = memFrmHeapFreeAll)
    (a : Allocation) : a.FreedBy mode := by
  have hhead : mode &&& memFrmHeapFreeHead = memFrmHeapFreeHead := by
    have hsub : memFrmHeapFreeHead = memFrmHeapFreeAll &&& memFrmHeapFreeHead := by decide
    rw [hsub, ← UInt32.and_assoc, h]
  have htail : mode &&& memFrmHeapFreeTail = memFrmHeapFreeTail := by
    have hsub : memFrmHeapFreeTail = memFrmHeapFreeAll &&& memFrmHeapFreeTail := by decide
    rw [hsub, ← UInt32.and_assoc, h]
  rw [Allocation.FreedBy]
  rw [hhead, htail]
  split <;> decide

theorem Separate.free (hs : Separate h live) (mode : UInt32) :
    Separate (freeIn h mode) (live.filter fun a => ¬a.FreedBy mode) := by
  rw [freeIn_eq]
  refine ⟨hs.alive, hs.start_pos, hs.start_end, hs.end_room, hs.ends.free hs.start_end hs.end_room mode,
    fun i st hst => ?_, fun a ha => ?_, hs.apart.filter _,
    fun a ha => hs.aligned a (List.mem_filter.1 ha).1⟩
  · simp only at hst
    split at hst
    next => cases hst
    next =>
      refine (hs.states i st hst).mono fun a ha => ?_
      rw [List.mem_filter] at ha ⊢
      exact ⟨(List.mem_filter.1 ha.1).1, ha.2⟩
  · simp only
    rw [List.mem_filter] at ha
    split
    next hall => exact absurd (freedBy_all hall a) (by simpa using ha.2)
    next => exact hs.recorded a ha.1

theorem Separate.create (s : FrmHeaps) (flags : UInt32) {heap : UInt64}
    (hroom : InUserSpace heap size) (hok : (memCreateFrmHeapEx s heap size flags).1 ≠ 0) :
    Separate ((memCreateFrmHeapEx s heap size flags).2.heaps.view heap) [] := by
  obtain ⟨-, hinv, hstates, hpos⟩ := memCreate_inv s flags hroom hok
  obtain ⟨hstart, hhead, htail⟩ := hinv.bounds
  refine ⟨hinv.alive, hpos, hstart.trans (hhead.trans htail), hinv.room, ?_, fun i st hst => ?_, by simp,
    .nil, by simp⟩
  · exact ⟨hstart, hstart.trans hhead, hinv.head_room, hinv.tail_room, by simp, by simp, .inl hhead⟩
  · rw [hstates] at hst
    cases hst

theorem Separate.call {s : FrmHeaps} {heap : UInt64} (hz : heap ≠ 0)
    (hs : Separate (s.heaps.view heap) live) {c : Call} (hk : c.keepsHeap = true) :
    Separate ((exec s heap c).2.heaps.view heap)
      (track (s.heaps.view heap) live (exec s heap c).1 c) := by
  rw [exec_view hz hs.alive hk]
  cases c with
  | create | destroy => cases hk
  | free mode => exact hs.free mode
  | record tag => exact hs.record tag
  | adjust =>
    simp only [effect, track]
    split
    next => exact hs
    next => exact hs.adjust
  | freeByState tag =>
    simp only [effect, freeByStateIn, track]
    cases hsel : selected (s.heaps.view heap) tag with
    | none => exact hs
    | some found => exact hs.freeByState hsel
  | alloc size alignment =>
    simp only [effect, track]
    split
    next hnull =>
      rcases exec_alloc_null hz hs.alive size alignment hnull with ha | ⟨h', ha⟩
      · rw [ha]
        exact hs
      · exact absurd rfl (hs.alloc_ne_zero ha)
    next hok =>
      obtain ⟨h', ha⟩ := exec_alloc_result hz hs.alive size alignment hok
      rw [ha]
      exact hs.alloc ha

theorem Reachable.separate {s : FrmHeaps} {heap : UInt64} (hr : Reachable heap size s live) :
    heap ≠ 0 ∧ Separate (s.heaps.view heap) live := by
  induction hr with
  | create s flags hroom hok =>
    exact ⟨(memCreate_inv s flags hroom hok).1, Separate.create s flags hroom hok⟩
  | call c _ hk ih =>
    obtain ⟨hz, hs⟩ := ih
    exact ⟨hz, hs.call hz hk⟩
  | elsewhere other c _ hne ih =>
    rw [exec_elsewhere _ c hne]
    exact ih
  | write x v _ ih => exact ih

theorem frm_heap_live_allocations_apart {s : FrmHeaps} {heap : UInt64}
    (hr : Reachable heap size s live) :
    live.Pairwise Allocation.Apart ∧ (∀ a ∈ live, a.Aligned) ∧
      (∀ a ∈ live, a.fromTail = false → a.stop ≤ (s.heaps.view heap).head.toNat) ∧
      ∀ n alignment, (memAllocFromFrmHeapEx s heap n alignment).1 ≠ 0 → ∀ a ∈ live,
        (⟨(memAllocFromFrmHeapEx s heap n alignment).1, requested n, alignment,
          (s.heaps.view heap).states.length⟩ : Allocation).Apart a := by
  obtain ⟨hz, hs⟩ := hr.separate
  refine ⟨hs.apart, hs.aligned, hs.ends.heads, fun n alignment hok => ?_⟩
  obtain ⟨h', ha⟩ := exec_alloc_result hz hs.alive n alignment hok
  exact hs.apart_alloc ha _

-- One block from each end, with a state recorded between them.
theorem frm_heap_live_allocations_apart_two_ended :
    let s₀ := (memCreateFrmHeapEx ⟨HandleTable.empty, fun _ => 0⟩ 0x1000 0x200 0).2
    let s₁ := (exec s₀ 0x1000 (.alloc 16 4)).2
    let s₂ := (exec s₁ 0x1000 (.record 1)).2
    let live₁ := track (s₀.heaps.view 0x1000) [] (exec s₀ 0x1000 (.alloc 16 4)).1 (.alloc 16 4)
    let live₂ := track (s₁.heaps.view 0x1000) live₁ (exec s₁ 0x1000 (.record 1)).1 (.record 1)
    let live := track (s₂.heaps.view 0x1000) live₂ (exec s₂ 0x1000 (.alloc 32 (-64))).1
      (.alloc 32 (-64))
    live = [⟨0x11C0, 32, -64, 1⟩, ⟨0x104C, 16, 4, 0⟩] ∧ live.Pairwise Allocation.Apart :=
  ⟨by decide +kernel, (frm_heap_live_allocations_apart (.call (.alloc 32 (-64))
    (.call (.record 1) (.call (.alloc 16 4) (.create ⟨HandleTable.empty, fun _ => 0⟩ 0
      (by unfold InUserSpace; decide) (by decide)) rfl) rfl) rfl)).1⟩

end CoreinitNx.FrmHeap
