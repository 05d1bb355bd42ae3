import CoreinitNx.ExpHeap.Runs

namespace CoreinitNx.ExpHeap

open Tiling

-- `direction` is written but never read, so it is no part of the layout.
def Block.undirected (b : Block) : Block := { b with direction := 0 }

def layout (h : HostExpHeap) : List Block := h.blocks.map Block.undirected

def usedLayout (h : HostExpHeap) : Set Block := {b | b ∈ layout h ∧ b.used = true}

def freshLayout (heap : UInt64) (size : UInt32) : List Block :=
  [freeBlock (regionStart heap) (regionEnd heap size - regionStart heap).toUInt32]

variable {h h' : HostExpHeap} {b c : Block}

theorem undirected_mem_layout (hb : b ∈ h.blocks) : b.undirected ∈ layout h :=
  List.mem_map.2 ⟨b, hb, rfl⟩

theorem usedLayout_eq_image (h : HostExpHeap) :
    usedLayout h = Set.image Block.undirected (occupied h) := by
  ext b
  constructor
  · rintro ⟨hb, hu⟩
    obtain ⟨c, hc, rfl⟩ := List.mem_map.1 hb
    exact ⟨c, ⟨hc, hu⟩, rfl⟩
  · rintro ⟨c, ⟨hc, hu⟩, rfl⟩
    exact ⟨undirected_mem_layout hc, hu⟩

theorem undirected_eq (hb : b.Blank) (hc : c.Blank) (hub : b.used = false) (huc : c.used = false)
    (hlo : b.lo = c.lo) (hhi : b.hi = c.hi) : b.undirected = c.undirected := by
  obtain ⟨start, size, payload, payloadSize, used, direction⟩ := b
  obtain ⟨start', size', payload', payloadSize', used', direction'⟩ := c
  obtain ⟨hp, hs⟩ := hb
  obtain ⟨hp', hs'⟩ := hc
  simp only at hp hs hp' hs' hub huc
  subst hp hs hp' hs' hub huc
  have hstart : start = start' := UInt64.toNat_inj.1 hlo
  subst hstart
  have hsize : size = size' := by
    apply UInt32.toNat_inj.1
    rw [Block.hi] at hhi
    exact Nat.add_left_cancel hhi
  subst hsize
  rfl

theorem layout_eq_of_usedLayout (wf : WellFormed h) (wf' : WellFormed h')
    (hstart : h.dataStart = h'.dataStart) (hend : h.dataEnd = h'.dataEnd)
    (hused : usedLayout h = usedLayout h') : layout h = layout h' := by
  have ht : ∀ {g : HostExpHeap}, WellFormed g →
      Tiles Block.lo Block.hi (layout g) g.dataStart.toNat g.dataEnd.toNat :=
    fun wg => (tiles_map (f := Block.undirected) (fun _ => rfl) fun _ => rfl).2 wg.tiles
  have hsep : ∀ {g : HostExpHeap}, WellFormed g → Separated (fun b => b.used = false) (layout g) :=
    fun wg => (separated_map (f := Block.undirected) fun _ => Iff.rfl).2 wg.separated
  have ht' := ht wf'
  rw [← hstart, ← hend] at ht'
  refine (ht wf).eq_of_used ht' (hsep wf) (hsep wf') ?_ ?_
  · intro u hu
    have hu : u.used = true := by simpa using hu
    have hiff : u ∈ usedLayout h ↔ u ∈ usedLayout h' := by rw [hused]
    exact ⟨fun hm => (hiff.1 ⟨hm, hu⟩).1, fun hm => (hiff.2 ⟨hm, hu⟩).1⟩
  · intro x hx y hy hfx hfy hlo hhi
    obtain ⟨b, hb, rfl⟩ := List.mem_map.1 hx
    obtain ⟨c, hc, rfl⟩ := List.mem_map.1 hy
    exact undirected_eq (wf.blank hb hfx) (wf'.blank hc hfy) hfx hfy hlo hhi

theorem layout_eq_of_occupied (wf : WellFormed h) (wf' : WellFormed h')
    (hstart : h.dataStart = h'.dataStart) (hend : h.dataEnd = h'.dataEnd)
    (hocc : occupied h = occupied h') : layout h = layout h' :=
  layout_eq_of_usedLayout wf wf' hstart hend (by simp only [usedLayout_eq_image, hocc])

theorem fitInFree_undirected (b : Block) (a : UInt32) :
    fitInFree b.undirected a = fitInFree b a := rfl

theorem totalFree_layout (h : HostExpHeap) : totalFree (layout h) = totalFree h.blocks := by
  simp only [totalFree, layout, List.foldl_map]
  rfl

theorem largestFit_layout (a : UInt32) (h : HostExpHeap) :
    largestFit a (layout h) = largestFit a h.blocks := by
  simp only [largestFit, layout, List.foldl_map, fitInFree_undirected]
  rfl

section Queries

variable {s : ExpHeaps} {heap : UInt64}

theorem memGetTotalFreeSize_eq (hz : heap ≠ 0) (hl : (s.heaps.view heap).live = true) :
    (memGetTotalFreeSizeForExpHeap s heap).1 = totalFree (layout (s.heaps.view heap)) := by
  rw [memGetTotalFreeSizeForExpHeap, live_of_live hz hl, totalFree_layout]

theorem memGetAllocatableSize_eq (hz : heap ≠ 0) (hl : (s.heaps.view heap).live = true)
    (alignment : Int32) : (memGetAllocatableSizeForExpHeapEx s heap alignment).1 =
      largestFit (normaliseAlignment alignment).1 (layout (s.heaps.view heap)) := by
  rw [memGetAllocatableSizeForExpHeapEx, live_of_live hz hl, largestFit_layout]

end Queries

section Runs

variable {heap : UInt64} {size : UInt32} {s s' : ExpHeaps} {live live' : List Allocation}

theorem Inv.layout_eq (hi : Inv heap size h live) (hi' : Inv heap size h' live')
    (hocc : occupied h = occupied h') : layout h = layout h' :=
  layout_eq_of_occupied hi.wf hi'.wf (hi.dataStart.trans hi'.dataStart.symm)
    (hi.dataEnd.trans hi'.dataEnd.symm) hocc

theorem occupied_freeIn_allocateIn (hi : Inv heap size h live) {n : UInt32} (hn : 0 < n.toNat)
    {alignment : Int32} {payload : UInt64} (ha : allocateIn h n alignment = some (payload, h')) :
    occupied (freeIn h' payload) = occupied h := by
  obtain ⟨-, hi'⟩ := hi.alloc hn ha
  rw [occupied_freeIn hi'.wf]
  obtain ⟨pre, free, post, used, mid, hcut, hu, hc, -, rfl⟩ := allocateIn_some hi.wf hn ha
  rw [occupied_carve hcut hu hc]
  ext b
  constructor
  · rintro ⟨rfl | hb, hne⟩
    · exact absurd hc.payload_eq hne
    · exact hb
  · intro hb
    refine ⟨Set.mem_insert_of_mem _ hb, fun hpay => ?_⟩
    -- the fresh pointer was not outstanding, so no old block carries it
    obtain ⟨q, hq, hqb⟩ := hi.complete b hb
    have hnot := (List.nodup_cons.1 (List.map_cons ▸ hi'.distinct)).1
    exact hnot (List.mem_map.2 ⟨q, hq, hqb.trans hpay⟩)

theorem Reachable.free (hr : Reachable heap size s live) (block : UInt64) :
    Reachable heap size (memFreeToExpHeap s heap block) (live.filter fun p => p.ptr ≠ block) :=
  hr.call (.free block) rfl

theorem Reachable.layout_eq (hr : Reachable heap size s live) (hr' : Reachable heap size s' live')
    (hocc : occupied (s.heaps.view heap) = occupied (s'.heaps.view heap)) :
    layout (s.heaps.view heap) = layout (s'.heaps.view heap) := hr.inv.layout_eq hr'.inv hocc

theorem Reachable.occupied_free (hr : Reachable heap size s live) (block : UInt64) :
    occupied ((memFreeToExpHeap s heap block).heaps.view heap) =
      {b | b ∈ occupied (s.heaps.view heap) ∧ b.payload ≠ block} := by
  have hi := hr.inv
  by_cases hb : block = 0
  · subst hb
    rw [memFree_null hr.heap_ne_zero hi.alive]
    ext b
    exact ⟨fun hm => ⟨hm, hi.wf.payload_ne_zero hm⟩, fun hm => hm.1⟩
  · rw [memFree_view hr.heap_ne_zero hi.alive hb, occupied_freeIn hi.wf]

theorem Reachable.alloc_free (hr : Reachable heap size s live) (n : UInt32) (alignment : Int32)
    (hok : (memAllocFromExpHeapEx s heap n alignment).1 ≠ 0) :
    layout ((memFreeToExpHeap (memAllocFromExpHeapEx s heap n alignment).2 heap
      (memAllocFromExpHeapEx s heap n alignment).1).heaps.view heap) =
      layout (s.heaps.view heap) := by
  have hi := hr.inv
  have hr' : Reachable heap size (memAllocFromExpHeapEx s heap n alignment).2 _ :=
    hr.call (.alloc n alignment) rfl
  have hpos : 0 < (if n = 0 then 1 else n : UInt32).toNat := toNat_requested_pos n
  rcases memAlloc_cases hr.heap_ne_zero hi.alive n alignment with
    ⟨-, hzero, -⟩ | ⟨payload, h', ha, hp, hv⟩
  · exact absurd hzero hok
  · have hfree := memFree_view hr.heap_ne_zero hr'.inv.alive hok
    apply (hr'.free _).layout_eq hr
    rw [hfree, hv, hp]
    exact occupied_freeIn_allocateIn hi hpos ha

theorem Reachable.free_comm (hr : Reachable heap size s live) (p q : UInt64) :
    layout ((memFreeToExpHeap (memFreeToExpHeap s heap p) heap q).heaps.view heap) =
      layout ((memFreeToExpHeap (memFreeToExpHeap s heap q) heap p).heaps.view heap) := by
  apply ((hr.free p).free q).layout_eq ((hr.free q).free p)
  rw [(hr.free p).occupied_free, (hr.free q).occupied_free, hr.occupied_free, hr.occupied_free]
  ext b
  exact ⟨fun ⟨⟨hb, hp⟩, hq⟩ => ⟨⟨hb, hq⟩, hp⟩, fun ⟨⟨hb, hq⟩, hp⟩ => ⟨⟨hb, hp⟩, hq⟩⟩

def freeAll (s : ExpHeaps) (heap : UInt64) (order : List UInt64) : ExpHeaps :=
  order.foldl (fun s p => memFreeToExpHeap s heap p) s

theorem Reachable.freeAll (hr : Reachable heap size s live) (order : List UInt64) :
    Reachable heap size (freeAll s heap order) (live.filter fun p => p.ptr ∉ order) := by
  induction order generalizing s live with
  | nil => simpa [ExpHeap.freeAll] using hr
  | cons p order ih =>
    have hstep := ih (hr.free p)
    rw [List.filter_filter] at hstep
    have hlist : live.filter (fun q => q.ptr ∉ p :: order) =
        live.filter fun q => decide (q.ptr ∉ order) && decide (q.ptr ≠ p) := by
      apply List.filter_congr
      intro q _
      simp [Bool.and_comm]
    rw [hlist]
    exact hstep

theorem Reachable.created (hr : Reachable heap size s live) :
    ∃ s₀ flags, InUserSpace heap size ∧ (memCreateExpHeapEx s₀ heap size flags).1 ≠ 0 := by
  induction hr with
  | create s flags hroom hok => exact ⟨s, flags, hroom, hok⟩
  | call c _ _ ih => exact ih
  | elsewhere other c _ _ ih => exact ih

theorem occupied_of_none (hi : Inv heap size h []) : occupied h = ∅ := by
  ext b
  refine ⟨fun hb => ?_, False.elim⟩
  obtain ⟨p, hp, -⟩ := hi.complete b hb
  cases hp

theorem Reachable.layout_of_none (hr : Reachable heap size s []) :
    layout (s.heaps.view heap) = freshLayout heap size := by
  obtain ⟨s₀, flags, hroom, hok⟩ := hr.created
  have hfresh : Reachable heap size (memCreateExpHeapEx s₀ heap size flags).2 [] :=
    .create s₀ flags hroom hok
  have heq := hr.layout_eq hfresh (by rw [occupied_of_none hr.inv, occupied_of_none hfresh.inv])
  obtain ⟨-, -, -, -, hview⟩ := memCreate_cases s₀ flags hroom hok
  rw [heq, hview]
  rfl

theorem Reachable.freed_layout (hr : Reachable heap size s live) {order : List UInt64}
    (hall : ∀ p ∈ live, p.ptr ∈ order) :
    Reachable heap size (ExpHeap.freeAll s heap order) [] := by
  have hnone : live.filter (fun p => p.ptr ∉ order) = [] := by
    rw [List.filter_eq_nil_iff]
    intro p hp
    simpa using hall p hp
  have hfreed := hr.freeAll order
  rwa [hnone] at hfreed

-- Freeing undoes allocating, frees commute, and freeing everything leaves the fresh heap.
theorem exp_heap_free_inverse (hr : Reachable heap size s live) :
    (∀ s' live', Reachable heap size s' live' →
      usedLayout (s.heaps.view heap) = usedLayout (s'.heaps.view heap) →
      layout (s.heaps.view heap) = layout (s'.heaps.view heap)) ∧
    (∀ n alignment, (memAllocFromExpHeapEx s heap n alignment).1 ≠ 0 →
      layout ((memFreeToExpHeap (memAllocFromExpHeapEx s heap n alignment).2 heap
        (memAllocFromExpHeapEx s heap n alignment).1).heaps.view heap) =
        layout (s.heaps.view heap)) ∧
    (∀ p ∈ live, ∀ q ∈ live, p.ptr ≠ q.ptr →
      layout ((memFreeToExpHeap (memFreeToExpHeap s heap p.ptr) heap q.ptr).heaps.view heap) =
        layout ((memFreeToExpHeap (memFreeToExpHeap s heap q.ptr) heap p.ptr).heaps.view heap)) ∧
    ∀ order, (∀ p ∈ live, p.ptr ∈ order) →
      layout ((ExpHeap.freeAll s heap order).heaps.view heap) = freshLayout heap size ∧
      ∀ s₀ flags, (memCreateExpHeapEx s₀ heap size flags).1 ≠ 0 →
        (memGetTotalFreeSizeForExpHeap (ExpHeap.freeAll s heap order) heap).1 =
          (memGetTotalFreeSizeForExpHeap (memCreateExpHeapEx s₀ heap size flags).2 heap).1 ∧
        ∀ alignment,
          (memGetAllocatableSizeForExpHeapEx (ExpHeap.freeAll s heap order) heap alignment).1 =
            (memGetAllocatableSizeForExpHeapEx (memCreateExpHeapEx s₀ heap size flags).2 heap
              alignment).1 := by
  refine ⟨?_, hr.alloc_free, fun p _ q _ _ => hr.free_comm p.ptr q.ptr, ?_⟩
  · intro s' live' hr' hused
    exact layout_eq_of_usedLayout hr.inv.wf hr'.inv.wf
      (hr.inv.dataStart.trans hr'.inv.dataStart.symm) (hr.inv.dataEnd.trans hr'.inv.dataEnd.symm)
      hused
  · intro order hall
    have hfreed := hr.freed_layout hall
    refine ⟨hfreed.layout_of_none, ?_⟩
    intro s₀ flags hok
    obtain ⟨-, -, hroom, -⟩ := hr.created
    have hfresh : Reachable heap size (memCreateExpHeapEx s₀ heap size flags).2 [] :=
      .create s₀ flags hroom hok
    have hz := hr.heap_ne_zero
    have heq := hfreed.layout_of_none.trans hfresh.layout_of_none.symm
    constructor
    · rw [memGetTotalFreeSize_eq hz hfreed.inv.alive, memGetTotalFreeSize_eq hz hfresh.inv.alive, heq]
    · intro alignment
      rw [memGetAllocatableSize_eq hz hfreed.inv.alive, memGetAllocatableSize_eq hz hfresh.inv.alive,
        heq]

theorem exp_heap_free_inverse_two_ended :
    let s := (memCreateExpHeapEx ⟨HandleTable.empty, fun _ => 0⟩ 0x1000 0x200 0).2
    let s := (exec s 0x1000 (.alloc 100 64)).2
    let s := (exec s 0x1000 (.alloc 32 (-8))).2
    layout ((ExpHeap.freeAll s 0x1000 [4576, 4224]).heaps.view 0x1000) = [freeBlock 4180 428] :=
  ((exp_heap_free_inverse (.call (.alloc 32 (-8)) (.call (.alloc 100 64)
    (.create ⟨HandleTable.empty, fun _ => 0⟩ 0 (by unfold InUserSpace; decide)
      (by decide)) rfl) rfl)).2.2.2 [4576, 4224] (by decide)).1

end Runs

end CoreinitNx.ExpHeap
