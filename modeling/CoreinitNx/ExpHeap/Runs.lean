import CoreinitNx.ExpHeap.Invariant

namespace CoreinitNx.ExpHeap

open Tiling

inductive Call where
  | create (size : UInt32) (flags : UInt16)
  | destroy
  | alloc (size : UInt32) (alignment : Int32)
  | free (block : UInt64)
  | setAllocMode (mode : UInt32)
deriving DecidableEq, Repr

def exec (s : ExpHeaps) (heap : UInt64) : Call → UInt64 × ExpHeaps
  | .create size flags => memCreateExpHeapEx s heap size flags
  | .destroy => memDestroyExpHeap s heap
  | .alloc size alignment => memAllocFromExpHeapEx s heap size alignment
  | .free block => (0, memFreeToExpHeap s heap block)
  | .setAllocMode mode =>
      let (previous, s) := memSetAllocModeForExpHeap s heap mode
      (previous.toUInt64, s)

def Call.keepsHeap : Call → Bool
  | .create _ _ | .destroy => false
  | _ => true

structure Allocation where
  ptr : UInt64
  size : UInt32
  alignment : UInt32
deriving DecidableEq, Repr

-- The allocations returned and not yet freed, updated by one call and its result.
def track (c : Call) (result : UInt64) (live : List Allocation) : List Allocation :=
  match c with
  | .alloc size alignment =>
      if result = 0 then live
      else ⟨result, if size = 0 then 1 else size, (normaliseAlignment alignment).1⟩ :: live
  | .free block => live.filter fun p => p.ptr ≠ block
  | _ => live

inductive Reachable (heap : UInt64) (size : UInt32) : ExpHeaps → List Allocation → Prop
  | create (s : ExpHeaps) (flags : UInt16) : InUserSpace heap size →
      (memCreateExpHeapEx s heap size flags).1 ≠ 0 →
      Reachable heap size (memCreateExpHeapEx s heap size flags).2 []
  | call {s : ExpHeaps} {live : List Allocation} (c : Call) : Reachable heap size s live →
      c.keepsHeap = true →
      Reachable heap size (exec s heap c).2 (track c (exec s heap c).1 live)
  | elsewhere {s : ExpHeaps} {live : List Allocation} (other : UInt64) (c : Call) :
      Reachable heap size s live → other ≠ heap → Reachable heap size (exec s other c).2 live

theorem toNat_requested_pos (n : UInt32) : 0 < (if n = 0 then 1 else n : UInt32).toNat := by
  split
  next => decide
  next h => exact Nat.pos_of_ne_zero fun hz => h (UInt32.toNat_inj.1 hz)

section Table

variable {s : ExpHeaps} {heap k : UInt64}

theorem live_eq (s : ExpHeaps) (heap : UInt64) :
    live s heap = ((liveAt (·.live) s.heaps heap).1,
      { s with heaps := (liveAt (·.live) s.heaps heap).2 }) := by
  rw [live, liveAt]
  split <;> rfl

theorem live_view (s : ExpHeaps) (heap k : UInt64) :
    (live s heap).2.heaps.view k = s.heaps.view k := by
  rw [live_eq]
  exact liveAt_view

theorem live_memory (s : ExpHeaps) (heap : UInt64) : (live s heap).2.memory = s.memory := by
  rw [live_eq]

theorem live_of_dead (h : heap = 0 ∨ (s.heaps.view heap).live = false) :
    live s heap = (none, (live s heap).2) := by
  refine Prod.ext ?_ rfl
  rw [live_eq]
  exact liveAt_of_dead h

theorem live_of_live (hz : heap ≠ 0) (hl : (s.heaps.view heap).live = true) :
    live s heap = (some (s.heaps.view heap), (live s heap).2) := by
  refine Prod.ext ?_ rfl
  rw [live_eq]
  exact liveAt_of_live hz hl

theorem dead_or_live (s : ExpHeaps) (heap : UInt64) :
    (heap = 0 ∨ (s.heaps.view heap).live = false) ∨
      heap ≠ 0 ∧ (s.heaps.view heap).live = true := dead_or_alive (·.live) s.heaps heap

-- A create may find anything at the address; the other calls find a heap or do nothing.
theorem call_cases (s : ExpHeaps) (heap : UInt64) (c : Call) :
    (∃ size flags, c = .create size flags) ∨
      (∀ size flags, c ≠ .create size flags) ∧ (heap = 0 ∨ (s.heaps.view heap).live = false) ∨
      c = .destroy ∧ heap ≠ 0 ∧ (s.heaps.view heap).live = true ∨
      c.keepsHeap = true ∧ heap ≠ 0 ∧ (s.heaps.view heap).live = true := by
  rcases dead_or_live s heap with hdead | hlive
  · cases c with
    | create size flags => exact .inl ⟨size, flags, rfl⟩
    | _ => exact .inr (.inl ⟨nofun, hdead⟩)
  · cases c with
    | create size flags => exact .inl ⟨size, flags, rfl⟩
    | destroy => exact .inr (.inr (.inl ⟨rfl, hlive⟩))
    | _ => exact .inr (.inr (.inr ⟨rfl, hlive⟩))

-- A call other than a create finds no heap there and changes none.
theorem exec_dead {c : Call} (hdead : heap = 0 ∨ (s.heaps.view heap).live = false)
    (hc : ∀ size flags, c ≠ .create size flags) :
    (exec s heap c).2.heaps.view k = s.heaps.view k := by
  have hview := live_view s heap k
  have hnone := live_of_dead hdead
  cases c with
  | create size flags => exact absurd rfl (hc size flags)
  | destroy =>
    rw [exec, memDestroyExpHeap, hnone]
    exact hview
  | alloc size alignment =>
    rw [exec, memAllocFromExpHeapEx, hnone]
    exact hview
  | free block =>
    rw [exec, memFreeToExpHeap, hnone]
    exact hview
  | setAllocMode mode =>
    rw [exec, memSetAllocModeForExpHeap, hnone]
    exact hview

theorem exec_elsewhere (s : ExpHeaps) {other heap : UInt64} (c : Call) (h : other ≠ heap) :
    (exec s other c).2.heaps.view heap = s.heaps.view heap := by
  have hne : heap ≠ other := h.symm
  have hlive := live_view s other heap
  cases c with
  | create size flags =>
    simp only [exec, memCreateExpHeapEx]
    split
    · rfl
    · split <;> simp [HandleTable.view_store_ne _ _ hne]
  | destroy =>
    simp only [exec, memDestroyExpHeap]
    generalize live s other = r at hlive ⊢
    obtain ⟨_ | h, s'⟩ := r
    · exact hlive
    · simpa [HandleTable.view_store_ne _ _ hne] using hlive
  | alloc size alignment =>
    simp only [exec, memAllocFromExpHeapEx]
    generalize live s other = r at hlive ⊢
    obtain ⟨_ | h, s'⟩ := r
    · exact hlive
    · simp only
      split
      · exact hlive
      · simpa [HandleTable.view_store_ne _ _ hne] using hlive
  | free block =>
    simp only [exec, memFreeToExpHeap]
    generalize live s other = r at hlive ⊢
    obtain ⟨_ | h, s'⟩ := r
    · exact hlive
    · simp only
      split
      · exact hlive
      · simpa [HandleTable.view_store_ne _ _ hne] using hlive
  | setAllocMode mode =>
    simp only [exec, memSetAllocModeForExpHeap]
    generalize live s other = r at hlive ⊢
    obtain ⟨_ | h, s'⟩ := r
    · exact hlive
    · simpa [HandleTable.view_store_ne _ _ hne] using hlive

theorem memDestroy_view (hz : heap ≠ 0) (hl : (s.heaps.view heap).live = true) :
    (memDestroyExpHeap s heap).2.heaps.view heap =
      { s.heaps.view heap with live := false, blocks := [] } := by
  rw [memDestroyExpHeap, live_of_live hz hl]
  exact HandleTable.view_store_same _ _ _

theorem memAlloc_cases (hz : heap ≠ 0) (hl : (s.heaps.view heap).live = true) (size : UInt32)
    (alignment : Int32) :
    let r := memAllocFromExpHeapEx s heap size alignment
    let found := allocateIn (s.heaps.view heap) (if size = 0 then 1 else size) alignment
    (found = none ∧ r.1 = 0 ∧ r.2.heaps.view heap = s.heaps.view heap) ∨
      ∃ payload h', found = some (payload, h') ∧ r.1 = payload ∧ r.2.heaps.view heap = h' := by
  rw [memAllocFromExpHeapEx, live_of_live hz hl]
  dsimp only
  cases allocateIn (s.heaps.view heap) (if size = 0 then 1 else size) alignment with
  | none => exact .inl ⟨rfl, rfl, live_view s heap heap⟩
  | some found => exact .inr ⟨found.1, found.2, rfl, rfl, HandleTable.view_store_same _ _ _⟩

theorem memFree_view (hz : heap ≠ 0) (hl : (s.heaps.view heap).live = true) {block : UInt64}
    (hb : block ≠ 0) :
    (memFreeToExpHeap s heap block).heaps.view heap = freeIn (s.heaps.view heap) block := by
  rw [memFreeToExpHeap, live_of_live hz hl]
  dsimp only
  rw [if_neg hb]
  exact HandleTable.view_store_same _ _ _

theorem memFree_null (hz : heap ≠ 0) (hl : (s.heaps.view heap).live = true) :
    (memFreeToExpHeap s heap 0).heaps.view heap = s.heaps.view heap := by
  rw [memFreeToExpHeap, live_of_live hz hl]
  exact live_view s heap heap

-- What a call on a live heap answers, and what it leaves of the heap.
inductive Effect (h : HostExpHeap) : Call → UInt64 → HostExpHeap → Prop
  | alloc {size : UInt32} {alignment : Int32} {payload : UInt64} {h' : HostExpHeap} :
      allocateIn h (if size = 0 then 1 else size) alignment = some (payload, h') →
      Effect h (.alloc size alignment) payload h'
  | full {size : UInt32} {alignment : Int32} :
      allocateIn h (if size = 0 then 1 else size) alignment = none →
      Effect h (.alloc size alignment) 0 h
  | freeNull : Effect h (.free 0) 0 h
  | free {block : UInt64} : block ≠ 0 → Effect h (.free block) 0 (freeIn h block)
  | setAllocMode (mode : UInt32) :
      Effect h (.setAllocMode mode) h.mode.toUInt64 { h with mode := mode.toUInt8 }

theorem exec_effect (hz : heap ≠ 0) (hl : (s.heaps.view heap).live = true) {c : Call}
    (hk : c.keepsHeap = true) :
    Effect (s.heaps.view heap) c (exec s heap c).1 ((exec s heap c).2.heaps.view heap) := by
  cases c with
  | create | destroy => cases hk
  | alloc size alignment =>
    rw [exec]
    rcases memAlloc_cases hz hl size alignment with ⟨hnone, hr, hv⟩ | ⟨payload, h', ha, hr, hv⟩
    · rw [hr, hv]
      exact .full hnone
    · rw [hr, hv]
      exact .alloc ha
  | free block =>
    by_cases hb : block = 0
    · rw [exec, hb, memFree_null hz hl]
      exact .freeNull
    · rw [exec, memFree_view hz hl hb]
      exact .free hb
  | setAllocMode mode =>
    rw [exec, memSetAllocModeForExpHeap, live_of_live hz hl]
    dsimp only
    rw [HandleTable.view_store_same]
    exact .setAllocMode mode

end Table

def regionStart (heap : UInt64) : UInt64 := alignUp (heap + memExpHeapSize.toUInt64) 4

def regionEnd (heap : UInt64) (size : UInt32) : UInt64 := heap + size.toUInt64

structure Inv (heap : UInt64) (size : UInt32) (h : HostExpHeap) (live : List Allocation) :
    Prop where
  alive : h.live = true
  dataStart : h.dataStart = regionStart heap
  dataEnd : h.dataEnd = regionEnd heap size
  wf : WellFormed h
  tracked : ∀ p ∈ live, ∃ b ∈ occupied h, b.payload = p.ptr ∧ b.payloadSize = p.size
  aligned : ∀ p ∈ live, p.alignment.toNat ∣ p.ptr.toNat
  complete : ∀ b ∈ occupied h, ∃ p ∈ live, p.ptr = b.payload
  distinct : (live.map (·.ptr)).Nodup

section Step

variable {heap : UInt64} {size : UInt32} {h h' : HostExpHeap} {live : List Allocation}

theorem Inv.alloc (hi : Inv heap size h live) {n : UInt32} (hn : 0 < n.toNat) {alignment : Int32}
    {payload : UInt64} (ha : allocateIn h n alignment = some (payload, h')) :
    payload ≠ 0 ∧ Inv heap size h' (⟨payload, n, (normaliseAlignment alignment).1⟩ :: live) := by
  obtain ⟨pre, free, post, used, mid, hcut, hu, hc, hd, rfl⟩ := allocateIn_some hi.wf hn ha
  have wf' := hi.wf.carve hcut hu hc
  have hocc := occupied_carve (h := h) hcut hu hc
  have hused : used ∈ occupied { h with blocks := pre ++ mid ++ post } :=
    hocc ▸ Set.mem_insert _ _
  have hp : used.payload = payload := hc.payload_eq
  have hfresh : ∀ b ∈ occupied h, b.payload ≠ payload := by
    intro b hb hpay
    have hb' : b ∈ occupied { h with blocks := pre ++ mid ++ post } :=
      hocc ▸ Set.mem_insert_of_mem _ hb
    have heq := wf'.eq_of_payload hb' hused (hpay.trans hp.symm)
    have hmid : Tiles Block.lo Block.hi mid free.lo free.hi := hc.tiles
    have hin := hmid.bounds hc.mem
    rcases hi.wf.tiles.eq_or_disjoint hb.1 (y := free) (by simp [hcut]) with hbf | hlt | hlt
    · exact absurd hb.2 (by simp [hbf, hu])
    · rw [heq] at hlt; omega
    · rw [heq] at hlt; omega
  refine ⟨fun hz => wf'.payload_ne_zero hused (hp.trans hz), hi.alive, hi.dataStart, hi.dataEnd,
    wf', ?_, ?_, ?_, ?_⟩
  · intro q hq
    rcases List.mem_cons.1 hq with rfl | hq
    · exact ⟨used, hused, hp, hc.payloadSize_eq⟩
    · obtain ⟨b, hb, hrest⟩ := hi.tracked q hq
      exact ⟨b, hocc ▸ Set.mem_insert_of_mem _ hb, hrest⟩
  · intro q hq
    rcases List.mem_cons.1 hq with rfl | hq
    · exact hd
    · exact hi.aligned q hq
  · intro b hb
    rw [hocc] at hb
    rcases hb with rfl | hb
    · exact ⟨_, List.mem_cons_self, hp.symm⟩
    · obtain ⟨q, hq, hqp⟩ := hi.complete b hb
      exact ⟨q, by simp [hq], hqp⟩
  · rw [List.map_cons, List.nodup_cons]
    refine ⟨fun hm => ?_, hi.distinct⟩
    obtain ⟨q, hq, hqp⟩ := List.mem_map.1 hm
    obtain ⟨b, hb, hbp, -⟩ := hi.tracked q hq
    exact hfresh b hb (hbp.trans hqp)

theorem freeIn_fields (h : HostExpHeap) (block : UInt64) :
    (freeIn h block).live = h.live ∧ (freeIn h block).dataStart = h.dataStart ∧
      (freeIn h block).dataEnd = h.dataEnd := by
  rw [freeIn]
  split <;> exact ⟨rfl, rfl, rfl⟩

theorem Inv.free (hi : Inv heap size h live) (block : UInt64) :
    Inv heap size (freeIn h block) (live.filter fun p => p.ptr ≠ block) := by
  obtain ⟨hlive, hstart, hend⟩ := freeIn_fields h block
  have hocc := occupied_freeIn hi.wf block
  refine ⟨hlive.trans hi.alive, hstart.trans hi.dataStart, hend.trans hi.dataEnd,
    hi.wf.freeIn block, ?_, ?_, ?_, ?_⟩
  · intro p hp
    obtain ⟨hp, hne⟩ := List.mem_filter.1 hp
    obtain ⟨b, hb, hbp, hbs⟩ := hi.tracked p hp
    refine ⟨b, ?_, hbp, hbs⟩
    rw [hocc]
    exact ⟨hb, by simpa [hbp] using hne⟩
  · intro p hp
    exact hi.aligned p (List.mem_filter.1 hp).1
  · intro b hb
    rw [hocc] at hb
    obtain ⟨p, hp, hpb⟩ := hi.complete b hb.1
    exact ⟨p, List.mem_filter.2 ⟨hp, by simpa [hpb] using hb.2⟩, hpb⟩
  · exact hi.distinct.sublist (List.filter_sublist.map _)

theorem Inv.free_null (hi : Inv heap size h live) :
    Inv heap size h (live.filter fun p => p.ptr ≠ 0) := by
  have hkeep : live.filter (fun p => p.ptr ≠ 0) = live := by
    rw [List.filter_eq_self]
    intro p hp
    obtain ⟨b, hb, hbp, -⟩ := hi.tracked p hp
    simpa [hbp] using hi.wf.payload_ne_zero hb
  rwa [hkeep]

theorem Inv.setAllocMode (hi : Inv heap size h live) (mode : UInt8) :
    Inv heap size { h with mode := mode } live :=
  ⟨hi.alive, hi.dataStart, hi.dataEnd, ⟨hi.wf.room, hi.wf.order, hi.wf.span, hi.wf.tiles,
    hi.wf.separated, hi.wf.sound⟩, hi.tracked, hi.aligned, hi.complete, hi.distinct⟩

theorem Inv.effect (hi : Inv heap size h live) {c : Call} {result : UInt64}
    (he : Effect h c result h') : Inv heap size h' (track c result live) := by
  cases he with
  | @alloc n alignment payload h' ha =>
    obtain ⟨hnz, hi'⟩ := hi.alloc (toNat_requested_pos n) ha
    rwa [track, if_neg hnz]
  | full hnone => rwa [track, if_pos rfl]
  | freeNull => exact hi.free_null
  | @free block hb => exact hi.free block
  | setAllocMode mode => exact hi.setAllocMode _

-- The second check of a create cannot fail once the first has passed.
theorem region_bounds (hroom : InUserSpace heap size) (hsize : 104 < size.toNat) :
    (regionStart heap).toNat < (regionEnd heap size).toNat ∧
      (regionEnd heap size).toNat ≤ userSpaceEnd ∧
      (regionEnd heap size).toNat - (regionStart heap).toNat < 2 ^ 32 := by
  have hsz := size.toNat_lt
  have hend : (regionEnd heap size).toNat = heap.toNat + size.toNat := hroom.toNat_add
  rw [InUserSpace, userSpaceEnd] at hroom
  have hstart : (regionStart heap).toNat = Alignment.ceilTo 4 (heap.toNat + 84) :=
    toNat_dataStart (by change _ + 84 + 4 ≤ _; omega)
  have hlo := Alignment.le_ceilTo (a := 4) (by decide) (heap.toNat + 84)
  have hhi := Alignment.ceilTo_lt_add (a := 4) (by decide) (heap.toNat + 84)
  rw [hend, hstart]
  refine ⟨?_, hroom, ?_⟩ <;> omega

theorem memCreate_live (s : ExpHeaps) (flags : UInt16) (hroom : InUserSpace heap size)
    (hz : heap ≠ 0) (hbig : 104 < size.toNat) :
    (memCreateExpHeapEx s heap size flags).1 = heap ∧
      (memCreateExpHeapEx s heap size flags).2.heaps.view heap =
        ⟨regionStart heap, regionEnd heap size, flags, memExpHeapModeFirstFree, true,
          [freeBlock (regionStart heap) (regionEnd heap size - regionStart heap).toUInt32]⟩ := by
  have hargs : ¬(heap = 0 ∨ size ≤ memExpHeapSize + expBlockSize) := by
    rw [not_or, UInt32.not_le, UInt32.lt_iff_toNat_lt]
    exact ⟨hz, hbig⟩
  have hlt : ¬alignUp (heap + memExpHeapSize.toUInt64) 4 ≥ heap + size.toUInt64 := by
    rw [ge_iff_le, UInt64.le_iff_toNat_le]
    exact Nat.not_le.2 (region_bounds hroom hbig).1
  simp only [memCreateExpHeapEx]
  rw [if_neg hargs, if_neg hlt]
  exact ⟨rfl, by rw [HandleTable.view_store_same]; rfl⟩

theorem memCreate_eq (s : ExpHeaps) (flags : UInt16) (hroom : InUserSpace heap size) :
    memCreateExpHeapEx s heap size flags = (0, s) ∨
      heap ≠ 0 ∧ 104 < size.toNat ∧ (memCreateExpHeapEx s heap size flags).1 = heap ∧
        (memCreateExpHeapEx s heap size flags).2.heaps.view heap =
          ⟨regionStart heap, regionEnd heap size, flags, memExpHeapModeFirstFree, true,
            [freeBlock (regionStart heap) (regionEnd heap size - regionStart heap).toUInt32]⟩ := by
  by_cases hargs : heap = 0 ∨ size ≤ memExpHeapSize + expBlockSize
  · left
    rw [memCreateExpHeapEx, if_pos hargs]
  · right
    rw [not_or, UInt32.not_le, UInt32.lt_iff_toNat_lt] at hargs
    obtain ⟨hz, hbig⟩ := hargs
    exact ⟨hz, hbig, memCreate_live s flags hroom hz hbig⟩

theorem memCreate_cases (s : ExpHeaps) (flags : UInt16) (hroom : InUserSpace heap size)
    (hok : (memCreateExpHeapEx s heap size flags).1 ≠ 0) :
    heap ≠ 0 ∧ (regionStart heap).toNat < (regionEnd heap size).toNat ∧
      (regionEnd heap size).toNat ≤ userSpaceEnd ∧
      (regionEnd heap size).toNat - (regionStart heap).toNat < 2 ^ 32 ∧
      (memCreateExpHeapEx s heap size flags).2.heaps.view heap =
        ⟨regionStart heap, regionEnd heap size, flags, memExpHeapModeFirstFree, true,
          [freeBlock (regionStart heap) (regionEnd heap size - regionStart heap).toUInt32]⟩ := by
  rcases memCreate_eq s flags hroom with heq | ⟨hz, hbig, -, hview⟩
  · rw [heq] at hok
    exact absurd rfl hok
  · obtain ⟨horder, hend, hspan⟩ := region_bounds hroom hbig
    exact ⟨hz, horder, hend, hspan, hview⟩

-- A heap just created is one free block, its whole region.
theorem region_wellFormed (flags : UInt16) (mode : UInt8)
    (horder : (regionStart heap).toNat < (regionEnd heap size).toNat)
    (hend : (regionEnd heap size).toNat ≤ userSpaceEnd)
    (hspan : (regionEnd heap size).toNat - (regionStart heap).toNat < 2 ^ 32) :
    WellFormed ⟨regionStart heap, regionEnd heap size, flags, mode, true,
      [freeBlock (regionStart heap) (regionEnd heap size - regionStart heap).toUInt32]⟩ := by
  have hhi : (freeBlock (regionStart heap) (regionEnd heap size - regionStart heap).toUInt32).hi =
      (regionEnd heap size).toNat := by
    refine (hi_eq (s := (regionStart heap).toNat) rfl (toNat_gap horder.le hspan)).trans ?_
    omega
  refine ⟨hend, horder, hspan, ⟨rfl, ?_, hhi⟩, .singleton _, ?_⟩
  · rw [hhi]; exact horder
  · intro b hb
    obtain rfl := List.mem_singleton.1 hb
    exact freeBlock_sound _ _

theorem Inv.create (s : ExpHeaps) (flags : UInt16) (hroom : InUserSpace heap size)
    (hok : (memCreateExpHeapEx s heap size flags).1 ≠ 0) :
    Inv heap size ((memCreateExpHeapEx s heap size flags).2.heaps.view heap) [] := by
  obtain ⟨-, horder, hend, hspan, hview⟩ := memCreate_cases s flags hroom hok
  rw [hview]
  have hnone : ∀ (P : Block → Prop), ∀ b ∈ occupied ⟨regionStart heap, regionEnd heap size, flags,
      memExpHeapModeFirstFree, true,
      [freeBlock (regionStart heap) (regionEnd heap size - regionStart heap).toUInt32]⟩, P b := by
    rintro P b ⟨hb, hu⟩
    obtain rfl := List.mem_singleton.1 hb
    exact absurd hu Bool.false_ne_true
  exact ⟨rfl, rfl, rfl, region_wellFormed flags _ horder hend hspan, by simp, by simp, hnone _, .nil⟩

end Step

theorem Reachable.heap_ne_zero {heap : UInt64} {size : UInt32} {s : ExpHeaps}
    {live : List Allocation} (hr : Reachable heap size s live) : heap ≠ 0 := by
  induction hr with
  | create s flags hroom hok => exact (memCreate_cases s flags hroom hok).1
  | call c _ _ ih => exact ih
  | elsewhere other c _ _ ih => exact ih

theorem Reachable.inv {heap : UInt64} {size : UInt32} {s : ExpHeaps} {live : List Allocation}
    (hr : Reachable heap size s live) : Inv heap size (s.heaps.view heap) live := by
  induction hr with
  | create s flags hroom hok => exact Inv.create s flags hroom hok
  | elsewhere other c _ hne ih => rwa [exec_elsewhere _ c hne]
  | call c hs hk ih => exact ih.effect (exec_effect hs.heap_ne_zero ih.alive hk)

theorem Inv.apart {heap : UInt64} {size : UInt32} {h : HostExpHeap} {live : List Allocation}
    (hi : Inv heap size h live) {p q : Allocation} (hp : p ∈ live) (hq : q ∈ live)
    (hne : p.ptr ≠ q.ptr) :
    p.ptr.toNat + p.size.toNat + expBlockSize.toNat ≤ q.ptr.toNat ∨
      q.ptr.toNat + q.size.toNat + expBlockSize.toNat ≤ p.ptr.toNat := by
  obtain ⟨b, hb, hbp, hbs⟩ := hi.tracked p hp
  obtain ⟨c, hc, hcp, hcs⟩ := hi.tracked q hq
  have hbc : b ≠ c := fun h => hne (hbp.symm.trans (h ▸ hcp))
  have hd := hi.wf.disjoint hb hc hbc
  rwa [hbp, hbs, hcp, hcs] at hd

-- The block list tiles the region, and live allocations lie apart inside it, headers included.
theorem exp_heap_representation {heap : UInt64} {size : UInt32} {s : ExpHeaps}
    {live : List Allocation} (hr : Reachable heap size s live) :
    let h := s.heaps.view heap
    (Tiles Block.lo Block.hi h.blocks h.dataStart.toNat h.dataEnd.toNat ∧
      h.dataStart.toNat < h.dataEnd.toNat ∧
      Separated (fun b => b.used = false) h.blocks ∧
      ∀ b ∈ h.blocks, b.used = true → b.lo + expBlockSize.toNat ≤ b.payload.toNat ∧
        b.payload.toNat + b.payloadSize.toNat ≤ b.hi) ∧
    (∀ p ∈ live, p.alignment.toNat ∣ p.ptr.toNat ∧
      h.dataStart.toNat + expBlockSize.toNat ≤ p.ptr.toNat ∧
      p.ptr.toNat + p.size.toNat ≤ h.dataEnd.toNat) ∧
    live.Pairwise fun p q =>
      p.ptr.toNat + p.size.toNat + expBlockSize.toNat ≤ q.ptr.toNat ∨
        q.ptr.toNat + q.size.toNat + expBlockSize.toNat ≤ p.ptr.toNat := by
  have hi := hr.inv
  refine ⟨⟨hi.wf.tiles, hi.wf.order, hi.wf.separated, ?_⟩, ?_, ?_⟩
  · intro b hb hu
    obtain ⟨h1, h2, -⟩ := hi.wf.holds ⟨hb, hu⟩
    exact ⟨h1, h2⟩
  · intro p hp
    obtain ⟨b, hb, hbp, hbs⟩ := hi.tracked p hp
    obtain ⟨h1, h2, -⟩ := hi.wf.holds hb
    obtain ⟨h3, -, h4⟩ := hi.wf.bounds hb.1
    rw [hbp] at h1
    rw [hbp, hbs] at h2
    exact ⟨hi.aligned p hp, by omega, h2.trans h4⟩
  · have hd := List.pairwise_map.1 hi.distinct
    exact hd.imp_of_mem fun hp hq hne => hi.apart hp hq hne

theorem exp_heap_representation_two_ended :
    let s := (memCreateExpHeapEx ⟨HandleTable.empty, fun _ => 0⟩ 0x1000 0x200 0).2
    let s := (exec s 0x1000 (.alloc 100 64)).2
    let s := (exec s 0x1000 (.alloc 32 (-8))).2
    let h := s.heaps.view 0x1000
    (h.blocks.map fun b => (b.lo, b.hi, b.used)) =
        [(4180, 4324, true), (4324, 4556, false), (4556, 4608, true)] ∧
      Tiles Block.lo Block.hi h.blocks h.dataStart.toNat h.dataEnd.toNat :=
  ⟨by decide, (exp_heap_representation (.call (.alloc 32 (-8)) (.call (.alloc 100 64)
    (.create ⟨HandleTable.empty, fun _ => 0⟩ 0 (by unfold InUserSpace; decide)
      (by decide)) rfl) rfl)).1.1⟩

end CoreinitNx.ExpHeap
