import CoreinitNx.ExpHeap.Runs

namespace CoreinitNx.ExpHeap

variable {s : ExpHeaps} {heap k : UInt64} {h h' : HostExpHeap} {size a : UInt32} {payload : UInt64}
  {alignment : Int32}

-- Any calls on any handles, from the table the program starts with.
inductive Run : ExpHeaps → Prop
  | start (memory : Memory) : Run ⟨HandleTable.empty, memory⟩
  | call {s : ExpHeaps} (heap : UInt64) (c : Call) : Run s →
      (∀ size flags, c = .create size flags → InUserSpace heap size) → Run (exec s heap c).2

theorem WellFormed.allocateIn (wf : WellFormed h) (hs : 0 < size.toNat)
    (ha : ExpHeap.allocateIn h size alignment = some (payload, h')) :
    payload ≠ 0 ∧ WellFormed h' ∧ h'.live = h.live := by
  obtain ⟨pre, free, post, used, mid, hcut, hu, hc, -, rfl⟩ := allocateIn_some wf hs ha
  have wf' := wf.carve hcut hu hc
  have hused : used ∈ occupied { h with blocks := pre ++ mid ++ post } := by
    rw [occupied_carve hcut hu hc]
    exact Set.mem_insert _ _
  exact ⟨hc.payload_eq ▸ wf'.payload_ne_zero hused, wf', rfl⟩

theorem WellFormed.effect {c : Call} {result : UInt64} (wf : WellFormed h)
    (he : Effect h c result h') : WellFormed h' ∧ h'.live = h.live := by
  cases he with
  | @alloc size alignment payload h' ha => exact (wf.allocateIn (toNat_requested_pos size) ha).2
  | full | freeNull => exact ⟨wf, rfl⟩
  | @free block hb => exact ⟨wf.freeIn block, (freeIn_fields h block).1⟩
  | setAllocMode mode =>
    exact ⟨⟨wf.room, wf.order, wf.span, wf.tiles, wf.separated, wf.sound⟩, rfl⟩

theorem exec_wellFormed {c : Call} (hroom : ∀ size flags, c = .create size flags →
      InUserSpace heap size)
    (hwf : (s.heaps.view heap).live = true → WellFormed (s.heaps.view heap))
    (hl' : ((exec s heap c).2.heaps.view heap).live = true) :
    WellFormed ((exec s heap c).2.heaps.view heap) := by
  rcases call_cases s heap c with ⟨size, flags, rfl⟩ | ⟨hc, hdead⟩ | ⟨rfl, hz, hl⟩ | ⟨hk, hz, hl⟩
  · have hroom := hroom _ _ rfl
    rw [exec] at hl' ⊢
    rcases memCreate_eq s flags hroom with heq | ⟨-, hbig, -, hview⟩
    · rw [heq] at hl' ⊢
      exact hwf hl'
    · obtain ⟨horder, hend, hspan⟩ := region_bounds hroom hbig
      rw [hview]
      exact region_wellFormed _ _ horder hend hspan
  · rw [exec_dead hdead hc] at hl' ⊢
    exact hwf hl'
  · rw [exec, memDestroy_view hz hl] at hl'
    cases hl'
  · exact ((hwf hl).effect (exec_effect hz hl hk)).1

theorem Run.wellFormed (hr : Run s) :
    ∀ k, (s.heaps.view k).live = true → WellFormed (s.heaps.view k) := by
  induction hr with
  | start memory => exact fun k hl => by cases hl
  | @call s heap c _ hroom ih =>
    intro k
    by_cases hk : heap = k
    · subst hk
      exact exec_wellFormed hroom (ih heap)
    · rw [exec_elsewhere s c hk]
      exact ih k

theorem le_largestFit_foldl (bs : List Block) (best : UInt32) :
    size ≤ bs.foldl (fun best b =>
        if b.used then best else if fitInFree b a > best then fitInFree b a else best) best ↔
      size ≤ best ∨ ∃ b ∈ bs, b.used = false ∧ size ≤ fitInFree b a := by
  induction bs generalizing best with
  | nil => simp
  | cons b bs ih =>
    rw [List.foldl_cons, ih, List.exists_mem_cons_iff, ← or_assoc]
    refine or_congr_left ?_
    cases hu : b.used with
    | true => simp
    | false =>
      simp only [Bool.false_eq_true, if_false, true_and, gt_iff_lt]
      split
      next hlt => exact ⟨.inr, fun h => h.elim (fun hle => UInt32.le_trans hle (UInt32.le_of_lt hlt)) id⟩
      next hge => exact ⟨.inl, fun h => h.elim id fun hle => UInt32.le_trans hle (UInt32.not_lt.1 hge)⟩

theorem le_largestFit_iff (hs : 0 < size) (bs : List Block) :
    size ≤ largestFit a bs ↔ ∃ b ∈ bs, b.used = false ∧ size ≤ fitInFree b a := by
  rw [largestFit, le_largestFit_foldl]
  exact or_iff_right (UInt32.not_le.2 hs)

theorem WellFormed.chosen_placed (wf : WellFormed h) (hs : 0 < size.toNat) {mode : UInt8}
    {chosen : Nat}
    (hc : chooseFrom mode size (normaliseAlignment alignment).1 h.blocks 0 none 0 = some chosen)
    (fromBottom : Bool) :
    ∃ free p, h.blocks[chosen]? = some free ∧
      place free size (normaliseAlignment alignment).1 fromBottom = some p := by
  obtain ⟨j, free, rfl, hget, -, hfit⟩ := (chooseFrom_some hc).resolve_left (by simp)
  obtain ⟨p, hp, -⟩ := place_fits (isAlignment_normaliseAlignment alignment)
    (wf.hi_le (List.mem_of_getElem? hget)) hs (UInt32.le_iff_toNat_le.1 hfit) fromBottom
  exact ⟨free, p, by rwa [Nat.zero_add], hp⟩

theorem WellFormed.allocateIn_some_iff (wf : WellFormed h) (hs : 0 < size.toNat) :
    ExpHeap.allocateIn h size alignment ≠ none ↔
      size ≤ largestFit (normaliseAlignment alignment).1 h.blocks := by
  rw [le_largestFit_iff (UInt32.lt_iff_toNat_lt.2 hs)]
  constructor
  · intro hsome
    by_contra hfits
    refine hsome ?_
    rw [ExpHeap.allocateIn]
    cases hch : chooseFrom h.mode size (normaliseAlignment alignment).1 h.blocks 0 none 0 with
    | none => simp only [hch]
    | some j =>
      obtain ⟨i, b, rfl, hget, hbu, hfit⟩ := (chooseFrom_some hch).resolve_left (by simp)
      exact absurd ⟨b, List.mem_of_getElem? hget, hbu, hfit⟩ hfits
  · rintro ⟨b, hb, hu, hfit⟩ hnone
    rcases allocateIn_cases wf hs alignment with ⟨-, hall⟩ |
      ⟨pre, free, post, used, mid, p, -, -, -, -, hsome⟩
    · exact UInt32.not_lt.2 hfit (hall b hb hu)
    · rw [hsome] at hnone
      cases hnone

theorem alloc_ne_zero_iff (hwf : (s.heaps.view heap).live = true → WellFormed (s.heaps.view heap))
    (size : UInt32) (alignment : Int32) :
    (memAllocFromExpHeapEx s heap size alignment).1 ≠ 0 ↔
      max size.toNat 1 ≤ (memGetAllocatableSizeForExpHeapEx s heap alignment).1.toNat := by
  have hpos := toNat_requested_pos size
  rw [← toNat_atLeastOne]
  rcases dead_or_live s heap with hdead | ⟨hz, hl⟩
  · rw [memAllocFromExpHeapEx, memGetAllocatableSizeForExpHeapEx, live_of_dead hdead]
    exact ⟨fun h => absurd rfl h, fun h => absurd (lt_of_lt_of_le hpos h) (lt_irrefl 0)⟩
  · have wf := hwf hl
    rw [memGetAllocatableSizeForExpHeapEx, live_of_live hz hl, ← UInt32.le_iff_toNat_le,
      ← wf.allocateIn_some_iff hpos]
    rcases memAlloc_cases hz hl size alignment with ⟨hnone, hr, -⟩ | ⟨payload, h', hsome, hr, -⟩
    · rw [hr, hnone]
      exact ⟨fun h => absurd rfl h, fun h => absurd rfl h⟩
    · rw [hr, hsome]
      exact ⟨fun _ => (by rintro ⟨⟩), fun _ => (wf.allocateIn hpos hsome).1⟩

theorem abs_neg_eq (x : Int32) :
    (if -x < 0 then - -x else -x) = if x < 0 then -x else x := by
  have hneg := Int32.toInt_neg x
  have hlow := x.le_toInt
  have hhigh := x.toInt_lt
  rw [Int.bmod_def] at hneg
  by_cases hx : x < 0 <;> by_cases hy : -x < 0
  · rw [if_pos hx, if_pos hy, Int32.neg_neg]
    rw [Int32.lt_iff_toInt_lt, Int32.toInt_zero] at hx hy
    refine Int32.toInt_inj.1 ?_
    omega
  · rw [if_pos hx, if_neg hy]
  · rw [if_neg hx, if_pos hy, Int32.neg_neg]
  · rw [if_neg hx, if_neg hy]
    rw [Int32.lt_iff_toInt_lt, Int32.toInt_zero] at hx hy
    refine Int32.toInt_inj.1 ?_
    omega

theorem fst_normaliseAlignment_neg (alignment : Int32) :
    (normaliseAlignment (-alignment)).1 = (normaliseAlignment alignment).1 := by
  simp only [normaliseAlignment, abs_neg_eq]

theorem exp_allocatable_exact (hr : Run s) (heap : UInt64) (size : UInt32) (alignment : Int32) :
    ((memAllocFromExpHeapEx s heap size alignment).1 ≠ 0 ↔
        max size.toNat 1 ≤ (memGetAllocatableSizeForExpHeapEx s heap alignment).1.toNat) ∧
      ((memAllocFromExpHeapEx s heap size (-alignment)).1 ≠ 0 ↔
        (memAllocFromExpHeapEx s heap size alignment).1 ≠ 0) ∧
      (∀ chosen, (s.heaps.view heap).live = true →
        chooseFrom (s.heaps.view heap).mode (if size = 0 then 1 else size)
            (normaliseAlignment alignment).1 (s.heaps.view heap).blocks 0 none 0 = some chosen →
          ∃ free p, (s.heaps.view heap).blocks[chosen]? = some free ∧
            place free (if size = 0 then 1 else size) (normaliseAlignment alignment).1
              (normaliseAlignment alignment).2 = some p) := by
  have hwf := hr.wellFormed heap
  refine ⟨alloc_ne_zero_iff hwf size alignment, ?_, fun chosen hl hc => ?_⟩
  · rw [alloc_ne_zero_iff hwf, alloc_ne_zero_iff hwf, memGetAllocatableSizeForExpHeapEx,
      memGetAllocatableSizeForExpHeapEx, fst_normaliseAlignment_neg]
  · exact (hwf hl).chosen_placed (toNat_requested_pos size) hc _

-- The largest size that the query promises at the bottom is granted there, one byte more is not.
theorem exp_allocatable_exact_bottom :
    let s := (exec ⟨HandleTable.empty, fun _ => 0⟩ 0x1000 (.create 0x200 0)).2
    (memGetAllocatableSizeForExpHeapEx s 0x1000 (-64)).1 = 384 ∧
      (memAllocFromExpHeapEx s 0x1000 384 (-64)).1 ≠ 0 ∧
      ¬(memAllocFromExpHeapEx s 0x1000 385 (-64)).1 ≠ 0 := by
  have hr : Run (exec ⟨HandleTable.empty, fun _ => 0⟩ 0x1000 (.create 0x200 0)).2 :=
    .call _ _ (.start _) (by rintro _ _ ⟨⟩; rw [InUserSpace]; decide)
  have hsize : (memGetAllocatableSizeForExpHeapEx (exec ⟨HandleTable.empty, fun _ => 0⟩ 0x1000
      (.create 0x200 0)).2 0x1000 (-64)).1 = 384 := by decide
  refine ⟨hsize, ?_, ?_⟩
  · rw [(exp_allocatable_exact hr 0x1000 384 (-64)).1, hsize]
    decide
  · rw [(exp_allocatable_exact hr 0x1000 385 (-64)).1, hsize]
    decide

end CoreinitNx.ExpHeap
