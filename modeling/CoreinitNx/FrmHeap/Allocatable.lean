import CoreinitNx.FrmHeap.Runs

namespace CoreinitNx.FrmHeap

open Alignment

variable {s : FrmHeaps} {heap base p k : UInt64} {h h' : HostFrmHeap} {size : UInt32}
  {alignment : Int32}

-- Any calls on any handles, from the table the program starts with.
inductive Run : FrmHeaps → Prop
  | start (memory : Memory) : Run ⟨HandleTable.empty, memory⟩
  | call {s : FrmHeaps} (heap : UInt64) (c : Call) : Run s →
      (∀ size flags, c = .create size flags → InUserSpace heap size) → Run (exec s heap c).2

-- An address past the header of the heap at `base`, in a region of less than 2^32 bytes.
structure Within (base p : UInt64) : Prop where
  header : base.toNat + memFrmHeapSize.toNat ≤ p.toNat
  span : p.toNat < base.toNat + 2 ^ 32
  room : p.toNat ≤ userSpaceEnd

-- Nothing here orders the two ends: a heap whose head has passed its tail is reachable.
structure Spanned (base : UInt64) (h : HostFrmHeap) : Prop where
  dataStart : Within base h.dataStart
  dataEnd : Within base h.dataEnd
  head : Within base h.head
  tail : Within base h.tail
  states : ∀ st ∈ h.states, Within base st.head ∧ Within base st.tail

def regionStart (heap : UInt64) : UInt64 := alignUp (heap + memFrmHeapSize.toUInt64) 4

def regionEnd (heap : UInt64) (size : UInt32) : UInt64 := heap + size.toUInt64

-- A create that fails at its second check has already moved the two ends of the region.
theorem memCreate_view (s : FrmHeaps) (heap : UInt64) (size flags : UInt32) :
    let r := memCreateFrmHeapEx s heap size flags
    (heap = 0 ∨ size ≤ memFrmHeapSize) ∧ r.1 = 0 ∧ r.2.heaps.view heap = s.heaps.view heap ∨
      (heap ≠ 0 ∧ memFrmHeapSize.toNat < size.toNat) ∧
        (regionEnd heap size ≤ regionStart heap ∧ r.1 = 0 ∧ r.2.heaps.view heap =
            { s.heaps.view heap with dataStart := regionStart heap, dataEnd := regionEnd heap size } ∨
          regionStart heap < regionEnd heap size ∧ r.1 ≠ 0 ∧ r.2.heaps.view heap =
            ⟨regionStart heap, regionEnd heap size, regionStart heap, regionEnd heap size, flags,
              true, []⟩) := by
  simp only
  by_cases hargs : heap = 0 ∨ size ≤ memFrmHeapSize
  · left
    rw [memCreateFrmHeapEx, if_pos hargs]
    exact ⟨hargs, rfl, rfl⟩
  · right
    obtain ⟨hz, hsize⟩ := not_or.1 hargs
    rw [UInt32.not_le, UInt32.lt_iff_toNat_lt] at hsize
    refine ⟨⟨hz, hsize⟩, ?_⟩
    simp only [memCreateFrmHeapEx]
    rw [if_neg hargs]
    split
    next hend =>
      left
      rw [HandleTable.view_store_same, HandleTable.get_fst]
      exact ⟨hend, rfl, rfl⟩
    next hend =>
      right
      rw [HandleTable.view_store_same]
      exact ⟨UInt64.not_le.1 hend, hz, rfl⟩

theorem within_regionStart (hroom : InUserSpace heap size)
    (hsize : memFrmHeapSize.toNat < size.toNat) : Within heap (regionStart heap) := by
  have hheader : memFrmHeapSize.toNat = 76 := rfl
  rw [hheader] at hsize
  rw [InUserSpace, userSpaceEnd] at hroom
  have hstart : (regionStart heap).toNat = ceilTo 4 (heap.toNat + 76) :=
    toNat_dataStart (by rw [hheader]; omega)
  have hlow := le_ceilTo (a := 4) (by decide) (heap.toNat + 76)
  have hhigh := ceilTo_lt_add (a := 4) (by decide) (heap.toNat + 76)
  have hend : ceilTo 4 (heap.toNat + 76) ≤ 2 ^ 63 :=
    ceilTo_le_of_dvd (by decide) (by decide) (by omega)
  constructor
  · rw [hstart, hheader]
    exact hlow
  · omega
  · rw [hstart, userSpaceEnd]
    exact hend

theorem within_regionEnd (hroom : InUserSpace heap size)
    (hsize : memFrmHeapSize.toNat < size.toNat) : Within heap (regionEnd heap size) := by
  have hend : (regionEnd heap size).toNat = heap.toNat + size.toNat := hroom.toNat_add
  have hlt := size.toNat_lt
  refine ⟨?_, ?_, hend.trans_le hroom⟩ <;> omega

theorem Within.between {a b : UInt64} (ha : Within base a) (hb : Within base b)
    (hap : a.toNat ≤ p.toNat) (hpb : p.toNat ≤ b.toNat) : Within base p :=
  ⟨ha.header.trans hap, lt_of_le_of_lt hpb hb.span, hpb.trans hb.room⟩

theorem Spanned.effect (hi : Spanned base h) (c : Call) : Spanned base (effect h c) := by
  obtain ⟨hstart, hend, hhead, htail, hstates⟩ := id hi
  cases c with
  | create | destroy => exact hi
  | alloc size alignment =>
    simp only [FrmHeap.effect]
    cases ha : allocateIn h (requested size) alignment with
    | none => exact hi
    | some found =>
      obtain ⟨r, h'⟩ := found
      obtain ⟨-, ⟨-, rfl, h1, h2⟩ | ⟨-, stop, rfl, h1, h2, h3⟩⟩ :=
        allocateIn_some hhead.room htail.room ha
      · have hr : Within base r := hhead.between htail h1 ((Nat.le_add_right _ _).trans h2)
        exact ⟨hstart, hend, hhead, hr, hstates⟩
      · have hstop : Within base stop := hhead.between htail (h1.trans (by omega)) h3
        exact ⟨hstart, hend, hstop, htail, hstates⟩
  | free mode =>
    simp only [FrmHeap.effect, freeIn]
    split <;> split <;> split <;> constructor <;> first | assumption | rintro _ ⟨⟩
  | record tag =>
    refine ⟨hstart, hend, hhead, htail, fun st hst => ?_⟩
    rcases List.mem_append.1 hst with hst | hst
    · exact hstates st hst
    · obtain rfl := List.mem_singleton.1 hst
      exact ⟨hhead, htail⟩
  | freeByState tag =>
    simp only [FrmHeap.effect, freeByStateIn]
    cases hs : selected h tag with
    | none => exact hi
    | some found =>
      obtain ⟨idx, st⟩ := found
      obtain ⟨hst, hst'⟩ := hstates st (selected_mem hs)
      exact ⟨hstart, hend, hst, hst', fun q hq => hstates q (List.mem_of_mem_take hq)⟩
  | adjust =>
    simp only [FrmHeap.effect]
    split
    · exact hi
    · exact ⟨hstart, hhead, hhead, hhead, hstates⟩

theorem exec_spanned {c : Call}
    (hroom : ∀ size flags, c = .create size flags → InUserSpace heap size)
    (hi : (s.heaps.view heap).live = true → Spanned heap (s.heaps.view heap))
    (hl' : ((exec s heap c).2.heaps.view heap).live = true) :
    Spanned heap ((exec s heap c).2.heaps.view heap) := by
  rcases call_cases s heap c with ⟨size, flags, rfl⟩ | ⟨hc, hdead⟩ | ⟨rfl, hz, hl⟩ | ⟨hk, hz, hl⟩
  · have hroom := hroom _ _ rfl
    rw [exec] at hl' ⊢
    rcases memCreate_view s heap size flags with
        ⟨-, -, hview⟩ | ⟨⟨-, hsize⟩, ⟨-, -, hview⟩ | ⟨-, -, hview⟩⟩ <;>
      rw [hview] at hl' ⊢
    · exact hi hl'
    · obtain ⟨-, -, hhead, htail, hstates⟩ := hi hl'
      exact ⟨within_regionStart hroom hsize, within_regionEnd hroom hsize, hhead, htail, hstates⟩
    · have hstart := within_regionStart hroom hsize
      have hend := within_regionEnd hroom hsize
      exact ⟨hstart, hend, hstart, hend, (by rintro _ ⟨⟩)⟩
  · rw [exec_dead hdead hc] at hl' ⊢
    exact hi hl'
  · rw [exec, memDestroy_view hz hl] at hl'
    cases hl'
  · rw [exec_view hz hl hk]
    exact (hi hl).effect c

theorem Run.spanned (hr : Run s) :
    ∀ k, (s.heaps.view k).live = true → Spanned k (s.heaps.view k) := by
  induction hr with
  | start memory => exact fun k hl => by cases hl
  | @call s heap c _ hroom ih =>
    intro k
    by_cases hk : heap = k
    · subst hk
      exact exec_spanned hroom (ih heap)
    · rw [exec_elsewhere s c hk]
      exact ih k

-- What the size query of a live heap answers.
def allocatable (h : HostFrmHeap) (alignment : Int32) : UInt32 :=
  let start := alignUp h.head (normaliseAlignment alignment).1
  if start ≥ h.tail then 0 else (h.tail - start).toUInt32

theorem Spanned.toNat_alignUp (hi : Spanned base h) {a : UInt32} (ha : IsAlignment a) :
    (alignUp h.head a).toNat = ceilTo a.toNat h.head.toNat := by
  have hle := ha.le
  have hroom := hi.head.room
  rw [userSpaceEnd] at hroom
  exact ha.toNat_alignUp (by omega)

theorem Spanned.toNat_allocatable (hi : Spanned base h) (alignment : Int32) :
    (allocatable h alignment).toNat =
      h.tail.toNat - ceilTo (normaliseAlignment alignment).1.toNat h.head.toNat := by
  have ha := isAlignment_normaliseAlignment alignment
  have hup := hi.toNat_alignUp ha
  have hle := le_ceilTo ha.pos h.head.toNat
  have hlow := hi.head.header
  have hhigh := hi.tail.span
  simp only [allocatable, ge_iff_le, UInt64.le_iff_toNat_le, hup]
  split
  next hge => exact (Nat.sub_eq_zero_of_le hge).symm
  next hlt =>
    rw [toNat_gap] <;> rw [hup]
    · exact (Nat.not_le.1 hlt).le
    · omega

theorem allocateIn_head_iff (hi : Spanned base h) {a : UInt32} (ha : IsAlignment a) :
    ¬(alignUp h.head a + size.toUInt64 > h.tail ∨ alignUp h.head a < h.head) ↔
      ceilTo a.toNat h.head.toNat + size.toNat ≤ h.tail.toNat := by
  have hup := hi.toNat_alignUp ha
  have hle := le_ceilTo ha.pos h.head.toNat
  have hlt := ceilTo_lt_add ha.pos h.head.toNat
  have ha' := ha.le
  have hsz := size.toNat_lt
  have hroom := hi.head.room
  rw [userSpaceEnd] at hroom
  have hsum : (alignUp h.head a + size.toUInt64).toNat =
      ceilTo a.toNat h.head.toNat + size.toNat := by
    rw [UInt64.toNat_add, UInt32.toNat_toUInt64, hup, Nat.mod_eq_of_lt (by omega)]
  rw [not_or, gt_iff_lt, UInt64.not_lt, UInt64.not_lt, UInt64.le_iff_toNat_le,
    UInt64.le_iff_toNat_le, hsum, hup]
  exact and_iff_left hle

-- From the tail the candidate is rounded down, and the wrap of `tail - size` is caught.
theorem allocateIn_tail_iff (hi : Spanned base h) {a : UInt32} (ha : IsAlignment a)
    (hs : 0 < size.toNat) :
    ¬(alignDown (h.tail - size.toUInt64) a < h.head ∨
        alignDown (h.tail - size.toUInt64) a > h.tail) ↔
      ceilTo a.toNat h.head.toNat + size.toNat ≤ h.tail.toNat := by
  constructor
  · intro hc
    obtain ⟨hhead, hsize, hdvd⟩ := allocateIn_tail ha hi.tail.room hc
    have hup := ceilTo_le_of_dvd ha.pos hdvd hhead
    omega
  · intro hfit
    have hsub : (h.tail - size.toUInt64).toNat = h.tail.toNat - size.toNat := by
      rw [UInt64.toNat_sub_of_le, UInt32.toNat_toUInt64]
      rw [UInt64.le_iff_toNat_le, UInt32.toNat_toUInt64]
      omega
    have hdown := floorTo_le a.toNat (h.tail.toNat - size.toNat)
    rw [not_or, gt_iff_lt, UInt64.not_lt, UInt64.not_lt, UInt64.le_iff_toNat_le,
      UInt64.le_iff_toNat_le, ha.toNat_alignDown, hsub, ← ceilTo_le_iff ha.pos]
    omega

theorem allocateIn_ne_none_iff (hi : Spanned base h) (hs : 0 < size.toNat) (alignment : Int32) :
    allocateIn h size alignment ≠ none ↔ size.toNat ≤ (allocatable h alignment).toNat := by
  have ha := isAlignment_normaliseAlignment alignment
  have hfit : size.toNat ≤ (allocatable h alignment).toNat ↔
      ceilTo (normaliseAlignment alignment).1.toNat h.head.toNat + size.toNat ≤ h.tail.toNat := by
    rw [hi.toNat_allocatable]
    omega
  rw [hfit, allocateIn]
  generalize normaliseAlignment alignment = n at ha ⊢
  obtain ⟨a, fromTail⟩ := n
  cases fromTail with
  | true =>
    rw [← allocateIn_tail_iff hi ha hs]
    simp only [if_true]
    split
    next hbad => exact ⟨fun hne => absurd rfl hne, fun hc => absurd hbad hc⟩
    next hok => exact ⟨fun _ => hok, fun _ => (by rintro ⟨⟩)⟩
  | false =>
    rw [← allocateIn_head_iff hi ha]
    simp only [Bool.false_eq_true, if_false]
    split
    next hbad => exact ⟨fun hne => absurd rfl hne, fun hc => absurd hbad hc⟩
    next hok => exact ⟨fun _ => hok, fun _ => (by rintro ⟨⟩)⟩

theorem allocateIn_inside (hi : Spanned base h) {r : UInt64}
    (ha : allocateIn h size alignment = some (r, h')) :
    h.head.toNat ≤ r.toNat ∧ r.toNat + size.toNat ≤ h.tail.toNat ∧ r ≠ 0 := by
  have hheader : memFrmHeapSize.toNat = 76 := rfl
  have hlow := hi.head.header
  have hrange : h.head.toNat ≤ r.toNat ∧ r.toNat + size.toNat ≤ h.tail.toNat := by
    obtain ⟨-, ⟨-, -, h1, h2⟩ | ⟨-, stop, -, h1, h2, h3⟩⟩ :=
      allocateIn_some hi.head.room hi.tail.room ha
    · exact ⟨h1, h2⟩
    · exact ⟨h1, h2 ▸ h3⟩
  refine ⟨hrange.1, hrange.2, ?_⟩
  rintro rfl
  have hzero : h.head.toNat ≤ 0 := hrange.1
  omega

theorem toNat_requested (size : UInt32) : (requested size).toNat = max size.toNat 1 :=
  toNat_atLeastOne size

theorem memGetAllocatable_live (hz : heap ≠ 0) (hl : (s.heaps.view heap).live = true)
    (alignment : Int32) :
    (memGetAllocatableSizeForFrmHeapEx s heap alignment).1 =
      allocatable (s.heaps.view heap) alignment := by
  rw [memGetAllocatableSizeForFrmHeapEx, live_of_live hz hl]
  rfl

theorem memAlloc_none (hz : heap ≠ 0) (hl : (s.heaps.view heap).live = true)
    (ha : allocateIn (s.heaps.view heap) (requested size) alignment = none) :
    memAllocFromFrmHeapEx s heap size alignment = (0, (live s heap).2) := by
  rw [requested] at ha
  rw [memAllocFromFrmHeapEx, live_of_live hz hl]
  simp only [ha]

theorem memAlloc_some (hz : heap ≠ 0) (hl : (s.heaps.view heap).live = true) {r : UInt64}
    (ha : allocateIn (s.heaps.view heap) (requested size) alignment = some (r, h')) :
    (memAllocFromFrmHeapEx s heap size alignment).1 = r := by
  rw [requested] at ha
  rw [memAllocFromFrmHeapEx, live_of_live hz hl]
  simp only [ha]

theorem frm_allocatable_exact (hr : Run s) (heap : UInt64) (size : UInt32) (alignment : Int32) :
    let r := memAllocFromFrmHeapEx s heap size alignment
    (r.1 ≠ 0 ↔
        max size.toNat 1 ≤ (memGetAllocatableSizeForFrmHeapEx s heap alignment).1.toNat) ∧
      (r.1 = 0 → ∀ k, r.2.heaps.view k = s.heaps.view k) ∧
      (r.1 ≠ 0 → (s.heaps.view heap).head.toNat ≤ r.1.toNat ∧
        r.1.toNat + max size.toNat 1 ≤ (s.heaps.view heap).tail.toNat) := by
  intro r
  have hpos : 0 < max size.toNat 1 := lt_of_lt_of_le Nat.one_pos (le_max_right _ _)
  rcases dead_or_live s heap with hdead | ⟨hz, hl⟩
  · have halloc : r = (0, (live s heap).2) := by
      change memAllocFromFrmHeapEx s heap size alignment = _
      rw [memAllocFromFrmHeapEx, live_of_dead hdead]
    have hsize : (memGetAllocatableSizeForFrmHeapEx s heap alignment).1 = 0 := by
      rw [memGetAllocatableSizeForFrmHeapEx, live_of_dead hdead]
    rw [halloc, hsize]
    exact ⟨⟨fun h => absurd rfl h, fun h => absurd (lt_of_lt_of_le hpos h) (lt_irrefl 0)⟩,
      fun _ k => live_view s heap k, fun h => absurd rfl h⟩
  · have hi := hr.spanned heap hl
    rw [memGetAllocatable_live hz hl, ← toNat_requested,
      ← allocateIn_ne_none_iff hi (by rwa [toNat_requested])]
    cases ha : allocateIn (s.heaps.view heap) (requested size) alignment with
    | none =>
      have halloc : r = (0, (live s heap).2) := memAlloc_none hz hl ha
      rw [halloc]
      exact ⟨⟨fun h => absurd rfl h, fun h => absurd rfl h⟩, fun _ k => live_view s heap k,
        fun h => absurd rfl h⟩
    | some found =>
      obtain ⟨ptr, h'⟩ := found
      have halloc : r.1 = ptr := memAlloc_some hz hl ha
      obtain ⟨hlow, hhigh, hne⟩ := allocateIn_inside hi ha
      rw [halloc]
      exact ⟨⟨fun _ => (by rintro ⟨⟩), fun _ => hne⟩, fun h => absurd h hne, fun _ => ⟨hlow, hhigh⟩⟩

-- From the tail: the size the query promises is granted, one byte more is not, nor is 2^32 - 1.
theorem frm_allocatable_exact_tail :
    let s := (exec ⟨HandleTable.empty, fun _ => 0⟩ 0x1000 (.create 0x200 0)).2
    (memGetAllocatableSizeForFrmHeapEx s 0x1000 (-64)).1 = 384 ∧
      (memAllocFromFrmHeapEx s 0x1000 384 (-64)).1 ≠ 0 ∧
      ¬(memAllocFromFrmHeapEx s 0x1000 385 (-64)).1 ≠ 0 ∧
      ¬(memAllocFromFrmHeapEx s 0x1000 0xFFFFFFFF (-64)).1 ≠ 0 := by
  have hr : Run (exec ⟨HandleTable.empty, fun _ => 0⟩ 0x1000 (.create 0x200 0)).2 :=
    .call _ _ (.start _) (by rintro _ _ ⟨⟩; rw [InUserSpace]; decide)
  have hsize : (memGetAllocatableSizeForFrmHeapEx (exec ⟨HandleTable.empty, fun _ => 0⟩ 0x1000
      (.create 0x200 0)).2 0x1000 (-64)).1 = 384 := by decide
  refine ⟨hsize, ?_, ?_, ?_⟩
  · rw [(frm_allocatable_exact hr 0x1000 384 (-64)).1, hsize]
    decide
  · rw [(frm_allocatable_exact hr 0x1000 385 (-64)).1, hsize]
    decide
  · rw [(frm_allocatable_exact hr 0x1000 0xFFFFFFFF (-64)).1, hsize]
    decide

end CoreinitNx.FrmHeap
