import CoreinitNx.FrmHeap.Bounds

namespace CoreinitNx.FrmHeap

inductive Call where
  | create (size flags : UInt32)
  | destroy
  | alloc (size : UInt32) (alignment : Int32)
  | free (mode : UInt32)
  | record (tag : UInt32)
  | freeByState (tag : UInt32)
  | adjust
deriving DecidableEq, Repr

def Call.keepsHeap : Call → Bool
  | .create _ _ | .destroy => false
  | _ => true

def exec (s : FrmHeaps) (heap : UInt64) : Call → UInt64 × FrmHeaps
  | .create size flags => memCreateFrmHeapEx s heap size flags
  | .destroy => memDestroyFrmHeap s heap
  | .alloc size alignment => memAllocFromFrmHeapEx s heap size alignment
  | .free mode => (0, memFreeToFrmHeap s heap mode)
  | .record tag =>
      let (ok, s) := memRecordStateForFrmHeap s heap tag
      (ok.toUInt32.toUInt64, s)
  | .freeByState tag =>
      let (ok, s) := memFreeByStateToFrmHeap s heap tag
      (ok.toUInt32.toUInt64, s)
  | .adjust =>
      let (size, s) := memAdjustFrmHeap s heap
      (size.toUInt64, s)

def requested (size : UInt32) : UInt32 := if size = 0 then 1 else size

-- The effect of a call on the heap it names, once that heap is live.
def effect (h : HostFrmHeap) : Call → HostFrmHeap
  | .alloc size alignment => ((allocateIn h (requested size) alignment).map Prod.snd).getD h
  | .free mode => freeIn h mode
  | .record tag => { h with states := h.states ++ [⟨tag, h.head, h.tail⟩] }
  | .freeByState tag => (freeByStateIn h tag).getD h
  | .adjust => if h.tail ≠ h.dataEnd then h else { h with dataEnd := h.head, tail := h.head }
  | .create _ _ | .destroy => h

section Table

variable {s : FrmHeaps} {heap k : UInt64}

theorem live_eq (s : FrmHeaps) (heap : UInt64) :
    live s heap = ((liveAt (·.live) s.heaps heap).1,
      { s with heaps := (liveAt (·.live) s.heaps heap).2 }) := by
  rw [live, liveAt]
  split <;> rfl

theorem live_view (s : FrmHeaps) (heap k : UInt64) :
    (live s heap).2.heaps.view k = s.heaps.view k := by
  rw [live_eq]
  exact liveAt_view

theorem live_memory (s : FrmHeaps) (heap : UInt64) : (live s heap).2.memory = s.memory := by
  rw [live_eq]

theorem live_of_dead (h : heap = 0 ∨ (s.heaps.view heap).live = false) :
    live s heap = (none, (live s heap).2) := by
  refine Prod.ext ?_ rfl
  rw [live_eq]
  exact liveAt_of_dead h

theorem live_of_live (hz : heap ≠ 0) (hl : (s.heaps.view heap).live = true) :
    live s heap = (some (s.heaps.view heap), (live s heap).2) := by
  refine Prod.ext ?_ rfl
  rw [live_eq]
  exact liveAt_of_live hz hl

theorem dead_or_live (s : FrmHeaps) (heap : UInt64) :
    (heap = 0 ∨ (s.heaps.view heap).live = false) ∨
      heap ≠ 0 ∧ (s.heaps.view heap).live = true := dead_or_alive (·.live) s.heaps heap

-- A create may find anything at the address; the other calls find a heap or do nothing.
theorem call_cases (s : FrmHeaps) (heap : UInt64) (c : Call) :
    (∃ size flags, c = .create size flags) ∨
      (∀ size flags, c ≠ .create size flags) ∧ (heap = 0 ∨ (s.heaps.view heap).live = false) ∨
      c = .destroy ∧ heap ≠ 0 ∧ (s.heaps.view heap).live = true ∨
      c.keepsHeap = true ∧ heap ≠ 0 ∧ (s.heaps.view heap).live = true := by
  rcases dead_or_live s heap with hdead | hlive
  · cases c with
    | create size flags => exact .inl ⟨size, flags, rfl⟩
    | _ => exact .inr (.inl ⟨nofun, hdead⟩)
  · cases c with
    | create size flags => exact .inl ⟨size, flags, rfl⟩
    | destroy => exact .inr (.inr (.inl ⟨rfl, hlive⟩))
    | _ => exact .inr (.inr (.inr ⟨rfl, hlive⟩))

-- A call other than a create finds no heap there and changes none.
theorem exec_dead {c : Call} (hdead : heap = 0 ∨ (s.heaps.view heap).live = false)
    (hc : ∀ size flags, c ≠ .create size flags) :
    (exec s heap c).2.heaps.view k = s.heaps.view k := by
  have hview := live_view s heap k
  have hnone := live_of_dead hdead
  cases c with
  | create size flags => exact absurd rfl (hc size flags)
  | destroy =>
    rw [exec, memDestroyFrmHeap, hnone]
    exact hview
  | alloc size alignment =>
    rw [exec, memAllocFromFrmHeapEx, hnone]
    exact hview
  | free mode =>
    rw [exec, memFreeToFrmHeap, hnone]
    exact hview
  | record tag =>
    rw [exec, memRecordStateForFrmHeap, hnone]
    exact hview
  | freeByState tag =>
    rw [exec, memFreeByStateToFrmHeap, hnone]
    exact hview
  | adjust =>
    rw [exec, memAdjustFrmHeap, hnone]
    exact hview

theorem memDestroy_view (hz : heap ≠ 0) (hl : (s.heaps.view heap).live = true) :
    (memDestroyFrmHeap s heap).2.heaps.view heap =
      { s.heaps.view heap with live := false, states := [] } := by
  rw [memDestroyFrmHeap, live_of_live hz hl]
  exact HandleTable.view_store_same _ _ _

theorem exec_elsewhere (s : FrmHeaps) {other heap : UInt64} (c : Call) (h : other ≠ heap) :
    (exec s other c).2.heaps.view heap = s.heaps.view heap := by
  have hne : heap ≠ other := h.symm
  have hlive := live_view s other heap
  cases c with
  | create size flags =>
    simp only [exec, memCreateFrmHeapEx]
    split
    · rfl
    · split <;> simp [HandleTable.view_store_ne _ _ hne]
  | destroy =>
    simp only [exec, memDestroyFrmHeap]
    generalize live s other = r at hlive ⊢
    obtain ⟨_ | h, s'⟩ := r
    · exact hlive
    · simpa [HandleTable.view_store_ne _ _ hne] using hlive
  | alloc size alignment =>
    simp only [exec, memAllocFromFrmHeapEx]
    generalize live s other = r at hlive ⊢
    obtain ⟨_ | h, s'⟩ := r
    · exact hlive
    · simp only
      split
      · exact hlive
      · simpa [HandleTable.view_store_ne _ _ hne] using hlive
  | free mode =>
    simp only [exec, memFreeToFrmHeap]
    generalize live s other = r at hlive ⊢
    obtain ⟨_ | h, s'⟩ := r
    · exact hlive
    · simpa [HandleTable.view_store_ne _ _ hne] using hlive
  | record tag =>
    simp only [exec, memRecordStateForFrmHeap]
    generalize live s other = r at hlive ⊢
    obtain ⟨_ | h, s'⟩ := r
    · exact hlive
    · simpa [HandleTable.view_store_ne _ _ hne] using hlive
  | freeByState tag =>
    simp only [exec, memFreeByStateToFrmHeap]
    generalize live s other = r at hlive ⊢
    obtain ⟨_ | h, s'⟩ := r
    · exact hlive
    · simp only
      split
      · exact hlive
      · simpa [HandleTable.view_store_ne _ _ hne] using hlive
  | adjust =>
    simp only [exec, memAdjustFrmHeap]
    generalize live s other = r at hlive ⊢
    obtain ⟨_ | h, s'⟩ := r
    · exact hlive
    · simp only
      split
      · exact hlive
      · simpa [HandleTable.view_store_ne _ _ hne] using hlive

theorem exec_view (hz : heap ≠ 0) (hl : (s.heaps.view heap).live = true) {c : Call}
    (hk : c.keepsHeap = true) :
    (exec s heap c).2.heaps.view heap = effect (s.heaps.view heap) c := by
  have hview := live_view s heap heap
  have hlive := live_of_live hz hl
  cases c with
  | create | destroy => cases hk
  | alloc size alignment =>
    rw [exec, memAllocFromFrmHeapEx, hlive, effect, requested]
    dsimp only
    split
    next ha =>
      rw [ha]
      exact hview
    next ha =>
      rw [ha]
      exact HandleTable.view_store_same _ _ _
  | free mode =>
    rw [exec, memFreeToFrmHeap, hlive]
    exact HandleTable.view_store_same _ _ _
  | record tag =>
    rw [exec, memRecordStateForFrmHeap, hlive]
    exact HandleTable.view_store_same _ _ _
  | freeByState tag =>
    rw [exec, memFreeByStateToFrmHeap, hlive, effect]
    dsimp only
    split
    next ha =>
      rw [ha]
      exact hview
    next ha =>
      rw [ha]
      exact HandleTable.view_store_same _ _ _
  | adjust =>
    rw [exec, memAdjustFrmHeap, hlive, effect]
    dsimp only
    split
    next => exact hview
    next => exact HandleTable.view_store_same _ _ _

theorem exec_alloc_result (hz : heap ≠ 0) (hl : (s.heaps.view heap).live = true) (size : UInt32)
    (alignment : Int32) (hr : (exec s heap (.alloc size alignment)).1 ≠ 0) :
    ∃ h', allocateIn (s.heaps.view heap) (requested size) alignment =
      some ((exec s heap (.alloc size alignment)).1, h') := by
  rw [exec, memAllocFromFrmHeapEx, live_of_live hz hl] at hr ⊢
  dsimp only at hr ⊢
  rw [requested]
  cases ha : allocateIn (s.heaps.view heap) (if size = 0 then 1 else size) alignment with
  | none =>
    rw [ha] at hr
    exact absurd rfl hr
  | some found => exact ⟨found.2, rfl⟩

theorem exec_alloc_null (hz : heap ≠ 0) (hl : (s.heaps.view heap).live = true) (size : UInt32)
    (alignment : Int32) (hr : (exec s heap (.alloc size alignment)).1 = 0) :
    allocateIn (s.heaps.view heap) (requested size) alignment = none ∨
      ∃ h', allocateIn (s.heaps.view heap) (requested size) alignment = some (0, h') := by
  rw [exec, memAllocFromFrmHeapEx, live_of_live hz hl] at hr
  dsimp only at hr
  rw [requested]
  cases ha : allocateIn (s.heaps.view heap) (if size = 0 then 1 else size) alignment with
  | none => exact .inl rfl
  | some found =>
    rw [ha] at hr
    obtain ⟨r, h'⟩ := found
    obtain rfl : r = 0 := hr
    exact .inr ⟨h', rfl⟩

end Table

section Step

variable {h : HostFrmHeap}

-- A free by state goes back to an end that the heap still owns.
def RestoresInside (h : HostFrmHeap) : Call → Prop
  | .freeByState tag => ∀ idx st, selected h tag = some (idx, st) → st.tail.toNat ≤ h.dataEnd.toNat
  | _ => True

theorem Inv.effect (hi : Inv h) {c : Call} (hc : RestoresInside h c) : Inv (effect h c) := by
  cases c with
  | create | destroy => exact hi
  | alloc size alignment =>
    simp only [FrmHeap.effect]
    cases ha : allocateIn h (requested size) alignment with
    | none => exact hi
    | some found => exact hi.alloc ha
  | free mode => exact hi.free mode
  | record tag => exact hi.record tag
  | freeByState tag =>
    simp only [FrmHeap.effect, freeByStateIn]
    cases hs : selected h tag with
    | none => exact hi
    | some found => exact hi.freeByState hs (hc _ _ hs)
  | adjust =>
    simp only [FrmHeap.effect]
    split
    · exact hi
    · exact hi.adjust

theorem restoresInside_of_bounds {c : Call} (hb : Bounds (effect h c)) : RestoresInside h c := by
  cases c with
  | freeByState tag =>
    intro idx st hs
    have htail := hb.tail_le
    simpa [effect, freeByStateIn, hs] using htail
  | _ => trivial

end Step

abbrev Step := UInt64 × Call

def PointerInside (s : FrmHeaps) (heap : UInt64) : Call → Prop
  | .alloc size alignment =>
      let r := exec s heap (.alloc size alignment)
      let h := r.2.heaps.view heap
      r.1 ≠ 0 →
        h.dataStart.toNat ≤ r.1.toNat ∧ r.1.toNat + (requested size).toNat ≤ h.dataEnd.toNat
  | _ => True

def StaysInside (heap : UInt64) : FrmHeaps → List Step → Prop
  | s, [] => Bounds (s.heaps.view heap)
  | s, (k, c) :: steps =>
      Bounds (s.heaps.view heap) ∧ (k = heap → PointerInside s heap c) ∧
        StaysInside heap (exec s k c).2 steps

def EveryRestoreInside (heap : UInt64) : FrmHeaps → List Step → Prop
  | _, [] => True
  | s, (k, c) :: steps =>
      (k = heap → RestoresInside (s.heaps.view heap) c) ∧
        EveryRestoreInside heap (exec s k c).2 steps

section Run

variable {s : FrmHeaps} {heap : UInt64} {size : UInt32}

theorem StaysInside.bounds {steps : List Step} (h : StaysInside heap s steps) :
    Bounds (s.heaps.view heap) := by
  cases steps with
  | nil => exact h
  | cons st steps => exact h.1

theorem pointerInside (hz : heap ≠ 0) (hi : Inv (s.heaps.view heap)) (c : Call) :
    PointerInside s heap c := by
  cases c with
  | alloc size alignment =>
    intro hr
    obtain ⟨h', ha⟩ := exec_alloc_result hz hi.alive size alignment hr
    have hview := exec_view (s := s) (c := .alloc size alignment) hz hi.alive rfl
    simp only [effect, ha, Option.map_some, Option.getD_some] at hview
    rw [hview]
    exact alloc_inside hi ha
  | _ => trivial

theorem staysInside_iff (hz : heap ≠ 0) {steps : List Step}
    (hk : ∀ st ∈ steps, st.1 = heap → st.2.keepsHeap = true) (hi : Inv (s.heaps.view heap)) :
    StaysInside heap s steps ↔ EveryRestoreInside heap s steps := by
  induction steps generalizing s with
  | nil => exact ⟨fun _ => trivial, fun _ => hi.bounds⟩
  | cons st steps ih =>
    obtain ⟨k, c⟩ := st
    have hrest : ∀ st ∈ steps, st.1 = heap → st.2.keepsHeap = true :=
      fun st hst => hk st (List.mem_cons_of_mem _ hst)
    by_cases hkh : k = heap
    · subst hkh
      have hview := exec_view hz hi.alive (hk (k, c) (by simp) rfl)
      constructor
      · rintro ⟨-, -, hstay⟩
        have hc : RestoresInside (s.heaps.view k) c :=
          restoresInside_of_bounds (hview ▸ hstay.bounds)
        have hi' : Inv ((exec s k c).2.heaps.view k) := hview ▸ hi.effect hc
        exact ⟨fun _ => hc, (ih hrest hi').1 hstay⟩
      · rintro ⟨hc, hevery⟩
        have hi' : Inv ((exec s k c).2.heaps.view k) := hview ▸ hi.effect (hc rfl)
        exact ⟨hi.bounds, fun _ => pointerInside hz hi c, (ih hrest hi').2 hevery⟩
    · have hview := exec_elsewhere s c hkh
      have hi' : Inv ((exec s k c).2.heaps.view heap) := hview ▸ hi
      constructor
      · rintro ⟨-, -, hstay⟩
        exact ⟨fun h => absurd h hkh, (ih hrest hi').1 hstay⟩
      · rintro ⟨-, hevery⟩
        exact ⟨hi.bounds, fun h => absurd h hkh, (ih hrest hi').2 hevery⟩

theorem alignUp_header_pos (hroom : InUserSpace heap size) (hsize : ¬size ≤ memFrmHeapSize) :
    0 < (alignUp (heap + memFrmHeapSize.toUInt64) 4).toNat := by
  have hlt : memFrmHeapSize.toNat < size.toNat := by
    rwa [UInt32.not_le, UInt32.lt_iff_toNat_lt] at hsize
  have hheader : memFrmHeapSize.toNat = 76 := rfl
  have hspan : heap.toNat + size.toNat ≤ 2 ^ 63 := hroom
  have hsum : (heap + memFrmHeapSize.toUInt64).toNat = heap.toNat + 76 := by
    rw [UInt64.toNat_add, UInt32.toNat_toUInt64, hheader, Nat.mod_eq_of_lt (by omega)]
  have hfour : IsAlignment 4 := ⟨2, by decide, rfl⟩
  have hup := hfour.toNat_alignUp (v := heap + memFrmHeapSize.toUInt64)
    (by rw [hsum]; exact (by omega : heap.toNat + 76 + 4 ≤ 2 ^ 64))
  have hle := Alignment.le_ceilTo (by decide : 0 < (4 : UInt32).toNat) (heap.toNat + 76)
  rw [hup, hsum]
  omega

theorem memCreate_inv (s : FrmHeaps) (flags : UInt32) (hroom : InUserSpace heap size)
    (hok : (memCreateFrmHeapEx s heap size flags).1 ≠ 0) :
    heap ≠ 0 ∧ Inv ((memCreateFrmHeapEx s heap size flags).2.heaps.view heap) ∧
      ((memCreateFrmHeapEx s heap size flags).2.heaps.view heap).states = [] ∧
      0 < ((memCreateFrmHeapEx s heap size flags).2.heaps.view heap).dataStart.toNat := by
  have hend := hroom.toNat_add
  simp only [memCreateFrmHeapEx] at hok ⊢
  split at hok
  · exact absurd rfl hok
  next hargs =>
    split at hok
    · exact absurd rfl hok
    next horder =>
      rw [if_neg hargs, if_neg horder]
      refine ⟨fun hz => hargs (.inl hz), ?_⟩
      rw [HandleTable.view_store_same]
      rw [ge_iff_le, UInt64.not_le, UInt64.lt_iff_toNat_lt] at horder
      refine ⟨⟨rfl, hend.trans_le hroom, ⟨le_rfl, horder.le, le_rfl⟩, by simp⟩, rfl, ?_⟩
      exact alignUp_header_pos hroom (not_or.1 hargs).2

-- The heap keeps to its region in exactly the runs that never roll back past a lowered end.
theorem frm_heap_stays_inside_iff (s : FrmHeaps) (flags : UInt32) (hroom : InUserSpace heap size)
    (hok : (memCreateFrmHeapEx s heap size flags).1 ≠ 0) (steps : List Step)
    (hk : ∀ st ∈ steps, st.1 = heap → st.2.keepsHeap = true) :
    StaysInside heap (memCreateFrmHeapEx s heap size flags).2 steps ↔
      EveryRestoreInside heap (memCreateFrmHeapEx s heap size flags).2 steps := by
  obtain ⟨hz, hi, -, -⟩ := memCreate_inv s flags hroom hok
  exact staysInside_iff hz hk hi

theorem frm_heap_stays_inside_iff_adjusted :
    StaysInside 0x1000 (memCreateFrmHeapEx ⟨HandleTable.empty, fun _ => 0⟩ 0x1000 0x200 0).2
        [(0x1000, .alloc 16 4), (0x1000, .record 1), (0x1000, .alloc 32 64),
          (0x1000, .freeByState 1), (0x1000, .adjust)] := by
  refine (frm_heap_stays_inside_iff _ 0 (by unfold InUserSpace; decide) (by decide) _ (by decide)).2
    ⟨fun _ => trivial, fun _ => trivial, fun _ => trivial, fun _ => ?_, fun _ => trivial, trivial⟩
  intro idx st hs
  obtain ⟨rfl, rfl⟩ := Prod.mk.inj (Option.some.inj hs)
  decide

theorem frm_heap_leaves_region :
    ¬∀ (heap : UInt64) (size flags : UInt32) (s : FrmHeaps) (steps : List Step),
      InUserSpace heap size → (memCreateFrmHeapEx s heap size flags).1 ≠ 0 →
      (∀ st ∈ steps, st.1 = heap → st.2.keepsHeap = true) →
      StaysInside heap (memCreateFrmHeapEx s heap size flags).2 steps := by
  intro hall
  have hstay := hall 0x1000 0x200 0 ⟨HandleTable.empty, fun _ => 0⟩
    [(0x1000, .record 1), (0x1000, .adjust), (0x1000, .freeByState 1)]
    (by unfold InUserSpace; decide) (by decide) (by decide)
  obtain ⟨-, -, -, -, -, -, hlast⟩ := hstay
  exact absurd hlast.tail_le (by decide)

end Run

end CoreinitNx.FrmHeap
