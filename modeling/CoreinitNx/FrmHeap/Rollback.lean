import CoreinitNx.FrmHeap.Recorded

namespace CoreinitNx.FrmHeap

open Alignment

variable {s : FrmHeaps} {heap : UInt64} {h : HostFrmHeap}

-- No recorded state claims less room than the heap has now.
def Covers (h : HostFrmHeap) : Prop :=
  ∀ st ∈ h.states, st.head.toNat ≤ h.head.toNat ∧ h.tail.toNat ≤ st.tail.toNat

-- A successful free by state moves neither end inwards and takes no allocatable byte away.
def RollbackFrees (s : FrmHeaps) (heap : UInt64) : Prop :=
  ∀ tag, (memFreeByStateToFrmHeap s heap tag).1 = 1 →
    let s' := (memFreeByStateToFrmHeap s heap tag).2
    (s'.heaps.view heap).head.toNat ≤ (s.heaps.view heap).head.toNat ∧
      (s.heaps.view heap).tail.toNat ≤ (s'.heaps.view heap).tail.toNat ∧
      ∀ alignment, (memGetAllocatableSizeForFrmHeapEx s heap alignment).1.toNat ≤
        (memGetAllocatableSizeForFrmHeapEx s' heap alignment).1.toNat

def Safe (s : FrmHeaps) (heap : UInt64) : Prop :=
  Covers (s.heaps.view heap) ∧ RollbackFrees s heap

def AlwaysSafe (heap : UInt64) : FrmHeaps → List Step → Prop
  | s, [] => Safe s heap
  | s, (k, c) :: steps => Safe s heap ∧ AlwaysSafe heap (exec s k c).2 steps

-- A free of one end finds no recorded state beyond the start or the end it goes back to; an
-- adjust finds none whose tail lies below the head.
def ClearOfStates (h : HostFrmHeap) : Call → Prop
  | .free mode => mode &&& memFrmHeapFreeAll ≠ memFrmHeapFreeAll →
      (mode &&& memFrmHeapFreeHead ≠ 0 → ∀ st ∈ h.states, st.head.toNat ≤ h.dataStart.toNat) ∧
        (mode &&& memFrmHeapFreeTail ≠ 0 → ∀ st ∈ h.states, h.dataEnd.toNat ≤ st.tail.toNat)
  | .adjust => h.tail = h.dataEnd → ∀ st ∈ h.states, h.head.toNat ≤ st.tail.toNat
  | _ => True

def EveryStepClear (heap : UInt64) : FrmHeaps → List Step → Prop
  | _, [] => True
  | s, (k, c) :: steps =>
      (k = heap → ClearOfStates (s.heaps.view heap) c) ∧ EveryStepClear heap (exec s k c).2 steps

-- The newer of two recorded states claims less room.
def Ordered (states : List State) : Prop :=
  states.Pairwise fun old new => old.head.toNat ≤ new.head.toNat ∧ new.tail.toNat ≤ old.tail.toNat

structure Stacked (h : HostFrmHeap) : Prop where
  covers : Covers h
  ordered : Ordered h.states

theorem Stacked.mono (hs : Stacked h) {h' : HostFrmHeap} (hstates : h'.states = h.states)
    (hhead : h.head.toNat ≤ h'.head.toNat) (htail : h'.tail.toNat ≤ h.tail.toNat) : Stacked h' := by
  refine ⟨fun st hst => ?_, hstates ▸ hs.ordered⟩
  obtain ⟨h1, h2⟩ := hs.covers st (hstates ▸ hst)
  exact ⟨h1.trans hhead, htail.trans h2⟩

theorem Stacked.record (hs : Stacked h) (tag : UInt32) :
    Stacked { h with states := h.states ++ [⟨tag, h.head, h.tail⟩] } := by
  constructor
  · intro st hst
    rcases List.mem_append.1 hst with hst | hst
    · exact hs.covers st hst
    · obtain rfl := List.mem_singleton.1 hst
      exact ⟨le_rfl, le_rfl⟩
  · refine List.pairwise_append.2 ⟨hs.ordered, List.pairwise_singleton _ _, fun st hst new hnew => ?_⟩
    obtain rfl := List.mem_singleton.1 hnew
    exact hs.covers st hst

theorem selected_some {tag : UInt32} {idx : Nat} {st : State}
    (hsel : selected h tag = some (idx, st)) : h.states[idx]? = some st := by
  obtain ⟨i, -, hi⟩ := Option.bind_eq_some_iff.1 hsel
  obtain ⟨st', hget, heq⟩ := Option.map_eq_some_iff.1 hi
  obtain ⟨rfl, rfl⟩ := Prod.mk.inj heq
  exact hget

theorem Stacked.freeByState (hs : Stacked h) {tag : UInt32} {idx : Nat} {st : State}
    (hsel : selected h tag = some (idx, st)) :
    Stacked { h with head := st.head, tail := st.tail, states := h.states.take idx } := by
  have hget := selected_some hsel
  obtain ⟨hlt, rfl⟩ := List.getElem?_eq_some_iff.1 hget
  refine ⟨fun old hold => ?_, hs.ordered.sublist (List.take_sublist _ _)⟩
  obtain ⟨i, hi, rfl⟩ := List.getElem_of_mem hold
  rw [List.length_take] at hi
  have hi' : i < idx := by omega
  have hpair := List.pairwise_iff_getElem.1 hs.ordered i idx (by omega) hlt hi'
  rwa [List.getElem_take]

theorem head_freeIn (h : HostFrmHeap) (mode : UInt32) :
    (freeIn h mode).head = if mode &&& memFrmHeapFreeHead ≠ 0 then h.dataStart else h.head := by
  simp only [freeIn]
  split <;> split <;> split <;> rfl

theorem tail_freeIn (h : HostFrmHeap) (mode : UInt32) :
    (freeIn h mode).tail = if mode &&& memFrmHeapFreeTail ≠ 0 then h.dataEnd else h.tail := by
  simp only [freeIn]
  split <;> split <;> split <;> rfl

theorem Stacked.free (hs : Stacked h) {mode : UInt32} (hclear : ClearOfStates h (.free mode)) :
    Stacked (freeIn h mode) := by
  by_cases hall : mode &&& memFrmHeapFreeAll = memFrmHeapFreeAll
  · have hnil : (freeIn h mode).states = [] := (states_freeIn h mode).trans (if_pos hall)
    refine ⟨fun st hst => ?_, ?_⟩
    · rw [hnil] at hst
      cases hst
    · rw [hnil]
      exact .nil
  · obtain ⟨hhead, htail⟩ := hclear hall
    have hstates : (freeIn h mode).states = h.states := (states_freeIn h mode).trans (if_neg hall)
    refine ⟨fun st hst => ?_, hstates ▸ hs.ordered⟩
    rw [hstates] at hst
    obtain ⟨h1, h2⟩ := hs.covers st hst
    rw [head_freeIn, tail_freeIn]
    constructor
    · split
      next hh => exact hhead hh st hst
      next => exact h1
    · split
      next ht => exact htail ht st hst
      next => exact h2

theorem Stacked.effect {base : UInt64} (hs : Stacked h) (hi : Spanned base h) {c : Call}
    (hclear : ClearOfStates h c) : Stacked (effect h c) := by
  cases c with
  | create | destroy => exact hs
  | alloc size alignment =>
    simp only [FrmHeap.effect]
    cases ha : allocateIn h (requested size) alignment with
    | none => exact hs
    | some found =>
      obtain ⟨r, h'⟩ := found
      obtain ⟨-, ⟨-, rfl, h1, h2⟩ | ⟨-, stop, rfl, h1, h2, h3⟩⟩ :=
        allocateIn_some hi.head.room hi.tail.room ha
      · exact hs.mono rfl le_rfl ((Nat.le_add_right _ _).trans h2)
      · exact hs.mono rfl (h1.trans (h2 ▸ Nat.le_add_right _ _)) le_rfl
  | free mode => exact hs.free hclear
  | record tag => exact hs.record tag
  | freeByState tag =>
    simp only [FrmHeap.effect, freeByStateIn]
    cases hsel : selected h tag with
    | none => exact hs
    | some found => exact hs.freeByState hsel
  | adjust =>
    simp only [FrmHeap.effect]
    split
    next => exact hs
    next hend =>
      rw [not_not] at hend
      exact ⟨fun st hst => ⟨(hs.covers st hst).1, hclear hend st hst⟩, hs.ordered⟩

-- The condition is forced: a step that fails it leaves a state that claims less room.
theorem clear_of_covers {c : Call} (hc : Covers (effect h c)) : ClearOfStates h c := by
  cases c with
  | free mode =>
    intro hall
    have hstates : (freeIn h mode).states = h.states := (states_freeIn h mode).trans (if_neg hall)
    refine ⟨fun hh st hst => ?_, fun ht st hst => ?_⟩
    · have hle := (hc st (hstates ▸ hst)).1
      rwa [effect, head_freeIn, if_pos hh] at hle
    · have hle := (hc st (hstates ▸ hst)).2
      rwa [effect, tail_freeIn, if_pos ht] at hle
  | adjust =>
    intro hend st hst
    simp only [effect, hend, ne_eq, not_true_eq_false, if_false] at hc
    exact (hc st hst).2
  | _ => trivial

theorem rollbackFrees_of_covers
    (hi : (s.heaps.view heap).live = true → Spanned heap (s.heaps.view heap))
    (hc : Covers (s.heaps.view heap)) : RollbackFrees s heap := by
  intro tag hone
  rcases dead_or_live s heap with hdead | ⟨hz, hl⟩
  · rw [memFreeByStateToFrmHeap, live_of_dead hdead] at hone
    cases hone
  · have hi := hi hl
    cases hsel : selected (s.heaps.view heap) tag with
    | none =>
      have hfree : freeByStateIn (s.heaps.view heap) tag = none := by rw [freeByStateIn, hsel]; rfl
      rw [memFreeByState_none hz hl hfree] at hone
      cases hone
    | some found =>
      obtain ⟨idx, st⟩ := found
      have hfree : freeByStateIn (s.heaps.view heap) tag = some { s.heaps.view heap with
          head := st.head, tail := st.tail, states := (s.heaps.view heap).states.take idx } := by
        rw [freeByStateIn, hsel]
        rfl
      obtain ⟨-, hview⟩ := memFreeByState_some hz hl hfree
      have hst := selected_mem hsel
      obtain ⟨hhead, htail⟩ := hc st hst
      obtain ⟨hhead', htail'⟩ := hi.states st hst
      have hi' : Spanned heap { s.heaps.view heap with
          head := st.head, tail := st.tail, states := (s.heaps.view heap).states.take idx } :=
        ⟨hi.dataStart, hi.dataEnd, hhead', htail', fun q hq => hi.states q (List.mem_of_mem_take hq)⟩
      simp only
      rw [hview]
      refine ⟨hhead, htail, fun alignment => ?_⟩
      have hup := ceilTo_mono (isAlignment_normaliseAlignment alignment).pos hhead
      rw [memGetAllocatable_live hz hl, memGetAllocatable_live hz (by rw [hview]; exact hl), hview,
        hi.toNat_allocatable, hi'.toNat_allocatable]
      exact (Nat.sub_le_sub_right htail _).trans (Nat.sub_le_sub_left hup _)

-- What a step of a run meets: a live heap keeps to its region, a dead one has no states.
structure Kept (s : FrmHeaps) (heap : UInt64) : Prop where
  spanned : (s.heaps.view heap).live = true → Spanned heap (s.heaps.view heap)
  dead : heap = 0 ∨ (s.heaps.view heap).live = false → (s.heaps.view heap).states = []
  stacked : Stacked (s.heaps.view heap)

theorem stacked_nil (hnil : h.states = []) : Stacked h := by
  constructor
  · intro st hst
    rw [hnil] at hst
    cases hst
  · rw [hnil]
    exact .nil

theorem Kept.safe (hk : Kept s heap) : Safe s heap :=
  ⟨hk.stacked.covers, rollbackFrees_of_covers hk.spanned hk.stacked.covers⟩

def CreatesInUserSpace (steps : List Step) : Prop :=
  ∀ k size flags, (k, Call.create size flags) ∈ steps → InUserSpace k size

theorem Kept.exec (hk : Kept s heap) {c : Call}
    (hroom : ∀ size flags, c = .create size flags → InUserSpace heap size)
    (hclear : ClearOfStates (s.heaps.view heap) c) : Kept (exec s heap c).2 heap := by
  have hspanned := exec_spanned hroom hk.spanned
  rcases call_cases s heap c with ⟨size, flags, rfl⟩ | ⟨hc, hdead⟩ | ⟨rfl, hz, hl⟩ | ⟨hk', hz, hl⟩
  · rcases memCreate_view s heap size flags with
      ⟨-, -, hview⟩ | ⟨-, ⟨-, -, hview⟩ | ⟨-, -, hview⟩⟩
    · refine ⟨hspanned, ?_, ?_⟩ <;> rw [FrmHeap.exec, hview]
      · exact hk.dead
      · exact hk.stacked
    · refine ⟨hspanned, ?_, ?_⟩ <;> rw [FrmHeap.exec, hview]
      · exact hk.dead
      · exact hk.stacked.mono rfl le_rfl le_rfl
    · refine ⟨hspanned, ?_, ?_⟩ <;> rw [FrmHeap.exec, hview]
      · exact fun _ => rfl
      · exact stacked_nil rfl
  · have hview := exec_dead (k := heap) hdead hc
    refine ⟨hspanned, ?_, ?_⟩ <;> rw [hview]
    · exact hk.dead
    · exact hk.stacked
  · have hview := memDestroy_view hz hl
    refine ⟨hspanned, ?_, ?_⟩ <;> rw [FrmHeap.exec, hview]
    · exact fun _ => rfl
    · exact stacked_nil rfl
  · have hview := exec_view hz hl hk'
    refine ⟨hspanned, ?_, ?_⟩ <;> rw [hview]
    · rw [(effect_fixed _ _).1, hl]
      exact fun h => h.elim (fun h => absurd h hz) (by rintro ⟨⟩)
    · exact hk.stacked.effect (hk.spanned hl) hclear

theorem AlwaysSafe.head {steps : List Step} (h : AlwaysSafe heap s steps) : Safe s heap := by
  cases steps with
  | nil => exact h
  | cons st steps => exact h.1

theorem clear_of_safe (hk : Kept s heap) {c : Call} (hs : Safe (FrmHeap.exec s heap c).2 heap) :
    ClearOfStates (s.heaps.view heap) c := by
  rcases call_cases s heap c with ⟨size, flags, rfl⟩ | ⟨-, hdead⟩ | ⟨rfl, -, -⟩ | ⟨hk', hz, hl⟩
  · trivial
  · have hnil := hk.dead hdead
    cases c with
    | free mode =>
      intro _
      rw [hnil]
      exact ⟨fun _ => nofun, fun _ => nofun⟩
    | adjust =>
      intro _
      rw [hnil]
      exact nofun
    | _ => trivial
  · trivial
  · have hcovers := hs.1
    rw [exec_view hz hl hk'] at hcovers
    exact clear_of_covers hcovers

theorem alwaysSafe_iff {steps : List Step} (hk : Kept s heap) (hroom : CreatesInUserSpace steps) :
    AlwaysSafe heap s steps ↔ EveryStepClear heap s steps := by
  induction steps generalizing s with
  | nil => exact ⟨fun _ => trivial, fun _ => hk.safe⟩
  | cons st steps ih =>
    obtain ⟨k, c⟩ := st
    have hrest : CreatesInUserSpace steps := fun k size flags h =>
      hroom k size flags (List.mem_cons_of_mem _ h)
    by_cases hkh : k = heap
    · subst hkh
      have hcreate : ∀ size flags, c = .create size flags → InUserSpace k size := by
        rintro size flags rfl
        exact hroom k size flags List.mem_cons_self
      constructor
      · rintro ⟨-, hsafe⟩
        have hclear := clear_of_safe hk hsafe.head
        exact ⟨fun _ => hclear, (ih (hk.exec hcreate hclear) hrest).1 hsafe⟩
      · rintro ⟨hclear, hevery⟩
        exact ⟨hk.safe, (ih (hk.exec hcreate (hclear rfl)) hrest).2 hevery⟩
    · have hview := exec_elsewhere s c hkh
      have hk' : Kept (FrmHeap.exec s k c).2 heap := by
        obtain ⟨h1, h2, h3⟩ := hk
        rw [← hview] at h1 h2 h3
        exact ⟨h1, h2, h3⟩
      constructor
      · rintro ⟨-, hsafe⟩
        exact ⟨fun h => absurd h hkh, (ih hk' hrest).1 hsafe⟩
      · rintro ⟨-, hevery⟩
        exact ⟨hk.safe, (ih hk' hrest).2 hevery⟩

theorem rollback_frees_iff (memory : Memory) (heap : UInt64) {steps : List Step}
    (hroom : CreatesInUserSpace steps) :
    AlwaysSafe heap ⟨HandleTable.empty, memory⟩ steps ↔
      EveryStepClear heap ⟨HandleTable.empty, memory⟩ steps :=
  have hstart : Kept ⟨HandleTable.empty, memory⟩ heap :=
    ⟨fun hl => absurd hl Bool.false_ne_true, fun _ => rfl, stacked_nil rfl⟩
  alwaysSafe_iff hstart hroom

-- The recorded head is the start of the region, so that freeing the head side keeps it restorable.
theorem rollback_frees_iff_recorded_at_start :
    AlwaysSafe 0x1000 ⟨HandleTable.empty, fun _ => 0⟩
      [(0x1000, .create 0x200 0), (0x1000, .record 1), (0x1000, .alloc 64 4), (0x1000, .free 1)] := by
  have hroom : CreatesInUserSpace
      [(0x1000, .create 0x200 0), (0x1000, .record 1), (0x1000, .alloc 64 4), (0x1000, .free 1)] := by
    intro k size flags hmem
    simp only [List.mem_cons, Prod.mk.injEq, reduceCtorEq, and_false, List.not_mem_nil, or_false,
      Call.create.injEq] at hmem
    obtain ⟨rfl, rfl, rfl⟩ := hmem
    rw [InUserSpace]
    decide
  refine (rollback_frees_iff _ _ hroom).2
    ⟨fun _ => trivial, fun _ => trivial, fun _ => trivial, fun _ _ => ⟨fun _ => ?_, ?_⟩, trivial⟩
  · decide
  · exact fun h => absurd rfl h

-- A free of the head side alone keeps a state whose head now lies above the heap's.
theorem rollback_consumes :
    ¬∀ (memory : Memory) (heap : UInt64) (steps : List Step), CreatesInUserSpace steps →
      AlwaysSafe heap ⟨HandleTable.empty, memory⟩ steps := by
  intro hall
  have hsafe := hall (fun _ => 0) 0x1000
    [(0x1000, .create 0x200 0), (0x1000, .alloc 64 4), (0x1000, .record 1), (0x1000, .free 1)] (by
      intro k size flags hmem
      simp only [List.mem_cons, Prod.mk.injEq, reduceCtorEq, and_false, List.not_mem_nil, or_false,
        Call.create.injEq] at hmem
      obtain ⟨rfl, rfl, rfl⟩ := hmem
      rw [InUserSpace]
      decide)
  obtain ⟨-, -, -, -, -, hfrees⟩ := hsafe
  have hrooms := (hfrees 1 (by decide)).2.2 4
  exact absurd hrooms (by decide)

end CoreinitNx.FrmHeap
