import CoreinitNx.DefaultHeap
import CoreinitNx.ExpHeap.Allocatable
import CoreinitNx.Library.Requests

namespace CoreinitNx.ExpHeap

open Requests

abbrev MEMBaseHeapType := UInt32

def memBaseHeapMem1 : MEMBaseHeapType := 0

def memBaseHeapMem2 : MEMBaseHeapType := 1

def memBaseHeapFg : MEMBaseHeapType := 8

-- `none` is the source's -1.
def baseIndex (type : MEMBaseHeapType) : Option (Fin 3) :=
  if type = memBaseHeapMem1 then some 0
  else if type = memBaseHeapMem2 then some 1
  else if type = memBaseHeapFg then some 2
  else none

def baseHeapSize : UInt32 := 8 * 1024 * 1024

structure BaseHeaps where
  baseHeap : Fin 3 → UInt64
  exp : ExpHeaps

def BaseHeaps.start (memory : Memory) : BaseHeaps := ⟨fun _ => 0, ⟨HandleTable.empty, memory⟩⟩

-- `region` is what `malloc` answers, where the call comes to it.
def memGetBaseHeapHandle (region : UInt64) (type : MEMBaseHeapType) (s : BaseHeaps) :
    UInt64 × BaseHeaps :=
  match baseIndex type with
  | none => (0, s)
  | some i =>
    if s.baseHeap i ≠ 0 then (s.baseHeap i, s)
    else if region = 0 then (0, s)
    else
      let (heap, exp) := memCreateExpHeapEx s.exp region baseHeapSize 0
      (heap, ⟨Function.update s.baseHeap i heap, exp⟩)

def memSetBaseHeapHandle (type : MEMBaseHeapType) (heap : UInt64) (s : BaseHeaps) :
    UInt64 × BaseHeaps :=
  match baseIndex type with
  | none => (0, s)
  | some i => (s.baseHeap i, { s with baseHeap := Function.update s.baseHeap i heap })

-- The default heap reads the handle of MEM2 again on every call.
def memAllocFromDefaultHeap (region : UInt64) (size : UInt32) (s : BaseHeaps) :
    UInt64 × BaseHeaps :=
  let (mem2, s) := memGetBaseHeapHandle region memBaseHeapMem2 s
  let (ptr, exp) := defaultAlloc mem2 s.exp size
  (ptr, { s with exp })

def memAllocFromDefaultHeapEx (region : UInt64) (size : UInt32) (alignment : Int32)
    (s : BaseHeaps) : UInt64 × BaseHeaps :=
  let (mem2, s) := memGetBaseHeapHandle region memBaseHeapMem2 s
  let (ptr, exp) := defaultAllocEx mem2 s.exp size alignment
  (ptr, { s with exp })

def memFreeToDefaultHeap (region : UInt64) (ptr : UInt64) (s : BaseHeaps) : BaseHeaps :=
  let (mem2, s) := memGetBaseHeapHandle region memBaseHeapMem2 s
  { s with exp := defaultFree mem2 s.exp ptr }

inductive Request where
  | getBaseHeap (region : UInt64) (type : MEMBaseHeapType)
  | setBaseHeap (type : MEMBaseHeapType) (heap : UInt64)
  | expHeap (heap : UInt64) (c : Call)
  | allocDefault (region : UInt64) (size : UInt32)
  | allocDefaultEx (region : UInt64) (size : UInt32) (alignment : Int32)
  | freeDefault (region : UInt64) (ptr : UInt64)

-- A pointer from the default heap and the heap it came from.
abbrev Loan := UInt64 × UInt64

-- A heap destroyed or made anew takes what was allocated in it along.
def Call.ends (heap result : UInt64) (c : Call) (loan : Loan) : Bool :=
  match c with
  | .create _ _ => loan.2 == heap && result != 0
  | .destroy => loan.2 == heap
  | .free block => loan.2 == heap && loan.1 == block
  | .alloc _ _ | .setAllocMode _ => false

def lend (mem2 ptr : UInt64) (loans : List Loan) : List Loan :=
  if ptr = 0 then loans else (ptr, mem2) :: loans

-- The second component lists what the default heap has given out and not got back.
def serve (p : BaseHeaps × List Loan) : Request → BaseHeaps × List Loan
  | .getBaseHeap region type => ((memGetBaseHeapHandle region type p.1).2, p.2)
  | .setBaseHeap type heap => ((memSetBaseHeapHandle type heap p.1).2, p.2)
  | .expHeap heap c =>
    let (result, exp) := exec p.1.exp heap c
    ({ p.1 with exp }, p.2.filter fun loan => !c.ends heap result loan)
  | .allocDefault region size =>
    let (ptr, s) := memAllocFromDefaultHeap region size p.1
    (s, lend (memGetBaseHeapHandle region memBaseHeapMem2 p.1).1 ptr p.2)
  | .allocDefaultEx region size alignment =>
    let (ptr, s) := memAllocFromDefaultHeapEx region size alignment p.1
    (s, lend (memGetBaseHeapHandle region memBaseHeapMem2 p.1).1 ptr p.2)
  | .freeDefault region ptr =>
    (memFreeToDefaultHeap region ptr p.1, p.2.filter fun loan => loan.1 ≠ ptr)

def IsLive (s : ExpHeaps) (heap : UInt64) : Prop := heap ≠ 0 ∧ (s.heaps.view heap).live = true

def Holds (s : ExpHeaps) (heap ptr : UInt64) : Prop :=
  ∃ b ∈ occupied (s.heaps.view heap), b.payload = ptr

instance (s : ExpHeaps) (heap : UInt64) : Decidable (IsLive s heap) :=
  inferInstanceAs (Decidable (heap ≠ 0 ∧ (s.heaps.view heap).live = true))

instance (s : ExpHeaps) (heap ptr : UInt64) : Decidable (Holds s heap ptr) :=
  decidable_of_iff (∃ b ∈ (s.heaps.view heap).blocks, b.used = true ∧ b.payload = ptr)
    ⟨fun ⟨b, hb, hu, hp⟩ => ⟨b, ⟨hb, hu⟩, hp⟩, fun ⟨b, ⟨hb, hu⟩, hp⟩ => ⟨b, hb, hu, hp⟩⟩

-- Memory that the host has to give: none of a live heap's.
structure Fresh (s : ExpHeaps) (region : UInt64) : Prop where
  ne_zero : region ≠ 0
  room : InUserSpace region baseHeapSize
  unused : (s.heaps.view region).live = false

-- Where the call comes to `malloc`, it succeeds.
def Supplied (s : BaseHeaps) (region : UInt64) (type : MEMBaseHeapType) : Prop :=
  ∀ i, baseIndex type = some i → s.baseHeap i = 0 → Fresh s.exp region

def Legal (s : BaseHeaps) : Request → Prop
  | .getBaseHeap region type => Supplied s region type
  | .setBaseHeap _ heap => IsLive s.exp heap
  | .expHeap heap c => ∀ size flags, c = .create size flags → InUserSpace heap size
  | .allocDefault region _ | .allocDefaultEx region _ _ | .freeDefault region _ =>
    Supplied s region memBaseHeapMem2

structure Usable (s : BaseHeaps) : Prop where
  handle : ∀ region type, (baseIndex type).isSome → Supplied s region type →
    IsLive (memGetBaseHeapHandle region type s).2.exp (memGetBaseHeapHandle region type s).1
  alloc : ∀ region size, Supplied s region memBaseHeapMem2 →
    let r := memGetBaseHeapHandle region memBaseHeapMem2 s
    (memAllocFromDefaultHeap region size s).1 = 0 → IsLive r.2.exp r.1 ∧
      allocateIn (r.2.exp.heaps.view r.1) (if size = 0 then 1 else size) 4 = none

-- What is freed is no longer allocated in the heap that it came from.
def Returns (p : BaseHeaps × List Loan) : Request → Prop
  | .freeDefault region ptr =>
    ∀ heap, (ptr, heap) ∈ p.2 → ¬Holds (memFreeToDefaultHeap region ptr p.1).exp heap ptr
  | _ => True

-- No base heap is destroyed, and MEM2 still is the heap that the freed memory came from.
def KeepsBase (p : BaseHeaps × List Loan) : Request → Prop
  | .expHeap heap .destroy => heap ≠ 0 → ∀ i, p.1.baseHeap i ≠ heap
  | .freeDefault _ ptr => ∀ heap, (ptr, heap) ∈ p.2 → p.1.baseHeap 1 = heap
  | _ => True

variable {s : ExpHeaps} {heap k ptr region : UInt64} {c : Call} {b b' : BaseHeaps}
  {loans : List Loan} {type : MEMBaseHeapType} {size : UInt32} {alignment : Int32} {loan : Loan}

structure Lent (s : ExpHeaps) (loan : Loan) : Prop where
  live : IsLive s loan.2
  holds : Holds s loan.2 loan.1

def AllWellFormed (s : ExpHeaps) : Prop :=
  ∀ k, (s.heaps.view k).live = true → WellFormed (s.heaps.view k)

def CreatesInRoom (heap : UInt64) (c : Call) : Prop :=
  ∀ size flags, c = .create size flags → InUserSpace heap size

theorem exec_allWellFormed (hwf : AllWellFormed s) (hroom : CreatesInRoom heap c) :
    AllWellFormed (exec s heap c).2 := by
  intro k
  by_cases hk : heap = k
  · subst hk
    exact exec_wellFormed hroom (hwf heap)
  · rw [exec_elsewhere s c hk]
    exact hwf k

theorem exec_isLive (hwf : AllWellFormed s) (hroom : CreatesInRoom heap c) (hl : IsLive s k)
    (hc : c = .destroy → heap ≠ k) : IsLive (exec s heap c).2 k := by
  by_cases hk : heap = k
  · subst hk
    obtain ⟨hz, hl⟩ := hl
    refine ⟨hz, ?_⟩
    cases c with
    | create size flags =>
      rcases memCreate_eq s flags (hroom _ _ rfl) with heq | ⟨-, -, -, hview⟩
      · rw [exec, heq]
        exact hl
      · rw [exec, hview]
    | destroy => exact absurd rfl (hc rfl)
    | alloc | free | setAllocMode =>
      exact ((hwf heap hl).effect (exec_effect hz hl rfl)).2.trans hl
  · rw [IsLive, exec_elsewhere s c hk]
    exact hl

theorem allocateIn_occupied {h h' : HostExpHeap} (wf : WellFormed h) (hs : 0 < size.toNat)
    (ha : allocateIn h size alignment = some (ptr, h')) :
    ∃ used, used.payload = ptr ∧ occupied h' = insert used (occupied h) := by
  obtain ⟨pre, free, post, used, mid, hcut, hu, hc, -, rfl⟩ := allocateIn_some wf hs ha
  exact ⟨used, hc.payload_eq, occupied_carve hcut hu hc⟩

-- Only a free of its own payload takes a block out of the occupied ones.
theorem Effect.occupied {h h' : HostExpHeap} {result : UInt64} {held : Block} (wf : WellFormed h)
    (he : Effect h c result h') (hocc : held ∈ occupied h) (hc : c ≠ .free held.payload) :
    held ∈ ExpHeap.occupied h' := by
  cases he with
  | @alloc size alignment payload h' ha =>
    obtain ⟨used, -, hocc'⟩ := allocateIn_occupied wf (toNat_requested_pos size) ha
    rw [hocc']
    exact Set.mem_insert_of_mem _ hocc
  | full | freeNull | setAllocMode => exact hocc
  | @free block hb =>
    rw [occupied_freeIn wf]
    exact ⟨hocc, fun hpay => hc (congrArg Call.free hpay.symm)⟩

theorem exec_occupied {held : Block} (hwf : AllWellFormed s) (hroom : CreatesInRoom heap c)
    (hlive : IsLive s k) (hocc : held ∈ occupied (s.heaps.view k))
    (hends : c.ends heap (exec s heap c).1 (held.payload, k) = false) :
    held ∈ occupied ((exec s heap c).2.heaps.view k) := by
  obtain ⟨hz, hl⟩ := hlive
  by_cases hk : heap = k
  · subst hk
    cases c with
    | create size flags =>
      rcases memCreate_eq s flags (hroom _ _ rfl) with heq | ⟨-, -, hfst, -⟩
      · rw [exec, heq]
        exact hocc
      · rw [exec, hfst] at hends
        rw [Call.ends, beq_self_eq_true, Bool.true_and, bne_eq_false_iff_eq] at hends
        exact absurd hends hz
    | destroy =>
      rw [Call.ends, beq_self_eq_true] at hends
      cases hends
    | free block =>
      rw [Call.ends, beq_self_eq_true, Bool.true_and, beq_eq_false_iff_ne] at hends
      refine (exec_effect hz hl rfl).occupied (hwf _ hl) hocc ?_
      rintro ⟨⟩
      exact hends rfl
    | alloc | setAllocMode => exact (exec_effect hz hl rfl).occupied (hwf _ hl) hocc (by rintro ⟨⟩)
  · rwa [exec_elsewhere s c hk]

theorem exec_holds (hwf : AllWellFormed s) (hroom : CreatesInRoom heap c) (h : Lent s loan)
    (hends : c.ends heap (exec s heap c).1 loan = false) :
    Holds (exec s heap c).2 loan.2 loan.1 := by
  obtain ⟨ptr, k⟩ := loan
  obtain ⟨hlive, held, hocc, rfl⟩ := h
  exact ⟨held, exec_occupied hwf hroom hlive hocc hends, rfl⟩

theorem exec_lent (hwf : AllWellFormed s) (hroom : CreatesInRoom heap c) (h : Lent s loan)
    (hends : c.ends heap (exec s heap c).1 loan = false) : Lent (exec s heap c).2 loan := by
  refine ⟨exec_isLive hwf hroom h.live fun hc => ?_, exec_holds hwf hroom h hends⟩
  rintro rfl
  rw [hc, Call.ends, beq_self_eq_true] at hends
  cases hends

theorem alloc_lent (hwf : AllWellFormed s)
    (h : (exec s heap (.alloc size alignment)).1 ≠ 0) :
    Lent (exec s heap (.alloc size alignment)).2
      ((exec s heap (.alloc size alignment)).1, heap) := by
  rcases dead_or_live s heap with hdead | ⟨hz, hl⟩
  · rw [exec, memAllocFromExpHeapEx, live_of_dead hdead] at h
    exact absurd rfl h
  · refine ⟨exec_isLive hwf (by rintro _ _ ⟨⟩) ⟨hz, hl⟩ (by rintro ⟨⟩), ?_⟩
    change (memAllocFromExpHeapEx s heap size alignment).1 ≠ 0 at h
    change Holds (memAllocFromExpHeapEx s heap size alignment).2 heap
      (memAllocFromExpHeapEx s heap size alignment).1
    rcases memAlloc_cases hz hl size alignment with ⟨-, hr, -⟩ | ⟨payload, h', ha, hr, hv⟩
    · exact absurd hr h
    · obtain ⟨used, hused, hocc⟩ := allocateIn_occupied (hwf _ hl) (toNat_requested_pos size) ha
      rw [hr, Holds, hv, hocc]
      exact ⟨used, Set.mem_insert _ _, hused⟩

theorem Fresh.created (h : Fresh s region) :
    (memCreateExpHeapEx s region baseHeapSize 0).1 = region ∧
      IsLive (memCreateExpHeapEx s region baseHeapSize 0).2 region := by
  obtain ⟨hfst, hview⟩ := memCreate_live s 0 h.room h.ne_zero (by decide)
  exact ⟨hfst, h.ne_zero, by rw [hview]⟩

theorem Fresh.createsInRoom (h : Fresh s region) :
    CreatesInRoom region (.create baseHeapSize 0) := by
  rintro size flags ⟨⟩
  exact h.room

theorem Fresh.ne (h : Fresh s region) (hl : IsLive s k) : k ≠ region := by
  rintro rfl
  exact absurd hl.2 (by rw [h.unused]; exact Bool.false_ne_true)

theorem memGet_cases (hs : Supplied b region type) :
    (baseIndex type = none ∧ memGetBaseHeapHandle region type b = (0, b)) ∨
      ∃ i, baseIndex type = some i ∧
        (b.baseHeap i ≠ 0 ∧ memGetBaseHeapHandle region type b = (b.baseHeap i, b) ∨
          b.baseHeap i = 0 ∧ Fresh b.exp region ∧ memGetBaseHeapHandle region type b =
            (region, ⟨Function.update b.baseHeap i region,
              (exec b.exp region (.create baseHeapSize 0)).2⟩)) := by
  rw [memGetBaseHeapHandle]
  cases hi : baseIndex type with
  | none => exact .inl ⟨rfl, rfl⟩
  | some i =>
    refine .inr ⟨i, rfl, ?_⟩
    dsimp only
    split
    next hne => exact .inl ⟨hne, rfl⟩
    next heq =>
      have hfresh := hs i hi (not_not.1 heq)
      right
      rw [if_neg hfresh.ne_zero, hfresh.created.1]
      exact ⟨not_not.1 heq, hfresh, rfl⟩

structure Kept (b : BaseHeaps) (loans : List Loan) : Prop where
  wellFormed : AllWellFormed b.exp
  lent : ∀ loan ∈ loans, Lent b.exp loan

def Installed (b : BaseHeaps) : Prop :=
  ∀ i, b.baseHeap i ≠ 0 → (b.exp.heaps.view (b.baseHeap i)).live = true

theorem Kept.exec (h : Kept b loans) (hroom : CreatesInRoom heap c) :
    Kept { b with exp := (ExpHeap.exec b.exp heap c).2 }
      (loans.filter fun loan => !c.ends heap (ExpHeap.exec b.exp heap c).1 loan) := by
  refine ⟨exec_allWellFormed h.wellFormed hroom, fun loan hloan => ?_⟩
  obtain ⟨hmem, hends⟩ := List.mem_filter.1 hloan
  rw [Bool.not_eq_true'] at hends
  exact exec_lent h.wellFormed hroom (h.lent loan hmem) hends

theorem Kept.alloc (h : Kept b loans) :
    Kept { b with exp := (ExpHeap.exec b.exp heap (.alloc size alignment)).2 }
      (lend heap (ExpHeap.exec b.exp heap (.alloc size alignment)).1 loans) := by
  have hold : ∀ loan ∈ loans, Lent (ExpHeap.exec b.exp heap (.alloc size alignment)).2 loan :=
    fun loan hloan => exec_lent h.wellFormed nofun (h.lent loan hloan) rfl
  refine ⟨exec_allWellFormed h.wellFormed nofun, ?_⟩
  rw [lend]
  split
  next => exact hold
  next hptr =>
    intro loan hloan
    rcases List.mem_cons.1 hloan with rfl | hloan
    · exact alloc_lent h.wellFormed hptr
    · exact hold loan hloan

theorem Kept.free (h : Kept b loans) :
    Kept { b with exp := (ExpHeap.exec b.exp heap (.free ptr)).2 }
      (loans.filter fun loan => loan.1 ≠ ptr) := by
  refine ⟨exec_allWellFormed h.wellFormed nofun, fun loan hloan => ?_⟩
  obtain ⟨hmem, hne⟩ := List.mem_filter.1 hloan
  rw [decide_eq_true_iff] at hne
  refine exec_lent h.wellFormed nofun (h.lent loan hmem) ?_
  rw [Call.ends, beq_false_of_ne hne, Bool.and_false]

theorem Kept.get (h : Kept b loans) (hs : Supplied b region type) :
    Kept (memGetBaseHeapHandle region type b).2 loans := by
  rcases memGet_cases hs with ⟨-, hr⟩ | ⟨i, -, ⟨-, hr⟩ | ⟨-, hfresh, hr⟩⟩
  · rw [hr]
    exact h
  · rw [hr]
    exact h
  · rw [hr]
    refine ⟨exec_allWellFormed h.wellFormed hfresh.createsInRoom, fun loan hloan => ?_⟩
    have hlent := h.lent loan hloan
    refine exec_lent h.wellFormed hfresh.createsInRoom hlent ?_
    rw [Call.ends, beq_false_of_ne (hfresh.ne hlent.live), Bool.false_and]

theorem Installed.get (hwf : AllWellFormed b.exp) (hi : Installed b)
    (hs : Supplied b region type) :
    Installed (memGetBaseHeapHandle region type b).2 ∧ ((baseIndex type).isSome →
      IsLive (memGetBaseHeapHandle region type b).2.exp (memGetBaseHeapHandle region type b).1) := by
  rcases memGet_cases hs with ⟨htype, hr⟩ | ⟨i, -, ⟨hne, hr⟩ | ⟨-, hfresh, hr⟩⟩
  · rw [hr, htype]
    exact ⟨hi, nofun⟩
  · rw [hr]
    exact ⟨hi, fun _ => ⟨hne, hi i hne⟩⟩
  · rw [hr]
    have hlive : IsLive (ExpHeap.exec b.exp region (.create baseHeapSize 0)).2 region :=
      hfresh.created.2
    refine ⟨fun j => ?_, fun _ => hlive⟩
    dsimp only
    by_cases hj : j = i
    · rw [hj, Function.update_self]
      exact fun _ => hlive.2
    · rw [Function.update_of_ne hj]
      intro hne
      exact (exec_isLive hwf hfresh.createsInRoom ⟨hne, hi j hne⟩ nofun).2

theorem Installed.exec (hwf : AllWellFormed b.exp) (hroom : CreatesInRoom heap c)
    (hi : Installed b) (hc : c = .destroy → ∀ i, b.baseHeap i ≠ 0 → heap ≠ b.baseHeap i) :
    Installed { b with exp := (ExpHeap.exec b.exp heap c).2 } := fun i hne =>
  (exec_isLive hwf hroom ⟨hne, hi i hne⟩ fun hdestroy => hc hdestroy i hne).2

theorem Installed.getThen (h : Kept b loans) (hs : Supplied b region type)
    (hcreate : ∀ size flags, c ≠ .create size flags) (hdestroy : c ≠ .destroy)
    (hi : Installed b) :
    Installed { (memGetBaseHeapHandle region type b).2 with
      exp := (ExpHeap.exec (memGetBaseHeapHandle region type b).2.exp
        (memGetBaseHeapHandle region type b).1 c).2 } :=
  (hi.get h.wellFormed hs).1.exec (h.get hs).wellFormed
    (fun size flags hc => absurd hc (hcreate size flags)) fun hc => absurd hc hdestroy

theorem exists_baseType (i : Fin 3) : ∃ type, baseIndex type = some i := by
  match i with
  | 0 => exact ⟨memBaseHeapMem1, rfl⟩
  | 1 => exact ⟨memBaseHeapMem2, rfl⟩
  | 2 => exact ⟨memBaseHeapFg, rfl⟩

theorem usable_iff (h : Kept b loans) : Usable b ↔ Installed b := by
  constructor
  · intro husable i hne
    obtain ⟨type, htype⟩ := exists_baseType i
    have hsupplied : Supplied b 0 type := by
      intro j hj hzero
      rw [htype] at hj
      exact absurd (Option.some.inj hj ▸ hzero) hne
    obtain ⟨-, hlive⟩ := husable.handle 0 type (by rw [htype]; rfl) hsupplied
    rw [memGetBaseHeapHandle, htype] at hlive
    dsimp only at hlive
    rwa [if_pos hne] at hlive
  · intro hi
    refine ⟨fun region type htype hs => (hi.get h.wellFormed hs).2 htype, ?_⟩
    intro region size hs r hfail
    have hlive : IsLive r.2.exp r.1 := (hi.get h.wellFormed hs).2 rfl
    refine ⟨hlive, ?_⟩
    change (memAllocFromExpHeapEx r.2.exp r.1 size 4).1 = 0 at hfail
    rcases memAlloc_cases hlive.1 hlive.2 size 4 with ⟨hnone, -⟩ | ⟨payload, h', ha, hr, -⟩
    · exact hnone
    · have hwf := (h.get hs).wellFormed _ hlive.2
      exact absurd (hr.symm.trans hfail) (hwf.allocateIn (toNat_requested_pos size) ha).1

variable {p : BaseHeaps × List Loan} {request : Request}

theorem serve_kept (h : Kept p.1 p.2) (hlegal : Legal p.1 request) :
    Kept (serve p request).1 (serve p request).2 := by
  cases request with
  | getBaseHeap region type => exact h.get hlegal
  | setBaseHeap type heap =>
    rw [serve, memSetBaseHeapHandle]
    split <;> exact ⟨h.wellFormed, h.lent⟩
  | expHeap heap c => exact h.exec hlegal
  | allocDefault region size => exact (h.get hlegal).alloc
  | allocDefaultEx region size alignment => exact (h.get hlegal).alloc
  | freeDefault region ptr => exact (h.get hlegal).free

theorem Installed.set {heap : UInt64} (hi : Installed b) (hl : IsLive b.exp heap) :
    Installed (memSetBaseHeapHandle type heap b).2 := by
  rw [memSetBaseHeapHandle]
  cases baseIndex type with
  | none => exact hi
  | some i =>
    intro j hne
    dsimp only at hne ⊢
    by_cases hj : j = i
    · rw [hj, Function.update_self]
      exact hl.2
    · rw [Function.update_of_ne hj] at hne ⊢
      exact hi j hne

theorem installed_destroy_iff (hwf : AllWellFormed b.exp) (hi : Installed b) :
    Installed { b with exp := (ExpHeap.exec b.exp heap .destroy).2 } ↔
      (heap ≠ 0 → ∀ i, b.baseHeap i ≠ heap) := by
  constructor
  · rintro hafter hz i rfl
    have hdead : ((memDestroyExpHeap b.exp (b.baseHeap i)).2.heaps.view (b.baseHeap i)).live = true :=
      hafter i hz
    rw [memDestroy_view hz (hi i hz)] at hdead
    cases hdead
  · intro hkeep
    refine hi.exec hwf nofun fun _ i hne heq => ?_
    subst heq
    exact hkeep hne i rfl

theorem holds_free_iff {from' : UInt64} (hwf : AllWellFormed s) (h : Lent s (ptr, heap)) :
    ¬Holds (memFreeToExpHeap s from' ptr) heap ptr ↔ from' = heap := by
  obtain ⟨⟨hz, hl⟩, hheld⟩ := h
  constructor
  · intro hgone
    by_contra hne
    refine hgone ?_
    have hview := exec_elsewhere s (.free ptr) hne
    rw [exec] at hview
    rw [Holds, hview]
    exact hheld
  · rintro rfl
    have hptr : ptr ≠ 0 := by
      obtain ⟨held, hocc, rfl⟩ := hheld
      exact (hwf _ hl).payload_ne_zero hocc
    rw [Holds, memFree_view hz hl hptr, occupied_freeIn (hwf _ hl)]
    rintro ⟨b, ⟨-, hne⟩, hpay⟩
    exact hne hpay

theorem free_returns_iff (h : Kept b loans) (hs : Supplied b region memBaseHeapMem2)
    (hloan : (ptr, heap) ∈ loans) :
    ¬Holds (memFreeToDefaultHeap region ptr b).exp heap ptr ↔ b.baseHeap 1 = heap := by
  have hget := h.get hs
  have hlive := (h.lent _ hloan).live
  change ¬Holds (memFreeToExpHeap (memGetBaseHeapHandle region memBaseHeapMem2 b).2.exp
    (memGetBaseHeapHandle region memBaseHeapMem2 b).1 ptr) heap ptr ↔ _
  rw [holds_free_iff hget.wellFormed (hget.lent _ hloan)]
  rcases memGet_cases hs with ⟨hnone, -⟩ | ⟨i, hi, ⟨-, hr⟩ | ⟨hzero, hfresh, hr⟩⟩
  · cases hnone
  · cases hi
    rw [hr]
  · cases hi
    rw [hr, hzero]
    exact iff_of_false (hfresh.ne hlive).symm hlive.1.symm

theorem serve_iff (h : Kept p.1 p.2) (hlegal : Legal p.1 request) (husable : Usable p.1) :
    Usable (serve p request).1 ∧ Returns p request ↔ KeepsBase p request := by
  have hi := (usable_iff h).1 husable
  rw [usable_iff (serve_kept h hlegal)]
  cases request with
  | getBaseHeap region type =>
    exact iff_of_true ⟨(hi.get h.wellFormed hlegal).1, trivial⟩ trivial
  | setBaseHeap type heap => exact iff_of_true ⟨hi.set hlegal, trivial⟩ trivial
  | expHeap heap c =>
    cases c with
    | destroy => exact (and_iff_left trivial).trans (installed_destroy_iff h.wellFormed hi)
    | _ => exact iff_of_true ⟨hi.exec h.wellFormed hlegal nofun, trivial⟩ trivial
  | allocDefault region size =>
    have hnext : Installed (memAllocFromDefaultHeap region size p.1).2 :=
      hi.getThen (c := .alloc size 4) h hlegal nofun nofun
    exact iff_of_true ⟨hnext, trivial⟩ trivial
  | allocDefaultEx region size alignment =>
    have hnext : Installed (memAllocFromDefaultHeapEx region size alignment p.1).2 :=
      hi.getThen (c := .alloc size _) h hlegal nofun nofun
    exact iff_of_true ⟨hnext, trivial⟩ trivial
  | freeDefault region ptr =>
    have hnext : Installed (memFreeToDefaultHeap region ptr p.1) :=
      hi.getThen (c := .free ptr) h hlegal nofun nofun
    refine (and_iff_right hnext).trans (forall_congr' fun heap => ?_)
    exact forall_congr' fun hloan => free_returns_iff h hlegal hloan

theorem kept_start (memory : Memory) : Kept (BaseHeaps.start memory) [] :=
  ⟨fun _ hl => (nomatch hl), fun _ hloan => (nomatch hloan)⟩

theorem base_heaps_usable_iff (memory : Memory) (requests : List Request)
    (hlegal : EveryRequest serve (fun p request => Legal p.1 request) (BaseHeaps.start memory, [])
      requests) :
    EveryState serve (fun p => Usable p.1) (BaseHeaps.start memory, []) requests ∧
        EveryRequest serve Returns (BaseHeaps.start memory, []) requests ↔
      EveryRequest serve KeepsBase (BaseHeaps.start memory, []) requests := by
  have hkept := kept_start memory
  have husable : Usable (BaseHeaps.start memory) := (usable_iff hkept).2 fun i hne => absurd rfl hne
  exact every_iff (fun p => Kept p.1 p.2) (fun _ _ hk hl => serve_kept hk hl)
    (fun _ _ hk hl hu => serve_iff hk hl hu) hkept husable hlegal

theorem supplied_of_installed (h : ∀ i, baseIndex type = some i → b.baseHeap i ≠ 0) :
    Supplied b region type := fun i hi hzero => absurd hzero (h i hi)

theorem fresh_of_start : Fresh (BaseHeaps.start fun _ => 0).exp 0x10000000 :=
  ⟨by decide, by rw [InUserSpace]; decide, rfl⟩

-- The base heap is built for an allocation, which is freed after a second heap is installed as FG.
theorem base_heaps_usable_one_heap :
    let requests : List Request := [.allocDefault 0x10000000 64,
      .expHeap 0x20000000 (.create 0x1000 0), .setBaseHeap memBaseHeapFg 0x20000000,
      .freeDefault 0 0x10000068]
    EveryState serve (fun p => Usable p.1) (BaseHeaps.start fun _ => 0, []) requests ∧
      EveryRequest serve Returns (BaseHeaps.start fun _ => 0, []) requests := by
  intro requests
  have hlegal : EveryRequest serve (fun p request => Legal p.1 request)
      (BaseHeaps.start fun _ => 0, []) requests := by
    refine ⟨fun _ _ _ => fresh_of_start, ?_, ?_, ?_, trivial⟩
    · rintro size flags ⟨⟩
      rw [InUserSpace]
      decide
    · change IsLive _ _
      decide +kernel
    · refine supplied_of_installed ?_
      rintro i ⟨⟩
      decide +kernel
  refine (base_heaps_usable_iff (fun _ => 0) requests hlegal).2
    ⟨trivial, trivial, trivial, fun heap hloan => ?_, trivial⟩
  let before := (requests.take 3).foldl serve (BaseHeaps.start fun _ => 0, [])
  have hloans : before.2 = [(0x10000068, 0x10000000)] := by decide +kernel
  have hbase : before.1.baseHeap 1 = 0x10000000 := by decide +kernel
  obtain ⟨-, rfl⟩ := Prod.mk.inj (List.mem_singleton.1 (hloans ▸ hloan))
  exact hbase

-- A base heap destroyed stays the one that is answered, and what comes from a heap that is no
-- longer MEM2 stays allocated in it.
theorem base_heaps_stale :
    let destroyed : List Request :=
      [.getBaseHeap 0x10000000 memBaseHeapMem2, .expHeap 0x10000000 .destroy]
    let replaced : List Request := [.allocDefault 0x10000000 64,
      .expHeap 0x20000000 (.create 0x1000 0), .setBaseHeap memBaseHeapMem2 0x20000000,
      .freeDefault 0 0x10000068]
    let start : BaseHeaps × List Loan := (BaseHeaps.start fun _ => 0, [])
    (EveryRequest serve (fun p request => Legal p.1 request) start destroyed ∧
        ¬EveryState serve (fun p => Usable p.1) start destroyed) ∧
      EveryRequest serve (fun p request => Legal p.1 request) start replaced ∧
        ¬EveryRequest serve Returns start replaced := by
  intro destroyed replaced start
  refine ⟨⟨⟨fun _ _ _ => fresh_of_start, nofun, trivial⟩, ?_⟩,
    ⟨fun _ _ _ => fresh_of_start, ?_, ?_, ?_, trivial⟩, ?_⟩
  · rintro ⟨-, -, hlast⟩
    have hlive := hlast.handle 0 memBaseHeapMem2 rfl (supplied_of_installed ?_)
    · exact absurd hlive (by decide +kernel)
    · rintro i ⟨⟩
      decide +kernel
  · rintro size flags ⟨⟩
    rw [InUserSpace]
    decide
  · change IsLive _ _
    decide +kernel
  · refine supplied_of_installed ?_
    rintro i ⟨⟩
    decide +kernel
  · rintro ⟨-, -, -, hfree, -⟩
    exact absurd (hfree 0x10000000 (by decide +kernel)) (by decide +kernel)

end CoreinitNx.ExpHeap
