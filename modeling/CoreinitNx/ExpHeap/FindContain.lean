import CoreinitNx.ExpHeap.BaseHeap
import CoreinitNx.Library.Slots

namespace CoreinitNx.ExpHeap

open Requests Slots

def findContainFrom (block : UInt64) : List UInt64 → ExpHeaps → UInt64 × ExpHeaps
  | [], s => (0, s)
  | h :: rest, s =>
    if h = 0 then findContainFrom block rest s
    else
      match live s h with
      | (none, s) => findContainFrom block rest s
      | (some host, s) =>
        if block ≥ host.dataStart ∧ block < host.dataEnd then (h, s)
        else findContainFrom block rest s

def memFindContainHeap (block : UInt64) (s : BaseHeaps) : UInt64 × BaseHeaps :=
  if block = 0 then (0, s)
  else
    let (heap, exp) := findContainFrom block (List.ofFn s.baseHeap) s.exp
    (heap, { s with exp })

-- An allocation lends its block, and what ends a loan does so for the heap it is made on.
def settle (heap result : UInt64) (c : Call) (loans : List Loan) : List Loan :=
  match c with
  | .alloc _ _ => lend heap result loans
  | _ => loans.filter fun loan => !c.ends heap result loan

-- Beside the heaps, what each of them has given out and not got back.
def deal (p : BaseHeaps × List Loan) (request : Request) : BaseHeaps × List Loan :=
  ((serve p request).1,
    match request with
    | .getBaseHeap _ _ | .setBaseHeap _ _ => p.2
    | .expHeap heap c => settle heap (exec p.1.exp heap c).1 c p.2
    | .allocDefault region size =>
      lend (memGetBaseHeapHandle region memBaseHeapMem2 p.1).1
        (memAllocFromDefaultHeap region size p.1).1 p.2
    | .allocDefaultEx region size alignment =>
      lend (memGetBaseHeapHandle region memBaseHeapMem2 p.1).1
        (memAllocFromDefaultHeapEx region size alignment p.1).1 p.2
    | .freeDefault region ptr =>
      settle (memGetBaseHeapHandle region memBaseHeapMem2 p.1).1 0 (.free ptr) p.2)

-- Where the call comes to `malloc`, it fails or gives memory that is no heap's.
def Granted (s : BaseHeaps) (region : UInt64) (type : MEMBaseHeapType) : Prop :=
  ∀ i, baseIndex type = some i → s.baseHeap i = 0 → region ≠ 0 → Fresh s.exp region

def Allowed (s : BaseHeaps) : Request → Prop
  | .getBaseHeap region type => Granted s region type
  | .setBaseHeap _ _ => True
  | .expHeap heap c => CreatesInRoom heap c
  | .allocDefault region _ | .allocDefaultEx region _ _ | .freeDefault region _ =>
    Granted s region memBaseHeapMem2

def Contains (s : ExpHeaps) (heap addr : UInt64) : Prop :=
  IsLive s heap ∧ (s.heaps.view heap).dataStart ≤ addr ∧ addr < (s.heaps.view heap).dataEnd

instance (s : ExpHeaps) (heap addr : UInt64) : Decidable (Contains s heap addr) :=
  inferInstanceAs (Decidable (_ ∧ _ ∧ _))

-- A base heap, with no base heap before it that has the address in its region.
def FirstToContain (s : BaseHeaps) (heap addr : UInt64) : Prop :=
  ∃ i, s.baseHeap i = heap ∧ ∀ j < i, ¬Contains s.exp (s.baseHeap j) addr

structure Located (p : BaseHeaps × List Loan) : Prop where
  owner : ∀ ptr heap, (ptr, heap) ∈ p.2 → (∃ i, p.1.baseHeap i = heap) →
    ((memFindContainHeap ptr p.1).1 = heap ↔ FirstToContain p.1 heap ptr)
  outside : ∀ addr, (∀ i, ¬Contains p.1.exp (p.1.baseHeap i) addr) →
    (memFindContainHeap addr p.1).1 = 0

variable {s : ExpHeaps} {b : BaseHeaps} {loans : List Loan} {loan : Loan}
  {heap k addr region : UInt64} {heaps : List UInt64} {type : MEMBaseHeapType}
  {p : BaseHeaps × List Loan} {request : Request}

theorem contains_live : Contains (live s heap).2 k addr ↔ Contains s k addr := by
  rw [Contains, Contains, IsLive, IsLive, live_view]

theorem findContainFrom_fst :
    (findContainFrom addr heaps s).1 =
      (heaps.find? fun heap => Contains s heap addr).getD 0 := by
  induction heaps generalizing s with
  | nil => rfl
  | cons h rest ih =>
    have hrest : (rest.find? fun k => Contains (live s h).2 k addr) =
        rest.find? fun k => Contains s k addr := by
      simp only [contains_live]
    rw [findContainFrom, List.find?_cons]
    rcases dead_or_live s h with hdead | ⟨hz, hl⟩
    · have hnot : ¬Contains s h addr := by
        rintro ⟨⟨hz, hl⟩, -⟩
        rcases hdead with hzero | hdead
        · exact hz hzero
        · rw [hdead] at hl
          cases hl
      rw [decide_eq_false hnot]
      split
      next => exact ih
      next =>
        rw [live_of_dead hdead]
        exact ih.trans (congrArg (·.getD 0) hrest)
    · rw [if_neg hz, live_of_live hz hl]
      dsimp only
      split
      next hin =>
        have hyes : Contains s h addr := ⟨⟨hz, hl⟩, hin⟩
        rw [decide_eq_true hyes]
        rfl
      next hout =>
        have hno : ¬Contains s h addr := fun hin => hout hin.2
        rw [decide_eq_false hno]
        exact ih.trans (congrArg (·.getD 0) hrest)

theorem memFind_eq_iff (haddr : addr ≠ 0) (hheap : heap ≠ 0) :
    (memFindContainHeap addr b).1 = heap ↔
      Contains b.exp heap addr ∧ FirstToContain b heap addr := by
  have hfst : (memFindContainHeap addr b).1 =
      ((List.ofFn b.baseHeap).find? fun heap => Contains b.exp heap addr).getD 0 := by
    rw [memFindContainHeap, if_neg haddr]
    exact findContainFrom_fst
  have hget (found : Option UInt64) : found.getD 0 = heap ↔ found = some heap := by
    cases found with
    | none => exact iff_of_false hheap.symm nofun
    | some h => exact (Option.some_inj).symm
  rw [hfst, hget, find?_ofFn_eq_some_iff]
  simp only [decide_eq_true_eq, decide_eq_false_iff_not, FirstToContain]

theorem memFind_outside (hout : ∀ i, ¬Contains b.exp (b.baseHeap i) addr) :
    (memFindContainHeap addr b).1 = 0 := by
  by_contra hne
  have haddr : addr ≠ 0 := by
    rintro rfl
    exact hne rfl
  obtain ⟨hin, i, hi, -⟩ := (memFind_eq_iff haddr hne).1 rfl
  exact hout i (hi ▸ hin)

theorem Lent.contains (hwf : AllWellFormed s) (h : Lent s loan) :
    loan.1 ≠ 0 ∧ Contains s loan.2 loan.1 := by
  obtain ⟨hlive, held, hocc, hptr⟩ := h
  have hwf := hwf _ hlive.2
  obtain ⟨hlow, hhigh, hsize⟩ := hwf.holds hocc
  obtain ⟨hstart, -, hstop⟩ := hwf.bounds hocc.1
  rw [← hptr]
  refine ⟨hwf.payload_ne_zero hocc, hlive, ?_, ?_⟩
  · rw [UInt64.le_iff_toNat_le]
    omega
  · rw [UInt64.lt_iff_toNat_lt]
    omega

theorem located_of_kept (h : Kept b loans) : Located (b, loans) where
  owner ptr heap hloan _ := by
    have hlent := h.lent _ hloan
    obtain ⟨hptr, hin⟩ := hlent.contains h.wellFormed
    rw [memFind_eq_iff hptr hlent.live.1, and_iff_right hin]
  outside _ hout := memFind_outside hout

theorem Kept.got (h : Kept b loans) (hg : Granted b region type) :
    Kept (memGetBaseHeapHandle region type b).2 loans := by
  by_cases hregion : region = 0
  · have hsame : (memGetBaseHeapHandle region type b).2 = b := by
      rw [memGetBaseHeapHandle]
      split
      next => rfl
      next =>
        split
        next => rfl
        next => rfl
    rwa [hsame]
  · exact h.get fun i hi hzero => hg i hi hzero hregion

theorem deal_kept (h : Kept p.1 p.2) (hallowed : Allowed p.1 request) :
    Kept (deal p request).1 (deal p request).2 := by
  cases request with
  | getBaseHeap region type => exact h.got hallowed
  | setBaseHeap type heap =>
    rw [deal, serve, memSetBaseHeapHandle]
    split <;> exact ⟨h.wellFormed, h.lent⟩
  | expHeap heap c =>
    cases c with
    | alloc size alignment => exact h.alloc
    | _ => exact h.exec hallowed
  | allocDefault region size => exact (h.got hallowed).alloc
  | allocDefaultEx region size alignment => exact (h.got hallowed).alloc
  | freeDefault region ptr => exact (h.got hallowed).exec (c := .free ptr) (by rintro _ _ ⟨⟩)

theorem find_contain_every (memory : Memory) (requests : List Request)
    (hallowed : EveryRequest deal (fun p request => Allowed p.1 request)
      (BaseHeaps.start memory, []) requests) :
    EveryState deal Located (BaseHeaps.start memory, []) requests :=
  everyState_of (fun p => Kept p.1 p.2) (fun _ _ hk ha => deal_kept hk ha)
    (fun _ hk => located_of_kept hk) (kept_start memory) hallowed

-- Two base heaps, and a block of the second.
def twoBaseHeaps : List Request :=
  [.getBaseHeap 0x10000000 memBaseHeapMem1, .getBaseHeap 0x20000000 memBaseHeapMem2,
    .expHeap 0x10000000 (.alloc 64 4), .expHeap 0x20000000 (.alloc 128 4)]

theorem find_contain_every_two_heaps :
    let p := twoBaseHeaps.foldl deal (BaseHeaps.start fun _ => 0, [])
    EveryState deal Located (BaseHeaps.start fun _ => 0, []) twoBaseHeaps ∧
      p.2 = [(0x20000068, 0x20000000), (0x10000068, 0x10000000)] ∧
      (memFindContainHeap 0x20000068 p.1).1 = 0x20000000 := by
  intro p
  have hfresh : Fresh (memGetBaseHeapHandle 0x10000000 memBaseHeapMem1
      (BaseHeaps.start fun _ => 0)).2.exp 0x20000000 :=
    ⟨by decide, by rw [InUserSpace]; decide, by decide +kernel⟩
  have hevery := find_contain_every (fun _ => 0) twoBaseHeaps
    ⟨fun _ _ _ _ => fresh_of_start, fun _ _ _ _ => hfresh, (by rintro _ _ ⟨⟩),
      (by rintro _ _ ⟨⟩), trivial⟩
  exact ⟨hevery, by decide +kernel, by decide +kernel⟩

-- MEM2 is a heap made in a block of MEM1, which comes first.
theorem find_contain_outer_heap :
    let requests : List Request := [.getBaseHeap 0x10000000 memBaseHeapMem1,
      .expHeap 0x10000000 (.alloc 0x1000 4), .expHeap 0x10000068 (.create 0x1000 0),
      .setBaseHeap memBaseHeapMem2 0x10000068, .expHeap 0x10000068 (.alloc 64 4)]
    let p := requests.foldl deal (BaseHeaps.start fun _ => 0, [])
    EveryRequest deal (fun p request => Allowed p.1 request) (BaseHeaps.start fun _ => 0, [])
        requests ∧
      p.1.baseHeap 0 = 0x10000000 ∧ IsLive p.1.exp 0x10000000 ∧
      p.1.baseHeap 1 = 0x10000068 ∧ IsLive p.1.exp 0x10000068 ∧
      (0x100000d0, 0x10000068) ∈ p.2 ∧
      (memFindContainHeap 0x100000d0 p.1).1 = 0x10000000 := by
  refine ⟨⟨fun _ _ _ _ => fresh_of_start, nofun, ?_, trivial, nofun, trivial⟩, ?_⟩
  · rintro size flags ⟨⟩
    rw [InUserSpace]
    decide
  · decide +kernel

end CoreinitNx.ExpHeap
