import CoreinitNx.Library.Dict
import CoreinitNx.Library.Requests

namespace CoreinitNx.LockedCache

open Requests

def kLockedCacheSize : UInt32 := 16 * 1024

def kAlignment : UInt64 := 64

-- `g_blocks` maps a pointer to its size.
structure Cache where
  blocks : Dict UInt64 UInt32
  allocated : UInt32

def Cache.start : Cache := ⟨Dict.empty, 0⟩

-- `alignedAlloc` is the host's, as it answers at the time of the call.
def answer (size : UInt32) (alignedAlloc : UInt64 → UInt64 → UInt64) : UInt64 :=
  alignedAlloc kAlignment ((size.toUInt64 + kAlignment - 1) &&& ~~~(kAlignment - 1))

def lcAlloc (s : Cache) (size : UInt32) (alignedAlloc : UInt64 → UInt64 → UInt64) :
    UInt64 × Cache :=
  if size = 0 then (0, s)
  else if s.allocated + size > kLockedCacheSize then (0, s)
  else
    let p := answer size alignedAlloc
    if p = 0 then (0, s) else (p, ⟨s.blocks.set p size, s.allocated + size⟩)

def lcDealloc (s : Cache) (addr : UInt64) : Cache :=
  if addr = 0 then s
  else
    match s.blocks.get? addr with
    | none => s
    | some size => ⟨s.blocks.erase addr, s.allocated - size⟩

def lcGetAllocatableSize (s : Cache) : UInt32 := kLockedCacheSize - s.allocated

inductive Request where
  | alloc (size : UInt32) (alignedAlloc : UInt64 → UInt64 → UInt64)
  | dealloc (addr : UInt64)

def serve (s : Cache) : Request → Cache
  | .alloc size alignedAlloc => (lcAlloc s size alignedAlloc).2
  | .dealloc addr => lcDealloc s addr

def Cache.inUse (s : Cache) : Nat := s.blocks.total UInt32.toNat

structure WithinBudget (s : Cache) : Prop where
  counted : s.allocated.toNat = s.inUse
  budget : s.inUse ≤ 16384
  allocatable : (lcGetAllocatableSize s).toNat = 16384 - s.inUse

-- The host answers null or a pointer that is not allocated.
def Fresh (s : Cache) : Request → Prop
  | .alloc size alignedAlloc =>
    answer size alignedAlloc = 0 ∨ s.blocks.get? (answer size alignedAlloc) = none
  | .dealloc _ => True

-- What is granted fitted, and what is refused or unknown changes nothing.
def Accounted (s : Cache) : Request → Prop
  | .alloc size alignedAlloc =>
    ((lcAlloc s size alignedAlloc).1 ≠ 0 → size ≤ lcGetAllocatableSize s) ∧
      ((lcAlloc s size alignedAlloc).1 = 0 → (lcAlloc s size alignedAlloc).2 = s)
  | .dealloc addr => s.blocks.get? addr = none → lcDealloc s addr = s

-- The sum of the check does not wrap, or nothing comes of it.
def NoWrap (s : Cache) : Request → Prop
  | .alloc size alignedAlloc =>
    size = 0 ∨ s.allocated.toNat + size.toNat < 2 ^ 32 ∨ answer size alignedAlloc = 0
  | .dealloc _ => True

variable {s : Cache} {size : UInt32} {alignedAlloc : UInt64 → UInt64 → UInt64}
  {addr : UInt64} {r : Request}

theorem withinBudget_iff :
    WithinBudget s ↔ s.allocated.toNat = s.inUse ∧ s.inUse ≤ 16384 := by
  constructor
  · exact fun h => ⟨h.counted, h.budget⟩
  · rintro ⟨hcounted, hbudget⟩
    refine ⟨hcounted, hbudget, ?_⟩
    have hle : s.allocated ≤ kLockedCacheSize := by
      rw [UInt32.le_iff_toNat_le, hcounted]
      exact hbudget
    rw [lcGetAllocatableSize, UInt32.toNat_sub_of_le _ _ hle, hcounted]
    rfl

theorem lcAlloc_cases (s : Cache) (size : UInt32)
    (alignedAlloc : UInt64 → UInt64 → UInt64) :
    lcAlloc s size alignedAlloc = (0, s) ∧ (size = 0 ∨ kLockedCacheSize < s.allocated + size ∨
        answer size alignedAlloc = 0) ∨
      size ≠ 0 ∧ s.allocated + size ≤ kLockedCacheSize ∧ answer size alignedAlloc ≠ 0 ∧
        lcAlloc s size alignedAlloc = (answer size alignedAlloc,
          ⟨s.blocks.set (answer size alignedAlloc) size, s.allocated + size⟩) := by
  rw [lcAlloc]
  split
  next hz => exact .inl ⟨rfl, .inl hz⟩
  next hz =>
    split
    next hover => exact .inl ⟨rfl, .inr (.inl hover)⟩
    next hfits =>
      simp only
      split
      next hnull => exact .inl ⟨rfl, .inr (.inr hnull)⟩
      next hsome => exact .inr ⟨hz, UInt32.not_lt.1 hfits, hsome, rfl⟩

theorem alloc_iff (hfresh : Fresh s (.alloc size alignedAlloc)) (h : WithinBudget s) :
    WithinBudget (serve s (.alloc size alignedAlloc)) ∧ Accounted s (.alloc size alignedAlloc) ↔
      NoWrap s (.alloc size alignedAlloc) := by
  have hcounted := h.counted
  have hbudget := h.budget
  have hfree := h.allocatable
  have hsum := UInt32.toNat_add s.allocated size
  have hlt := size.toNat_lt
  have hcache : kLockedCacheSize.toNat = 16384 := rfl
  simp only [serve, Accounted, NoWrap]
  rcases lcAlloc_cases s size alignedAlloc with ⟨heq, hwhy⟩ | ⟨hz, hfits, hsome, heq⟩
  · rw [heq]
    refine iff_of_true ⟨h, fun hne => absurd rfl hne, fun _ => rfl⟩ ?_
    rcases hwhy with hz | hover | hnull
    · exact .inl hz
    · rw [UInt32.lt_iff_toNat_lt, hcache] at hover
      exact .inr (.inl (by omega))
    · exact .inr (.inr hnull)
  · have hnone := hfresh.resolve_left hsome
    have htotal : Cache.inUse ⟨s.blocks.set (answer size alignedAlloc) size,
        s.allocated + size⟩ = s.inUse + size.toNat := Dict.total_set hnone
    rw [heq, withinBudget_iff, htotal]
    rw [UInt32.le_iff_toNat_le, hcache] at hfits
    constructor
    · rintro ⟨⟨hcount, hin⟩, -⟩
      exact .inr (.inl (by omega))
    · intro hno
      have hexact : s.allocated.toNat + size.toNat < 2 ^ 32 := by
        rcases hno with hno | hno | hno
        · exact absurd hno hz
        · exact hno
        · exact absurd hno hsome
      refine ⟨⟨?_, ?_⟩, fun _ => ?_, fun hnull => absurd hnull hsome⟩
      · dsimp only
        omega
      · omega
      · rw [UInt32.le_iff_toNat_le, hfree]
        omega

theorem dealloc_iff (h : WithinBudget s) :
    WithinBudget (serve s (.dealloc addr)) ∧ Accounted s (.dealloc addr) ↔
      NoWrap s (.dealloc addr) := by
  refine iff_of_true ⟨?_, fun hnone => ?_⟩ trivial
  · simp only [serve, lcDealloc]
    split
    next => exact h
    next =>
      cases hget : s.blocks.get? addr with
      | none => exact h
      | some size =>
        have htotal : Cache.inUse ⟨s.blocks.erase addr, s.allocated - size⟩ + size.toNat =
            s.inUse := Dict.total_erase hget
        have hcounted := h.counted
        have hbudget := h.budget
        have hle : size ≤ s.allocated := UInt32.le_iff_toNat_le.2 (by omega)
        apply withinBudget_iff.2
        dsimp only
        rw [UInt32.toNat_sub_of_le _ _ hle]
        omega
  · simp only [lcDealloc, hnone]
    split <;> rfl

theorem serve_iff (hfresh : Fresh s r) (h : WithinBudget s) :
    WithinBudget (serve s r) ∧ Accounted s r ↔ NoWrap s r := by
  cases r with
  | alloc size alignedAlloc => exact alloc_iff hfresh h
  | dealloc addr => exact dealloc_iff h

theorem locked_cache_budget_iff (requests : List Request)
    (hfresh : EveryRequest serve Fresh Cache.start requests) :
    EveryState serve WithinBudget Cache.start requests ∧
        EveryRequest serve Accounted Cache.start requests ↔
      EveryRequest serve NoWrap Cache.start requests := by
  have hstart : WithinBudget Cache.start := withinBudget_iff.2 ⟨rfl, Nat.zero_le _⟩
  exact every_iff (fun _ => True) (fun _ _ _ _ => trivial)
    (fun s r _ hfresh hgood => serve_iff hfresh hgood) trivial hstart hfresh

theorem locked_cache_budget_iff_full :
    let requests : List Request := [.alloc 16000 fun _ _ => 0x1000, .alloc 0xFFFFFFFF fun _ _ => 0,
      .alloc 384 fun _ _ => 0x5000, .dealloc 0x1000]
    EveryState serve WithinBudget Cache.start requests ∧
      EveryRequest serve Accounted Cache.start requests := by
  intro requests
  apply (locked_cache_budget_iff requests ?_).2
  · simp [requests, EveryRequest, NoWrap]
    decide
  · simp [requests, EveryRequest, Fresh]
    decide

theorem locked_cache_budget_wraps :
    let requests : List Request := [.alloc 100 fun _ _ => 0x1000, .alloc 0xFFFFFFCE fun _ _ => 0x2000]
    EveryRequest serve Fresh Cache.start requests ∧
      ¬EveryState serve WithinBudget Cache.start requests := by
  intro requests
  constructor
  · simp [requests, EveryRequest, Fresh]
    decide
  · rintro ⟨-, -, hwrapped⟩
    exact absurd hwrapped.budget (by decide)

end CoreinitNx.LockedCache
