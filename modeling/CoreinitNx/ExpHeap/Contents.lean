import CoreinitNx.ExpHeap.Runs
import CoreinitNx.Library.Contents

namespace CoreinitNx.ExpHeap

open Contents

-- `owned` is not the program's: of each heap created and not destroyed since, its size and its
-- live allocations.
structure Arena where
  heaps : ExpHeaps
  owned : UInt64 → Option (UInt32 × List Allocation)

-- `write` is the game's own, at any address.
inductive Event where
  | call (heap : UInt64) (c : Call) (result : UInt64)
  | write (x : UInt64) (v : UInt8)
deriving DecidableEq, Repr

-- What is known of the heap at an address, given what is owned there.
def Sound (heap : UInt64) (h : HostExpHeap) : Option (UInt32 × List Allocation) → Prop
  | none => heap = 0 ∨ h.live = false
  | some (size, live) => heap ≠ 0 ∧ Inv heap size h live

def ownedAfter (owned : Option (UInt32 × List Allocation)) (c : Call) (result : UInt64) :
    Option (UInt32 × List Allocation) :=
  match c with
  | .create size _ => if result = 0 then owned else some (size, [])
  | .destroy => none
  | _ => owned.map fun (size, live) => (size, track c result live)

theorem ownedAfter_create (owned : Option (UInt32 × List Allocation)) (size : UInt32)
    (flags : UInt16) (result : UInt64) :
    ownedAfter owned (.create size flags) result =
      if result = 0 then owned else some (size, []) := rfl

namespace Arena

def initial (memory : Memory) : Arena := ⟨⟨HandleTable.empty, memory⟩, fun _ => none⟩

def after (a : Arena) (heap : UInt64) (c : Call) : Arena :=
  ⟨(exec a.heaps heap c).2, Function.update a.owned heap
    (ownedAfter (a.owned heap) c (exec a.heaps heap c).1)⟩

def poke (a : Arena) (x : UInt64) (v : UInt8) : Arena :=
  { a with heaps := { a.heaps with memory := Function.update a.heaps.memory x v } }

inductive Step : Arena → Event → Arena → Prop
  | call {a : Arena} {heap : UInt64} {c : Call} :
      (∀ size flags, c = .create size flags → InUserSpace heap size) →
      Step a (.call heap c (exec a.heaps heap c).1) (a.after heap c)
  | write {a : Arena} {x : UInt64} {v : UInt8} : Step a (.write x v) (a.poke x v)

theorem Step.of_result (a : Arena) (heap : UInt64) (c : Call) (r : UInt64)
    (hr : (exec a.heaps heap c).1 = r)
    (hc : ∀ size flags, c = .create size flags → InUserSpace heap size) :
    Step a (.call heap c r) (a.after heap c) := by
  subst hr
  exact .call hc

def Inv (a : Arena) : Prop := ∀ heap, Sound heap (a.heaps.heaps.view heap) (a.owned heap)

variable {a b : Arena} {heap k : UInt64} {c : Call} {e : Event} {size : UInt32}
  {live : List Allocation}

theorem inv_initial (memory : Memory) : (initial memory).Inv := fun _ => .inr rfl

theorem Inv.owned_of_live (hi : a.Inv) (hz : heap ≠ 0)
    (hl : (a.heaps.heaps.view heap).live = true) :
    ∃ size live, a.owned heap = some (size, live) ∧
      ExpHeap.Inv heap size (a.heaps.heaps.view heap) live := by
  have hs := hi heap
  cases ho : a.owned heap with
  | some o =>
    rw [ho] at hs
    exact ⟨o.1, o.2, rfl, hs.2⟩
  | none =>
    rw [ho] at hs
    rcases hs with h | h
    · exact absurd h hz
    · rw [hl] at h
      cases h

theorem Inv.owned_of_dead (hi : a.Inv)
    (hd : heap = 0 ∨ (a.heaps.heaps.view heap).live = false) : a.owned heap = none := by
  have hs := hi heap
  cases ho : a.owned heap with
  | none => rfl
  | some o =>
    rw [ho] at hs
    obtain ⟨hz, hinv⟩ := hs
    rcases hd with h | h
    · exact absurd h hz
    · rw [hinv.alive] at h
      cases h

theorem after_owned_self (a : Arena) (heap : UInt64) (c : Call) :
    (a.after heap c).owned heap = ownedAfter (a.owned heap) c (exec a.heaps heap c).1 :=
  Function.update_self _ _ _

theorem after_owned_ne (a : Arena) (c : Call) (hk : k ≠ heap) :
    (a.after heap c).owned k = a.owned k := Function.update_of_ne hk _ _

theorem after_view_ne (a : Arena) (c : Call) (hk : k ≠ heap) :
    (a.after heap c).heaps.heaps.view k = a.heaps.heaps.view k := exec_elsewhere _ c hk.symm

-- A call on one heap says nothing of the others.
theorem Inv.after (hi : a.Inv) (h : Sound heap ((exec a.heaps heap c).2.heaps.view heap)
    (ownedAfter (a.owned heap) c (exec a.heaps heap c).1)) : (a.after heap c).Inv := by
  intro k
  by_cases hk : k = heap
  · rw [hk, after_owned_self]
    exact h
  · rw [after_owned_ne a c hk, after_view_ne a c hk]
    exact hi k

theorem Step.inv (h : Step a e b) (hi : a.Inv) : b.Inv := by
  cases h with
  | write => exact hi
  | @call heap c hroom =>
    refine hi.after ?_
    rcases call_cases a.heaps heap c with ⟨size, flags, rfl⟩ | ⟨hc, hdead⟩ | ⟨rfl, hz, hl⟩ |
        ⟨hk, hz, hl⟩
    · have hr := hroom size flags rfl
      rcases memCreate_eq a.heaps flags hr with heq | ⟨hz, -, hres, -⟩
      · rw [exec, heq, ownedAfter_create, if_pos rfl]
        exact hi heap
      · have hok : (memCreateExpHeapEx a.heaps heap size flags).1 ≠ 0 := by
          rw [hres]
          exact hz
        rw [exec, ownedAfter_create, if_neg hok]
        exact ⟨hz, .create _ flags hr hok⟩
    · have hview := exec_dead (k := heap) hdead hc
      have howned : ownedAfter (a.owned heap) c (exec a.heaps heap c).1 = none := by
        rw [hi.owned_of_dead hdead]
        cases c with
        | create size flags => exact absurd rfl (hc size flags)
        | destroy | alloc _ _ | free _ | setAllocMode _ => rfl
      rw [howned, hview]
      exact hdead
    · rw [exec, memDestroy_view hz hl]
      exact .inr rfl
    · obtain ⟨size, live, ho, hinv⟩ := hi.owned_of_live hz hl
      have howned : ownedAfter (a.owned heap) c (exec a.heaps heap c).1 =
          some (size, track c (exec a.heaps heap c).1 live) := by
        rw [ho]
        cases c with
        | create | destroy => cases hk
        | alloc _ _ | free _ | setAllocMode _ => rfl
      rw [howned]
      exact ⟨hz, hinv.effect (exec_effect hz hl hk)⟩

end Arena

def requested (size : UInt32) : UInt32 := if size = 0 then 1 else size

-- The allocation that a successful `MEMAllocFromExpHeapEx` makes.
def allocated (ptr : UInt64) (n : UInt32) (alignment : Int32) : Allocation :=
  ⟨ptr, requested n, (normaliseAlignment alignment).1⟩

def HostExpHeap.zeroes (h : HostExpHeap) : Prop :=
  h.flags.toUInt32 &&& memHeapFlagZeroAllocated ≠ 0

instance (h : HostExpHeap) : Decidable h.zeroes := inferInstanceAs (Decidable (_ ≠ _))

section Memory

variable {s : ExpHeaps} {heap : UInt64} {n : UInt32} {alignment : Int32} {payload : UInt64}
  {h' : HostExpHeap}

theorem exec_alloc_memory (hz : heap ≠ 0) (hl : (s.heaps.view heap).live = true)
    (ha : allocateIn (s.heaps.view heap) (requested n) alignment = some (payload, h')) :
    (exec s heap (.alloc n alignment)).1 = payload ∧
      (exec s heap (.alloc n alignment)).2.memory =
        if (s.heaps.view heap).zeroes then memset s.memory payload 0 (requested n)
        else s.memory := by
  rw [requested] at ha
  rw [exec, memAllocFromExpHeapEx, live_of_live hz hl]
  dsimp only
  rw [ha, ← live_memory s heap]
  exact ⟨rfl, rfl⟩

theorem exec_alloc_found (hr : (exec s heap (.alloc n alignment)).1 ≠ 0) :
    heap ≠ 0 ∧ (s.heaps.view heap).live = true ∧ ∃ h', allocateIn (s.heaps.view heap) (requested n)
      alignment = some ((exec s heap (.alloc n alignment)).1, h') := by
  rcases dead_or_live s heap with hdead | ⟨hz, hl⟩
  · rw [exec, memAllocFromExpHeapEx, live_of_dead hdead] at hr
    exact absurd rfl hr
  · refine ⟨hz, hl, ?_⟩
    rcases memAlloc_cases hz hl n alignment with ⟨-, hzero, -⟩ | ⟨payload, h', ha, hres, -⟩
    · exact absurd hzero hr
    · exact ⟨h', by rw [requested, ha, exec, hres]⟩

-- Only an allocation that succeeds writes to memory, and that inside its own block.
theorem exec_memory (s : ExpHeaps) (heap : UInt64) (c : Call) :
    (exec s heap c).2.memory = s.memory ∨
      ∃ n alignment payload h', c = .alloc n alignment ∧ heap ≠ 0 ∧
        (s.heaps.view heap).live = true ∧
        allocateIn (s.heaps.view heap) (requested n) alignment = some (payload, h') := by
  have hmem := live_memory s heap
  rcases dead_or_live s heap with hdead | ⟨hz, hl⟩
  · left
    have hnone := live_of_dead hdead
    cases c with
    | create size flags =>
      rw [exec, memCreateExpHeapEx]
      split
      · rfl
      · dsimp only
        split <;> rfl
    | destroy => rw [exec, memDestroyExpHeap, hnone]; exact hmem
    | alloc size alignment => rw [exec, memAllocFromExpHeapEx, hnone]; exact hmem
    | free block => rw [exec, memFreeToExpHeap, hnone]; exact hmem
    | setAllocMode mode => rw [exec, memSetAllocModeForExpHeap, hnone]; exact hmem
  · have hsome := live_of_live hz hl
    cases c with
    | create size flags =>
      left
      rw [exec, memCreateExpHeapEx]
      split
      · rfl
      · dsimp only
        split <;> rfl
    | destroy => left; rw [exec, memDestroyExpHeap, hsome]; exact hmem
    | free block =>
      left
      rw [exec, memFreeToExpHeap, hsome]
      dsimp only
      split <;> exact hmem
    | setAllocMode mode => left; rw [exec, memSetAllocModeForExpHeap, hsome]; exact hmem
    | alloc n alignment =>
      cases ha : allocateIn (s.heaps.view heap) (requested n) alignment with
      | some r => exact .inr ⟨n, alignment, r.1, r.2, rfl, hz, hl, ha⟩
      | none =>
        left
        rw [requested] at ha
        rw [exec, memAllocFromExpHeapEx, hsome]
        dsimp only
        rw [ha]
        exact hmem

end Memory

def Allocation.Covers (p : Allocation) (x : UInt64) : Prop :=
  p.ptr.toNat ≤ x.toNat ∧ x.toNat < p.ptr.toNat + p.size.toNat

instance (p : Allocation) (x : UInt64) : Decidable (p.Covers x) :=
  inferInstanceAs (Decidable (_ ∧ _))

def InRegion (heap : UInt64) (size : UInt32) (x : UInt64) : Prop :=
  (regionStart heap).toNat ≤ x.toNat ∧ x.toNat < (regionEnd heap size).toNat

theorem memset_covered {p : Allocation} {x : UInt64} (memory : Memory) (v : UInt8)
    (hx : p.Covers x) : memset memory p.ptr v p.size x = v :=
  if_pos ⟨UInt64.le_iff_toNat_le.2 hx.1, hx.2⟩

theorem memset_not_covered {p : Allocation} {x : UInt64} (memory : Memory) (v : UInt8)
    (hx : ¬p.Covers x) : memset memory p.ptr v p.size x = memory x :=
  if_neg fun h => hx ⟨UInt64.le_iff_toNat_le.1 h.1, h.2⟩

section Private

variable {heap k : UInt64} {size : UInt32} {h h' : HostExpHeap} {live : List Allocation}
  {p q : Allocation} {x : UInt64} {c : Call} {n : UInt32} {alignment : Int32} {payload : UInt64}

theorem Inv.inRegion (hi : Inv heap size h live) (hp : p ∈ live) (hx : p.Covers x) :
    InRegion heap size x := by
  obtain ⟨b, hb, hptr, hsize⟩ := hi.tracked p hp
  obtain ⟨hlo, -, hhi⟩ := hi.wf.bounds hb.1
  obtain ⟨hhead, hend, -⟩ := hi.wf.holds hb
  rw [hptr] at hhead hend
  rw [hsize] at hend
  rw [InRegion, ← hi.dataStart, ← hi.dataEnd]
  exact ⟨hlo.trans ((Nat.le_add_right _ _).trans (hhead.trans hx.1)), hx.2.trans_le (hend.trans hhi)⟩

theorem Inv.not_both (hi : Inv heap size h live) (hp : p ∈ live) (hq : q ∈ live)
    (hne : p.ptr ≠ q.ptr) (hx : p.Covers x) : ¬q.Covers x := by
  intro hxq
  obtain ⟨h1, h2⟩ := hx
  obtain ⟨h3, h4⟩ := hxq
  rcases hi.apart hp hq hne with hd | hd <;> omega

-- A new block lies where no live one does.
theorem Inv.alloc_not_covers (hi : Inv heap size h live) (hp : p ∈ live) (hx : p.Covers x)
    (ha : allocateIn h (requested n) alignment = some (payload, h')) :
    ¬(allocated payload n alignment).Covers x := by
  obtain ⟨-, hi'⟩ := hi.alloc (toNat_requested_pos n) ha
  refine hi'.not_both (List.mem_cons_of_mem _ hp) List.mem_cons_self (fun he => ?_) hx
  have hfresh := (List.nodup_cons.1 hi'.distinct).1
  exact hfresh (List.mem_map.2 ⟨p, hp, he⟩)

theorem mem_track (hp : p ∈ live) (hfree : c ≠ .free p.ptr) (r : UInt64) : p ∈ track c r live := by
  cases c with
  | alloc n alignment =>
    rw [track]
    split
    · exact hp
    · exact List.mem_cons_of_mem _ hp
  | free block =>
    rw [track, List.mem_filter]
    exact ⟨hp, decide_eq_true fun he => hfree (by rw [he])⟩
  | create | destroy | setAllocMode => exact hp

namespace Arena

variable {a b d : Arena} {e : Event} {es es' : List Event} {r : UInt64}

def Has (a : Arena) (heap : UInt64) (p : Allocation) : Prop :=
  ∃ size live, a.owned heap = some (size, live) ∧ p ∈ live

-- The event does not end `p`, nor works on a heap whose region shares a byte with it.
def Spares (a : Arena) (heap : UInt64) (p : Allocation) : Event → Prop
  | .write _ _ => True
  | .call k c _ => (k = heap → c.keepsHeap = true ∧ c ≠ .free p.ptr) ∧
      (k ≠ heap → ∀ size live, a.owned k = some (size, live) →
        ∀ x, p.Covers x → ¬InRegion k size x)

def Sparing (heap : UInt64) (p : Allocation) (a : Arena) (e : Event) (b : Arena) : Prop :=
  Step a e b ∧ a.Spares heap p e

def written : Event → UInt64 → Option UInt8
  | .write y v, x => if x = y then some v else none
  | .call _ _ _, _ => none

theorem Has.after (hh : a.Has heap p) (hs : (k = heap → c.keepsHeap = true ∧ c ≠ .free p.ptr)) :
    (a.after k c).Has heap p := by
  obtain ⟨size, live, ho, hp⟩ := hh
  by_cases hk : heap = k
  · obtain ⟨hkeep, hfree⟩ := hs hk.symm
    refine ⟨size, track c (exec a.heaps k c).1 live, ?_, mem_track hp hfree _⟩
    rw [hk, after_owned_self, ← hk, ho]
    cases c with
    | create | destroy => cases hkeep
    | alloc _ _ | free _ | setAllocMode _ => rfl
  · exact ⟨size, live, by rw [after_owned_ne a c hk, ho], hp⟩

-- A call that spares `p` leaves its bytes alone.
theorem Inv.memory_after (hi : a.Inv) (hh : a.Has heap p) (hx : p.Covers x)
    (hs : a.Spares heap p (.call k c r)) : (exec a.heaps k c).2.memory x = a.heaps.memory x := by
  rcases exec_memory a.heaps k c with hsame | ⟨n, alignment, payload, h', rfl, hz, hl, ha⟩
  · rw [hsame]
  · obtain ⟨size, live, ho, hp⟩ := hh
    obtain ⟨size', live', ho', hinv⟩ := hi.owned_of_live hz hl
    have hout : ¬(allocated payload n alignment).Covers x := by
      by_cases hk : k = heap
      · rw [← hk, ho'] at ho
        cases ho
        exact hinv.alloc_not_covers hp hx ha
      · intro hq
        obtain ⟨-, hinv'⟩ := hinv.alloc (toNat_requested_pos n) ha
        exact hs.2 hk size' live' ho' x hx (hinv'.inRegion List.mem_cons_self hq)
    rw [(exec_alloc_memory hz hl ha).2]
    split
    · exact memset_not_covered a.heaps.memory 0 hout
    · rfl

theorem Sparing.has (h : Sparing heap p a e b) (hh : a.Has heap p) : b.Has heap p := by
  obtain ⟨hstep, hs⟩ := h
  cases hstep with
  | call => exact hh.after hs.1
  | write => exact hh

theorem Sparing.memory (h : Sparing heap p a e b) (hi : a.Inv) (hh : a.Has heap p)
    (hx : p.Covers x) : b.heaps.memory x = (written e x).getD (a.heaps.memory x) := by
  obtain ⟨hstep, hs⟩ := h
  cases hstep with
  | call => exact hi.memory_after hh hx hs
  | @write y v =>
    change Function.update a.heaps.memory y v x = _
    rw [written]
    by_cases hy : x = y
    · rw [if_pos hy, hy, Function.update_self, Option.getD_some]
    · rw [if_neg hy, Function.update_of_ne hy, Option.getD_none]

theorem Run.inv {memory : Memory} (h : Transition.Run Step (initial memory) es a) : a.Inv :=
  h.invariant_of (fun _ _ => trivial) (inv_initial memory) fun _ _ _ _ hi hs => hs.inv hi

theorem Step.new_block {ptr : UInt64} (hs : Step a (.call heap (.alloc n alignment) ptr) b)
    (hi : a.Inv) (hptr : ptr ≠ 0) :
    b.Has heap (allocated ptr n alignment) ∧ ∀ x, (allocated ptr n alignment).Covers x →
      b.heaps.memory x = if (a.heaps.heaps.view heap).zeroes then 0 else a.heaps.memory x := by
  cases hs with
  | call =>
    obtain ⟨hz, hl, h', ha⟩ := exec_alloc_found hptr
    obtain ⟨size, live, ho, -⟩ := hi.owned_of_live hz hl
    refine ⟨⟨size, _, by rw [after_owned_self, ho]; rfl, ?_⟩, fun x hx => ?_⟩
    · rw [track, if_neg hptr]
      exact List.mem_cons_self
    · change (exec a.heaps heap (.alloc n alignment)).2.memory x = _
      rw [(exec_alloc_memory hz hl ha).2]
      split
      · exact memset_covered a.heaps.memory 0 hx
      · rfl

-- Once it is handed out, a block is memory of its own: cleared if its heap says so, and from then
-- on what the game last wrote there.
theorem allocation_is_private {memory : Memory} {ptr : UInt64}
    (before : Transition.Run Step (initial memory) es a)
    (hs : Step a (.call heap (.alloc n alignment) ptr) b) (hptr : ptr ≠ 0)
    (after : Transition.Run (Sparing heap (allocated ptr n alignment)) b es' d) :
    d.Has heap (allocated ptr n alignment) ∧ ∀ x, (allocated ptr n alignment).Covers x →
      d.heaps.memory x = (lastWrite written x es').getD
        (if (a.heaps.heaps.view heap).zeroes then 0 else a.heaps.memory x) := by
  have hi := Run.inv before
  obtain ⟨hhas, hnew⟩ := hs.new_block hi hptr
  constructor
  · refine (after.invariant_of (I := fun a => a.Inv ∧ a.Has heap (allocated ptr n alignment))
      (fun _ _ => trivial) ⟨hs.inv hi, hhas⟩ fun a e b _ hi hs => ?_).2
    exact ⟨hs.1.inv hi.1, hs.has hi.2⟩
  · intro x hx
    rw [← hnew x hx]
    refine (run_cell (m := fun a : Arena => a.heaps.memory)
      (I := fun a => a.Inv ∧ a.Has heap (allocated ptr n alignment)) after ⟨hs.inv hi, hhas⟩
      fun hi hs => ?_).2
    exact ⟨⟨hs.1.inv hi.1, hs.has hi.2⟩, hs.memory hi.1 hi.2 hx⟩

-- The heap clears what it hands out: the write stays, and the second block clears only itself.
theorem allocation_is_private_cleared :
    ∃ d : Arena, d.Has 0x1000 (allocated 0x1068 16 4) ∧ d.heaps.memory 0x106A = 7 ∧
      d.heaps.memory 0x106B = 0 ∧ d.heaps.memory 0x1078 = 9 := by
  have hroom : ∀ size flags, Call.create 0x200 1 = .create size flags → InUserSpace 0x1000 size := by
    rintro _ _ ⟨⟩
    rw [InUserSpace, userSpaceEnd]
    decide
  have h1 := Step.of_result (initial fun _ => 9) 0x1000 (.create 0x200 1) 0x1000 (by decide) hroom
  have h2 := Step.of_result ((initial fun _ => 9).after 0x1000 (.create 0x200 1))
    0x1000 (.alloc 16 4) 0x1068 (by decide) (by rintro _ _ ⟨⟩)
  have h3 := Step.of_result ((((initial fun _ => 9).after 0x1000 (.create 0x200 1)).after 0x1000
    (.alloc 16 4)).poke 0x106A 7) 0x1000 (.alloc 16 4) 0x108C (by decide) (by rintro _ _ ⟨⟩)
  have hlast : Transition.Run (Sparing 0x1000 (allocated 0x1068 16 4)) _ _ _ :=
    (Transition.Run.single ⟨.write (x := 0x106A) (v := 7), trivial⟩).snoc
      ⟨h3, fun _ => ⟨rfl, (by rintro ⟨⟩)⟩, fun hk => absurd rfl hk⟩
  obtain ⟨hhas, hbytes⟩ := allocation_is_private (.single h1) h2 (by decide) hlast
  exact ⟨_, hhas, (hbytes 0x106A (by decide)).trans (by decide),
    (hbytes 0x106B (by decide)).trans (by decide), by decide⟩

end Arena

end Private

end CoreinitNx.ExpHeap
