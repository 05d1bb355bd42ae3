import CoreinitNx.Ghs.Recycled
import CoreinitNx.Library.Requests
import CoreinitNx.Library.Slots

namespace CoreinitNx.Ghs

open Mutex Requests Slots

def Pool.InUse (pool : Pool) (idx : Nat) : Prop := pool.flockInUse[idx]? = some true

inductive Call (τ : Type) where
  | create (t : τ)
  | destroy (flockIdx : UInt32)

-- `live` are the indices handed out and not destroyed since; `destroyed` is the slot that was
-- destroyed last, until the next create.
structure History (τ κ η : Type) where
  world : World τ κ η
  live : List Nat
  destroyed : Option Nat

variable {τ κ η : Type} {L : Layout} {w : World τ κ η} {pool : Pool} {idx i : Nat}

def History.initial (heap : η) : History τ κ η := ⟨.initial heap, [], none⟩

def History.after [DecidableEq τ] (L : Layout) (h : History τ κ η) : Call τ → History τ κ η
  | .create t =>
    match ghsFlockCreate L h.world t with
    | none => h
    | some (none, w) => { h with world := w, destroyed := none }
    | some (some idx, w) => ⟨w, idx :: h.live, none⟩
  | .destroy flockIdx =>
    { world := ghsFlockDestroy L h.world flockIdx
      live := h.live.filter (· ≠ flockIdx.toNat)
      destroyed := if flockIdx.toNat < kFlockMax then some flockIdx.toNat else h.destroyed }

structure LiveInUse (h : History τ κ η) : Prop where
  distinct : h.live.Nodup
  inUse : ∀ idx, idx ∈ h.live ↔ h.world.pool.InUse idx

-- The result of a create is what it stores in `*outFlockIdx`, if anything.
structure HandsOut (h : History τ κ η) (result : Option Nat) (w : World τ κ η) :
    Prop where
  unused : ∀ idx, result = some idx →
    idx < kFlockMax ∧ idx ∉ h.live ∧ ¬h.world.pool.InUse idx ∧ w.pool.InUse idx
  full : result = none ↔ ∀ idx < kFlockMax, h.world.pool.InUse idx
  untouched : result = none → w.pool = h.world.pool ∧ ∀ m, w.host m = h.world.host m
  last : ∀ idx, h.destroyed = some idx → result = some idx

def Answers [DecidableEq τ] (L : Layout) (h : History τ κ η) : Call τ → Prop
  | .create t => ∃ result w, ghsFlockCreate L h.world t = some (result, w) ∧ HandsOut h result w
  | .destroy flockIdx => kFlockMax ≤ flockIdx.toNat → ghsFlockDestroy L h.world flockIdx = h.world

theorem Pool.InUse.lt (h : pool.InUse idx) : idx < kFlockMax := lt_of_slot h

theorem inUse_take (hidx : idx < kFlockMax) :
    (pool.take idx).InUse i ↔ i = idx ∨ pool.InUse i := by
  rw [Pool.InUse, Pool.InUse, Pool.take, Vector.getElem?_setIfInBounds]
  split
  next heq =>
    subst heq
    simp [hidx]
  next hne => simp [Ne.symm hne]

theorem inUse_give {flockIdx : UInt32} :
    (pool.give flockIdx).InUse i ↔ i ≠ flockIdx.toNat ∧ pool.InUse i := by
  rw [Pool.InUse, Pool.InUse, Pool.give, Vector.getElem?_setIfInBounds]
  split
  next heq => simp [heq]
  next hne => simp [Ne.symm hne]

theorem nextFlock_eq_some (h : pool.nextFlock = some idx) : idx < kFlockMax ∧ ¬pool.InUse idx := by
  rw [Pool.nextFlock] at h
  split at h
  next =>
    obtain ⟨⟨used, hslot, hfree⟩, -⟩ := first_eq_some_iff.1 h
    refine ⟨lt_of_slot hslot, fun huse => ?_⟩
    rw [Pool.InUse, hslot] at huse
    cases huse
    cases hfree
  next hhint =>
    cases h
    obtain ⟨hlt, huse⟩ := not_or.1 hhint
    exact ⟨Nat.not_le.1 hlt, huse⟩

theorem nextFlock_eq_none : pool.nextFlock = none ↔ ∀ idx < kFlockMax, pool.InUse idx := by
  constructor
  · intro h
    rw [Pool.nextFlock] at h
    split at h
    next =>
      intro idx hidx
      have hslot : pool.flockInUse[idx]? = some pool.flockInUse[idx] :=
        Vector.getElem?_eq_getElem hidx
      have huse := first_eq_none_iff.1 h idx _ hslot
      rw [Pool.InUse, hslot]
      simpa using huse
    next => cases h
  · intro hall
    cases hnext : pool.nextFlock with
    | none => rfl
    | some idx =>
      obtain ⟨hlt, hfree⟩ := nextFlock_eq_some hnext
      exact absurd (hall idx hlt) hfree

theorem nextFlock_hint (hlt : pool.freeFlockIdx.toNat < kFlockMax)
    (hfree : ¬pool.InUse pool.freeFlockIdx.toNat) :
    pool.nextFlock = some pool.freeFlockIdx.toNat := by
  rw [Pool.nextFlock]
  exact if_neg (not_or.2 ⟨Nat.not_le.2 hlt, hfree⟩)

theorem liveInUse_initial (heap : η) : LiveInUse (.initial heap : History τ κ η) := by
  refine ⟨List.nodup_nil, fun idx => iff_of_false List.not_mem_nil fun huse => ?_⟩
  obtain ⟨hlt, huse⟩ := Vector.getElem?_eq_some_iff.1 huse
  rw [History.initial, World.initial] at huse
  simp at huse

-- Between two calls nobody holds the pool's mutex.
structure Ready (L : Layout) (h : History τ κ η) : Prop where
  unlocked : h.world.host L.flockPoolMutex = ⟨none, 0⟩
  zeroed : h.world.pool.inited = false → h.world.pool = ⟨false, .replicate _ false, 0⟩
  hint : ∀ idx, h.destroyed = some idx → h.world.pool.freeFlockIdx.toNat = idx ∧
    idx < kFlockMax ∧ ¬h.world.pool.InUse idx

theorem ready_initial (heap : η) : Ready L (.initial heap : History τ κ η) :=
  ⟨rfl, fun _ => rfl, fun _ h => nomatch h⟩

variable {h : History τ κ η}

theorem Ready.ensureInit (hr : Ready L h) :
    (h.world.ensureInit L).pool = { h.world.pool with inited := true } := by
  rw [World.ensureInit]
  split
  next hinit => rw [← hinit]
  next hinit => rw [hr.zeroed (Bool.eq_false_iff.2 hinit)]

theorem destroy_spec (hr : Ready L h) {flockIdx : UInt32} (hlt : flockIdx.toNat < kFlockMax) :
    (ghsFlockDestroy L h.world flockIdx).pool =
        { h.world.pool with inited := true }.give flockIdx ∧
      ∀ m, (ghsFlockDestroy L h.world flockIdx).host m = h.world.host m := by
  rw [ghsFlockDestroy, if_neg (Nat.not_le.2 hlt)]
  constructor
  · rw [← hr.ensureInit]
  · exact fun _ => host_ensureInit

theorem destroy_out_of_range {flockIdx : UInt32} (h : kFlockMax ≤ flockIdx.toNat) :
    ghsFlockDestroy L w flockIdx = w := if_pos h

-- A pool in which every slot is in use has been initialised.
theorem Ready.inited_of_full (hr : Ready L h) (hfull : h.world.pool.nextFlock = none) :
    { h.world.pool with inited := true } = h.world.pool := by
  cases hinit : h.world.pool.inited with
  | true => rw [← hinit]
  | false =>
    rw [hr.zeroed hinit] at hfull
    exact absurd hfull (by decide)

variable [DecidableEq τ] {t : τ}

theorem create_spec (hr : Ready L h) : ∃ w',
    ghsFlockCreate L h.world t = some (h.world.pool.nextFlock, w') ∧
    w'.host L.flockPoolMutex = ⟨none, 0⟩ ∧
    (h.world.pool.nextFlock = none → w'.pool = { h.world.pool with inited := true } ∧
      ∀ m, m ≠ L.flockPoolMutex → w'.host m = h.world.host m) ∧
    ∀ idx, h.world.pool.nextFlock = some idx →
      w'.pool = { h.world.pool with inited := true }.take idx := by
  have hlock : (h.world.host L.flockPoolMutex).lockBy t = some ⟨some t, 1⟩ := by
    rw [hr.unlocked, HostMutex.lockBy, if_neg (by rintro ⟨⟩), if_pos rfl]
  have hunlock : (⟨some t, 1⟩ : HostMutex τ).unlockBy t = ⟨none, 0⟩ := by
    simp [HostMutex.unlockBy]
  have hpool : ((h.world.ensureInit L).setHost L.flockPoolMutex ⟨some t, 1⟩).pool =
      { h.world.pool with inited := true } := hr.ensureInit
  have hnext : ({ h.world.pool with inited := true } : Pool).nextFlock = h.world.pool.nextFlock := rfl
  simp only [ghsFlockCreate, host_ensureInit, hlock, hpool, hnext]
  cases h.world.pool.nextFlock with
  | none =>
    refine ⟨_, rfl, ?_, fun _ => ⟨hr.ensureInit, fun m hm => ?_⟩, (by rintro _ ⟨⟩)⟩
    · rw [host_setHost_same, hunlock]
    · rw [host_setHost_ne hm, host_setHost_ne hm, host_ensureInit]
  | some idx =>
    refine ⟨_, rfl, ?_, (by rintro ⟨⟩), fun i h => ?_⟩
    · rw [host_setHost_same, hunlock]
    · cases h
      rfl

theorem create_hands_out (hr : Ready L h) (hlive : LiveInUse h) {result : Option Nat}
    {w' : World τ κ η} (hcreate : ghsFlockCreate L h.world t = some (result, w')) :
    HandsOut h result w' := by
  obtain ⟨w'', heq, hunlocked, hnone, hsome⟩ := create_spec (t := t) hr
  rw [hcreate] at heq
  cases heq
  refine ⟨fun idx hidx => ?_, nextFlock_eq_none, fun hfull => ?_, fun idx hlast => ?_⟩
  · obtain ⟨hlt, hfree⟩ := nextFlock_eq_some hidx
    rw [hlive.inUse, hsome idx hidx]
    exact ⟨hlt, hfree, hfree, (inUse_take hlt).2 (.inl rfl)⟩
  · obtain ⟨hpool, hhost⟩ := hnone hfull
    refine ⟨hpool.trans (hr.inited_of_full hfull), fun m => ?_⟩
    by_cases hm : m = L.flockPoolMutex
    · rw [hm, hunlocked, hr.unlocked]
    · exact hhost m hm
  · obtain ⟨hhint, hlt, hfree⟩ := hr.hint idx hlast
    subst hhint
    exact nextFlock_hint hlt hfree

theorem create_step (hr : Ready L h) (hlive : LiveInUse h) :
    Ready L (h.after L (.create t)) ∧ LiveInUse (h.after L (.create t)) := by
  obtain ⟨w', hcreate, hunlocked, hnone, hsome⟩ := create_spec (t := t) hr
  rw [History.after, hcreate]
  cases hnext : h.world.pool.nextFlock with
  | none =>
    obtain ⟨hpool, -⟩ := hnone hnext
    refine ⟨⟨hunlocked, fun hinit => ?_, fun _ h => nomatch h⟩, hlive.distinct, fun idx => ?_⟩
    · rw [hpool] at hinit
      cases hinit
    · dsimp only
      rw [hlive.inUse, hpool]
      rfl
  | some idx =>
    obtain ⟨hlt, hfree⟩ := nextFlock_eq_some hnext
    have hpool := hsome idx hnext
    refine ⟨⟨hunlocked, fun hinit => ?_, fun _ h => nomatch h⟩, ?_, fun i => ?_⟩
    · rw [hpool] at hinit
      cases hinit
    · exact List.nodup_cons.2 ⟨fun hmem => hfree ((hlive.inUse idx).1 hmem), hlive.distinct⟩
    · dsimp only
      rw [hpool, inUse_take hlt, List.mem_cons, hlive.inUse]
      rfl

theorem destroy_step (hr : Ready L h) (hlive : LiveInUse h) (flockIdx : UInt32) :
    Ready L (h.after L (.destroy flockIdx)) ∧ LiveInUse (h.after L (.destroy flockIdx)) := by
  rw [History.after]
  by_cases hlt : flockIdx.toNat < kFlockMax
  · obtain ⟨hpool, hhost⟩ := destroy_spec hr hlt
    rw [if_pos hlt]
    refine ⟨⟨?_, fun hinit => ?_, fun idx hidx => ?_⟩, hlive.distinct.filter _, fun idx => ?_⟩
    · exact (hhost _).trans hr.unlocked
    · rw [hpool] at hinit
      cases hinit
    · cases hidx
      dsimp only
      rw [hpool]
      exact ⟨rfl, hlt, fun huse => (inUse_give.1 huse).1 rfl⟩
    · dsimp only
      rw [hpool, inUse_give, List.mem_filter, hlive.inUse, decide_eq_true_eq, and_comm]
      rfl
  · rw [if_neg hlt, destroy_out_of_range (Nat.not_lt.1 hlt)]
    have hkeep : h.live.filter (· ≠ flockIdx.toNat) = h.live := by
      apply List.filter_eq_self.2
      intro idx hidx
      have hin := ((hlive.inUse idx).1 hidx).lt
      exact decide_eq_true (fun heq => hlt (heq ▸ hin))
    rw [hkeep]
    exact ⟨hr, hlive⟩

theorem call_step (hr : Ready L h) (hlive : LiveInUse h) (call : Call τ) :
    (Ready L (h.after L call) ∧ LiveInUse (h.after L call)) ∧ Answers L h call := by
  cases call with
  | create t =>
    obtain ⟨w', hcreate, -⟩ := create_spec (t := t) hr
    exact ⟨create_step hr hlive, _, w', hcreate, create_hands_out hr hlive hcreate⟩
  | destroy flockIdx => exact ⟨destroy_step hr hlive flockIdx, destroy_out_of_range⟩

theorem flock_pool_every_call (L : Layout) (heap : η) (calls : List (Call τ)) :
    EveryState (History.after L) LiveInUse (.initial heap : History τ κ η) calls ∧
      EveryRequest (History.after L) (Answers L) (.initial heap : History τ κ η) calls :=
  every_of (fun h => Ready L h ∧ LiveInUse h) (fun _ hi => hi.2)
    (fun _ call hi _ => call_step hi.1 hi.2 call) ⟨ready_initial heap, liveInUse_initial heap⟩
    everyRequest_true

end CoreinitNx.Ghs
