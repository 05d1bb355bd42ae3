import CoreinitNx.DefaultHeap
import CoreinitNx.Mutex.Calls

namespace CoreinitNx.Ghs

open Mutex

def kFlockMax : Nat := 100

def osMutexSize : UInt32 := 0x2C

-- Where the globals of the source are.
structure Layout where
  flockPoolMutex : UInt64
  flocks : Nat → UInt64
  flocks_ne_pool : ∀ idx, flocks idx ≠ flockPoolMutex

structure Pool where
  inited : Bool
  flockInUse : Vector Bool kFlockMax
  freeFlockIdx : UInt32
deriving DecidableEq, Repr

-- `calls` and `depth` are what the threads are doing in the mutex at each address.
structure World (τ κ η : Type) where
  mutexes : HandleTable (HostMutex τ)
  calls : UInt64 → τ → Pc κ
  depth : UInt64 → τ → Nat
  pool : Pool
  heap : η

variable {τ κ η : Type}

namespace World

def initial (heap : η) : World τ κ η :=
  ⟨.empty, fun _ _ => .idle, fun _ _ => 0, ⟨false, .replicate _ false, 0⟩, heap⟩

def host (w : World τ κ η) (mutex : UInt64) : HostMutex τ := w.mutexes.view mutex

def mutexAt (w : World τ κ η) (mutex : UInt64) : State τ κ :=
  ⟨w.host mutex, w.calls mutex, w.depth mutex⟩

def setHost (w : World τ κ η) (mutex : UInt64) (host : HostMutex τ) : World τ κ η :=
  { w with mutexes := (w.mutexes.get mutex).2.store mutex host }

def setMutex (w : World τ κ η) (mutex : UInt64) (s : State τ κ) : World τ κ η :=
  { w.setHost mutex s.host with
    calls := Function.update w.calls mutex s.pc
    depth := Function.update w.depth mutex s.depth }

def initMutex (w : World τ κ η) (mutex : UInt64) : World τ κ η :=
  { w with mutexes := osInitMutex w.mutexes mutex }

def ensureInit (L : Layout) (w : World τ κ η) : World τ κ η :=
  if w.pool.inited then w
  else { w.initMutex L.flockPoolMutex with pool := ⟨true, .replicate _ false, 0⟩ }

end World

def Pool.nextFlock (pool : Pool) : Option Nat :=
  let idx := pool.freeFlockIdx.toNat
  if idx ≥ kFlockMax ∨ pool.flockInUse[idx]? = some true then
    pool.flockInUse.toList.findIdx? (!·)
  else some idx

def Pool.take (pool : Pool) (idx : Nat) : Pool :=
  { pool with
    flockInUse := pool.flockInUse.setIfInBounds idx true
    freeFlockIdx := UInt32.ofNat idx + 1 }

def Pool.give (pool : Pool) (idx : UInt32) : Pool :=
  { pool with
    flockInUse := pool.flockInUse.setIfInBounds idx.toNat false
    freeFlockIdx := idx }

variable [DecidableEq τ]

-- None while another thread holds the pool's mutex; `some none` is the panic of a full pool.
def ghsFlockCreate (L : Layout) (w : World τ κ η) (t : τ) : Option (Option Nat × World τ κ η) :=
  let w := w.ensureInit L
  match (w.host L.flockPoolMutex).lockBy t with
  | none => none
  | some locked =>
    let w := w.setHost L.flockPoolMutex locked
    match w.pool.nextFlock with
    | none => some (none, w.setHost L.flockPoolMutex (locked.unlockBy t))
    | some idx =>
      let w := { w.initMutex (L.flocks idx) with pool := w.pool.take idx }
      some (some idx, w.setHost L.flockPoolMutex (locked.unlockBy t))

def ghsFlockDestroy (L : Layout) (w : World τ κ η) (flockIdx : UInt32) : World τ κ η :=
  if flockIdx.toNat ≥ kFlockMax then w
  else
    let w := w.ensureInit L
    { w with pool := w.pool.give flockIdx }

def ghsMtxInit (H : DefaultHeap η) (w : World τ κ η) : UInt64 × World τ κ η :=
  let (m, heap) := H.allocEx w.heap osMutexSize 8
  let w := { w with heap }
  (m, if m = 0 then w else w.initMutex m)

def ghsMtxDst (H : DefaultHeap η) (w : World τ κ η) (mutex : UInt64) : World τ κ η :=
  if mutex = 0 then w else { w with heap := H.free w.heap mutex }

variable [DecidableEq κ]

inductive Event (τ κ : Type) where
  | mutex (mutex : UInt64) (e : Mutex.Event τ κ)
  | initMutex (mutex : UInt64)
  | ensureInit
  | flockCreate (t : τ) (result : Option Nat)
  | flockDestroy (flockIdx : UInt32)
  | mtxInit (mutex : UInt64)
  | mtxDst (mutex : UInt64)
  | heap

-- Locks and unlocks of a flock or of a C++ mutex are calls on the mutex at its address.
inductive Step (L : Layout) (H : DefaultHeap η) :
    World τ κ η → Event τ κ → World τ κ η → Prop
  | mutex {w : World τ κ η} {mutex : UInt64} {e : Mutex.Event τ κ} {s : State τ κ} :
      Mutex.Step (w.mutexAt mutex) e s → Step L H w (.mutex mutex e) (w.setMutex mutex s)
  | initMutex {w : World τ κ η} (mutex : UInt64) :
      Step L H w (.initMutex mutex) (w.initMutex mutex)
  | ensureInit {w : World τ κ η} : Step L H w .ensureInit (w.ensureInit L)
  | flockCreate {w w' : World τ κ η} {t : τ} {result : Option Nat} :
      (∀ mutex, w.calls mutex t = .idle) → ghsFlockCreate L w t = some (result, w') →
      Step L H w (.flockCreate t result) w'
  | flockDestroy {w : World τ κ η} (flockIdx : UInt32) :
      Step L H w (.flockDestroy flockIdx) (ghsFlockDestroy L w flockIdx)
  | mtxInit {w w' : World τ κ η} {mutex : UInt64} : ghsMtxInit H w = (mutex, w') →
      Step L H w (.mtxInit mutex) w'
  | mtxDst {w : World τ κ η} (mutex : UInt64) : Step L H w (.mtxDst mutex) (ghsMtxDst H w mutex)
  -- Other calls on the heap.
  | heap {w : World τ κ η} (heap : η) : Step L H w .heap { w with heap }

abbrev Run (L : Layout) (H : DefaultHeap η) (heap : η) :
    List (Event τ κ) → World τ κ η → Prop :=
  Transition.Run (Step L H) (World.initial heap)

end CoreinitNx.Ghs
