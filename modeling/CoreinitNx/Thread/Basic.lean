import CoreinitNx.HandleTable
import CoreinitNx.Library.Transition

namespace CoreinitNx.Thread

-- Pointers of the guest; `0` is the null one.
abbrev OSThread := UInt64
abbrev Pointer := UInt64
abbrev OSThreadEntryPointFn := UInt64
abbrev OSThreadCleanupCallbackFn := UInt64
abbrev OSThreadDeallocatorFn := UInt64

abbrev OSThreadAttributes := UInt8

def affinityCpu0 : OSThreadAttributes := 0x1
def affinityCpu1 : OSThreadAttributes := 0x2
def affinityAny : OSThreadAttributes := 0x7
def attribDetached : OSThreadAttributes := 0x8

def kPageSize : UInt64 := 0x1000
def kMinHostStack : UInt64 := 0x10000

-- `handle` numbers the kernel thread that the last successful `threadCreate` made for the record.
structure HostThread where
  handle : Option Nat
  guest : OSThread
  entry : OSThreadEntryPointFn
  argc : Int32
  argv : Pointer
  guestStack : Pointer
  guestStackSize : UInt32
  exitResult : Int32
  suspendCount : Int32
  cleanup : OSThreadCleanupCallbackFn
  created : Bool
  started : Bool
  detached : Bool
  cafePriority : Int32
  cafeAffinity : UInt32
  name : Pointer
  deallocator : OSThreadDeallocatorFn
  cancelRequested : Bool
  cancelEnabled : Bool
deriving DecidableEq, Repr

instance : HostObject HostThread where
  init :=
    { handle := none, guest := 0, entry := 0, argc := 0, argv := 0, guestStack := 0
      guestStackSize := 0, exitResult := 0, suspendCount := 0, cleanup := 0, created := false
      started := false, detached := false, cafePriority := 16
      cafeAffinity := affinityAny.toUInt32, name := 0, deallocator := 0, cancelRequested := false
      cancelEnabled := true }

inductive Callback where
  | cleanup (fn : OSThreadCleanupCallbackFn) (guest : OSThread) (stack : Pointer)
  | deallocator (fn : OSThreadDeallocatorFn) (guest : OSThread) (stack : Pointer)
deriving DecidableEq, Repr

-- Which guest function a kernel thread is in, between its creation and its end.
inductive Life where
  | ready
  | started
  | entry
  | cleanup
  | deallocator
  | exited
deriving DecidableEq, Repr

-- A kernel thread, with the record that `trampoline` is given. The last two fields are no data of
-- the program: what the thread returned or exited with, and the callbacks it has called.
structure KernelThread where
  guest : OSThread
  stackSize : UInt64
  priority : Int32
  cpu : Int32
  life : Life
  value : Option Int32
  called : List Callback
deriving DecidableEq, Repr

-- `mainThread` is the address of `g_mainThread`; `joins` lists the joins that wait.
structure State where
  threads : HandleTable HostThread
  kernel : List KernelThread
  joins : List (OSThread × Nat)
  mainThread : OSThread

def State.initial (mainThread : OSThread) : State := ⟨HandleTable.empty, [], [], mainThread⟩

def mapPriority (processPrio cafePriority : Int32) : Int32 :=
  let cafePriority := if cafePriority < 0 then 0 else cafePriority
  let cafePriority := if cafePriority > 31 then 31 else cafePriority
  let span := 0x3F - processPrio
  processPrio + cafePriority * span / 31

def mapAffinity (attr : OSThreadAttributes) : Int32 :=
  let mask := attr &&& affinityAny
  if mask = 0 ∨ mask = affinityAny then -2
  else if mask &&& affinityCpu0 ≠ 0 then 0
  else if mask &&& affinityCpu1 ≠ 0 then 1
  else 2

def hostStackSize (guestStackSize : UInt32) : UInt64 :=
  let sz := if guestStackSize.toUInt64 < kMinHostStack then kMinHostStack else guestStackSize.toUInt64
  (sz + kPageSize - 1) &&& ~~~(kPageSize - 1)

structure CreateArgs where
  entry : OSThreadEntryPointFn
  argc : Int32
  argv : Pointer
  stack : Pointer
  stackSize : UInt32
  priority : Int32
  attributes : OSThreadAttributes
deriving DecidableEq, Repr

-- What the kernel answers to one `OSCreateThread`: its own priority, and whether the first and the
-- second `threadCreate` succeed.
structure CreateAnswers where
  processPrio : Int32
  first : Bool
  second : Bool
deriving DecidableEq, Repr

def createdCpu (attributes : OSThreadAttributes) (answers : CreateAnswers) : Option Int32 :=
  let cpu := mapAffinity attributes
  if answers.first then some cpu
  else if cpu ≠ -2 ∧ answers.second then some (-2)
  else none

def prepare (thread : OSThread) (args : CreateArgs) (h : HostThread) : HostThread :=
  { h with
    entry := args.entry
    argc := args.argc
    argv := args.argv
    guestStack := args.stack
    guestStackSize := args.stackSize
    exitResult := 0
    suspendCount := 1
    started := false
    detached := args.attributes &&& attribDetached ≠ 0
    guest := thread
    cafePriority := args.priority
    cafeAffinity := (args.attributes &&& affinityAny).toUInt32
    name := 0
    deallocator := 0
    cleanup := 0 }

def newKernelThread (thread : OSThread) (args : CreateArgs) (processPrio cpu : Int32) :
    KernelThread :=
  { guest := thread, stackSize := hostStackSize args.stackSize
    priority := mapPriority processPrio args.priority, cpu, life := .ready, value := none
    called := [] }

def osCreateThread (s : State) (thread : OSThread) (args : CreateArgs) (answers : CreateAnswers) :
    Int32 × State :=
  let (h, threads) := s.threads.get thread
  let h := prepare thread args h
  match createdCpu args.attributes answers with
  | some cpu =>
    let h := { h with handle := some s.kernel.length, created := true }
    (1, { s with
      threads := threads.store thread h
      kernel := s.kernel ++ [newKernelThread thread args answers.processPrio cpu] })
  | none => (0, { s with threads := threads.store thread { h with created := false } })

-- `threadStart(&h->handle)`, where the kernel is willing.
def threadStart (kernel : List KernelThread) (handle : Option Nat) (willing : Bool) :
    Option (List KernelThread) :=
  match handle with
  | some id =>
    match kernel[id]? with
    | some k =>
      if willing ∧ k.life = .ready then some (kernel.set id { k with life := .started }) else none
    | none => none
  | none => none

def osResumeThread (s : State) (thread : OSThread) (willing : Bool) : Int32 × State :=
  let (h, threads) := s.threads.get thread
  let previous := h.suspendCount
  let h := if h.suspendCount > 0 then { h with suspendCount := h.suspendCount - 1 } else h
  if h.suspendCount = 0 ∧ h.created ∧ ¬h.started then
    match threadStart s.kernel h.handle willing with
    | some kernel =>
      (previous, { s with threads := threads.store thread { h with started := true }, kernel })
    | none => (previous, { s with threads := threads.store thread h })
  else (previous, { s with threads := threads.store thread h })

-- A function of the API that only reads and writes one record.
def update {α : Type} (s : State) (thread : OSThread) (f : HostThread → α × HostThread) : α × State :=
  let (h, threads) := s.threads.get thread
  let (a, h) := f h
  (a, { s with threads := threads.store thread h })

def osSuspendThread (s : State) (thread : OSThread) : Int32 × State :=
  update s thread fun h => (h.suspendCount, { h with suspendCount := h.suspendCount + 1 })

def osSetThreadCleanupCallback (s : State) (thread : OSThread)
    (callback : OSThreadCleanupCallbackFn) : OSThreadCleanupCallbackFn × State :=
  update s thread fun h => (h.cleanup, { h with cleanup := callback })

def osSetThreadDeallocator (s : State) (thread : OSThread) (fn : OSThreadDeallocatorFn) :
    OSThreadDeallocatorFn × State :=
  update s thread fun h => (h.deallocator, { h with deallocator := fn })

def osGetThreadPriority (s : State) (thread : OSThread) : Int32 × State :=
  update s thread fun h => (h.cafePriority, h)

def osSetThreadPriority (s : State) (thread : OSThread) (priority : Int32) : Int32 × State :=
  update s thread fun h => (1, { h with cafePriority := priority })

def osGetThreadAffinity (s : State) (thread : OSThread) : UInt32 × State :=
  update s thread fun h => (h.cafeAffinity, h)

def osSetThreadAffinity (s : State) (thread : OSThread) (affinity : UInt32) : Int32 × State :=
  update s thread fun h => (1, { h with cafeAffinity := affinity &&& affinityAny.toUInt32 })

def osGetThreadName (s : State) (thread : OSThread) : Pointer × State :=
  update s thread fun h => (h.name, h)

def osSetThreadName (s : State) (thread : OSThread) (name : Pointer) : Unit × State :=
  update s thread fun h => ((), { h with name })

def osCancelThread (s : State) (thread : OSThread) : Unit × State :=
  if thread = 0 then ((), s)
  else update s thread fun h => ((), { h with cancelRequested := true })

def osDetachThread (s : State) (thread : OSThread) : Unit × State :=
  if thread = 0 then ((), s)
  else update s thread fun h => ((), { h with detached := true })

def osIsThreadTerminated (s : State) (thread : OSThread) : Int32 × State :=
  update s thread fun h => (if h.created ∧ ¬h.started then 1 else 0, h)

-- `current` is the record of the calling thread, where `OSCreateThread` made it.
def osSetThreadCancelState (s : State) (current : Option OSThread) (state : Int32) :
    Int32 × State :=
  match current with
  | none => (1, s)
  | some thread =>
    update s thread fun h =>
      (if h.cancelEnabled then 1 else 0, { h with cancelEnabled := state ≠ 0 })

def osGetCurrentThread (s : State) (current : Option OSThread) : OSThread × State :=
  match current with
  | some thread => ((s.threads.view thread).guest, s)
  | none =>
    update s s.mainThread fun h =>
      (s.mainThread,
        if h.guest = 0 then { h with guest := s.mainThread, created := true, started := true }
        else h)

inductive Op where
  | create (thread : OSThread) (args : CreateArgs) (answers : CreateAnswers)
  | resume (thread : OSThread) (willing : Bool)
  | suspend (thread : OSThread)
  | setCleanupCallback (thread : OSThread) (callback : OSThreadCleanupCallbackFn)
  | setDeallocator (thread : OSThread) (fn : OSThreadDeallocatorFn)
  | getPriority (thread : OSThread)
  | setPriority (thread : OSThread) (priority : Int32)
  | getAffinity (thread : OSThread)
  | setAffinity (thread : OSThread) (affinity : UInt32)
  | getName (thread : OSThread)
  | setName (thread : OSThread) (name : Pointer)
  | cancel (thread : OSThread)
  | detach (thread : OSThread)
  | isTerminated (thread : OSThread)
  | setCancelState (state : Int32)
  | getCurrent
deriving DecidableEq, Repr

inductive Reply where
  | void
  | ret (code : Int32)
  | word (value : UInt32)
  | pointer (value : UInt64)
deriving DecidableEq, Repr

def call (current : Option OSThread) (op : Op) (s : State) : Reply × State :=
  match op with
  | .create thread args answers => (osCreateThread s thread args answers).map .ret id
  | .resume thread willing => (osResumeThread s thread willing).map .ret id
  | .suspend thread => (osSuspendThread s thread).map .ret id
  | .setCleanupCallback thread callback =>
    (osSetThreadCleanupCallback s thread callback).map .pointer id
  | .setDeallocator thread fn => (osSetThreadDeallocator s thread fn).map .pointer id
  | .getPriority thread => (osGetThreadPriority s thread).map .ret id
  | .setPriority thread priority => (osSetThreadPriority s thread priority).map .ret id
  | .getAffinity thread => (osGetThreadAffinity s thread).map .word id
  | .setAffinity thread affinity => (osSetThreadAffinity s thread affinity).map .ret id
  | .getName thread => (osGetThreadName s thread).map .pointer id
  | .setName thread name => (osSetThreadName s thread name).map (fun _ => .void) id
  | .cancel thread => (osCancelThread s thread).map (fun _ => .void) id
  | .detach thread => (osDetachThread s thread).map (fun _ => .void) id
  | .isTerminated thread => (osIsThreadTerminated s thread).map .ret id
  | .setCancelState state => (osSetThreadCancelState s current state).map .ret id
  | .getCurrent => (osGetCurrentThread s current).map .pointer id

end CoreinitNx.Thread
