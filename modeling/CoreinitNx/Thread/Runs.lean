import CoreinitNx.Thread.Basic

namespace CoreinitNx.Thread

-- The thread is in a function of the guest, and can make calls.
def Life.inGuest : Life → Prop
  | .entry => True
  | .cleanup => True
  | .deallocator => True
  | _ => False

def HostThread.cleanupCall (h : HostThread) : Option Callback :=
  if h.cleanup = 0 then none else some (.cleanup h.cleanup h.guest h.guestStack)

def HostThread.deallocatorCall (h : HostThread) : Option Callback :=
  if h.deallocator = 0 then none else some (.deallocator h.deallocator h.guest h.guestStack)

def State.setKernel (s : State) (id : Nat) (k : KernelThread) : State :=
  { s with kernel := s.kernel.set id k }

-- `if (h->deallocator) h->deallocator(...)`, which is the last that `trampoline` does.
def KernelThread.deallocate (k : KernelThread) (h : HostThread) : KernelThread :=
  match h.deallocatorCall with
  | some callback => { k with life := .deallocator, called := k.called ++ [callback] }
  | none => { k with life := .exited }

-- What `trampoline` does from the return of the entry function to the next guest function.
def KernelThread.returned (k : KernelThread) (h : HostThread) (value : Int32) : KernelThread :=
  let k := { k with value := some value }
  match h.cleanupCall with
  | some callback => { k with life := .cleanup, called := k.called ++ [callback] }
  | none => k.deallocate h

-- `threadExit()` from the function the thread is in.
def KernelThread.exit (k : KernelThread) : KernelThread := { k with life := .exited }

def setExitResult (s : State) (thread : OSThread) (value : Int32) : State :=
  { s with
    threads := s.threads.store thread { s.threads.view thread with exitResult := value } }

def entryReturned (s : State) (id : Nat) (k : KernelThread) (value : Int32) : State :=
  let s := setExitResult s k.guest value
  s.setKernel id (k.returned (s.threads.view k.guest) value)

def cleanupReturned (s : State) (id : Nat) (k : KernelThread) : State :=
  s.setKernel id (k.deallocate (s.threads.view k.guest))

def osExitThread (s : State) (id : Nat) (k : KernelThread) (result : Int32) : State :=
  let s := setExitResult s k.guest result
  s.setKernel id { k.exit with value := some result }

def HostThread.honoursCancel (h : HostThread) : Prop := h.cancelRequested ∧ h.cancelEnabled

instance (h : HostThread) : Decidable h.honoursCancel := inferInstanceAs (Decidable (_ ∧ _))

def osTestThreadCancel (s : State) (id : Nat) (k : KernelThread) : State :=
  let h := s.threads.view k.guest
  if h.honoursCancel then s.setKernel id k.exit else s

-- The check of `OSJoinThread`, which waits for the kernel thread of the record where it passes.
def joinable (h : HostThread) : Option Nat :=
  if ¬h.created ∨ ¬h.started ∨ h.detached then none else h.handle

def joinStarts (s : State) (thread : OSThread) : Option Nat × State :=
  let (h, threads) := s.threads.get thread
  let s := { s with threads }
  match joinable h with
  | none => (none, s)
  | some id => (some id, { s with joins := (thread, id) :: s.joins })

def joinFails (s : State) (thread : OSThread) (id : Nat) : State :=
  { s with joins := s.joins.erase (thread, id) }

def joinSucceeds (s : State) (thread : OSThread) (id : Nat) : Int32 × State :=
  let h := s.threads.view thread
  (h.exitResult,
    { s with
      threads := s.threads.store thread { h with started := false, created := false }
      joins := s.joins.erase (thread, id) })

inductive Event where
  | call (caller : Option Nat) (op : Op) (reply : Reply)
  | enter (id : Nat) (entry : OSThreadEntryPointFn) (argc : Int32) (argv : Pointer)
  | entryReturned (id : Nat) (value : Int32)
  | cleanupReturned (id : Nat)
  | deallocatorReturned (id : Nat)
  | exitThread (id : Nat) (result : Int32)
  | testCancel (id : Nat)
  | joinStarts (thread : OSThread)
  | joinFails (thread : OSThread) (id : Nat)
  | joinSucceeds (thread : OSThread) (id : Nat) (result : Int32)
deriving DecidableEq, Repr

def State.current (s : State) : Option Nat → Option OSThread
  | some id => (s.kernel[id]?).map (·.guest)
  | none => none

-- The caller is a kernel thread in guest code, or a thread that `OSCreateThread` has not made.
def State.CanCall (s : State) : Option Nat → Prop
  | some id => ∃ k, s.kernel[id]? = some k ∧ k.life.inGuest
  | none => True

inductive Step : State → Event → State → Prop
  | call {s : State} {caller : Option Nat} {op : Op} : s.CanCall caller →
      Step s (.call caller op (Thread.call (s.current caller) op s).1)
        (Thread.call (s.current caller) op s).2
  | enter {s : State} {id : Nat} {k : KernelThread} : s.kernel[id]? = some k → k.life = .started →
      Step s (.enter id (s.threads.view k.guest).entry (s.threads.view k.guest).argc
          (s.threads.view k.guest).argv)
        (s.setKernel id { k with life := .entry })
  | entryReturned {s : State} {id : Nat} {k : KernelThread} {value : Int32} :
      s.kernel[id]? = some k → k.life = .entry →
      Step s (.entryReturned id value) (Thread.entryReturned s id k value)
  | cleanupReturned {s : State} {id : Nat} {k : KernelThread} :
      s.kernel[id]? = some k → k.life = .cleanup →
      Step s (.cleanupReturned id) (Thread.cleanupReturned s id k)
  | deallocatorReturned {s : State} {id : Nat} {k : KernelThread} :
      s.kernel[id]? = some k → k.life = .deallocator →
      Step s (.deallocatorReturned id) (s.setKernel id { k with life := .exited })
  | exitThread {s : State} {id : Nat} {k : KernelThread} {result : Int32} :
      s.kernel[id]? = some k → k.life.inGuest →
      Step s (.exitThread id result) (osExitThread s id k result)
  | testCancel {s : State} {id : Nat} {k : KernelThread} :
      s.kernel[id]? = some k → k.life.inGuest →
      Step s (.testCancel id) (osTestThreadCancel s id k)
  | joinStarts {s : State} {thread : OSThread} :
      Step s (.joinStarts thread) (Thread.joinStarts s thread).2
  | joinFails {s : State} {thread : OSThread} {id : Nat} : (thread, id) ∈ s.joins →
      Step s (.joinFails thread id) (Thread.joinFails s thread id)
  | joinSucceeds {s : State} {thread : OSThread} {id : Nat} {k : KernelThread} :
      (thread, id) ∈ s.joins → s.kernel[id]? = some k → k.life = .exited →
      Step s (.joinSucceeds thread id (Thread.joinSucceeds s thread id).1)
        (Thread.joinSucceeds s thread id).2

abbrev Run := Transition.Run Step

section Views

open HandleTable

variable {s : State} {thread t : OSThread}

theorem get_store (table : HandleTable HostThread) (thread : OSThread) (h : HostThread) :
    (table.get thread).2.store thread h = table.store thread h := by
  rw [HandleTable.get]
  split
  next => rfl
  next => simp only [store, Function.update_idem]

theorem view_store (table : HandleTable HostThread) (thread t : OSThread) (h : HostThread) :
    (table.store thread h).view t = if t = thread then h else table.view t := by
  split
  next heq =>
    subst heq
    exact view_store_same table t h
  next hne => exact view_store_ne table h hne

-- What a write leaves alone in the record it leaves alone in all.
theorem view_store_keeps {α : Type} {table : HandleTable HostThread} {h : HostThread}
    (part : HostThread → α) (hpart : part h = part (table.view thread)) :
    part ((table.store thread h).view t) = part (table.view t) := by
  rw [view_store]
  split
  next heq => rw [hpart, heq]
  next => rfl

-- The record that a creation makes of `h` for the kernel thread `id`.
def recordOf (h : HostThread) (thread : OSThread) (args : CreateArgs) (id : Nat) : HostThread :=
  { prepare thread args h with handle := some id, created := true }

theorem osCreateThread_some {args : CreateArgs} {answers : CreateAnswers} {cpu : Int32}
    (hcpu : createdCpu args.attributes answers = some cpu) :
    osCreateThread s thread args answers =
      (1, { s with
        threads := s.threads.store thread
          (recordOf (s.threads.view thread) thread args s.kernel.length)
        kernel := s.kernel ++ [newKernelThread thread args answers.processPrio cpu] }) := by
  simp only [osCreateThread, hcpu, get_fst, get_store, recordOf]

theorem osCreateThread_none {args : CreateArgs} {answers : CreateAnswers}
    (hcpu : createdCpu args.attributes answers = none) :
    osCreateThread s thread args answers =
      (0, { s with
        threads := s.threads.store thread
          { prepare thread args (s.threads.view thread) with created := false } }) := by
  simp only [osCreateThread, hcpu, get_fst, get_store]

theorem update_eq {α : Type} (s : State) (thread : OSThread) (f : HostThread → α × HostThread) :
    update s thread f =
      ((f (s.threads.view thread)).1,
        { s with threads := s.threads.store thread (f (s.threads.view thread)).2 }) := by
  simp only [update, get_fst, get_store]

theorem threadStart_some {kernel kernel' : List KernelThread} {handle : Option Nat}
    {willing : Bool} (h : threadStart kernel handle willing = some kernel') :
    ∃ id k, handle = some id ∧ kernel[id]? = some k ∧ willing = true ∧ k.life = .ready ∧
      kernel' = kernel.set id { k with life := .started } := by
  cases handle with
  | none => cases h
  | some id =>
    simp only [threadStart] at h
    split at h
    next k hk =>
      split at h
      next hready => exact ⟨id, k, rfl, hk, hready.1, hready.2, (Option.some.inj h).symm⟩
      next => cases h
    next => cases h

-- The count that a resumption leaves.
def HostThread.lowered (h : HostThread) : Int32 :=
  if h.suspendCount > 0 then h.suspendCount - 1 else h.suspendCount

-- A resumption of the record calls `threadStart`.
def HostThread.ToStart (h : HostThread) : Prop := h.lowered = 0 ∧ h.created ∧ ¬h.started

-- The kernel thread `id` of the record is ready, and is started.
structure Startable (s : State) (h : HostThread) (id : Nat) (k : KernelThread) : Prop where
  due : h.ToStart
  handle : h.handle = some id
  kernel : s.kernel[id]? = some k
  ready : k.life = .ready

theorem osResumeThread_cases (s : State) (thread : OSThread) (willing : Bool) :
    (osResumeThread s thread willing).1 = (s.threads.view thread).suspendCount ∧
      ((osResumeThread s thread willing).2 =
          { s with
            threads := s.threads.store thread
              { s.threads.view thread with suspendCount := (s.threads.view thread).lowered } } ∧
        (∀ id k, willing = true → ¬Startable s (s.threads.view thread) id k) ∨
      ∃ id k, willing = true ∧ Startable s (s.threads.view thread) id k ∧
        (osResumeThread s thread willing).2 =
          { s with
            threads := s.threads.store thread
              { s.threads.view thread with
                suspendCount := (s.threads.view thread).lowered
                started := true }
            kernel := s.kernel.set id { k with life := .started } }) := by
  simp only [osResumeThread, get_fst, get_store]
  generalize s.threads.view thread = h
  have hcount : (if h.suspendCount > 0 then { h with suspendCount := h.suspendCount - 1 } else h) =
      { h with suspendCount := h.lowered } := by
    rw [HostThread.lowered]
    split <;> rfl
  rw [hcount]
  split
  next hdue =>
    split
    next kernel hstart =>
      obtain ⟨id, k, hhandle, hk, hwilling, hready, hkernel⟩ := threadStart_some hstart
      rw [hkernel]
      exact ⟨rfl, .inr ⟨id, k, hwilling, ⟨hdue, hhandle, hk, hready⟩, rfl⟩⟩
    next hfail =>
      refine ⟨rfl, .inl ⟨rfl, fun id k hwilling hstart => ?_⟩⟩
      simp [threadStart, hstart.handle, hstart.kernel, hstart.ready, hwilling] at hfail
  next hdue => exact ⟨rfl, .inl ⟨rfl, fun _ _ _ hstart => hdue hstart.due⟩⟩

-- The count may go down, and the kernel thread of the record may start.
theorem osResumeThread_spec (s : State) (thread : OSThread) (willing : Bool) :
    ∃ (count : Int32) (started : Bool) (kernel : List KernelThread),
      (osResumeThread s thread willing).2 =
        { s with
          threads := s.threads.store thread
            { s.threads.view thread with suspendCount := count, started }
          kernel } ∧
      (kernel = s.kernel ∨ ∃ id k, (s.threads.view thread).handle = some id ∧
        s.kernel[id]? = some k ∧ k.life = .ready ∧
        kernel = s.kernel.set id { k with life := .started }) := by
  obtain ⟨-, ⟨heq, -⟩ | ⟨id, k, -, hstart, heq⟩⟩ := osResumeThread_cases s thread willing
  · exact ⟨_, (s.threads.view thread).started, s.kernel, heq, .inl rfl⟩
  · exact ⟨_, true, _, heq, .inr ⟨id, k, hstart.handle, hstart.kernel, hstart.ready, rfl⟩⟩

-- What the calls other than creation and resumption write to a record, where they write.
def Op.edit (current : Option OSThread) (mainThread : OSThread) :
    Op → Option (OSThread × (HostThread → HostThread))
  | .suspend thread => some (thread, fun h => { h with suspendCount := h.suspendCount + 1 })
  | .setCleanupCallback thread callback => some (thread, fun h => { h with cleanup := callback })
  | .setDeallocator thread fn => some (thread, fun h => { h with deallocator := fn })
  | .setPriority thread priority => some (thread, fun h => { h with cafePriority := priority })
  | .setAffinity thread affinity =>
    some (thread, fun h => { h with cafeAffinity := affinity &&& affinityAny.toUInt32 })
  | .setName thread name => some (thread, fun h => { h with name })
  | .cancel thread =>
    if thread = 0 then none else some (thread, fun h => { h with cancelRequested := true })
  | .detach thread =>
    if thread = 0 then none else some (thread, fun h => { h with detached := true })
  | .getPriority thread | .getAffinity thread | .getName thread | .isTerminated thread =>
    some (thread, id)
  | .setCancelState state =>
    current.map fun thread => (thread, fun h => { h with cancelEnabled := state ≠ 0 })
  | .getCurrent =>
    match current with
    | some _ => none
    | none =>
      some (mainThread, fun h =>
        if h.guest = 0 then { h with guest := mainThread, created := true, started := true } else h)
  | .create _ _ _ | .resume _ _ => none

def State.edit (s : State) : Option (OSThread × (HostThread → HostThread)) → State
  | some (thread, f) => { s with threads := s.threads.store thread (f (s.threads.view thread)) }
  | none => s

-- A call is a creation, a resumption, or a write to one record at most.
theorem op_cases (op : Op) :
    (∃ thread args answers, op = .create thread args answers) ∨
      (∃ thread willing, op = .resume thread willing) ∨
      ∀ current s, (call current op s).2 = s.edit (op.edit current s.mainThread) := by
  cases op with
  | create thread args answers => exact .inl ⟨thread, args, answers, rfl⟩
  | resume thread willing => exact .inr (.inl ⟨thread, willing, rfl⟩)
  | suspend _ | setCleanupCallback _ _ | setDeallocator _ _ | getPriority _ | setPriority _ _
  | getAffinity _ | setAffinity _ _ | getName _ | setName _ _ | isTerminated _ =>
    refine .inr (.inr fun current s => ?_)
    simp only [call, osSuspendThread, osSetThreadCleanupCallback, osSetThreadDeallocator,
      osGetThreadPriority, osSetThreadPriority, osGetThreadAffinity, osSetThreadAffinity,
      osGetThreadName, osSetThreadName, osIsThreadTerminated, Prod.map, id, update_eq, Op.edit,
      State.edit]
  | cancel thread =>
    refine .inr (.inr fun current s => ?_)
    simp only [call, osCancelThread, Op.edit]
    split
    next => rfl
    next => simp only [Prod.map, id, update_eq, State.edit]
  | detach thread =>
    refine .inr (.inr fun current s => ?_)
    simp only [call, osDetachThread, Op.edit]
    split
    next => rfl
    next => simp only [Prod.map, id, update_eq, State.edit]
  | setCancelState state =>
    refine .inr (.inr fun current s => ?_)
    cases current with
    | none => rfl
    | some thread =>
      simp only [call, osSetThreadCancelState, Prod.map, id, update_eq, Op.edit, Option.map,
        State.edit]
  | getCurrent =>
    refine .inr (.inr fun current s => ?_)
    cases current with
    | none => simp only [call, osGetCurrentThread, Prod.map, id, update_eq, Op.edit, State.edit]
    | some thread => rfl

@[simp] theorem setKernel_threads {id : Nat} {k : KernelThread} :
    (s.setKernel id k).threads = s.threads := rfl

theorem setExitResult_view {value : Int32} :
    (setExitResult s thread value).threads.view t =
      if t = thread then { s.threads.view thread with exitResult := value }
      else s.threads.view t := view_store _ _ _ _

theorem joinStarts_view : (joinStarts s thread).2.threads.view t = s.threads.view t := by
  rw [joinStarts]
  dsimp only
  split <;> exact view_get _ _ _

theorem osTestThreadCancel_threads {id : Nat} {k : KernelThread} :
    (osTestThreadCancel s id k).threads = s.threads := by
  rw [osTestThreadCancel]
  split <;> rfl

end Views

end CoreinitNx.Thread
