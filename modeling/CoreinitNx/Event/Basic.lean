import CoreinitNx.HandleTable
import CoreinitNx.Ticks
import CoreinitNx.Library.Monitor

namespace CoreinitNx.Event

open Monitor

structure HostEvent where
  signalled : Bool
  autoReset : Bool
deriving DecidableEq, Repr

instance : HostObject HostEvent := ⟨⟨false, false⟩⟩

inductive OSEventMode where
  | manual
  | auto
deriving DecidableEq, Repr

inductive CondVar where
  | cond
deriving DecidableEq, Repr

-- The event under its lock, and the host tick that `armGetSystemTick` reads.
structure World where
  event : HostEvent
  systemTick : UInt64
deriving DecidableEq, Repr

inductive Op where
  | init (value : Int32) (mode : OSEventMode)
  | signal
  | signalAll
  | wait
  | reset
  | waitTimeout (timeout : OSTime) (deadline : UInt64)
deriving DecidableEq, Repr

inductive Reply where
  | void
  | ret (code : Int32)
deriving DecidableEq, Repr

abbrev Body := Outcome World CondVar Reply

def deadlineAt (systemTick : UInt64) (timeout : OSTime) : UInt64 :=
  systemTick + ticksToNs timeout * 192 / 10000

def World.setSignalled (s : World) (signalled : Bool) : World :=
  { s with event := { s.event with signalled := signalled } }

-- What a wait does when it leaves its loop.
def World.consume (s : World) : World :=
  if s.event.autoReset then s.setSignalled false else s

def osInitEvent (s : World) (value : Int32) (mode : OSEventMode) : Body :=
  .done .void { s with event := ⟨value != 0, mode == .auto⟩ } none

def osSignalEvent (s : World) : Body :=
  .done .void (s.setSignalled true)
    (some (if s.event.autoReset then .one .cond else .all .cond))

def osSignalEventAll (s : World) : Body :=
  let signalled := s.setSignalled true
  .done .void (if signalled.event.autoReset then signalled.setSignalled false else signalled)
    (some (.all .cond))

def osWaitEvent (s : World) : Body :=
  if s.event.signalled then .done .void s.consume none else .sleep .cond

def osResetEvent (s : World) : Body := .done .void (s.setSignalled false) none

def osWaitEventWithTimeout (s : World) (deadline : UInt64) : Body :=
  if s.event.signalled then .done (.ret 1) s.consume none
  else if s.systemTick ≥ deadline then .done (.ret 0) s none
  else .sleep .cond

def body : Op → World → Body
  | .init value mode, s => osInitEvent s value mode
  | .signal, s => osSignalEvent s
  | .signalAll, s => osSignalEventAll s
  | .wait, s => osWaitEvent s
  | .reset, s => osResetEvent s
  | .waitTimeout _ deadline, s => osWaitEventWithTimeout s deadline

-- The deadline is computed before the lock is taken; a timed wait sleeps a millisecond at a time.
def program : Program World Op CondVar Reply where
  body := body
  starts s op := match op with
    | .waitTimeout timeout deadline => deadline = deadlineAt s.systemTick timeout
    | _ => True
  timed op := match op with
    | .waitTimeout _ _ => True
    | _ => False
  env s s' := s'.event = s.event ∧ s.systemTick ≤ s'.systemTick

@[simp] theorem setSignalled_autoReset (s : World) (b : Bool) :
    (s.setSignalled b).event.autoReset = s.event.autoReset := rfl

theorem consume_of_manual {s : World} (h : s.event.autoReset = false) : s.consume = s := by
  rw [World.consume, h]
  rfl

end CoreinitNx.Event
