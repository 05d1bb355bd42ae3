import CoreinitNx.HandleTable
import CoreinitNx.Library.Monitor

namespace CoreinitNx.Semaphore

open Monitor

structure HostSemaphore where
  count : Int32
deriving DecidableEq, Repr

instance : HostObject HostSemaphore := ⟨⟨0⟩⟩

inductive CondVar where
  | cond
deriving DecidableEq, Repr

inductive Op where
  | init (count : Int32)
  | getCount
  | signal
  | wait
  | tryWait
deriving DecidableEq, Repr

inductive Reply where
  | void
  | ret (count : Int32)
deriving DecidableEq, Repr

abbrev Body := Outcome HostSemaphore CondVar Reply

def osInitSemaphore (_ : HostSemaphore) (count : Int32) : Body := .done .void ⟨count⟩ none

def osGetSemaphoreCount (s : HostSemaphore) : Body := .done (.ret s.count) s none

-- An increment past the largest `int32_t` is undefined in the source.
def osSignalSemaphore (s : HostSemaphore) : Body :=
  if s.count = Int32.maxValue then .fault
  else .done (.ret s.count) ⟨s.count + 1⟩ (some (.all .cond))

def osWaitSemaphore (s : HostSemaphore) : Body :=
  if s.count ≤ 0 then .sleep .cond else .done (.ret s.count) ⟨s.count - 1⟩ none

def osTryWaitSemaphore (s : HostSemaphore) : Body :=
  .done (.ret s.count) (if s.count > 0 then ⟨s.count - 1⟩ else s) none

def body : Op → HostSemaphore → Body
  | .init count, s => osInitSemaphore s count
  | .getCount, s => osGetSemaphoreCount s
  | .signal, s => osSignalSemaphore s
  | .wait, s => osWaitSemaphore s
  | .tryWait, s => osTryWaitSemaphore s

def program : Program HostSemaphore Op CondVar Reply where
  body := body
  starts _ _ := True
  timed _ := False
  env _ _ := False

end CoreinitNx.Semaphore
