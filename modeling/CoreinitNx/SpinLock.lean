import CoreinitNx.Ticks

namespace CoreinitNx.SpinLock

abbrev OSSpinLock := UInt64

def deadlineAt (systemTick : UInt64) (timeout : OSTime) : UInt64 :=
  systemTick + (if timeout > 0 then timeout else 0).toUInt64 * 1024 / 3315

-- One turn of the loop: whether the mutex could be taken, then what the host clock says.
structure Poll where
  taken : Bool
  systemTick : UInt64
deriving DecidableEq, Repr

-- `none` is a loop that has not ended yet.
def retry (deadline : UInt64) : List Poll → Option Int32
  | [] => none
  | poll :: polls =>
      if poll.taken then some 1
      else if poll.systemTick ≥ deadline then some 0
      else retry deadline polls

def tryAcquireTimeout (l : OSSpinLock) (timeout : OSTime) (systemTick : UInt64)
    (polls : List Poll) : Option Int32 :=
  if l = 0 then some 0 else retry (deadlineAt systemTick timeout) polls

end CoreinitNx.SpinLock
