import CoreinitNx.HandleTable
import CoreinitNx.Library.Monitor

namespace CoreinitNx.MessageQueue

open Monitor

structure OSMessage where
  message : UInt64
  args : UInt32 × UInt32 × UInt32
deriving DecidableEq, Repr

def OSMessage.zero : OSMessage := ⟨0, 0, 0, 0⟩

abbrev OSMessageFlags := UInt32

def OS_MESSAGE_FLAGS_BLOCKING : OSMessageFlags := 1

def OS_MESSAGE_FLAGS_HIGH_PRIORITY : OSMessageFlags := 2

def isBlocking (flags : OSMessageFlags) : Bool := flags &&& OS_MESSAGE_FLAGS_BLOCKING != 0

def isHighPriority (flags : OSMessageFlags) : Bool :=
  flags &&& OS_MESSAGE_FLAGS_HIGH_PRIORITY != 0

structure HostQueue where
  ring : List OSMessage
  head : UInt32
  count : UInt32
  capacity : UInt32
deriving DecidableEq, Repr

instance : HostObject HostQueue := ⟨⟨[], 0, 0, 0⟩⟩

inductive CondVar where
  | notEmpty
  | notFull
deriving DecidableEq, Repr

-- A call on one queue: which of the guest's pointers are null, and what the others point to.
inductive Op where
  | init (size : Int32)
  | send (message : Option OSMessage) (flags : OSMessageFlags)
  | receive (buffer : Bool) (flags : OSMessageFlags)
  | peek (buffer : Bool)
deriving DecidableEq, Repr

inductive Reply where
  | void
  | ret (code : Int32) (written : Option OSMessage)
deriving DecidableEq, Repr

abbrev Body := Outcome HostQueue CondVar Reply

-- `%` by zero and an index past the end of the vector are undefined in the source.
def remainder (a b : UInt32) : Option UInt32 := if b = 0 then none else some (a % b)

def HostQueue.write (q : HostQueue) (slot : UInt32) (m : OSMessage) : Option HostQueue :=
  if slot.toNat < q.ring.length then some { q with ring := q.ring.set slot.toNat m } else none

def HostQueue.read (q : HostQueue) (slot : UInt32) : Option OSMessage := q.ring[slot.toNat]?

def osInitMessageQueue (q : HostQueue) (size : Int32) : Body :=
  if size ≤ 0 then .done .void q none
  else .done .void
    { q with
      capacity := size.toUInt32
      ring := List.replicate size.toInt.toNat OSMessage.zero
      head := 0
      count := 0 }
    none

def HostQueue.place (q : HostQueue) (m : OSMessage) (flags : OSMessageFlags) :
    Option HostQueue :=
  if isHighPriority flags then do
    let head ← remainder (q.head + q.capacity - 1) q.capacity
    { q with head := head }.write head m
  else do
    let slot ← remainder (q.head + q.count) q.capacity
    q.write slot m

def osSendMessage (q : HostQueue) (message : Option OSMessage) (flags : OSMessageFlags) : Body :=
  match message with
  | none => .done (.ret 0 none) q none
  | some m =>
    if q.count ≥ q.capacity then
      if isBlocking flags then .sleep .notFull else .done (.ret 0 none) q none
    else
      match q.place m flags with
      | none => .fault
      | some q => .done (.ret 1 none) { q with count := q.count + 1 } (some (.one .notEmpty))

def osReceiveMessage (q : HostQueue) (buffer : Bool) (flags : OSMessageFlags) : Body :=
  if buffer then
    if q.count = 0 then
      if isBlocking flags then .sleep .notEmpty else .done (.ret 0 none) q none
    else
      match q.read q.head, remainder (q.head + 1) q.capacity with
      | some m, some head =>
        .done (.ret 1 (some m)) { q with head := head, count := q.count - 1 }
          (some (.one .notFull))
      | _, _ => .fault
  else .done (.ret 0 none) q none

def osPeekMessage (q : HostQueue) (buffer : Bool) : Body :=
  if buffer then
    if q.count > 0 then
      match q.read q.head with
      | some m => .done (.ret 1 (some m)) q none
      | none => .fault
    else .done (.ret 0 none) q none
  else .done (.ret 0 none) q none

def body : Op → HostQueue → Body
  | .init size, q => osInitMessageQueue q size
  | .send message flags, q => osSendMessage q message flags
  | .receive buffer flags, q => osReceiveMessage q buffer flags
  | .peek buffer, q => osPeekMessage q buffer

def program : Program HostQueue Op CondVar Reply where
  body := body
  starts _ _ := True
  timed _ := False
  env _ _ := False

end CoreinitNx.MessageQueue
