import CoreinitNx.HandleTable
import CoreinitNx.MemHeap

namespace CoreinitNx.FrmHeap

def memFrmHeapSize : UInt32 := 0x4C

def memFrmHeapFreeHead : UInt32 := 1

def memFrmHeapFreeTail : UInt32 := 2

def memFrmHeapFreeAll : UInt32 := memFrmHeapFreeHead ||| memFrmHeapFreeTail

structure State where
  tag : UInt32
  head : UInt64
  tail : UInt64
deriving DecidableEq, Repr

structure HostFrmHeap where
  dataStart : UInt64
  dataEnd : UInt64
  head : UInt64
  tail : UInt64
  flags : UInt32
  live : Bool
  states : List State
deriving DecidableEq, Repr

instance : HostObject HostFrmHeap where
  init := ⟨0, 0, 0, 0, 0, false, []⟩

structure FrmHeaps where
  heaps : HandleTable HostFrmHeap
  memory : Memory

def live (s : FrmHeaps) (heap : UInt64) : Option HostFrmHeap × FrmHeaps :=
  if heap = 0 then (none, s)
  else
    let (h, heaps) := s.heaps.get heap
    (if h.live then some h else none, { s with heaps := heaps })

def memCreateFrmHeapEx (s : FrmHeaps) (heap : UInt64) (size flags : UInt32) : UInt64 × FrmHeaps :=
  if heap = 0 ∨ size ≤ memFrmHeapSize then (0, s)
  else
    let (h, heaps) := s.heaps.get heap
    let h := { h with
      dataStart := alignUp (heap + memFrmHeapSize.toUInt64) 4
      dataEnd := heap + size.toUInt64 }
    if h.dataStart ≥ h.dataEnd then (0, { s with heaps := heaps.store heap h })
    else
      let h := { h with
        head := h.dataStart, tail := h.dataEnd, flags := flags, live := true, states := [] }
      (heap, { s with heaps := heaps.store heap h })

def memDestroyFrmHeap (s : FrmHeaps) (heap : UInt64) : UInt64 × FrmHeaps :=
  match live s heap with
  | (none, s) => (0, s)
  | (some h, s) => (heap, { s with heaps := s.heaps.store heap { h with live := false, states := [] } })

def allocateIn (h : HostFrmHeap) (size : UInt32) (alignment : Int32) :
    Option (UInt64 × HostFrmHeap) :=
  let (a, fromTail) := normaliseAlignment alignment
  if fromTail then
    let candidate := alignDown (h.tail - size.toUInt64) a
    if candidate < h.head ∨ candidate > h.tail then none
    else some (candidate, { h with tail := candidate })
  else
    let candidate := alignUp h.head a
    if candidate + size.toUInt64 > h.tail ∨ candidate < h.head then none
    else some (candidate, { h with head := candidate + size.toUInt64 })

def memAllocFromFrmHeapEx (s : FrmHeaps) (heap : UInt64) (size : UInt32) (alignment : Int32) :
    UInt64 × FrmHeaps :=
  match live s heap with
  | (none, s) => (0, s)
  | (some h, s) =>
      let size := if size = 0 then 1 else size
      match allocateIn h size alignment with
      | none => (0, s)
      | some (result, h') =>
          let memory :=
            if h.flags &&& memHeapFlagZeroAllocated ≠ 0 then memset s.memory result 0 size
            else s.memory
          (result, { heaps := s.heaps.store heap h', memory := memory })

def freeIn (h : HostFrmHeap) (mode : UInt32) : HostFrmHeap :=
  let h := if mode &&& memFrmHeapFreeHead ≠ 0 then { h with head := h.dataStart } else h
  let h := if mode &&& memFrmHeapFreeTail ≠ 0 then { h with tail := h.dataEnd } else h
  if mode &&& memFrmHeapFreeAll = memFrmHeapFreeAll then { h with states := [] } else h

def memFreeToFrmHeap (s : FrmHeaps) (heap : UInt64) (mode : UInt32) : FrmHeaps :=
  match live s heap with
  | (none, s) => s
  | (some h, s) => { s with heaps := s.heaps.store heap (freeIn h mode) }

def memRecordStateForFrmHeap (s : FrmHeaps) (heap : UInt64) (tag : UInt32) : Int32 × FrmHeaps :=
  match live s heap with
  | (none, s) => (0, s)
  | (some h, s) =>
      let h := { h with states := h.states ++ [⟨tag, h.head, h.tail⟩] }
      (1, { s with heaps := s.heaps.store heap h })

-- The downward loop: entries i - 1, ..., 0.
def findBelow (states : List State) (tag : UInt32) : Nat → Option Nat
  | 0 => none
  | i + 1 => if states[i]?.map State.tag = some tag then some i else findBelow states tag i

def selectState (states : List State) (tag : UInt32) : Option Nat :=
  if states = [] then none
  else if tag = 0 then some (states.length - 1)
  else findBelow states tag states.length

def selected (h : HostFrmHeap) (tag : UInt32) : Option (Nat × State) :=
  (selectState h.states tag).bind fun idx => h.states[idx]?.map fun st => (idx, st)

def freeByStateIn (h : HostFrmHeap) (tag : UInt32) : Option HostFrmHeap :=
  (selected h tag).map fun (idx, st) =>
    { h with head := st.head, tail := st.tail, states := h.states.take idx }

def memFreeByStateToFrmHeap (s : FrmHeaps) (heap : UInt64) (tag : UInt32) : Int32 × FrmHeaps :=
  match live s heap with
  | (none, s) => (0, s)
  | (some h, s) =>
      match freeByStateIn h tag with
      | none => (0, s)
      | some h' => (1, { s with heaps := s.heaps.store heap h' })

def memAdjustFrmHeap (s : FrmHeaps) (heap : UInt64) : UInt32 × FrmHeaps :=
  match live s heap with
  | (none, s) => (0, s)
  | (some h, s) =>
      if h.tail ≠ h.dataEnd then (0, s)
      else
        let h := { h with dataEnd := h.head, tail := h.head }
        ((h.dataEnd - heap).toUInt32, { s with heaps := s.heaps.store heap h })

def memGetAllocatableSizeForFrmHeapEx (s : FrmHeaps) (heap : UInt64) (alignment : Int32) :
    UInt32 × FrmHeaps :=
  match live s heap with
  | (none, s) => (0, s)
  | (some h, s) =>
      let start := alignUp h.head (normaliseAlignment alignment).1
      (if start ≥ h.tail then 0 else (h.tail - start).toUInt32, s)

end CoreinitNx.FrmHeap
