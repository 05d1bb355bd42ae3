import CoreinitNx.ExpHeap.Basic

namespace CoreinitNx

-- `MEMAllocFromDefaultHeapEx` and `MEMFreeToDefaultHeap` are pointers that a game may replace.
structure DefaultHeap (η : Type) where
  allocEx : η → UInt32 → Int32 → UInt64 × η
  free : η → UInt64 → η

namespace ExpHeap

def defaultAlloc (mem2 : UInt64) (s : ExpHeaps) (size : UInt32) : UInt64 × ExpHeaps :=
  memAllocFromExpHeapEx s mem2 size 4

def defaultAllocEx (mem2 : UInt64) (s : ExpHeaps) (size : UInt32) (alignment : Int32) :
    UInt64 × ExpHeaps :=
  memAllocFromExpHeapEx s mem2 size (if alignment ≠ 0 then alignment else 4)

def defaultFree (mem2 : UInt64) (s : ExpHeaps) (ptr : UInt64) : ExpHeaps :=
  memFreeToExpHeap s mem2 ptr

-- Where the pointers start, over the MEM2 base heap.
def defaultHeap (mem2 : UInt64) : DefaultHeap ExpHeaps := ⟨defaultAllocEx mem2, defaultFree mem2⟩

end ExpHeap

end CoreinitNx
