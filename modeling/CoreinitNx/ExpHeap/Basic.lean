import CoreinitNx.HandleTable
import CoreinitNx.MemHeap

namespace CoreinitNx.ExpHeap

def memExpHeapSize : UInt32 := 0x54

def expBlockSize : UInt32 := 0x14

def memExpHeapModeFirstFree : UInt8 := 0

def memExpHeapDirFromTop : UInt8 := 0

def memExpHeapDirFromBottom : UInt8 := 1

structure Block where
  start : UInt64
  size : UInt32
  payload : UInt64
  payloadSize : UInt32
  used : Bool
  direction : UInt8
deriving DecidableEq, Repr

structure HostExpHeap where
  dataStart : UInt64
  dataEnd : UInt64
  flags : UInt16
  mode : UInt8
  live : Bool
  blocks : List Block
deriving DecidableEq, Repr

instance : HostObject HostExpHeap where
  init := ⟨0, 0, 0, memExpHeapModeFirstFree, false, []⟩

structure ExpHeaps where
  heaps : HandleTable HostExpHeap
  memory : Memory

def live (s : ExpHeaps) (heap : UInt64) : Option HostExpHeap × ExpHeaps :=
  if heap = 0 then (none, s)
  else
    let (h, heaps) := s.heaps.get heap
    (if h.live then some h else none, { s with heaps := heaps })

def Block.stop (b : Block) : UInt64 := b.start + b.size.toUInt64

def freeBlock (start : UInt64) (size : UInt32) : Block :=
  ⟨start, size, 0, 0, false, memExpHeapDirFromTop⟩

def fitInFree (b : Block) (a : UInt32) : UInt32 :=
  let lowest := alignUp (b.start + expBlockSize.toUInt64) a
  if lowest ≥ b.stop then 0 else (b.stop - lowest).toUInt32

def coalesceFrom : Block → List Block → List Block
  | b, [] => [b]
  | b, next :: rest =>
      if !b.used && !next.used then coalesceFrom { b with size := b.size + next.size } rest
      else b :: coalesceFrom next rest

def coalesce : List Block → List Block
  | [] => []
  | b :: rest => coalesceFrom b rest

def memCreateExpHeapEx (s : ExpHeaps) (heap : UInt64) (size : UInt32) (flags : UInt16) :
    UInt64 × ExpHeaps :=
  if heap = 0 ∨ size ≤ memExpHeapSize + expBlockSize then (0, s)
  else
    let (h, heaps) := s.heaps.get heap
    let h := { h with
      dataStart := alignUp (heap + memExpHeapSize.toUInt64) 4
      dataEnd := heap + size.toUInt64 }
    if h.dataStart ≥ h.dataEnd then (0, { s with heaps := heaps.store heap h })
    else
      let h := { h with
        flags := flags
        mode := memExpHeapModeFirstFree
        live := true
        blocks := [freeBlock h.dataStart (h.dataEnd - h.dataStart).toUInt32] }
      (heap, { s with heaps := heaps.store heap h })

def memDestroyExpHeap (s : ExpHeaps) (heap : UInt64) : UInt64 × ExpHeaps :=
  match live s heap with
  | (none, s) => (0, s)
  | (some h, s) => (heap, { s with heaps := s.heaps.store heap { h with live := false, blocks := [] } })

-- `chosen = none` is the source's (size_t)-1; `slack` is the slack of the chosen block.
def chooseFrom (mode : UInt8) (size a : UInt32) :
    List Block → Nat → Option Nat → UInt32 → Option Nat
  | [], _, chosen, _ => chosen
  | b :: rest, i, chosen, slack =>
      if b.used then chooseFrom mode size a rest (i + 1) chosen slack
      else
        let avail := fitInFree b a
        if avail < size then chooseFrom mode size a rest (i + 1) chosen slack
        else if mode = memExpHeapModeFirstFree then some i
        else if chosen = none ∨ avail - size < slack then
          chooseFrom mode size a rest (i + 1) (some i) (avail - size)
        else chooseFrom mode size a rest (i + 1) chosen slack

structure Placement where
  payload : UInt64
  blockStart : UInt64
  blockEnd : UInt64
deriving DecidableEq, Repr

def place (free : Block) (size a : UInt32) (fromBottom : Bool) : Option Placement :=
  if fromBottom then
    let payload := alignDown (free.stop - size.toUInt64) a
    let blockStart := payload - expBlockSize.toUInt64
    if blockStart < free.start then none else some ⟨payload, blockStart, free.stop⟩
  else
    let payload := alignUp (free.start + expBlockSize.toUInt64) a
    let blockEnd := payload + size.toUInt64
    if blockEnd > free.stop then none else some ⟨payload, free.start, blockEnd⟩

def minSplit : UInt32 := expBlockSize + 4

def Placement.block (p : Placement) (size : UInt32) (fromBottom : Bool) : Block :=
  ⟨p.blockStart, (p.blockEnd - p.blockStart).toUInt32, p.payload, size, true,
    if fromBottom then memExpHeapDirFromBottom else memExpHeapDirFromTop⟩

def replacement (free : Block) (p : Placement) (size : UInt32) (fromBottom : Bool) : List Block :=
  let used := p.block size fromBottom
  if fromBottom then
    let before := (p.blockStart - free.start).toUInt32
    if before ≥ minSplit then [freeBlock free.start before, used]
    else if before > 0 then [{ used with start := free.start, size := used.size + before }]
    else [used]
  else
    let after := (free.stop - p.blockEnd).toUInt32
    if after ≥ minSplit then [used, freeBlock p.blockEnd after]
    else [{ used with size := used.size + after }]

def allocateIn (h : HostExpHeap) (size : UInt32) (alignment : Int32) :
    Option (UInt64 × HostExpHeap) :=
  let (a, fromBottom) := normaliseAlignment alignment
  match chooseFrom h.mode size a h.blocks 0 none 0 with
  | none => none
  | some chosen =>
      match h.blocks[chosen]? with
      | none => none
      | some free =>
          match place free size a fromBottom with
          | none => none
          | some p =>
              some (p.payload, { h with
                blocks := h.blocks.take chosen ++ replacement free p size fromBottom ++
                  h.blocks.drop (chosen + 1) })

def memAllocFromExpHeapEx (s : ExpHeaps) (heap : UInt64) (size : UInt32) (alignment : Int32) :
    UInt64 × ExpHeaps :=
  match live s heap with
  | (none, s) => (0, s)
  | (some h, s) =>
      let size := if size = 0 then 1 else size
      match allocateIn h size alignment with
      | none => (0, s)
      | some (payload, h') =>
          let memory :=
            if h.flags.toUInt32 &&& memHeapFlagZeroAllocated ≠ 0 then memset s.memory payload 0 size
            else s.memory
          (payload, { heaps := s.heaps.store heap h', memory := memory })

def Block.release (b : Block) : Block := { b with used := false, payload := 0, payloadSize := 0 }

def releaseFirst (block : UInt64) : List Block → Option (List Block)
  | [] => none
  | b :: rest =>
      if b.used && b.payload == block then some (b.release :: rest)
      else (releaseFirst block rest).map (b :: ·)

def freeIn (h : HostExpHeap) (block : UInt64) : HostExpHeap :=
  match releaseFirst block h.blocks with
  | none => h
  | some blocks => { h with blocks := coalesce blocks }

def memFreeToExpHeap (s : ExpHeaps) (heap block : UInt64) : ExpHeaps :=
  match live s heap with
  | (none, s) => s
  | (some h, s) => if block = 0 then s else { s with heaps := s.heaps.store heap (freeIn h block) }

def totalFree (blocks : List Block) : UInt32 :=
  blocks.foldl (fun total b => if b.used then total else total + b.size) 0

def memGetTotalFreeSizeForExpHeap (s : ExpHeaps) (heap : UInt64) : UInt32 × ExpHeaps :=
  match live s heap with
  | (none, s) => (0, s)
  | (some h, s) => (totalFree h.blocks, s)

def largestFit (a : UInt32) (blocks : List Block) : UInt32 :=
  blocks.foldl (fun best b =>
    if b.used then best else if fitInFree b a > best then fitInFree b a else best) 0

def memGetAllocatableSizeForExpHeapEx (s : ExpHeaps) (heap : UInt64) (alignment : Int32) :
    UInt32 × ExpHeaps :=
  match live s heap with
  | (none, s) => (0, s)
  | (some h, s) => (largestFit (normaliseAlignment alignment).1 h.blocks, s)

def memSetAllocModeForExpHeap (s : ExpHeaps) (heap : UInt64) (mode : UInt32) : UInt8 × ExpHeaps :=
  match live s heap with
  | (none, s) => (memExpHeapModeFirstFree, s)
  | (some h, s) =>
      (h.mode, { s with heaps := s.heaps.store heap { h with mode := mode.toUInt8 } })

end CoreinitNx.ExpHeap
