import CoreinitNx.Library.Dict
import CoreinitNx.Rpx.Python

namespace CoreinitNx.Rpx

def shtSymtab : Nat := 0x00000002

def shtRela : Nat := 0x00000004

def shtRplImports : Nat := 0x80000002

def shfRplZlib : Nat := 0x08000000

def relaEntrySize : Nat := 12

def symtabEntrySize : Nat := 16

structure Section where
  idx : Nat
  nameOff : Nat
  type : Nat
  flags : Nat
  addr : Nat
  offset : Nat
  size : Nat
  link : Nat
  info : Nat
  entsize : Nat
deriving DecidableEq, Repr

structure Reader where
  blob : Bytes
  sections : List Section
  shstr : Bytes

inductive Kind where
  | functions
  | data
deriving DecidableEq, Repr

structure Entry where
  functions : List Str
  data : List Str
deriving DecidableEq, Repr

namespace Entry

def empty : Entry := ⟨[], []⟩

def names (e : Entry) : Kind → List Str
  | .functions => e.functions
  | .data => e.data

def append (kind : Kind) (sym : Str) (e : Entry) : Entry :=
  match kind with
  | .functions => { e with functions := e.functions ++ [sym] }
  | .data => { e with data := e.data ++ [sym] }

def sorted (e : Entry) : Entry := ⟨sortedSet e.functions, sortedSet e.data⟩

end Entry

section Decompress

-- `zlib.decompress`, where `none` is its error.
variable (decompress : Bytes → Option Bytes)

def getItem {α : Type} (xs : List α) (i : Nat) : Except Error α :=
  match xs[i]? with
  | some x => .ok x
  | none => .error .indexError

def elfMagic : Bytes := [0x7F, 0x45, 0x4C, 0x46]

def checkHeader (b : Bytes) : Except Error Unit := do
  if slice b 0 4 ≠ elfMagic then
    throw (.rpxError "not an ELF file")
  if (← getItem b 4) ≠ 1 then
    throw (.rpxError "expected 32-bit big-endian")
  if (← getItem b 5) ≠ 2 then
    throw (.rpxError "expected 32-bit big-endian")
  match ← unpack [2] (slice b 18 20) with
  | [machine] => if machine ≠ 20 then throw (.rpxError "expected PowerPC (machine 20)")
  | _ => throw .structError

def data (blob : Bytes) (sh : Section) : Except Error Bytes :=
  let raw := slice blob sh.offset (sh.offset + sh.size)
  if sh.flags &&& shfRplZlib = 0 then .ok raw
  else if raw.length < 4 then .ok []
  else
    match decompress (raw.drop 4) with
    | some bytes => .ok bytes
    | none => .error .zlibError

def readSection (blob : Bytes) (shoff shentsize i : Nat) : Except Error Section := do
  let off := shoff + i * shentsize
  match ← unpack [4, 4, 4, 4, 4, 4, 4, 4, 4, 4] (slice blob off (off + 40)) with
  | [name, type, flags, addr, offset, size, link, info, _, entsize] =>
    pure ⟨i, name, type, flags, addr, offset, size, link, info, entsize⟩
  | _ => throw .structError

def readSections (blob : Bytes) : Except Error Reader := do
  match ← unpack [2, 2, 4, 4, 4, 4, 4, 2, 2, 2, 2, 2, 2] (slice blob 16 52) with
  | [_, _, _, _, _, shoff, _, _, _, _, shentsize, shnum, shstrndx] =>
    let sections ← (List.range shnum).mapM (readSection blob shoff shentsize)
    let shstr ← data decompress blob (← getItem sections shstrndx)
    pure ⟨blob, sections, shstr⟩
  | _ => throw .structError

def read (blob : Bytes) : Except Error Reader := do
  checkHeader blob
  readSections decompress blob

def stringAt (table : Bytes) (start : Nat) : Str :=
  decode (sliceUntil table start (find table 0 start))

def Reader.name (r : Reader) (sh : Section) : Str := stringAt r.shstr sh.nameOff

def fimport : Str := ['.', 'f', 'i', 'm', 'p', 'o', 'r', 't', '_']

def dimport : Str := ['.', 'd', 'i', 'm', 'p', 'o', 'r', 't', '_']

def rplSuffix : Str := ['.', 'r', 'p', 'l']

def stripRpl (lib : Str) : Str :=
  if rplSuffix.isSuffixOf lib then lib.take (lib.length - rplSuffix.length) else lib

def libraryOf (name : Str) : Option (Str × Kind) :=
  if fimport.isPrefixOf name then some (stripRpl (name.drop fimport.length), .functions)
  else if dimport.isPrefixOf name then some (stripRpl (name.drop dimport.length), .data)
  else none

def Reader.addKind (r : Reader) (kinds : Dict Nat (Str × Kind)) (sh : Section) :
    Dict Nat (Str × Kind) :=
  if sh.type ≠ shtRplImports then kinds
  else
    match libraryOf (r.name sh) with
    | some library => kinds.set sh.idx library
    | none => kinds

def Reader.kinds (r : Reader) : Dict Nat (Str × Kind) := r.sections.foldl r.addKind .empty

def addReference (sh : Section) (bytes : Bytes) (refs : List (Nat × Nat)) (off : Nat) :
    Except Error (List (Nat × Nat)) := do
  match ← unpack [4, 4, 4] (slice bytes off (off + relaEntrySize)) with
  | [_, info, _] => pure (refs.insert (sh.link, info >>> 8))
  | _ => throw .structError

def Reader.addReferences (r : Reader) (refs : List (Nat × Nat)) (sh : Section) :
    Except Error (List (Nat × Nat)) := do
  if sh.type ≠ shtRela then pure refs
  else
    let bytes ← data decompress r.blob sh
    (rangeBy (bytes.length + 1 - relaEntrySize) relaEntrySize).foldlM (addReference sh bytes) refs

def Reader.referencedSymbols (r : Reader) : Except Error (List (Nat × Nat)) :=
  r.sections.foldlM (r.addReferences decompress) []

-- A reference is a section with a symbol of it.
instance instLawfulBEqReference : LawfulBEq (Nat × Nat) :=
  Prod.instLawfulBEq

def addSymbol (kinds : Dict Nat (Str × Kind)) (refs : Option (List (Nat × Nat))) (sh : Section)
    (symtab strtab : Bytes) (result : Dict Str Entry) (i : Nat) :
    Except Error (Dict Str Entry) := do
  let off := i * symtabEntrySize
  match ← unpack [4, 4, 4, 1, 1, 2] (slice symtab off (off + symtabEntrySize)) with
  | [name, _, _, info, _, shndx] =>
    match kinds.get? shndx with
    | none => pure result
    | some (lib, kind) =>
      -- The import section's own symbol.
      if info &&& 0xF = 3 then pure result
      else if refs.any fun refs => (sh.idx, i) ∉ refs then pure result
      else
        let sym := stringAt strtab name
        if sym = [] ∨ sym.head? = some '.' then pure result
        else pure ((result.setDefault lib .empty).adjust lib (Entry.append kind sym))
  | _ => throw .structError

def Reader.addSymbols (r : Reader) (kinds : Dict Nat (Str × Kind))
    (refs : Option (List (Nat × Nat))) (result : Dict Str Entry) (sh : Section) :
    Except Error (Dict Str Entry) := do
  if sh.type ≠ shtSymtab then pure result
  else
    let symtab ← data decompress r.blob sh
    let strtab ← data decompress r.blob (← getItem r.sections sh.link)
    (List.range (symtab.length / symtabEntrySize)).foldlM
      (addSymbol kinds refs sh symtab strtab) result

def Reader.imports (r : Reader) (referencedOnly : Bool) : Except Error (Dict Str Entry) := do
  if r.kinds.isEmpty then pure .empty
  else
    let refs ←
      if referencedOnly then some <$> r.referencedSymbols decompress else pure none
    let result ← r.sections.foldlM (r.addSymbols decompress r.kinds refs) .empty
    pure (result.mapEntries fun _ entry => entry.sorted)

end Decompress

end CoreinitNx.Rpx
