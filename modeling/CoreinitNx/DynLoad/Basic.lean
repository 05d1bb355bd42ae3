import Mathlib.Logic.Function.Basic
import CoreinitNx.Library.Search

namespace CoreinitNx.DynLoad

open Search

-- A string of the guest or of the program, up to its end.
abbrev CString := List UInt8

abbrev Pointer := UInt64

inductive ExportKind where
  | function
  | data
deriving DecidableEq, Repr

-- The addresses are those of the library's own functions and variables.
structure ExportedSymbol where
  library : CString
  name : CString
  address : Pointer
  kind : ExportKind
  address_ne_null : address ≠ 0
deriving DecidableEq, Repr

abbrev ExportTable := List ExportedSymbol

def findExportOfKind (exports : ExportTable) (library name : CString) (kind : ExportKind) :
    Pointer :=
  match exports.find? fun e => e.kind = kind ∧ e.library = library ∧ e.name = name with
  | some e => e.address
  | none => 0

def hasLibrary (exports : ExportTable) (library : CString) : Bool :=
  exports.any fun e => e.library = library

inductive OSDynLoadError where
  | ok
  | outOfMemory
  | invalidModuleNamePtr
  | invalidAcquirePtr
  | emptyModuleName
  | moduleNotFound
deriving DecidableEq, Repr

structure LoadedModule where
  name : CString
  refCount : UInt32
  used : Bool
deriving DecidableEq, Repr

def kMaxModules : Nat := 16

abbrev Modules := Vector LoadedModule kMaxModules

def Modules.start : Modules := .replicate _ ⟨[], 0, false⟩

-- A pointer to the `n`th slot of the table, which has such slots for `n` below 16; or null.
abbrev OSDynLoadModule := Option Nat

def asModule (modules : Modules) (module : OSDynLoadModule) : Option (Nat × LoadedModule) :=
  match module with
  | none => none
  | some i =>
    match modules[i]? with
    | none => none
    | some m => if m.used then some (i, m) else none

def rpl : CString := ascii ".rpl"

-- What `snprintf` leaves in 64 bytes.
def copied (text : CString) : CString := text.take 63

def baseName (name : CString) : CString := cutAt rpl (copied name)

def Modules.holding (modules : Modules) (base : CString) : Option Nat :=
  modules.toList.findIdx? fun m => m.used ∧ m.name = base

def Modules.firstFree (modules : Modules) : Option Nat := modules.toList.findIdx? (!·.used)

def Modules.update (modules : Modules) (i : Nat) (f : LoadedModule → LoadedModule) : Modules :=
  match modules[i]? with
  | some m => modules.setIfInBounds i (f m)
  | none => modules

-- The error, what is stored in `*outModule` if anything is, and the table.
def osDynLoadAcquire (exports : ExportTable) (modules : Modules) (name : Option CString)
    (outModule : Pointer) : OSDynLoadError × Option OSDynLoadModule × Modules :=
  if outModule = 0 then (.invalidAcquirePtr, none, modules)
  else
    match name with
    | none => (.invalidModuleNamePtr, some none, modules)
    | some [] => (.emptyModuleName, some none, modules)
    | some name =>
      let base := baseName name
      if ¬hasLibrary exports base then (.moduleNotFound, some none, modules)
      else
        match modules.holding base with
        | some i =>
          (.ok, some (some i), modules.update i fun m => { m with refCount := m.refCount + 1 })
        | none =>
          match modules.firstFree with
          | some i => (.ok, some (some i), modules.setIfInBounds i ⟨copied base, 1, true⟩)
          | none => (.outOfMemory, some none, modules)

def osDynLoadExportData : UInt32 := 1

def exportKind (exportType : UInt32) : ExportKind :=
  if exportType = osDynLoadExportData then .data else .function

-- The error, and what is stored in `*outAddr` if anything is.
def osDynLoadFindExport (exports : ExportTable) (modules : Modules) (module : OSDynLoadModule)
    (exportType : UInt32) (name : Option CString) (outAddr : Pointer) :
    OSDynLoadError × Option Pointer :=
  if outAddr = 0 then (.invalidAcquirePtr, none)
  else
    match name with
    | none => (.invalidModuleNamePtr, some 0)
    | some name =>
      match asModule modules module with
      | none => (.moduleNotFound, some 0)
      | some (_, m) =>
        let addr := findExportOfKind exports m.name name (exportKind exportType)
        if addr = 0 then (.moduleNotFound, some 0) else (.ok, some addr)

def osDynLoadRelease (modules : Modules) (module : OSDynLoadModule) : Modules :=
  match asModule modules module with
  | none => modules
  | some (i, m) =>
    if m.refCount > 0 then
      let refCount := m.refCount - 1
      modules.setIfInBounds i { m with refCount, used := refCount ≠ 0 }
    else modules

end CoreinitNx.DynLoad
