import Std.Data.TreeMap.Basic
import CoreinitNx.Library.SlotTable

namespace CoreinitNx.FileSystem

open SlotTable

-- A `char *` without its terminating NUL.
abbrev CString := List UInt8

-- Pointers of the guest and of the C library; `0` is the null one.
abbrev FSClient := UInt64
abbrev FSCmdBlock := UInt64
abbrev Pointer := UInt64
abbrev FILE := UInt64
abbrev DIR := UInt64

abbrev FSFileHandle := UInt32
abbrev FSDirectoryHandle := UInt32

-- The read and write calls answer a count in the same type.
abbrev FSStatus := Int32

namespace FSStatus

def ok : FSStatus := 0
def «end» : FSStatus := -2
def exists' : FSStatus := -5
def notFound : FSStatus := -6
def notFile : FSStatus := -7
def accessError : FSStatus := -9
def permissionError : FSStatus := -10
def storageFull : FSStatus := -12
def fatalError : FSStatus := -0x400

end FSStatus

inductive FSError where
  | ok
  | endOfFile
  | alreadyExists
  | notFound
  | accessError
  | permissionError
  | storageFull
  | invalidClientHandle
  | mediaError
deriving DecidableEq, Repr

def statusToError (s : FSStatus) : FSError :=
  if s = FSStatus.ok then .ok
  else if s = FSStatus.end then .endOfFile
  else if s = FSStatus.notFound then .notFound
  else if s = FSStatus.exists' then .alreadyExists
  else if s = FSStatus.permissionError then .permissionError
  else if s = FSStatus.accessError then .accessError
  else if s = FSStatus.storageFull then .storageFull
  else .mediaError

abbrev HostFile := Slot FILE
abbrev HostDir := Slot DIR

structure Mapping where
  wiiu : CString
  host : CString
deriving DecidableEq, Repr

structure HostClient where
  cwd : CString
  lastError : FSError
deriving DecidableEq, Repr

def HostClient.fresh : HostClient := ⟨[], .ok⟩

inductive Whence where
  | set
  | end
deriving DecidableEq, Repr

-- The C library and the file system under it, over states `σ` of their own.
structure Host (σ : Type) where
  fopen : σ → CString → CString → FILE × σ
  isDirectory : σ → CString → Bool
  fclose : σ → FILE → σ
  fread : σ → FILE → UInt32 → UInt32 → UInt64 × List UInt8 × σ
  fwrite : σ → FILE → List UInt8 → UInt32 → UInt32 → UInt64 × σ
  fseek : σ → FILE → Int64 → Whence → Bool × σ
  ftell : σ → FILE → Int64
  opendir : σ → CString → DIR × σ
  readdir : σ → DIR → Option CString × σ
  closedir : σ → DIR → σ
  mkdir : σ → CString → Bool × σ
  remove : σ → CString → Bool × σ
  rmdir : σ → CString → Bool × σ
  rename : σ → CString → CString → Bool × σ

-- `fileLog` and `dirLog` are no data of the program: they list its `fopen`, `fclose`, `opendir` and
-- `closedir` calls that came to something.
structure State (σ : Type) where
  mappings : List Mapping
  clientState : Std.TreeMap FSClient HostClient
  files : List HostFile
  dirs : List HostDir
  clients : UInt32
  host : σ
  fileLog : List (Use FILE)
  dirLog : List (Use DIR)

variable {σ : Type}

def State.initial (host : σ) : State σ := ⟨[], ∅, [], [], 0, host, [], []⟩

-- `g_clientState[client]`, which inserts a fresh record where there is none.
def State.client (s : State σ) (client : FSClient) : HostClient :=
  s.clientState[client]?.getD HostClient.fresh

def record (client : FSClient) (status : FSStatus) (s : State σ) : State σ :=
  if client = 0 then s
  else
    { s with
      clientState := s.clientState.insert client
        { s.client client with lastError := statusToError status } }

def slash : UInt8 := 0x2F

-- A relative path goes behind the client's directory, where it has one.
def resolve (s : State σ) (client : FSClient) (path : CString) : CString :=
  match path with
  | [] => []
  | c :: _ =>
    if c = slash then path
    else
      match s.clientState[client]? with
      | some state =>
        if state.cwd = [] then path
        else if state.cwd.getLast? = some slash then state.cwd ++ path
        else state.cwd ++ slash :: path
      | none => path

def applyMappings (mappings : List Mapping) (path : CString) : CString :=
  match mappings with
  | [] => path
  | m :: rest =>
    if m.wiiu.isPrefixOf path then m.host ++ path.drop m.wiiu.length else applyMappings rest path

def translate (s : State σ) (client : FSClient) (path : CString) : CString :=
  applyMappings s.mappings (resolve s client path)

def fileFor (s : State σ) (handle : FSFileHandle) : Option HostFile := slotFor s.files handle

def dirFor (s : State σ) (handle : FSDirectoryHandle) : Option HostDir := slotFor s.dirs handle

-- What a call writes through its pointers.
inductive Out where
  | nothing
  | handle (handle : UInt32)
  | data (bytes : List UInt8)
  | position (pos : UInt32)
  | stat (size allocSize : UInt32)
  | cwd (path : CString)
  | entry (name : CString)
  | mountSource (type : UInt8)
deriving DecidableEq, Repr

-- A callback started before the call returns, with its status and parameter.
structure Notification where
  callback : Pointer
  client : FSClient
  block : FSCmdBlock
  result : FSStatus
  param : UInt32
deriving DecidableEq, Repr

structure Answer where
  status : FSStatus
  out : Out
  notified : Option Notification
deriving DecidableEq, Repr

def answer (status : FSStatus) : Answer := ⟨status, .nothing, none⟩

def answerWith (status : FSStatus) (out : Out) : Answer := ⟨status, out, none⟩

end CoreinitNx.FileSystem
