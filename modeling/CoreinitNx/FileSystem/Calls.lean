import CoreinitNx.FileSystem.Basic

namespace CoreinitNx.FileSystem

open SlotTable

variable {σ : Type} (H : Host σ)

def coreinitNxAddVolumeMapping (wiiuPrefix hostPrefix : Option CString) (s : State σ) : State σ :=
  match wiiuPrefix, hostPrefix with
  | some wiiu, some host => { s with mappings := s.mappings ++ [⟨wiiu, host⟩] }
  | _, _ => s

def coreinitNxClearVolumeMappings (s : State σ) : State σ := { s with mappings := [] }

def closeFiles (s : State σ) : State σ :=
  { s with
    host := s.files.foldl (fun host f => if f.used ∧ f.object ≠ 0 then H.fclose host f.object else host)
      s.host
    fileLog := s.fileLog ++ s.files.flatMap sweepUses
    files := []
    clients := 0 }

def closeDirs (s : State σ) : State σ :=
  { s with
    host := s.dirs.foldl (fun host d => if d.used ∧ d.object ≠ 0 then H.closedir host d.object else host)
      s.host
    dirLog := s.dirLog ++ s.dirs.flatMap sweepUses
    dirs := []
    clientState := ∅ }

-- The files are closed under the lock, the directories after it is given up.
def fsShutdown (s : State σ) : State σ := closeDirs H (closeFiles H s)

def fsAddClient (client : FSClient) (s : State σ) : Answer × State σ :=
  if client = 0 then (answer FSStatus.fatalError, s)
  else (answer FSStatus.ok, { s with clients := s.clients + 1 })

def fsDelClient (client : FSClient) (s : State σ) : Answer × State σ :=
  if client = 0 then (answer FSStatus.fatalError, s)
  else
    (answer FSStatus.ok, { s with clients := if s.clients = 0 then 0 else s.clients - 1 })

def fsGetClientNum (s : State σ) : UInt32 := s.clients

def fsOpenFile (client : FSClient) (path mode : Option CString) (handle : Pointer) (s : State σ) :
    Answer × State σ :=
  match path, mode with
  | some path, some mode =>
    if handle = 0 then (answer FSStatus.fatalError, s)
    else
      let hostPath := translate s client path
      let (fp, host) := H.fopen s.host hostPath mode
      let s := { s with host }
      if fp = 0 then
        let why := if H.isDirectory host hostPath then FSStatus.notFile else FSStatus.notFound
        (answer why, record client why s)
      else
        let (slot, files) := store s.files fp
        let s := { s with files, fileLog := s.fileLog ++ [.opened slot fp] }
        (answerWith FSStatus.ok (.handle slot), record client FSStatus.ok s)
  | _, _ => (answer FSStatus.fatalError, s)

def fsCloseFile (handle : FSFileHandle) (s : State σ) : Answer × State σ :=
  match fileFor s handle with
  | none => (answer FSStatus.fatalError, s)
  | some f =>
    let s :=
      if f.object = 0 then s
      else { s with host := H.fclose s.host f.object, fileLog := s.fileLog ++ [.closed f.object] }
    (answer FSStatus.ok, { s with files := release s.files handle })

def fsReadFile (buffer : Pointer) (size count : UInt32) (handle : FSFileHandle) (s : State σ) :
    Answer × State σ :=
  if buffer = 0 ∨ size = 0 then (answer FSStatus.fatalError, s)
  else
    match fileFor s handle with
    | none => (answer FSStatus.fatalError, s)
    | some f =>
      let (read, bytes, host) := H.fread s.host f.object size count
      (answerWith read.toUInt32.toInt32 (.data bytes), { s with host })

def fsReadFileWithPos (buffer : Pointer) (size count pos : UInt32) (handle : FSFileHandle)
    (s : State σ) : Answer × State σ :=
  match fileFor s handle with
  | none => (answer FSStatus.fatalError, s)
  | some f =>
    let (moved, host) := H.fseek s.host f.object pos.toUInt64.toInt64 .set
    let s := { s with host }
    if moved then fsReadFile H buffer size count handle s else (answer FSStatus.fatalError, s)

def fsGetPosFile (handle : FSFileHandle) (pos : Pointer) (s : State σ) : Answer × State σ :=
  if pos = 0 then (answer FSStatus.fatalError, s)
  else
    match fileFor s handle with
    | none => (answer FSStatus.fatalError, s)
    | some f =>
      let p := H.ftell s.host f.object
      if p < 0 then (answer FSStatus.fatalError, s)
      else (answerWith FSStatus.ok (.position p.toUInt64.toUInt32), s)

def fsSetPosFile (handle : FSFileHandle) (pos : UInt32) (s : State σ) : Answer × State σ :=
  match fileFor s handle with
  | none => (answer FSStatus.fatalError, s)
  | some f =>
    let (moved, host) := H.fseek s.host f.object pos.toUInt64.toInt64 .set
    (answer (if moved then FSStatus.ok else FSStatus.fatalError), { s with host })

def fsGetStatFile (handle : FSFileHandle) (stat : Pointer) (s : State σ) : Answer × State σ :=
  if stat = 0 then (answer FSStatus.fatalError, s)
  else
    match fileFor s handle with
    | none => (answer FSStatus.fatalError, s)
    | some f =>
      let here := H.ftell s.host f.object
      if here < 0 then (answer FSStatus.fatalError, s)
      else
        let (moved, host) := H.fseek s.host f.object 0 .end
        let s := { s with host }
        if moved then
          let last := H.ftell s.host f.object
          let s := { s with host := (H.fseek s.host f.object here .set).2 }
          if last < 0 then (answer FSStatus.fatalError, s)
          else
            let size := last.toUInt64.toUInt32
            (answerWith FSStatus.ok (.stat size size), s)
        else (answer FSStatus.fatalError, s)

def fsWriteFile (buffer : Option (List UInt8)) (size count : UInt32) (handle : FSFileHandle)
    (s : State σ) : Answer × State σ :=
  match buffer with
  | none => (answer FSStatus.fatalError, s)
  | some bytes =>
    if size = 0 then (answer FSStatus.fatalError, s)
    else
      match fileFor s handle with
      | none => (answer FSStatus.fatalError, s)
      | some f =>
        let (written, host) := H.fwrite s.host f.object bytes size count
        (answer written.toUInt32.toInt32, { s with host })

def fsChangeDir (client : FSClient) (path : Option CString) (s : State σ) : Answer × State σ :=
  match path with
  | none => (answer FSStatus.fatalError, s)
  | some path =>
    if client = 0 then (answer FSStatus.fatalError, s)
    else
      (answer FSStatus.ok,
        { s with clientState := s.clientState.insert client { s.client client with cwd := path } })

def fsGetCwd (client : FSClient) (returnedPath : Pointer) (bytes : UInt32) (s : State σ) :
    Answer × State σ :=
  if client = 0 ∨ returnedPath = 0 ∨ bytes = 0 then (answer FSStatus.fatalError, s)
  else
    let state := s.client client
    (answerWith FSStatus.ok (.cwd (state.cwd.take (bytes.toNat - 1))),
      { s with clientState := s.clientState.insert client state })

def fsOpenDir (client : FSClient) (path : Option CString) (handle : Pointer) (s : State σ) :
    Answer × State σ :=
  match path with
  | none => (answer FSStatus.fatalError, s)
  | some path =>
    if handle = 0 then (answer FSStatus.fatalError, s)
    else
      let (dp, host) := H.opendir s.host (translate s client path)
      let s := { s with host }
      if dp = 0 then (answer FSStatus.notFound, record client FSStatus.notFound s)
      else
        let (slot, dirs) := store s.dirs dp
        (answerWith FSStatus.ok (.handle slot),
          { s with dirs, dirLog := s.dirLog ++ [.opened slot dp] })

def fsReadDir (handle : FSDirectoryHandle) (entry : Pointer) (s : State σ) : Answer × State σ :=
  if entry = 0 then (answer FSStatus.fatalError, s)
  else
    match dirFor s handle with
    | none => (answer FSStatus.fatalError, s)
    | some d =>
      let (e, host) := H.readdir s.host d.object
      let s := { s with host }
      match e with
      | none => (answer FSStatus.end, s)
      | some name => (answerWith FSStatus.ok (.entry (name.take 255)), s)

def fsCloseDir (handle : FSDirectoryHandle) (s : State σ) : Answer × State σ :=
  match dirFor s handle with
  | none => (answer FSStatus.fatalError, s)
  | some d =>
    let s :=
      if d.object = 0 then s
      else { s with host := H.closedir s.host d.object, dirLog := s.dirLog ++ [.closed d.object] }
    (answer FSStatus.ok, { s with dirs := release s.dirs handle })

def fsMakeDir (client : FSClient) (path : Option CString) (s : State σ) : Answer × State σ :=
  match path with
  | none => (answer FSStatus.fatalError, s)
  | some path =>
    let (made, host) := H.mkdir s.host (translate s client path)
    (answer (if made then FSStatus.ok else FSStatus.fatalError), { s with host })

def fsRemove (client : FSClient) (path : Option CString) (s : State σ) : Answer × State σ :=
  match path with
  | none => (answer FSStatus.fatalError, s)
  | some path =>
    let hostPath := translate s client path
    let (removed, host) := H.remove s.host hostPath
    if removed then (answer FSStatus.ok, record client FSStatus.ok { s with host })
    else
      let (removed, host) := H.rmdir host hostPath
      let why := if removed then FSStatus.ok else FSStatus.notFound
      (answer why, record client why { s with host })

def fsRename (client : FSClient) (oldPath newPath : Option CString) (s : State σ) :
    Answer × State σ :=
  match oldPath, newPath with
  | some oldPath, some newPath =>
    let (renamed, host) := H.rename s.host (translate s client oldPath) (translate s client newPath)
    let why := if renamed then FSStatus.ok else FSStatus.fatalError
    (answer why, record client why { s with host })
  | _, _ => (answer FSStatus.fatalError, s)

def fsGetLastError (client : FSClient) (s : State σ) : FSError :=
  if client = 0 then .invalidClientHandle
  else
    match s.clientState[client]? with
    | some state => state.lastError
    | none => .ok

def fsGetLastErrorCodeForViewer (client : FSClient) (s : State σ) : FSError :=
  fsGetLastError client s

def fsGetMountSource (client : FSClient) (type : UInt8) (out : Pointer) (s : State σ) :
    Answer × State σ :=
  if out = 0 then (answer FSStatus.fatalError, record client FSStatus.fatalError s)
  else (answerWith FSStatus.ok (.mountSource type), record client FSStatus.ok s)

-- Whatever the source is, the root of the host is mounted.
def fsMount (client : FSClient) (source : Option UInt8) (target : Option CString) (s : State σ) :
    Answer × State σ :=
  match source, target with
  | some _, some target =>
    (answer FSStatus.ok,
      record client FSStatus.ok (coreinitNxAddVolumeMapping (some target) (some [slash]) s))
  | _, _ => (answer FSStatus.fatalError, record client FSStatus.fatalError s)

structure FSAsyncData where
  callback : Pointer
  param : UInt64
deriving DecidableEq, Repr

-- The operation is done already when the callback is started.
def completeAsync (client : FSClient) (block : FSCmdBlock) (asyncData : Option FSAsyncData)
    (result : Answer × State σ) : Answer × State σ :=
  match asyncData with
  | some data =>
    if data.callback = 0 then result
    else
      ({ result.1 with
          notified := some ⟨data.callback, client, block, result.1.status, data.param.toUInt32⟩ },
        result.2)
  | none => result

@[simp] theorem completeAsync_status {client : FSClient} {block : FSCmdBlock}
    {asyncData : Option FSAsyncData} {result : Answer × State σ} :
    (completeAsync client block asyncData result).1.status = result.1.status := by
  cases asyncData with
  | none => rfl
  | some data =>
    rw [completeAsync]
    split <;> rfl

@[simp] theorem completeAsync_out {client : FSClient} {block : FSCmdBlock}
    {asyncData : Option FSAsyncData} {result : Answer × State σ} :
    (completeAsync client block asyncData result).1.out = result.1.out := by
  cases asyncData with
  | none => rfl
  | some data =>
    rw [completeAsync]
    split <;> rfl

@[simp] theorem completeAsync_state {client : FSClient} {block : FSCmdBlock}
    {asyncData : Option FSAsyncData} {result : Answer × State σ} :
    (completeAsync client block asyncData result).2 = result.2 := by
  cases asyncData with
  | none => rfl
  | some data =>
    rw [completeAsync]
    split <;> rfl

def fsOpenFileAsync (client : FSClient) (block : FSCmdBlock) (path mode : Option CString)
    (outHandle : Pointer) (asyncData : Option FSAsyncData) (s : State σ) : Answer × State σ :=
  completeAsync client block asyncData (fsOpenFile H client path mode outHandle s)

def fsCloseFileAsync (client : FSClient) (block : FSCmdBlock) (handle : FSFileHandle)
    (asyncData : Option FSAsyncData) (s : State σ) : Answer × State σ :=
  completeAsync client block asyncData (fsCloseFile H handle s)

def fsReadFileWithPosAsync (client : FSClient) (block : FSCmdBlock) (buffer : Pointer)
    (size count pos : UInt32) (handle : FSFileHandle) (asyncData : Option FSAsyncData)
    (s : State σ) : Answer × State σ :=
  completeAsync client block asyncData (fsReadFileWithPos H buffer size count pos handle s)

def fsWriteFileWithPosAsync (client : FSClient) (block : FSCmdBlock) (buffer : Option (List UInt8))
    (size count pos : UInt32) (handle : FSFileHandle) (asyncData : Option FSAsyncData)
    (s : State σ) : Answer × State σ :=
  match fileFor s handle with
  | none => completeAsync client block asyncData (answer FSStatus.fatalError, s)
  | some f =>
    let (moved, host) := H.fseek s.host f.object pos.toUInt64.toInt64 .set
    let s := { s with host }
    if moved then completeAsync client block asyncData (fsWriteFile H buffer size count handle s)
    else completeAsync client block asyncData (answer FSStatus.fatalError, s)

def fsGetStatFileAsync (client : FSClient) (block : FSCmdBlock) (handle : FSFileHandle)
    (stat : Pointer) (asyncData : Option FSAsyncData) (s : State σ) : Answer × State σ :=
  completeAsync client block asyncData (fsGetStatFile H handle stat s)

def fsOpenDirAsync (client : FSClient) (block : FSCmdBlock) (path : Option CString)
    (handle : Pointer) (asyncData : Option FSAsyncData) (s : State σ) : Answer × State σ :=
  completeAsync client block asyncData (fsOpenDir H client path handle s)

def fsReadDirAsync (client : FSClient) (block : FSCmdBlock) (handle : FSDirectoryHandle)
    (entry : Pointer) (asyncData : Option FSAsyncData) (s : State σ) : Answer × State σ :=
  completeAsync client block asyncData (fsReadDir H handle entry s)

def fsCloseDirAsync (client : FSClient) (block : FSCmdBlock) (handle : FSDirectoryHandle)
    (asyncData : Option FSAsyncData) (s : State σ) : Answer × State σ :=
  completeAsync client block asyncData (fsCloseDir H handle s)

-- The calls that answer a status, each made by a client.
inductive Op where
  | addClient
  | delClient
  | openFile (path mode : Option CString) (handle : Pointer)
  | closeFile (handle : FSFileHandle)
  | readFile (buffer : Pointer) (size count : UInt32) (handle : FSFileHandle)
  | readFileWithPos (buffer : Pointer) (size count pos : UInt32) (handle : FSFileHandle)
  | getPosFile (handle : FSFileHandle) (pos : Pointer)
  | setPosFile (handle : FSFileHandle) (pos : UInt32)
  | getStatFile (handle : FSFileHandle) (stat : Pointer)
  | writeFile (buffer : Option (List UInt8)) (size count : UInt32) (handle : FSFileHandle)
  | changeDir (path : Option CString)
  | getCwd (returnedPath : Pointer) (bytes : UInt32)
  | openDir (path : Option CString) (handle : Pointer)
  | readDir (handle : FSDirectoryHandle) (entry : Pointer)
  | closeDir (handle : FSDirectoryHandle)
  | makeDir (path : Option CString)
  | remove (path : Option CString)
  | rename (oldPath newPath : Option CString)
  | getMountSource (type : UInt8) (out : Pointer)
  | mount (source : Option UInt8) (target : Option CString)
  | openFileAsync (block : FSCmdBlock) (path mode : Option CString) (outHandle : Pointer)
      (asyncData : Option FSAsyncData)
  | closeFileAsync (block : FSCmdBlock) (handle : FSFileHandle) (asyncData : Option FSAsyncData)
  | readFileWithPosAsync (block : FSCmdBlock) (buffer : Pointer) (size count pos : UInt32)
      (handle : FSFileHandle) (asyncData : Option FSAsyncData)
  | writeFileWithPosAsync (block : FSCmdBlock) (buffer : Option (List UInt8))
      (size count pos : UInt32) (handle : FSFileHandle) (asyncData : Option FSAsyncData)
  | getStatFileAsync (block : FSCmdBlock) (handle : FSFileHandle) (stat : Pointer)
      (asyncData : Option FSAsyncData)
  | openDirAsync (block : FSCmdBlock) (path : Option CString) (handle : Pointer)
      (asyncData : Option FSAsyncData)
  | readDirAsync (block : FSCmdBlock) (handle : FSDirectoryHandle) (entry : Pointer)
      (asyncData : Option FSAsyncData)
  | closeDirAsync (block : FSCmdBlock) (handle : FSDirectoryHandle)
      (asyncData : Option FSAsyncData)
deriving DecidableEq, Repr

def call (client : FSClient) : Op → State σ → Answer × State σ
  | .addClient, s => fsAddClient client s
  | .delClient, s => fsDelClient client s
  | .openFile path mode handle, s => fsOpenFile H client path mode handle s
  | .closeFile handle, s => fsCloseFile H handle s
  | .readFile buffer size count handle, s => fsReadFile H buffer size count handle s
  | .readFileWithPos buffer size count pos handle, s =>
    fsReadFileWithPos H buffer size count pos handle s
  | .getPosFile handle pos, s => fsGetPosFile H handle pos s
  | .setPosFile handle pos, s => fsSetPosFile H handle pos s
  | .getStatFile handle stat, s => fsGetStatFile H handle stat s
  | .writeFile buffer size count handle, s => fsWriteFile H buffer size count handle s
  | .changeDir path, s => fsChangeDir client path s
  | .getCwd returnedPath bytes, s => fsGetCwd client returnedPath bytes s
  | .openDir path handle, s => fsOpenDir H client path handle s
  | .readDir handle entry, s => fsReadDir H handle entry s
  | .closeDir handle, s => fsCloseDir H handle s
  | .makeDir path, s => fsMakeDir H client path s
  | .remove path, s => fsRemove H client path s
  | .rename oldPath newPath, s => fsRename H client oldPath newPath s
  | .getMountSource type out, s => fsGetMountSource client type out s
  | .mount source target, s => fsMount client source target s
  | .openFileAsync block path mode outHandle asyncData, s =>
    fsOpenFileAsync H client block path mode outHandle asyncData s
  | .closeFileAsync block handle asyncData, s => fsCloseFileAsync H client block handle asyncData s
  | .readFileWithPosAsync block buffer size count pos handle asyncData, s =>
    fsReadFileWithPosAsync H client block buffer size count pos handle asyncData s
  | .writeFileWithPosAsync block buffer size count pos handle asyncData, s =>
    fsWriteFileWithPosAsync H client block buffer size count pos handle asyncData s
  | .getStatFileAsync block handle stat asyncData, s =>
    fsGetStatFileAsync H client block handle stat asyncData s
  | .openDirAsync block path handle asyncData, s =>
    fsOpenDirAsync H client block path handle asyncData s
  | .readDirAsync block handle entry asyncData, s =>
    fsReadDirAsync H client block handle entry asyncData s
  | .closeDirAsync block handle asyncData, s => fsCloseDirAsync H client block handle asyncData s

end CoreinitNx.FileSystem
