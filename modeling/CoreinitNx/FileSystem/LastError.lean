import CoreinitNx.FileSystem.Calls

namespace CoreinitNx.FileSystem

open SlotTable

variable {σ : Type} {H : Host σ} {client : FSClient} {s s' : State σ} {status : FSStatus}

-- What the client's last error has to be for an answer; a count is no outcome.
def statusError (status : FSStatus) : Option FSError :=
  if 0 < status then none else some (statusToError status)

def Reports (H : Host σ) (client : FSClient) (op : Op) (s : State σ) : Prop :=
  ∀ error, statusError (call H client op s).1.status = some error →
    fsGetLastError client (call H client op s).2 = error

section Conditions

variable (H : Host σ) (s : State σ)

-- The paths on which a call hands its status to `record`.
def Records (client : FSClient) : Op → Prop
  | .openFile path mode handle => path.isSome ∧ mode.isSome ∧ handle ≠ 0
  | .openFileAsync _ path mode handle _ => path.isSome ∧ mode.isSome ∧ handle ≠ 0
  | .openDir path handle =>
    ∃ p, path = some p ∧ handle ≠ 0 ∧ (H.opendir s.host (translate s client p)).1 = 0
  | .openDirAsync _ path handle _ =>
    ∃ p, path = some p ∧ handle ≠ 0 ∧ (H.opendir s.host (translate s client p)).1 = 0
  | .remove path => path.isSome
  | .rename oldPath newPath => oldPath.isSome ∧ newPath.isSome
  | .getMountSource _ _ => True
  | .mount _ _ => True
  | _ => False

def okIf (p : Prop) [Decidable p] : FSError := if p then .ok else .mediaError

def readError (host : σ) (buffer : Pointer) (size count : UInt32) (handle : FSFileHandle) :
    Option FSError :=
  if buffer = 0 ∨ size = 0 then some .mediaError
  else
    match fileFor s handle with
    | none => some .mediaError
    | some f => statusError (H.fread host f.object size count).1.toUInt32.toInt32

def readWithPosError (buffer : Pointer) (size count pos : UInt32) (handle : FSFileHandle) :
    Option FSError :=
  match fileFor s handle with
  | none => some .mediaError
  | some f =>
    let (moved, host) := H.fseek s.host f.object pos.toUInt64.toInt64 .set
    if moved then readError H s host buffer size count handle else some .mediaError

def writeError (host : σ) (buffer : Option (List UInt8)) (size count : UInt32)
    (handle : FSFileHandle) : Option FSError :=
  match buffer with
  | none => some .mediaError
  | some bytes =>
    if size = 0 then some .mediaError
    else
      match fileFor s handle with
      | none => some .mediaError
      | some f => statusError (H.fwrite host f.object bytes size count).1.toUInt32.toInt32

def writeWithPosError (buffer : Option (List UInt8)) (size count pos : UInt32)
    (handle : FSFileHandle) : Option FSError :=
  match fileFor s handle with
  | none => some .mediaError
  | some f =>
    let (moved, host) := H.fseek s.host f.object pos.toUInt64.toInt64 .set
    if moved then writeError H s host buffer size count handle else some .mediaError

def statError (handle : FSFileHandle) (stat : Pointer) : FSError :=
  if stat = 0 then .mediaError
  else
    match fileFor s handle with
    | none => .mediaError
    | some f =>
      let (moved, host) := H.fseek s.host f.object 0 .end
      okIf (¬H.ftell s.host f.object < 0 ∧ moved ∧ ¬H.ftell host f.object < 0)

def readDirError (handle : FSDirectoryHandle) (entry : Pointer) : FSError :=
  if entry = 0 then .mediaError
  else
    match dirFor s handle with
    | none => .mediaError
    | some d => if (H.readdir s.host d.object).1.isSome then .ok else .endOfFile

-- What the arguments, the tables and the host make of a call that records nothing.
def dueError (client : FSClient) : Op → Option FSError
  | .addClient => some .ok
  | .delClient => some .ok
  | .closeFile handle => some (okIf (fileFor s handle).isSome)
  | .closeFileAsync _ handle _ => some (okIf (fileFor s handle).isSome)
  | .readFile buffer size count handle => readError H s s.host buffer size count handle
  | .readFileWithPos buffer size count pos handle => readWithPosError H s buffer size count pos handle
  | .readFileWithPosAsync _ buffer size count pos handle _ =>
    readWithPosError H s buffer size count pos handle
  | .getPosFile handle pos =>
    some (okIf (pos ≠ 0 ∧ (fileFor s handle).any fun f => ¬H.ftell s.host f.object < 0))
  | .setPosFile handle pos =>
    some (okIf ((fileFor s handle).any fun f =>
      (H.fseek s.host f.object pos.toUInt64.toInt64 .set).1))
  | .getStatFile handle stat => some (statError H s handle stat)
  | .getStatFileAsync _ handle stat _ => some (statError H s handle stat)
  | .writeFile buffer size count handle => writeError H s s.host buffer size count handle
  | .writeFileWithPosAsync _ buffer size count pos handle _ =>
    writeWithPosError H s buffer size count pos handle
  | .changeDir path => some (okIf path.isSome)
  | .getCwd returnedPath bytes => some (okIf (returnedPath ≠ 0 ∧ bytes ≠ 0))
  | .openDir path handle => some (okIf (path.isSome ∧ handle ≠ 0))
  | .openDirAsync _ path handle _ => some (okIf (path.isSome ∧ handle ≠ 0))
  | .readDir handle entry => some (readDirError H s handle entry)
  | .readDirAsync _ handle entry _ => some (readDirError H s handle entry)
  | .closeDir handle => some (okIf (dirFor s handle).isSome)
  | .closeDirAsync _ handle _ => some (okIf (dirFor s handle).isSome)
  | .makeDir path =>
    some (okIf (path.any fun p => (H.mkdir s.host (translate s client p)).1))
  | .openFile _ _ _ | .openFileAsync _ _ _ _ _ | .remove _ | .rename _ _ | .getMountSource _ _
  | .mount _ _ => some .mediaError

def Meets (client : FSClient) (op : Op) : Prop :=
  Records H s client op ∨ ∀ error, dueError H s client op = some error →
    fsGetLastError client s = error

end Conditions

theorem statusError_ok : statusError FSStatus.ok = some .ok := by decide

theorem statusError_fatalError : statusError FSStatus.fatalError = some .mediaError := by decide

theorem statusError_end : statusError FSStatus.end = some .endOfFile := by decide

theorem fsGetLastError_congr (h : s'.clientState = s.clientState) :
    fsGetLastError client s' = fsGetLastError client s := by
  rw [fsGetLastError, fsGetLastError, h]

theorem fsGetLastError_eq (hclient : client ≠ 0) :
    fsGetLastError client s = (s.client client).lastError := by
  rw [fsGetLastError, if_neg hclient, State.client]
  cases s.clientState[client]? with
  | none => rfl
  | some state => rfl

theorem client_insert {state : HostClient} :
    State.client { s with clientState := s.clientState.insert client state } client = state := by
  rw [State.client, Std.TreeMap.getElem?_insert_self]
  rfl

theorem fsGetLastError_record (hclient : client ≠ 0) :
    fsGetLastError client (record client status s) = statusToError status := by
  rw [fsGetLastError_eq hclient, record, if_neg hclient, client_insert]

-- A call that leaves the client states alone and answers as `dueError` says.
structure Silent (client : FSClient) (error : Option FSError) (s : State σ)
    (result : Answer × State σ) : Prop where
  last : fsGetLastError client result.2 = fsGetLastError client s
  outcome : statusError result.1.status = error

theorem silent_answer {error : Option FSError} (h : s'.clientState = s.clientState)
    (herror : statusError status = error) : Silent client error s (answer status, s') :=
  ⟨fsGetLastError_congr h, herror⟩

theorem silent_answerWith {error : Option FSError} {out : Out}
    (h : s'.clientState = s.clientState) (herror : statusError status = error) :
    Silent client error s (answerWith status out, s') :=
  ⟨fsGetLastError_congr h, herror⟩

theorem silent_fatal (h : s'.clientState = s.clientState) :
    Silent client (some .mediaError) s (answer FSStatus.fatalError, s') :=
  silent_answer h statusError_fatalError

theorem Silent.completeAsync {error : Option FSError} {result : Answer × State σ}
    {block : FSCmdBlock} {asyncData : Option FSAsyncData} (h : Silent client error s result) :
    Silent client error s (completeAsync client block asyncData result) := by
  obtain ⟨hlast, houtcome⟩ := h
  exact ⟨by rw [completeAsync_state, hlast], by rw [completeAsync_status, houtcome]⟩

theorem statusError_cond (ok : Bool) :
    statusError (if ok then FSStatus.ok else FSStatus.fatalError) = some (okIf ok) := by
  cases ok with
  | true => exact statusError_ok
  | false => exact statusError_fatalError

theorem okIf_pos {p : Prop} [Decidable p] (hp : p) : okIf p = .ok := if_pos hp

theorem okIf_neg {p : Prop} [Decidable p] (hp : ¬p) : okIf p = .mediaError := if_neg hp

section Calls

variable {buffer pos stat entry returnedPath : Pointer} {size count start bytes : UInt32}
  {handle : UInt32} {path oldPath newPath mode : Option CString} {data : Option (List UInt8)}

theorem fsCloseFile_silent :
    Silent client (some (okIf (fileFor s handle).isSome)) s (fsCloseFile H handle s) := by
  rw [fsCloseFile]
  cases fileFor s handle with
  | none => exact silent_fatal rfl
  | some f =>
    refine silent_answer ?_ statusError_ok
    dsimp only
    split <;> rfl

theorem fsCloseDir_silent :
    Silent client (some (okIf (dirFor s handle).isSome)) s (fsCloseDir H handle s) := by
  rw [fsCloseDir]
  cases dirFor s handle with
  | none => exact silent_fatal rfl
  | some d =>
    refine silent_answer ?_ statusError_ok
    dsimp only
    split <;> rfl

theorem fsReadFile_silent {host : σ} :
    Silent client (readError H s host buffer size count handle) s
      (fsReadFile H buffer size count handle { s with host }) := by
  have hfile : fileFor { s with host } handle = fileFor s handle := rfl
  rw [fsReadFile, readError, hfile]
  split
  next => exact silent_fatal rfl
  next =>
    cases fileFor s handle with
    | none => exact silent_fatal rfl
    | some f => exact silent_answerWith rfl rfl

theorem fsReadFileWithPos_silent :
    Silent client (readWithPosError H s buffer size count start handle) s
      (fsReadFileWithPos H buffer size count start handle s) := by
  rw [fsReadFileWithPos, readWithPosError]
  cases fileFor s handle with
  | none => exact silent_fatal rfl
  | some f =>
    dsimp only
    split
    next => exact fsReadFile_silent
    next => exact silent_fatal rfl

theorem fsGetPosFile_silent :
    Silent client
      (some (okIf (pos ≠ 0 ∧ (fileFor s handle).any fun f => ¬H.ftell s.host f.object < 0))) s
      (fsGetPosFile H handle pos s) := by
  rw [fsGetPosFile]
  by_cases hpos : pos = 0
  · rw [if_pos hpos, okIf_neg fun hboth => hboth.1 hpos]
    exact silent_fatal rfl
  · rw [if_neg hpos]
    cases fileFor s handle with
    | none =>
      rw [okIf_neg fun hboth => nomatch hboth.2]
      exact silent_fatal rfl
    | some f =>
      dsimp only [Option.any_some]
      by_cases hneg : H.ftell s.host f.object < 0
      · rw [if_pos hneg, okIf_neg (by simp [hneg])]
        exact silent_fatal rfl
      · rw [if_neg hneg, okIf_pos ⟨hpos, decide_eq_true hneg⟩]
        exact silent_answerWith rfl statusError_ok

theorem fsSetPosFile_silent :
    Silent client
      (some (okIf ((fileFor s handle).any fun f =>
        (H.fseek s.host f.object start.toUInt64.toInt64 .set).1))) s
      (fsSetPosFile H handle start s) := by
  rw [fsSetPosFile]
  cases fileFor s handle with
  | none => exact silent_fatal rfl
  | some f => exact silent_answer rfl (statusError_cond _)

theorem fsGetStatFile_silent :
    Silent client (some (statError H s handle stat)) s (fsGetStatFile H handle stat s) := by
  rw [fsGetStatFile, statError]
  split
  next => exact silent_fatal rfl
  next =>
    cases fileFor s handle with
    | none => exact silent_fatal rfl
    | some f =>
      dsimp only
      split
      next hhere =>
        rw [okIf_neg fun hall => hall.1 hhere]
        exact silent_fatal rfl
      next hhere =>
        split
        next hmoved =>
          split
          next hlast =>
            rw [okIf_neg fun hall => hall.2.2 hlast]
            exact silent_fatal rfl
          next hlast =>
            rw [okIf_pos ⟨hhere, hmoved, hlast⟩]
            exact silent_answerWith rfl statusError_ok
        next hmoved =>
          rw [okIf_neg fun hall => hmoved hall.2.1]
          exact silent_fatal rfl

theorem fsWriteFile_silent {host : σ} :
    Silent client (writeError H s host data size count handle) s
      (fsWriteFile H data size count handle { s with host }) := by
  have hfile : fileFor { s with host } handle = fileFor s handle := rfl
  cases data with
  | none => exact silent_fatal rfl
  | some bytes =>
    simp only [fsWriteFile, writeError, hfile]
    split
    next => exact silent_fatal rfl
    next =>
      cases fileFor s handle with
      | none => exact silent_fatal rfl
      | some f => exact silent_answer rfl rfl

theorem fsWriteFileWithPosAsync_silent {block : FSCmdBlock} {asyncData : Option FSAsyncData} :
    Silent client (writeWithPosError H s data size count start handle) s
      (fsWriteFileWithPosAsync H client block data size count start handle asyncData s) := by
  rw [fsWriteFileWithPosAsync, writeWithPosError]
  cases fileFor s handle with
  | none => exact (silent_fatal rfl).completeAsync
  | some f =>
    dsimp only
    split
    next => exact fsWriteFile_silent.completeAsync
    next =>
      apply Silent.completeAsync
      exact silent_fatal rfl

theorem fsGetLastError_insert {state : HostClient} (hclient : client ≠ 0)
    (h : state.lastError = (s.client client).lastError) :
    fsGetLastError client { s with clientState := s.clientState.insert client state } =
      fsGetLastError client s := by
  rw [fsGetLastError_eq hclient, fsGetLastError_eq hclient, client_insert, h]

theorem fsChangeDir_silent (hclient : client ≠ 0) :
    Silent client (some (okIf path.isSome)) s (fsChangeDir client path s) := by
  cases path with
  | none => exact silent_fatal rfl
  | some path =>
    simp only [fsChangeDir, if_neg hclient]
    exact ⟨fsGetLastError_insert hclient rfl, statusError_ok⟩

theorem fsGetCwd_silent (hclient : client ≠ 0) :
    Silent client (some (okIf (returnedPath ≠ 0 ∧ bytes ≠ 0))) s
      (fsGetCwd client returnedPath bytes s) := by
  rw [fsGetCwd]
  split
  next hbad =>
    rw [okIf_neg ?_]
    · exact silent_fatal rfl
    · rintro ⟨hpath, hbytes⟩
      rcases hbad with hzero | hzero | hzero
      · exact hclient hzero
      · exact hpath hzero
      · exact hbytes hzero
  next hgood =>
    have hpath : returnedPath ≠ 0 := fun hzero => hgood (.inr (.inl hzero))
    have hbytes : bytes ≠ 0 := fun hzero => hgood (.inr (.inr hzero))
    rw [okIf_pos ⟨hpath, hbytes⟩]
    exact ⟨fsGetLastError_insert hclient rfl, statusError_ok⟩

theorem fsReadDir_silent :
    Silent client (some (readDirError H s handle entry)) s (fsReadDir H handle entry s) := by
  rw [fsReadDir, readDirError]
  split
  next => exact silent_fatal rfl
  next =>
    cases dirFor s handle with
    | none => exact silent_fatal rfl
    | some d =>
      dsimp only
      cases (H.readdir s.host d.object).1 with
      | none => exact silent_answer rfl statusError_end
      | some name => exact silent_answerWith rfl statusError_ok

theorem fsMakeDir_silent :
    Silent client (some (okIf (path.any fun p => (H.mkdir s.host (translate s client p)).1))) s
      (fsMakeDir H client path s) := by
  cases path with
  | none => exact silent_fatal rfl
  | some path => exact silent_answer rfl (statusError_cond _)

theorem fsAddClient_silent (hclient : client ≠ 0) :
    Silent client (some .ok) s (fsAddClient client s) := by
  rw [fsAddClient, if_neg hclient]
  exact silent_answer rfl statusError_ok

theorem fsDelClient_silent (hclient : client ≠ 0) :
    Silent client (some .ok) s (fsDelClient client s) := by
  rw [fsDelClient, if_neg hclient]
  exact silent_answer rfl statusError_ok

-- The last error after the call is the one of its status.
def Recorded (client : FSClient) (result : Answer × State σ) : Prop :=
  fsGetLastError client result.2 = statusToError result.1.status

theorem recorded (hclient : client ≠ 0) :
    Recorded client (answer status, record client status s) := fsGetLastError_record hclient

theorem Recorded.completeAsync {result : Answer × State σ} {block : FSCmdBlock}
    {asyncData : Option FSAsyncData} (h : Recorded client result) :
    Recorded client (completeAsync client block asyncData result) := by
  rw [Recorded, completeAsync_state, completeAsync_status]
  exact h

theorem fsOpenFile_recorded (hclient : client ≠ 0) (hpath : path.isSome) (hmode : mode.isSome)
    (hout : pos ≠ 0) : Recorded client (fsOpenFile H client path mode pos s) := by
  obtain ⟨path, rfl⟩ := Option.isSome_iff_exists.1 hpath
  obtain ⟨mode, rfl⟩ := Option.isSome_iff_exists.1 hmode
  simp only [fsOpenFile, if_neg hout]
  split
  next => exact recorded hclient
  next => exact fsGetLastError_record hclient

theorem fsOpenFile_silent (h : ¬(path.isSome ∧ mode.isSome ∧ pos ≠ 0)) :
    Silent client (some .mediaError) s (fsOpenFile H client path mode pos s) := by
  cases path with
  | none => exact silent_fatal rfl
  | some path =>
    cases mode with
    | none => exact silent_fatal rfl
    | some mode =>
      have hpos : pos = 0 := by simpa using h
      simp only [fsOpenFile, if_pos hpos]
      exact silent_fatal rfl

theorem fsOpenDir_recorded {p : CString} (hclient : client ≠ 0) (hpath : path = some p)
    (hout : pos ≠ 0) (hfail : (H.opendir s.host (translate s client p)).1 = 0) :
    Recorded client (fsOpenDir H client path pos s) := by
  subst hpath
  simp only [fsOpenDir, if_neg hout, if_pos hfail]
  exact recorded hclient

theorem fsOpenDir_silent
    (h : ¬∃ p, path = some p ∧ pos ≠ 0 ∧ (H.opendir s.host (translate s client p)).1 = 0) :
    Silent client (some (okIf (path.isSome ∧ pos ≠ 0))) s (fsOpenDir H client path pos s) := by
  cases path with
  | none =>
    rw [okIf_neg fun hboth => nomatch hboth.1]
    exact silent_fatal rfl
  | some path =>
    by_cases hpos : pos = 0
    · rw [okIf_neg fun hboth => hboth.2 hpos]
      simp only [fsOpenDir, if_pos hpos]
      exact silent_fatal rfl
    · have hopen : ¬(H.opendir s.host (translate s client path)).1 = 0 := fun hzero =>
        h ⟨path, rfl, hpos, hzero⟩
      rw [okIf_pos ⟨rfl, hpos⟩]
      simp only [fsOpenDir, if_neg hpos, if_neg hopen]
      exact silent_answerWith rfl statusError_ok

theorem fsRemove_recorded (hclient : client ≠ 0) (hpath : path.isSome) :
    Recorded client (fsRemove H client path s) := by
  obtain ⟨path, rfl⟩ := Option.isSome_iff_exists.1 hpath
  simp only [fsRemove]
  split
  next => exact recorded hclient
  next => exact recorded hclient

theorem fsRename_recorded (hclient : client ≠ 0) (hold : oldPath.isSome) (hnew : newPath.isSome) :
    Recorded client (fsRename H client oldPath newPath s) := by
  obtain ⟨oldPath, rfl⟩ := Option.isSome_iff_exists.1 hold
  obtain ⟨newPath, rfl⟩ := Option.isSome_iff_exists.1 hnew
  exact recorded hclient

theorem fsRemove_silent (h : ¬path.isSome) :
    Silent client (some .mediaError) s (fsRemove H client path s) := by
  cases path with
  | none => exact silent_fatal rfl
  | some path => exact absurd rfl h

theorem fsRename_silent (h : ¬(oldPath.isSome ∧ newPath.isSome)) :
    Silent client (some .mediaError) s (fsRename H client oldPath newPath s) := by
  cases oldPath with
  | none => exact silent_fatal rfl
  | some oldPath =>
    cases newPath with
    | none => exact silent_fatal rfl
    | some newPath => exact absurd ⟨rfl, rfl⟩ h

theorem fsGetMountSource_recorded {type : UInt8} (hclient : client ≠ 0) :
    Recorded client (fsGetMountSource client type pos s) := by
  rw [fsGetMountSource]
  split
  next => exact recorded hclient
  next => exact fsGetLastError_record hclient

theorem fsMount_recorded {source : Option UInt8} (hclient : client ≠ 0) :
    Recorded client (fsMount client source path s) := by
  rw [fsMount.eq_def]
  split <;> exact fsGetLastError_record hclient

end Calls

variable {op : Op}

theorem call_recorded (hclient : client ≠ 0) (h : Records H s client op) :
    Recorded client (call H client op s) := by
  cases op with
  | openFile path mode handle => exact fsOpenFile_recorded hclient h.1 h.2.1 h.2.2
  | openFileAsync block path mode handle asyncData =>
    exact (fsOpenFile_recorded hclient h.1 h.2.1 h.2.2).completeAsync
  | openDir path handle =>
    obtain ⟨p, hpath, hout, hfail⟩ := h
    exact fsOpenDir_recorded hclient hpath hout hfail
  | openDirAsync block path handle asyncData =>
    obtain ⟨p, hpath, hout, hfail⟩ := h
    exact (fsOpenDir_recorded hclient hpath hout hfail).completeAsync
  | remove path => exact fsRemove_recorded hclient h
  | rename oldPath newPath => exact fsRename_recorded hclient h.1 h.2
  | getMountSource type out => exact fsGetMountSource_recorded hclient
  | mount source target => exact fsMount_recorded hclient
  | addClient | delClient | closeFile _ | readFile _ _ _ _ | readFileWithPos _ _ _ _ _
  | getPosFile _ _ | setPosFile _ _ | getStatFile _ _ | writeFile _ _ _ _ | changeDir _
  | getCwd _ _ | readDir _ _ | closeDir _ | makeDir _ | closeFileAsync _ _ _
  | readFileWithPosAsync _ _ _ _ _ _ _ | writeFileWithPosAsync _ _ _ _ _ _ _
  | getStatFileAsync _ _ _ _ | readDirAsync _ _ _ _ | closeDirAsync _ _ _ => exact h.elim

theorem call_silent (hclient : client ≠ 0) (h : ¬Records H s client op) :
    Silent client (dueError H s client op) s (call H client op s) := by
  cases op with
  | addClient => exact fsAddClient_silent hclient
  | delClient => exact fsDelClient_silent hclient
  | openFile path mode handle => exact fsOpenFile_silent h
  | closeFile handle => exact fsCloseFile_silent
  | readFile buffer size count handle => exact fsReadFile_silent
  | readFileWithPos buffer size count pos handle => exact fsReadFileWithPos_silent
  | getPosFile handle pos => exact fsGetPosFile_silent
  | setPosFile handle pos => exact fsSetPosFile_silent
  | getStatFile handle stat => exact fsGetStatFile_silent
  | writeFile buffer size count handle => exact fsWriteFile_silent
  | changeDir path => exact fsChangeDir_silent hclient
  | getCwd returnedPath bytes => exact fsGetCwd_silent hclient
  | openDir path handle => exact fsOpenDir_silent h
  | readDir handle entry => exact fsReadDir_silent
  | closeDir handle => exact fsCloseDir_silent
  | makeDir path => exact fsMakeDir_silent
  | remove path => exact fsRemove_silent h
  | rename oldPath newPath => exact fsRename_silent h
  | getMountSource type out => exact absurd trivial h
  | mount source target => exact absurd trivial h
  | openFileAsync block path mode handle asyncData => exact (fsOpenFile_silent h).completeAsync
  | closeFileAsync block handle asyncData => exact fsCloseFile_silent.completeAsync
  | readFileWithPosAsync block buffer size count pos handle asyncData =>
    exact fsReadFileWithPos_silent.completeAsync
  | writeFileWithPosAsync block buffer size count pos handle asyncData =>
    exact fsWriteFileWithPosAsync_silent
  | getStatFileAsync block handle stat asyncData => exact fsGetStatFile_silent.completeAsync
  | openDirAsync block path handle asyncData => exact (fsOpenDir_silent h).completeAsync
  | readDirAsync block handle entry asyncData => exact fsReadDir_silent.completeAsync
  | closeDirAsync block handle asyncData => exact fsCloseDir_silent.completeAsync

theorem reports_iff (hclient : client ≠ 0) : Reports H client op s ↔ Meets H s client op := by
  by_cases h : Records H s client op
  · refine iff_of_true (fun error herror => ?_) (.inl h)
    rw [call_recorded hclient h]
    rw [statusError] at herror
    split at herror
    next => cases herror
    next => exact Option.some.inj herror
  · obtain ⟨hlast, houtcome⟩ := call_silent hclient h
    rw [Reports, Meets, hlast, houtcome, or_iff_right h]

-- What a program asks of the file system, one thing after another. The calls that a callback of
-- an asynchronous one makes come after it.
inductive Request where
  | status (client : FSClient) (op : Op)
  | addVolumeMapping (wiiuPrefix hostPrefix : Option CString)
  | clearVolumeMappings
  | shutdown

def Request.next (H : Host σ) (s : State σ) : Request → State σ
  | .status client op => (call H client op s).2
  | .addVolumeMapping wiiuPrefix hostPrefix => coreinitNxAddVolumeMapping wiiuPrefix hostPrefix s
  | .clearVolumeMappings => coreinitNxClearVolumeMappings s
  | .shutdown => fsShutdown H s

-- `p` of every call with a non-null client of the sequence, in the state the call is made in.
def EveryCall (H : Host σ) (p : State σ → FSClient → Op → Prop) : State σ → List Request → Prop
  | _, [] => True
  | s, request :: requests =>
    (∀ client op, client ≠ 0 → request = .status client op → p s client op) ∧
      EveryCall H p (request.next H s) requests

theorem everyCall_congr {p q : State σ → FSClient → Op → Prop} {requests : List Request}
    (h : ∀ s client op, client ≠ 0 → (p s client op ↔ q s client op)) :
    EveryCall H p s requests ↔ EveryCall H q s requests := by
  induction requests generalizing s with
  | nil => exact Iff.rfl
  | cons request requests ih =>
    refine and_congr ?_ ih
    constructor
    · intro hp client op hclient hreq
      exact (h s client op hclient).1 (hp client op hclient hreq)
    · intro hq client op hclient hreq
      exact (h s client op hclient).2 (hq client op hclient hreq)

theorem last_error_updated_iff (σ : Type) (H : Host σ) (s : State σ) (requests : List Request) :
    EveryCall H (fun s client op => Reports H client op s) s requests ↔
      EveryCall H (fun s client op => Meets H s client op) s requests :=
  everyCall_congr fun _ _ _ hclient => reports_iff hclient

-- A host on which nothing exists and nothing can be made.
def bareHost : Host Unit where
  fopen _ _ _ := (0, ())
  isDirectory _ _ := false
  fclose _ _ := ()
  fread _ _ _ _ := (0, [], ())
  fwrite _ _ _ _ _ := (0, ())
  fseek _ _ _ _ := (false, ())
  ftell _ _ := -1
  opendir _ _ := (0, ())
  readdir _ _ := (none, ())
  closedir _ _ := ()
  mkdir _ _ := (false, ())
  remove _ _ := (false, ())
  rmdir _ _ := (false, ())
  rename _ _ _ := (false, ())

-- A failing `FSMakeDir` leaves OK behind, and an `FSChangeDir` after a failing `FSRemove` leaves
-- the error of that.
theorem last_error_stale :
    ¬EveryCall bareHost (fun s client op => Reports bareHost client op s) (State.initial ())
      [.status 1 (.makeDir (some [slash]))] ∧
    ¬EveryCall bareHost (fun s client op => Reports bareHost client op s) (State.initial ())
      [.status 1 (.remove (some [slash])), .status 1 (.changeDir (some [slash]))] := by
  constructor
  · rintro ⟨hmake, -⟩
    have hreported := hmake 1 _ (by decide) rfl .mediaError (by decide +kernel)
    exact absurd hreported (by decide +kernel)
  · rintro ⟨-, hchange, -⟩
    have hreported := hchange 1 _ (by decide) rfl .ok (by decide +kernel)
    exact absurd hreported (by decide +kernel)

end CoreinitNx.FileSystem
