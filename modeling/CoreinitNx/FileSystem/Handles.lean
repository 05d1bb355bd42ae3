import Mathlib.Logic.Function.Basic
import CoreinitNx.Library.Transition
import CoreinitNx.FileSystem.Calls

namespace CoreinitNx.FileSystem

open SlotTable

abbrev Thread := Nat

-- What a thread takes `g_lock` for.
inductive Section where
  | call (client : FSClient) (op : Op)
  | shutdown
deriving DecidableEq, Repr

inductive Opening where
  | file (path mode : CString)
  | dir (path : CString)
deriving DecidableEq, Repr

-- From `checking` to `flagging` a thread is in `ensureLock`. Under the lock an open that has its
-- slot is taken apart from the store to it; `FSShutdown` walks the directories without the lock.
inductive Phase where
  | idle
  | checking (sec : Section)
  | resetting (sec : Section)
  | flagging (sec : Section)
  | locking (sec : Section)
  | inside (sec : Section)
  | storing (client : FSClient) (op : Op) (opening : Opening) (object : Pointer) (slot : UInt32)
  | unlocked
  | sweeping (next count : Nat)
  | marking (next count : Nat)
deriving DecidableEq, Repr

structure System (σ : Type) where
  fs : State σ
  inited : Bool
  lock : Option Thread
  phase : Thread → Phase

variable {σ : Type} {H : Host σ}

def System.initial (host : σ) : System σ := ⟨State.initial host, false, none, fun _ => .idle⟩

def System.move (sys : System σ) (t : Thread) (fs : State σ) (phase : Phase) : System σ :=
  { sys with fs, phase := Function.update sys.phase t phase }

def System.goto (sys : System σ) (t : Thread) (phase : Phase) : System σ := sys.move t sys.fs phase

def System.setLock (sys : System σ) (lock : Option Thread) : System σ := { sys with lock }

-- The open that a call comes to, if it is not turned away before.
def Op.opening : Op → Option Opening
  | .openFile (some path) (some mode) handle => if handle = 0 then none else some (.file path mode)
  | .openFileAsync _ (some path) (some mode) handle _ =>
    if handle = 0 then none else some (.file path mode)
  | .openDir (some path) handle => if handle = 0 then none else some (.dir path)
  | .openDirAsync _ (some path) handle _ => if handle = 0 then none else some (.dir path)
  | _ => none

def Op.closes : Op → Bool
  | .closeFile _ => true
  | .closeFileAsync _ _ _ => true
  | .closeDir _ => true
  | .closeDirAsync _ _ _ => true
  | _ => false

def Op.locks (op : Op) : Bool := op.opening.isSome || op.closes

def acquire (H : Host σ) (client : FSClient) (s : State σ) : Opening → Pointer × State σ
  | .file path mode =>
    let (fp, host) := H.fopen s.host (translate s client path) mode
    (fp, { s with host })
  | .dir path =>
    let (dp, host) := H.opendir s.host (translate s client path)
    (dp, { s with host })

def reserveSlot (s : State σ) : Opening → UInt32 × State σ
  | .file _ _ =>
    let (slot, files) := reserve s.files
    (slot, { s with files })
  | .dir _ =>
    let (slot, dirs) := reserve s.dirs
    (slot, { s with dirs })

def fillSlot (client : FSClient) (object : Pointer) (slot : UInt32) (s : State σ) :
    Opening → State σ
  | .file _ _ =>
    record client FSStatus.ok
      { s with
        files := fill s.files slot object
        fileLog := s.fileLog ++ [.opened slot object] }
  | .dir _ =>
    { s with
      dirs := fill s.dirs slot object
      dirLog := s.dirLog ++ [.opened slot object] }

-- What is left of a call behind the lock.
def Op.finish (client : FSClient) (result : Answer × State σ) : Op → Answer × State σ
  | .openFileAsync block _ _ _ asyncData => completeAsync client block asyncData result
  | .openDirAsync block _ _ asyncData => completeAsync client block asyncData result
  | _ => result

def storeSlot (client : FSClient) (op : Op) (object : Pointer) (slot : UInt32) (s : State σ)
    (opening : Opening) : Answer × State σ :=
  op.finish client
    (answerWith FSStatus.ok (.handle slot), fillSlot client object slot s opening)

-- `if (d.used && d.dp) closedir(d.dp)`
def sweepDir (H : Host σ) (d : HostDir) (s : State σ) : State σ :=
  { s with
    host := if d.used ∧ d.object ≠ 0 then H.closedir s.host d.object else s.host
    dirLog := s.dirLog ++ sweepUses d }

def markDir (i : Nat) (s : State σ) : State σ := { s with dirs := s.dirs.set i ⟨0, false⟩ }

def clearDirs (s : State σ) : State σ := { s with dirs := [], clientState := ∅ }

-- A call goes by what it answers.
inductive Event where
  | call (t : Thread) (client : FSClient) (op : Op) (answer : Answer)
  | begin (t : Thread) (sec : Section)
  | statement (t : Thread)
  | shutdownFiles (t : Thread)
  | beginDirs (t : Thread)
  | sweepDir (t : Thread)
  | markDir (t : Thread)
  | clearDirs (t : Thread)

def Op.file : Op → Prop
  | .openFile _ _ _ => True
  | .openFileAsync _ _ _ _ _ => True
  | .closeFile _ => True
  | .closeFileAsync _ _ _ => True
  | _ => False

def Op.dir : Op → Prop
  | .openDir _ _ => True
  | .openDirAsync _ _ _ _ => True
  | .closeDir _ => True
  | .closeDirAsync _ _ _ => True
  | _ => False

def Section.Begins : Section → Prop
  | .call _ op => (op.file ∨ op.dir) ∧ op.locks = true
  | .shutdown => True

-- A call that is turned away takes no lock, and `record` touches no table.
inductive Step (H : Host σ) : System σ → Event → System σ → Prop
  | rejected {sys : System σ} {t : Thread} {client : FSClient} {op : Op} :
      sys.phase t = .idle → op.file ∨ op.dir → op.locks = false →
      Step H sys (.call t client op (FileSystem.call H client op sys.fs).1) sys
  | begin {sys : System σ} {t : Thread} {sec : Section} : sys.phase t = .idle → sec.Begins →
      Step H sys (.begin t sec) (sys.goto t (.checking sec))
  | inited {sys : System σ} {t : Thread} {sec : Section} : sys.phase t = .checking sec →
      sys.inited = true → Step H sys (.statement t) (sys.goto t (.locking sec))
  | uninited {sys : System σ} {t : Thread} {sec : Section} : sys.phase t = .checking sec →
      sys.inited = false → Step H sys (.statement t) (sys.goto t (.resetting sec))
  | reset {sys : System σ} {t : Thread} {sec : Section} : sys.phase t = .resetting sec →
      Step H sys (.statement t) ((sys.setLock none).goto t (.flagging sec))
  | flag {sys : System σ} {t : Thread} {sec : Section} : sys.phase t = .flagging sec →
      Step H sys (.statement t) ({ sys with inited := true }.goto t (.locking sec))
  | lock {sys : System σ} {t : Thread} {sec : Section} : sys.phase t = .locking sec →
      sys.lock = none → Step H sys (.statement t) ((sys.setLock (some t)).goto t (.inside sec))
  | call {sys : System σ} {t : Thread} {client : FSClient} {op : Op} :
      sys.phase t = .inside (.call client op) → op.file ∨ op.dir →
      (∀ opening, op.opening = some opening → (acquire H client sys.fs opening).1 = 0) →
      Step H sys (.call t client op (FileSystem.call H client op sys.fs).1)
        ((sys.setLock none).move t (FileSystem.call H client op sys.fs).2 .idle)
  | reserve {sys : System σ} {t : Thread} {client : FSClient} {op : Op} {opening : Opening}
      {object : Pointer} {fs : State σ} : sys.phase t = .inside (.call client op) →
      op.opening = some opening → acquire H client sys.fs opening = (object, fs) → object ≠ 0 →
      Step H sys (.statement t) (sys.move t (reserveSlot fs opening).2
        (.storing client op opening object (reserveSlot fs opening).1))
  | store {sys : System σ} {t : Thread} {client : FSClient} {op : Op} {opening : Opening}
      {object : Pointer} {slot : UInt32} :
      sys.phase t = .storing client op opening object slot → op.opening = some opening →
      Step H sys (.call t client op (storeSlot client op object slot sys.fs opening).1)
        ((sys.setLock none).move t (storeSlot client op object slot sys.fs opening).2 .idle)
  | shutdownFiles {sys : System σ} {t : Thread} : sys.phase t = .inside .shutdown →
      Step H sys (.shutdownFiles t) ((sys.setLock none).move t (closeFiles H sys.fs) .unlocked)
  | beginDirs {sys : System σ} {t : Thread} : sys.phase t = .unlocked →
      Step H sys (.beginDirs t) (sys.goto t (.sweeping 0 sys.fs.dirs.length))
  | sweepDir {sys : System σ} {t : Thread} {i n : Nat} {d : HostDir} :
      sys.phase t = .sweeping i n → i < n → sys.fs.dirs[i]? = some d →
      Step H sys (.sweepDir t) (sys.move t (FileSystem.sweepDir H d sys.fs) (.marking i n))
  | markDir {sys : System σ} {t : Thread} {i n : Nat} : sys.phase t = .marking i n →
      Step H sys (.markDir t) (sys.move t (FileSystem.markDir i sys.fs) (.sweeping (i + 1) n))
  | clearDirs {sys : System σ} {t : Thread} {n : Nat} : sys.phase t = .sweeping n n →
      Step H sys (.clearDirs t) (sys.move t (FileSystem.clearDirs sys.fs) .idle)

def Event.thread : Event → Thread
  | .call t _ _ _ => t
  | .begin t _ => t
  | .statement t => t
  | .shutdownFiles t => t
  | .beginDirs t => t
  | .sweepDir t => t
  | .markDir t => t
  | .clearDirs t => t

def Phase.Holding : Phase → Prop
  | .inside _ => True
  | .storing _ _ _ _ _ => True
  | _ => False

-- About to do something with the directories, ...
def Phase.NearDirs : Phase → Prop
  | .inside (.call _ op) => op.dir
  | .storing _ _ (.dir _) _ _ => True
  | .unlocked => True
  | .sweeping _ _ => True
  | .marking _ _ => True
  | _ => False

-- ... and in the middle of it.
def Phase.InDirs : Phase → Prop
  | .storing _ _ (.dir _) _ _ => True
  | .sweeping _ _ => True
  | .marking _ _ => True
  | _ => False

def Phase.OpensFile : Phase → Prop
  | .inside (.call _ op) => ∃ path mode, op.opening = some (.file path mode)
  | _ => False

def Phase.OpensDir : Phase → Prop
  | .inside (.call _ op) => ∃ path, op.opening = some (.dir path)
  | _ => False

-- No two objects open at once are the same.
def HostDistinct (sys sys' : System σ) : Prop :=
  (∀ handle x, sys'.fs.fileLog = sys.fs.fileLog ++ [.opened handle x] →
    ∀ handle', ¬StillOpen sys.fs.fileLog handle' x) ∧
  ∀ handle x, sys'.fs.dirLog = sys.fs.dirLog ++ [.opened handle x] →
    ∀ handle', ¬StillOpen sys.fs.dirLog handle' x

-- `ensureLock` does not take the lock from a thread that holds it; while one thread walks the
-- directories or is opening one no other comes near them, and the tables never run out of handles.
structure Orderly (sys : System σ) (t : Thread) : Prop where
  first : ∀ sec, sys.phase t = .resetting sec → sys.lock = none
  alone : ∀ t', (sys.phase t').InDirs → (sys.phase t).NearDirs → t = t'
  file_room : (sys.phase t).OpensFile → sys.fs.files.countP (·.used) < 2 ^ 32 - 1
  dir_room : (sys.phase t).OpensDir → sys.fs.dirs.countP (·.used) < 2 ^ 32 - 1

def OrderlyStep (H : Host σ) (sys : System σ) (e : Event) (sys' : System σ) : Prop :=
  Step H sys e sys' ∧ HostDistinct sys sys' ∧ Orderly sys e.thread

section Tables

variable {s : State σ} {client : FSClient} {status : FSStatus}

theorem record_files : (record client status s).files = s.files := by
  rw [record]
  split <;> rfl

theorem record_dirs : (record client status s).dirs = s.dirs := by
  rw [record]
  split <;> rfl

theorem record_fileLog : (record client status s).fileLog = s.fileLog := by
  rw [record]
  split <;> rfl

theorem record_dirLog : (record client status s).dirLog = s.dirLog := by
  rw [record]
  split <;> rfl

-- What a call that answers so does to the table it is about.
inductive Change (table table' : Table UInt64) (log log' : List (Use UInt64)) (status : FSStatus)
    (out : Out) : Prop
  | kept : table' = table → log' = log → (∀ handle, out ≠ .handle handle) →
      Change table table' log log' status out
  | opened (x : UInt64) : x ≠ 0 → table' = (store table x).2 →
      log' = log ++ [.opened (store table x).1 x] → status = FSStatus.ok →
      out = .handle (store table x).1 → Change table table' log log' status out
  | closed (handle : UInt32) (slot : Slot UInt64) : slotFor table handle = some slot →
      table' = release table handle →
      log' = log ++ (if slot.object = 0 then [] else [.closed slot.object]) →
      (∀ handle, out ≠ .handle handle) → Change table table' log log' status out

structure ChangesFiles (s : State σ) (result : Answer × State σ) : Prop where
  change : Change s.files result.2.files s.fileLog result.2.fileLog result.1.status result.1.out
  dirs : result.2.dirs = s.dirs
  dirLog : result.2.dirLog = s.dirLog

structure ChangesDirs (s : State σ) (result : Answer × State σ) : Prop where
  change : Change s.dirs result.2.dirs s.dirLog result.2.dirLog result.1.status result.1.out
  files : result.2.files = s.files
  fileLog : result.2.fileLog = s.fileLog

theorem ChangesFiles.completeAsync {block : FSCmdBlock} {asyncData : Option FSAsyncData}
    {result : Answer × State σ} (h : ChangesFiles s result) :
    ChangesFiles s (completeAsync client block asyncData result) := by
  constructor
  · rw [completeAsync_status, completeAsync_out, completeAsync_state]
    exact h.change
  · rw [completeAsync_state]
    exact h.dirs
  · rw [completeAsync_state]
    exact h.dirLog

theorem ChangesDirs.completeAsync {block : FSCmdBlock} {asyncData : Option FSAsyncData}
    {result : Answer × State σ} (h : ChangesDirs s result) :
    ChangesDirs s (completeAsync client block asyncData result) := by
  constructor
  · rw [completeAsync_status, completeAsync_out, completeAsync_state]
    exact h.change
  · rw [completeAsync_state]
    exact h.files
  · rw [completeAsync_state]
    exact h.fileLog

theorem fsOpenFile_changes {path mode : Option CString} {out : Pointer} :
    ChangesFiles s (fsOpenFile H client path mode out s) := by
  have hkept : ChangesFiles s (answer FSStatus.fatalError, s) :=
    ⟨.kept rfl rfl nofun, rfl, rfl⟩
  cases path with
  | none => exact hkept
  | some path =>
    cases mode with
    | none => exact hkept
    | some mode =>
      simp only [fsOpenFile]
      split
      next => exact hkept
      next =>
        split
        next =>
          refine ⟨.kept ?_ ?_ nofun, ?_, ?_⟩
          · rw [record_files]
          · rw [record_fileLog]
          · rw [record_dirs]
          · rw [record_dirLog]
        next hfp =>
          refine ⟨.opened _ hfp ?_ ?_ rfl rfl, ?_, ?_⟩
          · rw [record_files]
          · rw [record_fileLog]
          · rw [record_dirs]
          · rw [record_dirLog]

theorem fsOpenDir_changes {path : Option CString} {out : Pointer} :
    ChangesDirs s (fsOpenDir H client path out s) := by
  have hkept : ChangesDirs s (answer FSStatus.fatalError, s) :=
    ⟨.kept rfl rfl nofun, rfl, rfl⟩
  cases path with
  | none => exact hkept
  | some path =>
    simp only [fsOpenDir]
    split
    next => exact hkept
    next =>
      split
      next =>
        refine ⟨.kept ?_ ?_ nofun, ?_, ?_⟩
        · rw [record_dirs]
        · rw [record_dirLog]
        · rw [record_files]
        · rw [record_fileLog]
      next hdp => exact ⟨.opened _ hdp rfl rfl rfl rfl, rfl, rfl⟩

theorem fsCloseFile_changes {handle : FSFileHandle} :
    ChangesFiles s (fsCloseFile H handle s) := by
  rw [fsCloseFile]
  cases hfile : fileFor s handle with
  | none => exact ⟨.kept rfl rfl (by rintro _ ⟨⟩), rfl, rfl⟩
  | some f =>
    dsimp only
    split
    next hzero =>
      refine ⟨.closed handle f hfile rfl ?_ (by rintro _ ⟨⟩), rfl, rfl⟩
      rw [if_pos hzero, List.append_nil]
    next hne =>
      refine ⟨.closed handle f hfile rfl ?_ (by rintro _ ⟨⟩), rfl, rfl⟩
      rw [if_neg hne]

theorem fsCloseDir_changes {handle : FSDirectoryHandle} :
    ChangesDirs s (fsCloseDir H handle s) := by
  rw [fsCloseDir]
  cases hdir : dirFor s handle with
  | none => exact ⟨.kept rfl rfl (by rintro _ ⟨⟩), rfl, rfl⟩
  | some d =>
    dsimp only
    split
    next hzero =>
      refine ⟨.closed handle d hdir rfl ?_ (by rintro _ ⟨⟩), rfl, rfl⟩
      rw [if_pos hzero, List.append_nil]
    next hne =>
      refine ⟨.closed handle d hdir rfl ?_ (by rintro _ ⟨⟩), rfl, rfl⟩
      rw [if_neg hne]

theorem call_changesFiles {op : Op} (hop : op.file) : ChangesFiles s (call H client op s) := by
  cases op with
  | openFile path mode handle => exact fsOpenFile_changes
  | openFileAsync block path mode handle asyncData => exact fsOpenFile_changes.completeAsync
  | closeFile handle => exact fsCloseFile_changes
  | closeFileAsync block handle asyncData => exact fsCloseFile_changes.completeAsync
  | _ => exact hop.elim

theorem call_changesDirs {op : Op} (hop : op.dir) : ChangesDirs s (call H client op s) := by
  cases op with
  | openDir path handle => exact fsOpenDir_changes
  | openDirAsync block path handle asyncData => exact fsOpenDir_changes.completeAsync
  | closeDir handle => exact fsCloseDir_changes
  | closeDirAsync block handle asyncData => exact fsCloseDir_changes.completeAsync
  | _ => exact hop.elim

-- A table whose open handles are those of the log, with room for another length of `UInt32`.
structure Kept (table : Table UInt64) (log : List (Use UInt64)) : Prop where
  agrees : Agrees (find table) log
  length_lt : table.length < 2 ^ 32

theorem find_of_slotFor {table : Table UInt64} {handle : UInt32} {slot : Slot UInt64}
    (h : slotFor table handle = some slot) : find table handle = some slot.object := by
  rw [find, h]
  rfl

theorem Change.kept_by {table table' : Table UInt64} {log log' : List (Use UInt64)}
    {out : Out} (h : Change table table' log log' status out) (hk : Kept table log)
    (hroom : (∃ handle, out = .handle handle) → table.countP (·.used) < 2 ^ 32 - 1)
    (hfresh : ∀ handle x, log' = log ++ [.opened handle x] →
      ∀ handle', ¬StillOpen log handle' x) : Kept table' log' := by
  cases h with
  | kept htable hlog _ => rwa [htable, hlog]
  | opened x hx htable hlog _ hout =>
    have room : Room table := ⟨hk.length_lt, hroom ⟨_, hout⟩⟩
    rw [htable, hlog]
    refine ⟨agrees_store hk.agrees room hx (hfresh _ x hlog), ?_⟩
    obtain ⟨_, _, _, _, _, _, hlen⟩ := store_spec room x
    exact hlen
  | closed handle slot hslot htable hlog _ =>
    have hfind := find_of_slotFor hslot
    rw [if_neg (hk.agrees.object_ne_zero _ _ hfind)] at hlog
    rw [htable, hlog]
    refine ⟨agrees_release hk.agrees hfind, ?_⟩
    rw [release, List.length_set]
    exact hk.length_lt

end Tables

section Moves

variable {sys : System σ} {t t' : Thread} {fs fs' : State σ} {phase phase' : Phase}

@[simp] theorem move_fs : (sys.move t fs phase).fs = fs := rfl

@[simp] theorem move_phase_self : (sys.move t fs phase).phase t = phase :=
  Function.update_self _ _ _

theorem move_phase_ne (h : t' ≠ t) : (sys.move t fs phase).phase t' = sys.phase t' :=
  Function.update_of_ne h _ _

theorem move_move : (sys.move t fs phase).move t fs' phase' = sys.move t fs' phase' := by
  simp only [System.move, Function.update_idem]

theorem setLock_move {lock : Option Thread} :
    (sys.move t fs phase).setLock lock = (sys.setLock lock).move t fs phase := rfl

end Moves

section Alone

theorem call_file {client : FSClient} {path mode : CString} {s fs : State σ} {object handle : Pointer}
    (hz : handle ≠ 0) (hacquire : acquire H client s (.file path mode) = (object, fs))
    (hx : object ≠ 0) :
    fsOpenFile H client (some path) (some mode) handle s =
      (answerWith FSStatus.ok (.handle (reserveSlot fs (.file path mode)).1),
        fillSlot client object (reserveSlot fs (.file path mode)).1
          (reserveSlot fs (.file path mode)).2 (.file path mode)) := by
  obtain ⟨rfl, rfl⟩ := Prod.mk.inj hacquire
  simp only [fsOpenFile, if_neg hz, if_neg hx, store_eq]
  rfl

theorem call_dir {client : FSClient} {path : CString} {s fs : State σ} {object handle : Pointer}
    (hz : handle ≠ 0) (hacquire : acquire H client s (.dir path) = (object, fs))
    (hx : object ≠ 0) :
    fsOpenDir H client (some path) handle s =
      (answerWith FSStatus.ok (.handle (reserveSlot fs (.dir path)).1),
        fillSlot client object (reserveSlot fs (.dir path)).1 (reserveSlot fs (.dir path)).2
          (.dir path)) := by
  obtain ⟨rfl, rfl⟩ := Prod.mk.inj hacquire
  simp only [fsOpenDir, if_neg hz, if_neg hx, store_eq]
  rfl

-- The two halves of an open come to the function.
theorem call_opening {client : FSClient} {op : Op} {opening : Opening} {s fs : State σ}
    {object : Pointer} (hop : op.opening = some opening)
    (hacquire : acquire H client s opening = (object, fs)) (hx : object ≠ 0) :
    call H client op s =
      storeSlot client op object (reserveSlot fs opening).1 (reserveSlot fs opening).2 opening := by
  cases op with
  | openFile path mode handle =>
    cases path <;> cases mode <;> try cases hop
    rw [Op.opening] at hop
    split at hop
    next => cases hop
    next hz =>
      cases hop
      exact call_file hz hacquire hx
  | openFileAsync block path mode handle asyncData =>
    cases path <;> cases mode <;> try cases hop
    rw [Op.opening] at hop
    split at hop
    next => cases hop
    next hz =>
      cases hop
      rw [call, fsOpenFileAsync, call_file hz hacquire hx]
      rfl
  | openDir path handle =>
    cases path with
    | none => cases hop
    | some path =>
      rw [Op.opening] at hop
      split at hop
      next => cases hop
      next hz =>
        cases hop
        exact call_dir hz hacquire hx
  | openDirAsync block path handle asyncData =>
    cases path with
    | none => cases hop
    | some path =>
      rw [Op.opening] at hop
      split at hop
      next => cases hop
      next hz =>
        cases hop
        rw [call, fsOpenDirAsync, call_dir hz hacquire hx]
        rfl
  | _ => cases hop

-- Undisturbed, a call that has the lock answers and does what the function does.
theorem call_alone {t : Thread} {client : FSClient} {op : Op} (sys : System σ)
    (hinside : sys.phase t = .inside (.call client op)) (hkind : op.file ∨ op.dir) :
    ∃ es, Transition.Run (Step H) sys (es ++ [.call t client op (call H client op sys.fs).1])
      ((sys.setLock none).move t (call H client op sys.fs).2 .idle) := by
  by_cases hopens : ∃ opening, op.opening = some opening ∧ (acquire H client sys.fs opening).1 ≠ 0
  · obtain ⟨opening, hop, hx⟩ := hopens
    cases hacquire : acquire H client sys.fs opening with
    | mk object fs =>
      rw [hacquire] at hx
      have hreserve := Step.reserve hinside hop hacquire hx
      have hstore : Step H (sys.move t (reserveSlot fs opening).2 (.storing client op opening object
          (reserveSlot fs opening).1)) (.call t client op _) _ := .store move_phase_self hop
      rw [call_opening hop hacquire hx]
      refine ⟨[.statement t], (Transition.Run.single hreserve).snoc ?_⟩
      rwa [setLock_move, move_move] at hstore
  · refine ⟨[], Transition.Run.single (.call hinside hkind fun opening hop => ?_)⟩
    by_contra hx
    exact hopens ⟨opening, hop, hx⟩

-- What is left of `closeDirs` for the entries `rest`.
def walk (H : Host σ) (rest : List HostDir) (s : State σ) : State σ :=
  { s with
    host := rest.foldl (fun host d => if d.used ∧ d.object ≠ 0 then H.closedir host d.object else host)
      s.host
    dirLog := s.dirLog ++ rest.flatMap sweepUses
    dirs := []
    clientState := ∅ }

theorem walk_cons {s : State σ} {d : HostDir} {rest : List HostDir} {i : Nat} :
    walk H rest (markDir i (sweepDir H d s)) = walk H (d :: rest) s := by
  simp only [walk, markDir, sweepDir, List.foldl_cons, List.flatMap_cons, List.append_assoc]

theorem walk_alone {t : Thread} (rest : List HostDir) (sys : System σ) (done : List HostDir)
    (hdirs : sys.fs.dirs = done ++ rest)
    (hphase : sys.phase t = .sweeping done.length (done ++ rest).length) :
    ∃ es, Transition.Run (Step H) sys es (sys.move t (walk H rest sys.fs) .idle) := by
  induction rest generalizing sys done with
  | nil =>
    rw [List.append_nil] at hphase
    have hclear : walk H [] sys.fs = clearDirs sys.fs := by
      simp only [walk, clearDirs, List.foldl_nil, List.flatMap_nil, List.append_nil]
    rw [hclear]
    exact ⟨_, Transition.Run.single (.clearDirs hphase)⟩
  | cons d rest ih =>
    let swept := sys.move t (sweepDir H d sys.fs) (.marking done.length (done ++ d :: rest).length)
    let marked := sys.move t (markDir done.length (sweepDir H d sys.fs))
      (.sweeping (done.length + 1) (done ++ d :: rest).length)
    have hget : sys.fs.dirs[done.length]? = some d := by simp [hdirs]
    have hsweep : Step H sys (.sweepDir t) swept := .sweepDir hphase (by simp) hget
    have hmark : Step H swept (.markDir t) marked := by
      have hstep : Step H swept (.markDir t) _ := .markDir move_phase_self
      rwa [move_move] at hstep
    have hset : marked.fs.dirs = (done ++ [⟨0, false⟩]) ++ rest := by
      rw [move_fs, markDir, sweepDir, hdirs]
      simp
    obtain ⟨es, hrest⟩ := ih marked (done ++ [⟨0, false⟩]) hset (by simp [marked])
    rw [move_move, move_fs, walk_cons] at hrest
    exact ⟨_, Transition.Run.cons hsweep (Transition.Run.cons hmark hrest)⟩

-- ... and so does an `FSShutdown`.
theorem shutdown_alone {t : Thread} (sys : System σ) (hinside : sys.phase t = .inside .shutdown) :
    ∃ es, Transition.Run (Step H) sys es
      ((sys.setLock none).move t (fsShutdown H sys.fs) .idle) := by
  let free := sys.setLock none
  let unlocked := free.move t (closeFiles H sys.fs) .unlocked
  have hfiles : Step H sys (.shutdownFiles t) unlocked := .shutdownFiles hinside
  let begun := free.move t (closeFiles H sys.fs) (.sweeping 0 sys.fs.dirs.length)
  have hbegin : Step H unlocked (.beginDirs t) begun := by
    have hstep : Step H unlocked (.beginDirs t) _ := .beginDirs move_phase_self
    rwa [System.goto, move_move] at hstep
  have hphase : begun.phase t = .sweeping 0 sys.fs.dirs.length := move_phase_self
  obtain ⟨es, hrest⟩ := walk_alone (H := H) (closeFiles H sys.fs).dirs begun [] rfl hphase
  rw [move_move] at hrest
  exact ⟨_, Transition.Run.cons hfiles (Transition.Run.cons hbegin hrest)⟩

end Alone

end CoreinitNx.FileSystem
