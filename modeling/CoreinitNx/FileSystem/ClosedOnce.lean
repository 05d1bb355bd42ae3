import CoreinitNx.FileSystem.Settled

namespace CoreinitNx.FileSystem

open SlotTable

variable {σ : Type} {H : Host σ} {sys sys' : System σ} {e : Event} {es : List Event} {t t' : Thread}
  {phase : Phase} {fs : State σ} {table : Table UInt64} {log : List (Use UInt64)} {x : UInt64}
  {slot : UInt32}

-- What the log of one table has to show for the table to be sound.
structure TableSound (table : Table UInt64) (log : List (Use UInt64)) : Prop where
  handle_ne_zero : ∀ handle x, .opened handle x ∈ log → handle ≠ 0
  apart : ∀ before handle x mid handle' y after,
    log = before ++ .opened handle x :: (mid ++ .opened handle' y :: after) →
    closes x mid = 0 → handle ≠ handle'
  designates : ∀ handle x, StillOpen log handle x → find table handle = some x
  closes_le : ∀ before handle x after, log = before ++ .opened handle x :: after →
    closes x after ≤ 1

def Op.closesFile (handle : FSFileHandle) : Op → Prop
  | .closeFile h => h = handle
  | .closeFileAsync _ h _ => h = handle
  | _ => False

def Op.closesDir (handle : FSDirectoryHandle) : Op → Prop
  | .closeDir h => h = handle
  | .closeDirAsync _ h _ => h = handle
  | _ => False

-- An `FSCloseFile` of the handle, or an `FSShutdown`.
def Event.endsFile (handle : FSFileHandle) : Event → Prop
  | .call _ _ op _ => op.closesFile handle
  | .shutdownFiles _ => True
  | _ => False

def Event.endsDir (handle : FSDirectoryHandle) : Event → Prop
  | .call _ _ op _ => op.closesDir handle
  | .clearDirs _ => True
  | _ => False

-- Every handle that a call gives out is in the log.
def Returns (H : Host σ) (sys : System σ) : Prop :=
  ∀ t client op answer sys' handle, OrderlyStep H sys (.call t client op answer) sys' →
    answer.out = .handle handle →
    (op.file ∧ ∃ x, sys'.fs.fileLog = sys.fs.fileLog ++ [.opened handle x]) ∨
      (op.dir ∧ ∃ x, sys'.fs.dirLog = sys.fs.dirLog ++ [.opened handle x])

structure SameTables (s s' : State σ) : Prop where
  files : s'.files = s.files
  fileLog : s'.fileLog = s.fileLog
  dirs : s'.dirs = s.dirs
  dirLog : s'.dirLog = s.dirLog

-- A close of a handle under which nothing is open.
def Rejects (H : Host σ) (sys : System σ) : Prop :=
  ∀ t client op answer sys' handle, OrderlyStep H sys (.call t client op answer) sys' →
    (op.closesFile handle ∧ ∀ x, ¬StillOpen sys.fs.fileLog handle x) ∨
      (op.closesDir handle ∧ ∀ x, ¬StillOpen sys.fs.dirLog handle x) →
    answer.status = FSStatus.fatalError ∧ SameTables sys.fs sys'.fs

-- Once its handle is closed or an `FSShutdown` is through, an object has been closed once, and so
-- it stays.
def ClosesOnce (H : Host σ) (sys : System σ) : Prop :=
  ∀ e sys₁ es sys₂, OrderlyStep H sys e sys₁ → Transition.Run (OrderlyStep H) sys₁ es sys₂ →
    (∀ before handle x after, sys.fs.fileLog = before ++ .opened handle x :: after →
      e.endsFile handle →
      ∃ rest, sys₂.fs.fileLog = sys.fs.fileLog ++ rest ∧ closes x (after ++ rest) = 1) ∧
    ∀ before handle x after, sys.fs.dirLog = before ++ .opened handle x :: after →
      e.endsDir handle →
      ∃ rest, sys₂.fs.dirLog = sys.fs.dirLog ++ rest ∧ closes x (after ++ rest) = 1

section Conclusions

variable {table : Table UInt64} {log : List (Use UInt64)}

theorem Kept.sound (h : Kept table log) : TableSound table log where
  handle_ne_zero := h.agrees.handle_ne_zero
  apart before handle x mid handle' y after hlog hzero :=
    (h.agrees.apart before handle x mid handle' y after hlog hzero).1
  designates := h.agrees.held_of_open
  closes_le := h.agrees.closes_le

-- An entry closed but not yet marked adds a handle that the log has closed.
theorem sound_of_set {i : Nat} (h : Kept (table.set i ⟨0, false⟩) log) : TableSound table log where
  handle_ne_zero := h.sound.handle_ne_zero
  apart := h.sound.apart
  closes_le := h.sound.closes_le
  designates handle x hopen := by
    obtain ⟨hne, hget⟩ := find_eq_some.1 (h.sound.designates handle x hopen)
    rw [List.getElem?_set] at hget
    split at hget
    next =>
      split at hget
      next => cases hget
      next => cases hget
    next => exact find_eq_some.2 ⟨hne, hget⟩

theorem Settled.dirs_sound (h : Settled sys) : TableSound sys.fs.dirs sys.fs.dirLog := by
  by_cases hquiet : ∀ t, ¬(sys.phase t).InDirs
  · exact (h.dirs.quiet hquiet).sound
  · obtain ⟨t, hin⟩ := not_forall_not.1 hquiet
    have hwalked := h.dirs.walked t hin
    cases hphase : sys.phase t with
    | storing client op opening object slot =>
      rw [hphase] at hin hwalked
      cases opening with
      | file => exact hin.elim
      | dir => exact hwalked.kept.sound
    | sweeping i n =>
      rw [hphase] at hwalked
      exact hwalked.2.2.sound
    | marking i n =>
      rw [hphase] at hwalked
      exact sound_of_set hwalked.2.2
    | idle | checking | resetting | flagging | locking | inside | unlocked =>
      rw [hphase] at hin
      exact hin.elim

theorem TableSound.closed_by {before after : List (Use UInt64)} {handle : UInt32} {x : UInt64}
    (h : TableSound table log) (hlog : log = before ++ .opened handle x :: after)
    (hgone : find table handle = none) : closes x after = 1 := by
  have hle := h.closes_le before handle x after hlog
  have hne : closes x after ≠ 0 := by
    intro hzero
    rw [h.designates handle x ⟨before, after, hlog, hzero⟩] at hgone
    cases hgone
  omega

theorem Change.grows {table' : Table UInt64} {log' : List (Use UInt64)} {status : FSStatus}
    {out : Out} (h : Change table table' log log' status out) : ∃ uses, log' = log ++ uses := by
  cases h with
  | kept _ hlog _ => exact ⟨[], by rw [hlog, List.append_nil]⟩
  | opened _ _ _ hlog _ _ => exact ⟨_, hlog⟩
  | closed _ _ _ _ hlog _ => exact ⟨_, hlog⟩

theorem Change.opens {table' : Table UInt64} {log' : List (Use UInt64)} {status : FSStatus}
    {out : Out} {handle : UInt32} (h : Change table table' log log' status out)
    (hout : out = .handle handle) : ∃ x, log' = log ++ [.opened handle x] := by
  cases h with
  | kept _ _ hno => exact absurd hout (hno handle)
  | opened x _ _ hlog _ hgiven =>
    cases hgiven.symm.trans hout
    exact ⟨x, hlog⟩
  | closed _ _ _ _ _ hno => exact absurd hout (hno handle)

theorem find_eq_none {handle : UInt32} (h : slotFor table handle = none) :
    find table handle = none := by
  rw [find, h]
  rfl

end Conclusions

theorem reserveSlot_logs {s : State σ} {opening : Opening} :
    (reserveSlot s opening).2.fileLog = s.fileLog ∧ (reserveSlot s opening).2.dirLog = s.dirLog := by
  cases opening <;> exact ⟨rfl, rfl⟩

theorem fillSlot_logs {s : State σ} {client : FSClient} {opening : Opening} :
    (∃ uses, (fillSlot client x slot s opening).fileLog = s.fileLog ++ uses) ∧
      ∃ uses, (fillSlot client x slot s opening).dirLog = s.dirLog ++ uses := by
  cases opening with
  | file => exact ⟨⟨_, record_fileLog⟩, [], by rw [fillSlot, record_dirLog, List.append_nil]⟩
  | dir => exact ⟨⟨[], (List.append_nil _).symm⟩, _, rfl⟩

theorem OrderlyStep.grows (hs : OrderlyStep H sys e sys') :
    (∃ uses, sys'.fs.fileLog = sys.fs.fileLog ++ uses) ∧
      ∃ uses, sys'.fs.dirLog = sys.fs.dirLog ++ uses := by
  obtain ⟨hstep, -, -⟩ := hs
  cases hstep with
  | @call t client op _ hop =>
    rcases hop with hop | hop
    · have hchange : ChangesFiles sys.fs (FileSystem.call H client op sys.fs) :=
        call_changesFiles hop
      exact ⟨hchange.change.grows, [], by rw [List.append_nil]; exact hchange.dirLog⟩
    · have hchange : ChangesDirs sys.fs (FileSystem.call H client op sys.fs) := call_changesDirs hop
      exact ⟨⟨[], by rw [List.append_nil]; exact hchange.fileLog⟩, hchange.change.grows⟩
  | reserve _ _ hacquire _ =>
    obtain ⟨⟨-, hfileLog⟩, -, hdirLog⟩ := acquire_tables hacquire
    rw [move_fs, reserveSlot_logs.1, reserveSlot_logs.2, hfileLog, hdirLog]
    exact ⟨⟨[], (List.append_nil _).symm⟩, [], (List.append_nil _).symm⟩
  | store =>
    rw [move_fs, storeSlot_state]
    exact fillSlot_logs
  | shutdownFiles => exact ⟨⟨_, rfl⟩, [], (List.append_nil _).symm⟩
  | sweepDir => exact ⟨⟨[], (List.append_nil _).symm⟩, _, rfl⟩
  | rejected | begin | inited | uninited | reset | flag | lock | beginDirs | markDir | clearDirs =>
    exact ⟨⟨[], (List.append_nil _).symm⟩, [], (List.append_nil _).symm⟩

theorem run_grows (run : Transition.Run (OrderlyStep H) sys es sys') :
    (∃ uses, sys'.fs.fileLog = sys.fs.fileLog ++ uses) ∧
      ∃ uses, sys'.fs.dirLog = sys.fs.dirLog ++ uses := by
  induction run with
  | nil => exact ⟨⟨[], (List.append_nil _).symm⟩, [], (List.append_nil _).symm⟩
  | snoc _ hs ih =>
    obtain ⟨⟨uses, hfile⟩, uses', hdir⟩ := ih
    obtain ⟨⟨more, hfile'⟩, more', hdir'⟩ := hs.grows
    refine ⟨⟨uses ++ more, ?_⟩, uses' ++ more', ?_⟩
    · rw [hfile', hfile, List.append_assoc]
    · rw [hdir', hdir, List.append_assoc]

section Closing

variable {s : State σ} {client : FSClient} {op : Op} {handle : UInt32} {answer : Answer}

theorem call_closesFile (hop : op.closesFile handle) :
    (call H client op s).1.status = (fsCloseFile H handle s).1.status ∧
      (call H client op s).2 = (fsCloseFile H handle s).2 := by
  cases op with
  | closeFile h =>
    cases hop
    exact ⟨rfl, rfl⟩
  | closeFileAsync block h asyncData =>
    cases hop
    exact ⟨completeAsync_status, completeAsync_state⟩
  | _ => exact hop.elim

theorem call_closesDir (hop : op.closesDir handle) :
    (call H client op s).1.status = (fsCloseDir H handle s).1.status ∧
      (call H client op s).2 = (fsCloseDir H handle s).2 := by
  cases op with
  | closeDir h =>
    cases hop
    exact ⟨rfl, rfl⟩
  | closeDirAsync block h asyncData =>
    cases hop
    exact ⟨completeAsync_status, completeAsync_state⟩
  | _ => exact hop.elim

theorem fsCloseFile_none (h : fileFor s handle = none) :
    fsCloseFile H handle s = (FileSystem.answer FSStatus.fatalError, s) := by
  rw [fsCloseFile, h]

theorem fsCloseDir_none (h : dirFor s handle = none) :
    fsCloseDir H handle s = (FileSystem.answer FSStatus.fatalError, s) := by
  rw [fsCloseDir, h]

theorem fsCloseFile_gone : find (fsCloseFile H handle s).2.files handle = none := by
  cases h : fileFor s handle with
  | none =>
    rw [fsCloseFile_none h]
    exact find_eq_none h
  | some f =>
    rw [fsCloseFile, h]
    dsimp only
    split <;> exact find_release_self

theorem fsCloseDir_gone : find (fsCloseDir H handle s).2.dirs handle = none := by
  cases h : dirFor s handle with
  | none =>
    rw [fsCloseDir_none h]
    exact find_eq_none h
  | some d =>
    rw [fsCloseDir, h]
    dsimp only
    split <;> exact find_release_self

theorem slotFor_eq_none {table : Table UInt64} {log : List (Use UInt64)} (h : Kept table log)
    (hnone : ∀ x, ¬StillOpen log handle x) : slotFor table handle = none := by
  cases hslot : slotFor table handle with
  | none => rfl
  | some slot => exact absurd (h.agrees.stillOpen_iff.2 (find_of_slotFor hslot)) (hnone _)

theorem closes_of_closesFile (hop : op.closesFile handle) : op.closes = true := by
  cases op with
  | closeFile _ | closeFileAsync _ _ _ => rfl
  | _ => exact hop.elim

theorem closes_of_closesDir (hop : op.closesDir handle) : op.closes = true ∧ op.dir := by
  cases op with
  | closeDir _ | closeDirAsync _ _ _ => exact ⟨rfl, trivial⟩
  | _ => exact hop.elim

theorem opening_of_closes (hop : op.closes = true) : op.opening = none := by
  cases op with
  | closeFile _ | closeFileAsync _ _ _ | closeDir _ | closeDirAsync _ _ _ => rfl
  | _ => cases hop

-- A close is done in one go, by a thread that has the lock.
theorem Step.closes (hs : Step H sys (.call t client op answer) sys') (hop : op.closes = true) :
    answer = (FileSystem.call H client op sys.fs).1 ∧
      sys'.fs = (FileSystem.call H client op sys.fs).2 ∧
      sys.phase t = .inside (.call client op) := by
  cases hs with
  | rejected _ _ hlocks =>
    rw [Op.locks, hop, Bool.or_true] at hlocks
    cases hlocks
  | call hinside _ _ => exact ⟨rfl, rfl, hinside⟩
  | store _ hopening =>
    rw [opening_of_closes hop] at hopening
    cases hopening

theorem Settled.rejects (h : Settled sys) : Rejects H sys := by
  rintro t client op answer sys' handle ⟨hs, -, horderly⟩ hclosed
  rcases hclosed with ⟨hop, hnone⟩ | ⟨hop, hnone⟩
  · obtain ⟨rfl, hfs, -⟩ := hs.closes (closes_of_closesFile hop)
    have hslot : fileFor sys.fs handle = none := slotFor_eq_none h.files.kept hnone
    rw [hfs, (call_closesFile hop).1, (call_closesFile hop).2, fsCloseFile_none hslot]
    exact ⟨rfl, rfl, rfl, rfl, rfl⟩
  · obtain ⟨hcloses, hdir⟩ := closes_of_closesDir hop
    obtain ⟨rfl, hfs, hinside⟩ := hs.closes hcloses
    have hquiet := h.quiet_at horderly hinside hdir id
    have hslot : dirFor sys.fs handle = none := slotFor_eq_none hquiet hnone
    rw [hfs, (call_closesDir hop).1, (call_closesDir hop).2, fsCloseDir_none hslot]
    exact ⟨rfl, rfl, rfl, rfl, rfl⟩

theorem returns (H : Host σ) (sys : System σ) : Returns H sys := by
  rintro t client op answer sys' handle ⟨hs, -, -⟩ hout
  cases hs with
  | rejected _ hkind hlocks =>
    refine absurd hout (call_out hkind (fun opening hop => ?_) handle)
    rw [Op.locks, hop] at hlocks
    cases hlocks
  | call _ hkind hnone => exact absurd hout (call_out hkind hnone handle)
  | @store _ _ _ opening object slot _ hop =>
    rw [storeSlot_out] at hout
    cases hout
    rw [move_fs, storeSlot_state]
    cases opening with
    | file path mode => exact .inl ⟨file_of_opening hop, object, record_fileLog⟩
    | dir path => exact .inr ⟨dir_of_opening hop, object, rfl⟩

theorem OrderlyStep.file_gone (hs : OrderlyStep H sys e sys') (hends : e.endsFile handle) :
    find sys'.fs.files handle = none := by
  cases e with
  | call t client op answer =>
    obtain ⟨-, hfs, -⟩ := hs.1.closes (closes_of_closesFile hends)
    rw [hfs, (call_closesFile hends).2]
    exact fsCloseFile_gone
  | shutdownFiles t =>
    obtain ⟨hstep, -, -⟩ := hs
    cases hstep with
    | shutdownFiles _ => exact find_nil
  | _ => exact hends.elim

theorem OrderlyStep.dir_gone (hs : OrderlyStep H sys e sys') (hends : e.endsDir handle) :
    find sys'.fs.dirs handle = none := by
  cases e with
  | call t client op answer =>
    obtain ⟨-, hfs, -⟩ := hs.1.closes (closes_of_closesDir hends).1
    rw [hfs, (call_closesDir hends).2]
    exact fsCloseDir_gone
  | clearDirs t =>
    obtain ⟨hstep, -, -⟩ := hs
    cases hstep with
    | clearDirs _ => exact find_nil
  | _ => exact hends.elim

end Closing

theorem closes_stays {table table' : Table UInt64} {log uses rest before after : List (Use UInt64)}
    {handle : UInt32} {x : UInt64} (h : TableSound table (log ++ uses))
    (h' : TableSound table' (log ++ uses ++ rest))
    (hlog : log = before ++ .opened handle x :: after) (hgone : find table handle = none) :
    closes x (after ++ (uses ++ rest)) = 1 := by
  have heq : log ++ uses = before ++ .opened handle x :: (after ++ uses) := by simp [hlog]
  have heq' : log ++ uses ++ rest = before ++ .opened handle x :: (after ++ (uses ++ rest)) := by
    simp [hlog]
  have hone : closes x (after ++ uses) = 1 := h.closed_by heq hgone
  have hle : closes x (after ++ (uses ++ rest)) ≤ 1 := h'.closes_le before handle x _ heq'
  have hge : closes x (after ++ uses) ≤ closes x (after ++ uses ++ rest) := closes_le_append
  rw [List.append_assoc] at hge
  omega

theorem Settled.closesOnce (h : Settled sys) : ClosesOnce H sys := by
  intro e sys₁ es sys₂ hs run
  have h₁ := hs.settled h
  have h₂ := settled_run run h₁
  obtain ⟨⟨uses, hfile⟩, uses', hdir⟩ := hs.grows
  obtain ⟨⟨rest, hfile'⟩, rest', hdir'⟩ := run_grows run
  have hsound := h₁.files.kept.sound
  have hsound' := h₂.files.kept.sound
  have hdirs := h₁.dirs_sound
  have hdirs' := h₂.dirs_sound
  rw [hfile] at hfile' hsound
  rw [hfile'] at hsound'
  rw [hdir] at hdir' hdirs
  rw [hdir'] at hdirs'
  refine ⟨fun before handle x after hlog hends => ⟨uses ++ rest, ?_, ?_⟩,
    fun before handle x after hlog hends => ⟨uses' ++ rest', ?_, ?_⟩⟩
  · rw [hfile', List.append_assoc]
  · exact closes_stays hsound hsound' hlog (hs.file_gone hends)
  · rw [hdir', List.append_assoc]
  · exact closes_stays hdirs hdirs' hlog (hs.dir_gone hends)

theorem handle_tables_sound (σ : Type) (H : Host σ) (host : σ) (es : List Event) (sys : System σ)
    (run : Transition.Run (OrderlyStep H) (System.initial host) es sys) :
    TableSound sys.fs.files sys.fs.fileLog ∧ TableSound sys.fs.dirs sys.fs.dirLog ∧
      Returns H sys ∧ Rejects H sys ∧ ClosesOnce H sys := by
  have h := settled_run run (settled_initial host)
  exact ⟨h.files.kept.sound, h.dirs_sound, returns H sys, h.rejects, h.closesOnce⟩

-- A host that opens whatever it is asked for, numbering the objects.
def countingHost : Host Nat where
  fopen n _ _ := (UInt64.ofNat (n + 1), n + 1)
  isDirectory _ _ := false
  fclose n _ := n
  fread n _ _ _ := (0, [], n)
  fwrite n _ _ _ _ := (0, n)
  fseek n _ _ _ := (true, n)
  ftell _ _ := 0
  opendir n _ := (UInt64.ofNat (n + 1), n + 1)
  readdir n _ := (none, n)
  closedir n _ := n
  mkdir n _ := (true, n)
  remove n _ := (true, n)
  rmdir n _ := (true, n)
  rename n _ _ := (true, n)

theorem hostDistinct_of_first
    (hfile : ∀ handle x, sys'.fs.fileLog = sys.fs.fileLog ++ [.opened handle x] →
      sys.fs.fileLog = [])
    (hdir : ∀ handle x, sys'.fs.dirLog = sys.fs.dirLog ++ [.opened handle x] →
      sys.fs.dirLog = []) : HostDistinct sys sys' := by
  have hnone {handle : UInt32} {x : UInt64} : ¬StillOpen [] handle x := fun ⟨before, _, heq, _⟩ =>
    absurd heq.symm (List.append_ne_nil_of_right_ne_nil before nofun)
  constructor
  · intro handle x heq handle'
    rw [hfile handle x heq]
    exact hnone
  · intro handle x heq handle'
    rw [hdir handle x heq]
    exact hnone

theorem hostDistinct_of_uses {uses uses' : List (Use UInt64)}
    (hfile : sys'.fs.fileLog = sys.fs.fileLog ++ uses) (hdir : sys'.fs.dirLog = sys.fs.dirLog ++ uses')
    (hnot : ∀ handle x, uses ≠ [.opened handle x]) (hnot' : ∀ handle x, uses' ≠ [.opened handle x]) :
    HostDistinct sys sys' := by
  constructor
  · intro handle x heq
    rw [hfile] at heq
    exact absurd (List.append_cancel_left heq) (hnot handle x)
  · intro handle x heq
    rw [hdir] at heq
    exact absurd (List.append_cancel_left heq) (hnot' handle x)

theorem hostDistinct_of_same (hfile : sys'.fs.fileLog = sys.fs.fileLog)
    (hdir : sys'.fs.dirLog = sys.fs.dirLog) : HostDistinct sys sys' :=
  hostDistinct_of_uses (hfile.trans (List.append_nil _).symm) (hdir.trans (List.append_nil _).symm)
    nofun nofun

section Entering

variable {sec : Section}

theorem orderly_of (hp : sys.phase t = phase)
    (hfirst : ∀ sec, phase = .resetting sec → sys.lock = none)
    (halone : ∀ t', (sys.phase t').InDirs → phase.NearDirs → t = t')
    (hfile : phase.OpensFile → sys.fs.files.countP (·.used) < 2 ^ 32 - 1)
    (hdir : phase.OpensDir → sys.fs.dirs.countP (·.used) < 2 ^ 32 - 1) : Orderly sys t := by
  subst hp
  exact ⟨hfirst, halone, hfile, hdir⟩

-- A step on the way to the lock.
theorem OrderlyStep.entering (hs : Step H sys (.statement t) sys') (hfs : sys'.fs = sys.fs)
    (hp : sys.phase t = phase) (hnear : ¬phase.NearDirs) (hfile : ¬phase.OpensFile)
    (hdir : ¬phase.OpensDir) (hlock : sys.lock = none) : OrderlyStep H sys (.statement t) sys' :=
  ⟨hs, hostDistinct_of_same (by rw [hfs]) (by rw [hfs]),
    orderly_of hp (fun _ _ => hlock) (fun _ _ hin => absurd hin hnear) (fun hin => absurd hin hfile)
      fun hin => absurd hin hdir⟩

theorem OrderlyStep.begin (hp : sys.phase t = .idle) (hsec : sec.Begins) :
    OrderlyStep H sys (.begin t sec) (sys.goto t (.checking sec)) :=
  ⟨.begin hp hsec, hostDistinct_of_same rfl rfl,
    orderly_of hp (by rintro _ ⟨⟩) (fun _ _ hin => hin.elim) False.elim False.elim⟩

def System.within (sys : System σ) (t : Thread) (sec : Section) : System σ :=
  ({ sys with inited := true }.setLock (some t)).goto t (.inside sec)

theorem goto_goto {phase' : Phase} : (sys.goto t phase).goto t phase' = sys.goto t phase' :=
  move_move

-- A thread that finds the lock made gets it, ...
theorem enters (hp : sys.phase t = .idle) (hsec : sec.Begins) (hinited : sys.inited = true)
    (hlock : sys.lock = none) :
    ∃ es, Transition.Run (OrderlyStep H) sys es (sys.within t sec) := by
  have hcheck : OrderlyStep H (sys.goto t (.checking sec)) (.statement t)
      (sys.goto t (.locking sec)) := by
    have hs : Step H (sys.goto t (.checking sec)) (.statement t) _ :=
      .inited move_phase_self hinited
    rw [goto_goto] at hs
    exact .entering hs rfl move_phase_self id id id hlock
  have htake : OrderlyStep H (sys.goto t (.locking sec)) (.statement t) (sys.within t sec) := by
    have hs : Step H (sys.goto t (.locking sec)) (.statement t) _ := .lock move_phase_self hlock
    rw [goto_setLock, goto_goto] at hs
    rw [System.within, setInited_self hinited]
    exact .entering hs rfl move_phase_self id id id hlock
  exact ⟨_, ((Transition.Run.single (.begin hp hsec)).snoc hcheck).snoc htake⟩

-- ... and so does one that has to make it.
theorem enters_first (hp : sys.phase t = .idle) (hsec : sec.Begins) (hinited : sys.inited = false)
    (hlock : sys.lock = none) :
    ∃ es, Transition.Run (OrderlyStep H) sys es (sys.within t sec) := by
  let made := { sys with inited := true }
  have hcheck : OrderlyStep H (sys.goto t (.checking sec)) (.statement t)
      (sys.goto t (.resetting sec)) := by
    have hs : Step H (sys.goto t (.checking sec)) (.statement t) _ :=
      .uninited move_phase_self hinited
    rw [goto_goto] at hs
    exact .entering hs rfl move_phase_self id id id hlock
  have hreset : OrderlyStep H (sys.goto t (.resetting sec)) (.statement t)
      (sys.goto t (.flagging sec)) := by
    have hs : Step H (sys.goto t (.resetting sec)) (.statement t) _ := .reset move_phase_self
    rw [goto_setLock, setLock_self hlock, goto_goto] at hs
    exact .entering hs rfl move_phase_self id id id hlock
  have hflag : OrderlyStep H (sys.goto t (.flagging sec)) (.statement t)
      (made.goto t (.locking sec)) := by
    have hs : Step H (sys.goto t (.flagging sec)) (.statement t) _ := .flag move_phase_self
    rw [goto_setInited, goto_goto] at hs
    exact .entering hs rfl move_phase_self id id id hlock
  have htake : OrderlyStep H (made.goto t (.locking sec)) (.statement t) (sys.within t sec) := by
    have hs : Step H (made.goto t (.locking sec)) (.statement t) _ := .lock move_phase_self hlock
    rw [goto_setLock, goto_goto] at hs
    exact .entering hs rfl move_phase_self id id id hlock
  exact ⟨_, ((((Transition.Run.single (.begin hp hsec)).snoc hcheck).snoc hreset).snoc hflag).snoc
    htake⟩

-- One that comes to `mutexInit` gets it, whoever has it.
theorem enters_resetting (hp : sys.phase t = .resetting sec) :
    ∃ es, Transition.Run (Step H) sys es (sys.within t sec) := by
  let free := sys.setLock none
  have hreset : Step H sys (.statement t) (free.goto t (.flagging sec)) := .reset hp
  have hflag : Step H (free.goto t (.flagging sec)) (.statement t)
      ({ free with inited := true }.goto t (.locking sec)) := by
    have hs : Step H (free.goto t (.flagging sec)) (.statement t) _ := .flag move_phase_self
    rwa [goto_setInited, goto_goto] at hs
  have htake : Step H ({ free with inited := true }.goto t (.locking sec)) (.statement t)
      (sys.within t sec) := by
    have hs : Step H ({ free with inited := true }.goto t (.locking sec)) (.statement t) _ :=
      .lock move_phase_self rfl
    rwa [goto_setLock, goto_goto] at hs
  exact ⟨_, ((Transition.Run.single hreset).snoc hflag).snoc htake⟩

-- A library that is set up and that no thread is in.
def System.ready (fs : State σ) : System σ := ⟨fs, true, none, fun _ => .idle⟩

theorem move_ready {t : Thread} (host : σ) (sec : Section) :
    (((System.initial host).within t sec).setLock none).move t fs .idle = System.ready fs := by
  rw [System.within, goto_setLock, System.goto, move_move]
  exact congrArg (System.mk fs true none) (Function.update_eq_self t _)

-- The first open of all, by a thread that nothing disturbs.
theorem opens_first {client : FSClient} {op : Op} {opening : Opening} (t : Thread) (host : σ)
    (hop : op.opening = some opening)
    (hx : (acquire H client (State.initial host) opening).1 ≠ 0) :
    ∃ es, Transition.Run (OrderlyStep H) (System.initial host) es
      (System.ready (call H client op (State.initial host)).2) := by
  cases hacquire : acquire H client (State.initial host) opening with
  | mk object fs =>
    rw [hacquire] at hx
    let inside := (System.initial host).within t (.call client op)
    let found := inside.move t (reserveSlot fs opening).2
      (.storing client op opening object (reserveSlot fs opening).1)
    obtain ⟨⟨-, hfileLog⟩, -, hdirLog⟩ := acquire_tables hacquire
    have hnothing : found.fs.fileLog = [] ∧ found.fs.dirLog = [] := by
      rw [move_fs, reserveSlot_logs.1, reserveSlot_logs.2, hfileLog, hdirLog]
      exact ⟨rfl, rfl⟩
    have hinside : inside.phase t = .inside (.call client op) := move_phase_self
    have hfound : found.phase t = .storing client op opening object (reserveSlot fs opening).1 :=
      move_phase_self
    have honly (t' : Thread) (hin : (inside.phase t').InDirs) : t = t' :=
      only_move (fun _ => False.elim) t' hin
    have hreserve : OrderlyStep H inside (.statement t) found :=
      ⟨.reserve hinside hop hacquire hx, hostDistinct_of_same hnothing.1 hnothing.2,
        orderly_of hinside (by rintro _ ⟨⟩) (fun t' hin _ => honly t' hin)
          (fun _ => Nat.zero_lt_succ _) fun _ => Nat.zero_lt_succ _⟩
    have hstore : OrderlyStep H found
        (.call t client op (storeSlot client op object (reserveSlot fs opening).1 found.fs opening).1)
        ((found.setLock none).move t
          (storeSlot client op object (reserveSlot fs opening).1 found.fs opening).2 .idle) :=
      ⟨.store hfound hop, hostDistinct_of_first (fun _ _ _ => hnothing.1) fun _ _ _ => hnothing.2,
        orderly_of hfound (by rintro _ ⟨⟩) (fun t' hin _ => only_move honly t' hin) False.elim
          False.elim⟩
    rw [setLock_move, move_move, move_ready, move_fs, ← call_opening hop hacquire hx] at hstore
    have hsec : (Section.call client op).Begins := by
      refine ⟨?_, by rw [Op.locks, hop]; rfl⟩
      cases opening with
      | file path mode => exact .inl (file_of_opening hop)
      | dir path => exact .inr (dir_of_opening hop)
    obtain ⟨es, run⟩ : ∃ es, Transition.Run (OrderlyStep H) (System.initial host) es inside :=
      enters_first rfl hsec rfl rfl
    exact ⟨_, (run.snoc hreserve).snoc hstore⟩

end Entering

theorem handle_tables_sound_one_file :
    ∃ (es : List Event) (sys : System Nat),
      Transition.Run (OrderlyStep countingHost) (System.initial 0) es sys ∧
        sys.fs.fileLog = [.opened 1 1, .closed 1] ∧ TableSound sys.fs.files sys.fs.fileLog ∧
        Rejects countingHost sys := by
  -- The name is "a".
  let op : Op := .openFile (some [0x61]) (some []) 8
  let s₁ : State Nat := (call countingHost 1 op (State.initial 0)).2
  let closing := (System.ready s₁).within 0 (.call 1 (.closeFile 1))
  let closed := (closing.setLock none).move 0 (call countingHost 1 (.closeFile 1) s₁).2 .idle
  have hfile : closed.fs.fileLog = s₁.fileLog ++ [.closed 1] := by decide +kernel
  have hdir : closed.fs.dirLog = s₁.dirLog ++ [] := by decide +kernel
  obtain ⟨es₁, opens⟩ : ∃ es, Transition.Run (OrderlyStep countingHost) (System.initial 0) es
      (System.ready s₁) := opens_first 0 0 rfl (by decide)
  obtain ⟨es₂, comes⟩ : ∃ es, Transition.Run (OrderlyStep countingHost) (System.ready s₁) es
      closing := enters rfl ⟨.inl trivial, rfl⟩ rfl rfl
  have hclose : OrderlyStep countingHost closing
      (.call 0 1 (.closeFile 1) (call countingHost 1 (.closeFile 1) s₁).1) closed := by
    refine ⟨.call rfl (.inl trivial) nofun, hostDistinct_of_uses hfile hdir nofun nofun, nofun,
      fun _ _ hnear => hnear.elim, ?_, ?_⟩
    · rintro ⟨path, mode, hopens⟩
      cases hopens
    · rintro ⟨path, hopens⟩
      cases hopens
  have run := (opens.append comes).snoc hclose
  obtain ⟨hsound, -, -, hrejects, -⟩ := handle_tables_sound Nat countingHost 0 _ closed run
  exact ⟨_, closed, run, by decide +kernel, hsound, hrejects⟩

-- A directory is closed by the walk of an `FSShutdown`, and before the walk marks it closed again
-- by an `FSCloseDir`.
theorem dir_closed_twice :
    ∃ (es : List Event) (sys : System Nat),
      Transition.Run (fun sys e sys' => Step countingHost sys e sys' ∧ HostDistinct sys sys')
        (System.initial 0) es sys ∧
      sys.fs.dirLog = [.opened 1 1] ++ [.closed 1, .closed 1] ∧
      ¬TableSound sys.fs.dirs sys.fs.dirLog := by
  let op : Op := .openDir (some [slash]) 8
  let s₁ : State Nat := (call countingHost 1 op (State.initial 0)).2
  let s₂ : State Nat := closeFiles countingHost s₁
  let s₃ : State Nat := sweepDir countingHost ⟨1, true⟩ s₂
  let inside := (System.ready s₁).within 0 .shutdown
  let unlocked := (inside.setLock none).move 0 s₂ .unlocked
  let begun := unlocked.goto 0 (.sweeping 0 s₂.dirs.length)
  let swept := begun.move 0 s₃ (.marking 0 s₂.dirs.length)
  let closing := swept.within 1 (.call 1 (.closeDir 1))
  let closed := (closing.setLock none).move 1 (call countingHost 1 (.closeDir 1) s₃).2 .idle
  have hlog : closed.fs.dirLog = [.opened 1 1] ++ [.closed 1, .closed 1] := by decide +kernel
  have hfile : s₂.fileLog = s₁.fileLog ++ [] := by decide +kernel
  have hdir : s₂.dirLog = s₁.dirLog ++ [] := by decide +kernel
  have hswept : s₃.dirLog = s₂.dirLog ++ [.closed 1] := by decide +kernel
  have hagain : closed.fs.dirLog = s₃.dirLog ++ [.closed 1] := by decide +kernel
  have hget : s₂.dirs[0]? = some ⟨1, true⟩ := by decide +kernel
  have hlen : s₂.dirs.length = 1 := by decide +kernel
  have hfiles : Step countingHost inside (.shutdownFiles 0) unlocked := .shutdownFiles rfl
  have hbegin : Step countingHost unlocked (.beginDirs 0) begun := .beginDirs rfl
  have hsweep : Step countingHost begun (.sweepDir 0) swept :=
    .sweepDir (move_phase_self) (hlen ▸ Nat.zero_lt_one) hget
  have hclose : Step countingHost closing (.call 1 1 (.closeDir 1) _) closed :=
    .call rfl (.inr trivial) nofun
  have hd₁ : HostDistinct inside unlocked := hostDistinct_of_uses hfile hdir nofun nofun
  have hd₂ : HostDistinct unlocked begun := hostDistinct_of_same rfl rfl
  have hd₃ : HostDistinct begun swept :=
    hostDistinct_of_uses (List.append_nil _).symm hswept nofun nofun
  have hd₄ : HostDistinct closing closed :=
    hostDistinct_of_uses (List.append_nil _).symm hagain nofun nofun
  obtain ⟨es₁, opens⟩ : ∃ es, Transition.Run (OrderlyStep countingHost) (System.initial 0) es
      (System.ready s₁) := opens_first 0 0 rfl (by decide)
  obtain ⟨es₂, shuts⟩ : ∃ es, Transition.Run (OrderlyStep countingHost) (System.ready s₁) es
      inside := enters rfl trivial rfl rfl
  obtain ⟨es₃, comes⟩ : ∃ es, Transition.Run (OrderlyStep countingHost) swept es closing :=
    enters rfl ⟨.inr trivial, rfl⟩ rfl rfl
  have hsub (s : System Nat) (e : Event) (s' : System Nat) (hs : OrderlyStep countingHost s e s') :
      Step countingHost s e s' ∧ HostDistinct s s' := ⟨hs.1, hs.2.1⟩
  have shut := ((((opens.append shuts).mono hsub).snoc ⟨hfiles, hd₁⟩).snoc ⟨hbegin, hd₂⟩).snoc
    ⟨hsweep, hd₃⟩
  refine ⟨_, closed, (shut.append (comes.mono hsub)).snoc ⟨hclose, hd₄⟩, hlog, fun hsound => ?_⟩
  exact absurd (hsound.closes_le [] 1 1 [.closed 1, .closed 1] hlog) (by decide)

-- Of two overlapping first calls the later `mutexInit` lets both in, and both find the same entry.
theorem first_opens_share_handle :
    ∃ (es : List Event) (sys : System Nat),
      Transition.Run (Step countingHost) (System.initial 0) es sys ∧
      sys.fs.fileLog = [.opened 1 1] ++ [.opened 1 2] ∧ ¬TableSound sys.fs.files sys.fs.fileLog := by
  let op : Op := .openFile (some [0x61]) (some []) 8
  let opening : Opening := .file [0x61] []
  let checking := (System.initial 0 : System Nat).goto 0 (.checking (.call 1 op))
  let resetting := (System.initial 0 : System Nat).goto 0 (.resetting (.call 1 op))
  let inside₁ := resetting.within 1 (.call 1 op)
  let found₁ := inside₁.move 1 (reserveSlot (acquire countingHost 1 inside₁.fs opening).2 opening).2
    (.storing 1 op opening 1 1)
  let inside₂ := found₁.within 0 (.call 1 op)
  let found₂ := inside₂.move 0 (reserveSlot (acquire countingHost 1 inside₂.fs opening).2 opening).2
    (.storing 1 op opening 2 1)
  let stored₁ := (found₂.setLock none).move 1 (storeSlot 1 op 1 1 found₂.fs opening).2 .idle
  let stored₂ := (stored₁.setLock none).move 0 (storeSlot 1 op 2 1 stored₁.fs opening).2 .idle
  have hlog : stored₂.fs.fileLog = [.opened 1 1] ++ [.opened 1 2] := by decide +kernel
  have hbegin : Step countingHost (System.initial 0) (.begin 0 (.call 1 op)) checking :=
    .begin rfl ⟨.inl trivial, rfl⟩
  have hcheck : Step countingHost checking (.statement 0) resetting := by
    have hs : Step countingHost checking (.statement 0) _ := .uninited move_phase_self rfl
    rwa [goto_goto] at hs
  have hreserve₁ : Step countingHost inside₁ (.statement 1) found₁ :=
    .reserve rfl rfl rfl (by decide)
  have hreserve₂ : Step countingHost inside₂ (.statement 0) found₂ :=
    .reserve rfl rfl rfl (by decide)
  have hstore₁ : Step countingHost found₂ (.call 1 1 op _) stored₁ := .store rfl rfl
  have hstore₂ : Step countingHost stored₁ (.call 0 1 op _) stored₂ := .store rfl rfl
  obtain ⟨es₁, comes₁⟩ : ∃ es, Transition.Run (OrderlyStep countingHost) resetting es inside₁ :=
    enters_first rfl ⟨.inl trivial, rfl⟩ rfl rfl
  obtain ⟨es₂, comes₂⟩ : ∃ es, Transition.Run (Step countingHost) found₁ es inside₂ :=
    enters_resetting rfl
  have run := (((Transition.Run.single hbegin).snoc hcheck).append
    (comes₁.mono fun _ _ _ hs => hs.1)).snoc hreserve₁
  refine ⟨_, stored₂, (((run.append comes₂).snoc hreserve₂).snoc hstore₁).snoc hstore₂, hlog,
    fun hsound => ?_⟩
  exact hsound.apart [] 1 1 [] 1 2 [] hlog rfl rfl

end CoreinitNx.FileSystem
