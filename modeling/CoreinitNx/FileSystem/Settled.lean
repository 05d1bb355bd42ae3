import CoreinitNx.FileSystem.Handles

namespace CoreinitNx.FileSystem

open SlotTable

variable {σ : Type} {H : Host σ} {sys sys' : System σ} {e : Event} {es : List Event} {t t' : Thread}
  {phase : Phase} {fs : State σ} {table : Table UInt64} {log : List (Use UInt64)} {x : UInt64}
  {slot : UInt32}

theorem kept_nil : Kept [] [] :=
  ⟨Agrees.nil.congr fun _ => find_nil, Nat.zero_lt_succ _⟩

def Unused (table : Table UInt64) (i : Nat) : Prop :=
  ∀ j slot, j < i → table[j]? = some slot → slot.used = false

-- An object is about to be put into the slot that has been found for it.
def Reserved (table : Table UInt64) (log : List (Use UInt64)) (x : UInt64) (slot : UInt32) : Prop :=
  x ≠ 0 ∧ ∃ before, Kept before log ∧ Room before ∧ reserve before = (slot, table)

theorem reserved (hk : Kept table log) (hroom : table.countP (·.used) < 2 ^ 32 - 1) (hx : x ≠ 0) :
    Reserved (reserve table).2 log x (reserve table).1 :=
  ⟨hx, table, hk, ⟨hk.length_lt, hroom⟩, rfl⟩

theorem Reserved.kept (h : Reserved table log x slot) : Kept table log := by
  obtain ⟨-, before, hk, hroom, hreserve⟩ := h
  have htable : (reserve before).2 = table := congrArg Prod.snd hreserve
  rw [← htable]
  refine ⟨hk.agrees.congr (find_reserve before), ?_⟩
  obtain ⟨_, _, _, _, _, _, hlen⟩ := store_spec hroom x
  rwa [length_reserve before x]

theorem Reserved.filled (h : Reserved table log x slot)
    (hfresh : ∀ handle, ¬StillOpen log handle x) :
    Kept (fill table slot x) (log ++ [.opened slot x]) := by
  obtain ⟨hx, before, hk, hroom, hreserve⟩ := h
  have hstore : store before x = (slot, fill table slot x) := by rw [store_eq, hreserve]
  have hagrees := agrees_store hk.agrees hroom hx hfresh
  obtain ⟨_, _, _, _, _, _, hlen⟩ := store_spec hroom x
  rw [hstore] at hagrees hlen
  exact ⟨hagrees, hlen⟩

def Locked (sys : System σ) : Prop := ∀ t, (sys.phase t).Holding → sys.lock = some t

def Filed (table : Table UInt64) (log : List (Use UInt64)) : Phase → Prop
  | .storing _ _ (.file _ _) x slot => Reserved table log x slot
  | _ => True

structure SettledFiles (sys : System σ) : Prop where
  kept : Kept sys.fs.files sys.fs.fileLog
  filed : ∀ t, Filed sys.fs.files sys.fs.fileLog (sys.phase t)

-- The table as the log has it, seen by the thread that is at it: the entry that a walk has just
-- closed counts as marked.
def Walked (table : Table UInt64) (log : List (Use UInt64)) : Phase → Prop
  | .storing _ _ (.dir _) x slot => Reserved table log x slot
  | .sweeping i n => n = table.length ∧ Unused table i ∧ Kept table log
  | .marking i n => n = table.length ∧ Unused table i ∧ Kept (table.set i ⟨0, false⟩) log
  | _ => Kept table log

structure SettledDirs (sys : System σ) : Prop where
  sole : ∀ t t', (sys.phase t).InDirs → (sys.phase t').InDirs → t = t'
  walked : ∀ t, (sys.phase t).InDirs → Walked sys.fs.dirs sys.fs.dirLog (sys.phase t)
  quiet : (∀ t, ¬(sys.phase t).InDirs) → Kept sys.fs.dirs sys.fs.dirLog

structure Settled (sys : System σ) : Prop where
  locked : Locked sys
  files : SettledFiles sys
  dirs : SettledDirs sys

theorem settled_initial (host : σ) : Settled (System.initial host) where
  locked _ h := h.elim
  files := ⟨kept_nil, fun _ => trivial⟩
  dirs := ⟨fun _ _ h => h.elim, fun _ h => h.elim, fun _ => kept_nil⟩

theorem phase_cases {Q : Phase → Prop} (t' : Thread) (h : Q ((sys.move t fs phase).phase t')) :
    t' = t ∧ Q phase ∨ t' ≠ t ∧ Q (sys.phase t') := by
  by_cases ht : t' = t
  · subst ht
    rw [move_phase_self] at h
    exact .inl ⟨rfl, h⟩
  · rw [move_phase_ne ht] at h
    exact .inr ⟨ht, h⟩

theorem Locked.free (h : Locked sys) (hlock : sys.lock = none) (t : Thread) :
    ¬(sys.phase t).Holding := by
  intro ht
  have hheld := h t ht
  rw [hlock] at hheld
  cases hheld

theorem Locked.exclusive (h : Locked sys) (ht : (sys.phase t).Holding)
    (ht' : (sys.phase t').Holding) : t' = t := by
  have hlock := h t ht
  rw [h t' ht'] at hlock
  exact Option.some.inj hlock

theorem Locked.move (h : Locked sys) (hp : phase.Holding → sys.lock = some t) :
    Locked (sys.move t fs phase) := by
  intro t' ht'
  rcases phase_cases t' ht' with ⟨rfl, hq⟩ | ⟨-, hq⟩
  · exact hp hq
  · exact h t' hq

theorem Locked.lock (h : Locked sys) (hlock : sys.lock = none) :
    Locked ((sys.setLock (some t)).goto t phase) := by
  intro t' ht'
  rcases phase_cases t' ht' with ⟨rfl, -⟩ | ⟨-, hq⟩
  · rfl
  · exact absurd hq (h.free hlock t')

theorem Locked.unlock (h : Locked sys) (ht : (sys.phase t).Holding) (hp : ¬phase.Holding) :
    Locked ((sys.setLock none).move t fs phase) := by
  intro t' ht'
  rcases phase_cases (Q := Phase.Holding) t' ht' with ⟨-, hq⟩ | ⟨hne, hq⟩
  · exact absurd hq hp
  · exact absurd (h.exclusive ht hq) hne

theorem filed_of_not_holding (hp : ¬phase.Holding) : Filed table log phase := by
  cases phase <;> first | trivial | exact absurd trivial hp

-- A step that leaves the files alone ...
theorem SettledFiles.off (h : SettledFiles sys) (hfiles : fs.files = sys.fs.files)
    (hlog : fs.fileLog = sys.fs.fileLog) (hp : Filed fs.files fs.fileLog phase) :
    SettledFiles (sys.move t fs phase) := by
  constructor
  · rw [move_fs, hfiles, hlog]
    exact h.kept
  · intro t'
    by_cases ht : t' = t
    · rw [ht, move_phase_self]
      exact hp
    · rw [move_phase_ne ht, move_fs, hfiles, hlog]
      exact h.filed t'

-- ... and one by the thread that has the lock.
theorem SettledFiles.move (hlocked : Locked sys) (ht : (sys.phase t).Holding)
    (hk : Kept fs.files fs.fileLog) (hp : Filed fs.files fs.fileLog phase) :
    SettledFiles (sys.move t fs phase) := by
  refine ⟨hk, fun t' => ?_⟩
  by_cases heq : t' = t
  · rw [heq, move_phase_self]
    exact hp
  · rw [move_phase_ne heq]
    exact filed_of_not_holding fun ht' => heq (hlocked.exclusive ht ht')

theorem kept_of_walked (hnot : ¬phase.InDirs) (h : Walked table log phase) : Kept table log := by
  cases phase with
  | storing client op opening object slot =>
    cases opening with
    | file => exact h
    | dir => exact absurd trivial hnot
  | sweeping | marking => exact absurd trivial hnot
  | idle | checking | resetting | flagging | locking | inside | unlocked => exact h

-- A step that leaves the directories alone, by a thread that is not at them ...
theorem SettledDirs.off (h : SettledDirs sys) (hold : ¬(sys.phase t).InDirs) (hp : ¬phase.InDirs)
    (hdirs : fs.dirs = sys.fs.dirs) (hlog : fs.dirLog = sys.fs.dirLog) :
    SettledDirs (sys.move t fs phase) := by
  have hback {t' : Thread} (hin : ((sys.move t fs phase).phase t').InDirs) :
      t' ≠ t ∧ (sys.phase t').InDirs := by
    rcases phase_cases t' hin with ⟨-, hq⟩ | hq
    · exact absurd hq hp
    · exact hq
  refine ⟨fun t₁ t₂ h₁ h₂ => h.sole t₁ t₂ (hback h₁).2 (hback h₂).2, fun t' hin => ?_,
    fun hquiet => ?_⟩
  · obtain ⟨hne, hin⟩ := hback hin
    rw [move_phase_ne hne, move_fs, hdirs, hlog]
    exact h.walked t' hin
  · rw [move_fs, hdirs, hlog]
    refine h.quiet fun t' hin => ?_
    have hne : t' ≠ t := by
      rintro rfl
      exact hold hin
    exact hquiet t' (by rwa [move_phase_ne hne])

theorem only_move (honly : ∀ t', (sys.phase t').InDirs → t = t') (t' : Thread)
    (hin : ((sys.move t fs phase).phase t').InDirs) : t = t' := by
  rcases phase_cases t' hin with ⟨rfl, -⟩ | ⟨-, hq⟩
  · rfl
  · exact honly t' hq

-- ... and one by the only thread that may be at them.
theorem settledDirs_move (honly : ∀ t', (sys.phase t').InDirs → t = t')
    (hwalked : Walked fs.dirs fs.dirLog phase) : SettledDirs (sys.move t fs phase) where
  sole t₁ t₂ h₁ h₂ := (only_move honly t₁ h₁).symm.trans (only_move honly t₂ h₂)
  walked t' hin := by
    rw [← only_move honly t' hin, move_phase_self]
    exact hwalked
  quiet hquiet := by
    have hphase := hquiet t
    rw [move_phase_self] at hphase
    exact kept_of_walked hphase hwalked

-- A step that also takes the lock or gives it up.
theorem settled_of {lock : Option Thread}
    (hlocked : Locked ((sys.setLock lock).move t fs phase))
    (hfiles : SettledFiles (sys.move t fs phase)) (hdirs : SettledDirs (sys.move t fs phase)) :
    Settled ((sys.setLock lock).move t fs phase) :=
  ⟨hlocked, ⟨hfiles.kept, hfiles.filed⟩, ⟨hdirs.sole, hdirs.walked, hdirs.quiet⟩⟩

-- A thread goes on without touching a table.
theorem Settled.goto (h : Settled sys) (hold : ¬(sys.phase t).InDirs) (hp : ¬phase.Holding)
    (hnot : ¬phase.InDirs) : Settled (sys.goto t phase) :=
  ⟨h.locked.move fun hq => absurd hq hp, h.files.off rfl rfl (filed_of_not_holding hp),
    h.dirs.off hold hnot rfl rfl⟩

theorem Orderly.only (h : Orderly sys t) (hp : sys.phase t = phase) (hnear : phase.NearDirs)
    (t' : Thread) (hin : (sys.phase t').InDirs) : t = t' :=
  h.alone t' hin (by rw [hp]; exact hnear)

-- A thread that comes to the directories finds them as the log has them.
theorem Settled.quiet_at (h : Settled sys) (horderly : Orderly sys t) (hp : sys.phase t = phase)
    (hnear : phase.NearDirs) (hnot : ¬phase.InDirs) : Kept sys.fs.dirs sys.fs.dirLog := by
  refine h.dirs.quiet fun t' hin => hnot ?_
  rw [← horderly.only hp hnear t' hin, hp] at hin
  exact hin

theorem Settled.walked_at (h : Settled sys) (hp : sys.phase t = phase) (hin : phase.InDirs) :
    Walked sys.fs.dirs sys.fs.dirLog phase := by
  subst hp
  exact h.dirs.walked t hin

-- The part of `FSShutdown` without the lock.
theorem Settled.walk {phase' : Phase} (h : Settled sys) (horderly : Orderly sys t)
    (hp : sys.phase t = phase) (hnear : phase.NearDirs) (hnext : ¬phase'.Holding)
    (hfiles : fs.files = sys.fs.files) (hlog : fs.fileLog = sys.fs.fileLog)
    (hwalked : Walked fs.dirs fs.dirLog phase') : Settled (sys.move t fs phase') :=
  ⟨h.locked.move fun hq => absurd hq hnext, h.files.off hfiles hlog (filed_of_not_holding hnext),
    settledDirs_move (horderly.only hp hnear) hwalked⟩

section Calls

variable {s : State σ} {client : FSClient} {op : Op} {opening : Opening}

theorem acquire_tables (h : acquire H client s opening = (x, fs)) :
    (fs.files = s.files ∧ fs.fileLog = s.fileLog) ∧ fs.dirs = s.dirs ∧ fs.dirLog = s.dirLog := by
  cases opening <;>
  · obtain ⟨-, rfl⟩ := Prod.mk.inj h
    exact ⟨⟨rfl, rfl⟩, rfl, rfl⟩

theorem storeSlot_state :
    (storeSlot client op x slot s opening).2 = fillSlot client x slot s opening := by
  cases op <;> first | rfl | exact completeAsync_state

theorem storeSlot_out : (storeSlot client op x slot s opening).1.out = .handle slot := by
  cases op <;> first | rfl | exact completeAsync_out

theorem nothing_ne {handle : UInt32} : Out.nothing ≠ .handle handle := by
  rintro ⟨⟩

theorem fsOpenFile_out {path mode : Option CString} {handle : Pointer} {h : UInt32}
    (hnone : ∀ path' mode', path = some path' → mode = some mode' → handle ≠ 0 →
      (acquire H client s (.file path' mode')).1 = 0) :
    (fsOpenFile H client path mode handle s).1.out ≠ .handle h := by
  cases path with
  | none => exact nothing_ne
  | some path =>
    cases mode with
    | none => exact nothing_ne
    | some mode =>
      simp only [fsOpenFile]
      split
      next => exact nothing_ne
      next hz =>
        have hzero : (H.fopen s.host (translate s client path) mode).1 = 0 := hnone _ _ rfl rfl hz
        rw [if_pos hzero]
        exact nothing_ne

theorem fsOpenDir_out {path : Option CString} {handle : Pointer} {h : UInt32}
    (hnone : ∀ path', path = some path' → handle ≠ 0 →
      (acquire H client s (.dir path')).1 = 0) :
    (fsOpenDir H client path handle s).1.out ≠ .handle h := by
  cases path with
  | none => exact nothing_ne
  | some path =>
    simp only [fsOpenDir]
    split
    next => exact nothing_ne
    next hz =>
      have hzero : (H.opendir s.host (translate s client path)).1 = 0 := hnone _ rfl hz
      rw [if_pos hzero]
      exact nothing_ne

-- A call that opens nothing gives out no handle.
theorem call_out (hkind : op.file ∨ op.dir)
    (hnone : ∀ opening, op.opening = some opening → (acquire H client s opening).1 = 0)
    (handle : UInt32) : (call H client op s).1.out ≠ .handle handle := by
  have hcloseFile (h : FSFileHandle) : (fsCloseFile H h s).1.out = .nothing := by
    rw [fsCloseFile]
    cases fileFor s h <;> rfl
  have hcloseDir (h : FSDirectoryHandle) : (fsCloseDir H h s).1.out = .nothing := by
    rw [fsCloseDir]
    cases dirFor s h <;> rfl
  cases op with
  | openFile path mode out =>
    refine fsOpenFile_out ?_
    rintro path mode rfl rfl hz
    exact hnone _ (if_neg hz)
  | openFileAsync block path mode out asyncData =>
    rw [call, fsOpenFileAsync, completeAsync_out]
    refine fsOpenFile_out ?_
    rintro path mode rfl rfl hz
    exact hnone _ (if_neg hz)
  | openDir path out =>
    refine fsOpenDir_out ?_
    rintro path rfl hz
    exact hnone _ (if_neg hz)
  | openDirAsync block path out asyncData =>
    rw [call, fsOpenDirAsync, completeAsync_out]
    refine fsOpenDir_out ?_
    rintro path rfl hz
    exact hnone _ (if_neg hz)
  | closeFile h =>
    rw [call, hcloseFile]
    exact nothing_ne
  | closeFileAsync block h asyncData =>
    rw [call, fsCloseFileAsync, completeAsync_out, hcloseFile]
    exact nothing_ne
  | closeDir h =>
    rw [call, hcloseDir]
    exact nothing_ne
  | closeDirAsync block h asyncData =>
    rw [call, fsCloseDirAsync, completeAsync_out, hcloseDir]
    exact nothing_ne
  | _ => exact (hkind.elim id id).elim

end Calls

theorem closeFiles_kept {s : State σ} (h : Kept s.files s.fileLog) :
    Kept (closeFiles H s).files (closeFiles H s).fileLog := by
  have hfrom : Agrees (find ([] ++ s.files)) s.fileLog := h.agrees
  exact ⟨agrees_sweep_all hfrom h.length_lt nofun, Nat.zero_lt_succ _⟩

theorem sweepDir_walked {s : State σ} {i n : Nat} {d : HostDir}
    (hget : s.dirs[i]? = some d) (h : Walked s.dirs s.dirLog (.sweeping i n)) :
    Walked (sweepDir H d s).dirs (sweepDir H d s).dirLog (.marking i n) := by
  obtain ⟨hn, hunused, hkept⟩ := h
  refine ⟨hn, hunused, agrees_sweep hkept.agrees hkept.length_lt hget, ?_⟩
  rw [List.length_set]
  exact hkept.length_lt

theorem markDir_walked {s : State σ} {i n : Nat} (h : Walked s.dirs s.dirLog (.marking i n)) :
    Walked (markDir i s).dirs (markDir i s).dirLog (.sweeping (i + 1) n) := by
  obtain ⟨hn, hunused, hkept⟩ := h
  refine ⟨hn.trans (List.length_set).symm, ?_, hkept⟩
  intro j slot hj hget
  by_cases hij : i = j
  · subst hij
    rw [markDir, List.getElem?_set_self'] at hget
    obtain ⟨_, -, rfl⟩ := Option.map_eq_some_iff.1 hget
    rfl
  · rw [markDir, List.getElem?_set_ne hij] at hget
    exact hunused j slot (by omega) hget

theorem clearDirs_kept {s : State σ} {n : Nat} (h : Walked s.dirs s.dirLog (.sweeping n n)) :
    Kept (clearDirs s).dirs (clearDirs s).dirLog := by
  obtain ⟨hn, hunused, hkept⟩ := h
  refine ⟨agrees_clear hkept.agrees fun slot hmem => ?_, Nat.zero_lt_succ _⟩
  obtain ⟨j, hlt, hget⟩ := List.mem_iff_getElem.1 hmem
  exact hunused j slot (hn ▸ hlt) (List.getElem?_eq_some_iff.2 ⟨hlt, hget⟩)

theorem setLock_self {lock : Option Thread} (h : sys.lock = lock) : sys.setLock lock = sys := by
  rw [System.setLock, ← h]

theorem setInited_self {inited : Bool} (h : sys.inited = inited) : { sys with inited } = sys := by
  rw [← h]

theorem goto_setLock {lock : Option Thread} :
    (sys.goto t phase).setLock lock = (sys.setLock lock).goto t phase := rfl

theorem goto_setInited {inited : Bool} :
    { sys.goto t phase with inited } = { sys with inited }.goto t phase := rfl

theorem Settled.setInited {inited : Bool} (h : Settled sys) : Settled { sys with inited } :=
  ⟨h.locked, ⟨h.files.kept, h.files.filed⟩, ⟨h.dirs.sole, h.dirs.walked, h.dirs.quiet⟩⟩

section Orderly

variable {client : FSClient} {op : Op} {opening : Opening}

theorem file_of_opening {path mode : CString} (hop : op.opening = some (.file path mode)) :
    op.file := by
  unfold Op.opening at hop
  split at hop <;> first | trivial | cases hop | (split at hop <;> cases hop)

theorem dir_of_opening {path : CString} (hop : op.opening = some (.dir path)) : op.dir := by
  unfold Op.opening at hop
  split at hop <;> first | trivial | cases hop | (split at hop <;> cases hop)

theorem Settled.called (h : Settled sys) (hp : sys.phase t = .inside (.call client op))
    (hkind : op.file ∨ op.dir)
    (hnone : ∀ opening, op.opening = some opening → (acquire H client sys.fs opening).1 = 0)
    (hhost : HostDistinct sys ((sys.setLock none).move t (FileSystem.call H client op sys.fs).2 .idle))
    (horderly : Orderly sys t) :
    Settled ((sys.setLock none).move t (FileSystem.call H client op sys.fs).2 .idle) := by
  have hheld : (sys.phase t).Holding := by rw [hp]; trivial
  have hold : ¬(sys.phase t).InDirs := by rw [hp]; exact id
  have hout := call_out (H := H) (s := sys.fs) hkind hnone
  rcases hkind with hop | hop
  · have hchange : ChangesFiles sys.fs (FileSystem.call H client op sys.fs) := call_changesFiles hop
    have hkept := hchange.change.kept_by h.files.kept (fun ⟨_, heq⟩ => absurd heq (hout _)) hhost.1
    exact settled_of (h.locked.unlock hheld id) (.move h.locked hheld hkept trivial)
      (h.dirs.off hold id hchange.dirs hchange.dirLog)
  · have hchange : ChangesDirs sys.fs (FileSystem.call H client op sys.fs) := call_changesDirs hop
    have hquiet := h.quiet_at horderly hp hop id
    have hkept := hchange.change.kept_by hquiet (fun ⟨_, heq⟩ => absurd heq (hout _)) hhost.2
    exact settled_of (h.locked.unlock hheld id) (h.files.off hchange.files hchange.fileLog trivial)
      (settledDirs_move (horderly.only hp hop) hkept)

theorem Settled.reserve {object : Pointer} (h : Settled sys)
    (hp : sys.phase t = .inside (.call client op)) (hop : op.opening = some opening)
    (hacquire : acquire H client sys.fs opening = (object, fs)) (hx : object ≠ 0)
    (horderly : Orderly sys t) :
    Settled (sys.move t (reserveSlot fs opening).2
      (.storing client op opening object (reserveSlot fs opening).1)) := by
  have hheld : (sys.phase t).Holding := by rw [hp]; trivial
  have hold : ¬(sys.phase t).InDirs := by rw [hp]; exact id
  obtain ⟨⟨hfiles, hfileLog⟩, hdirs, hdirLog⟩ := acquire_tables hacquire
  have hlocked : Locked (sys.move t (reserveSlot fs opening).2
      (.storing client op opening object (reserveSlot fs opening).1)) :=
    h.locked.move fun _ => h.locked t hheld
  cases opening with
  | file path mode =>
    have hroom := horderly.file_room (by rw [hp]; exact ⟨path, mode, hop⟩)
    have hreserved := reserved h.files.kept hroom hx
    rw [← hfiles, ← hfileLog] at hreserved
    exact ⟨hlocked, .move h.locked hheld hreserved.kept hreserved,
      h.dirs.off hold id hdirs hdirLog⟩
  | dir path =>
    have hnear : (Phase.inside (.call client op)).NearDirs := dir_of_opening hop
    have hroom := horderly.dir_room (by rw [hp]; exact ⟨path, hop⟩)
    have hreserved := reserved (h.quiet_at horderly hp hnear id) hroom hx
    rw [← hdirs, ← hdirLog] at hreserved
    exact ⟨hlocked, h.files.off hfiles hfileLog trivial,
      settledDirs_move (horderly.only hp hnear) hreserved⟩

theorem Settled.store {object : Pointer} {slot : UInt32} (h : Settled sys)
    (hp : sys.phase t = .storing client op opening object slot)
    (hhost : HostDistinct sys
      ((sys.setLock none).move t (storeSlot client op object slot sys.fs opening).2 .idle))
    (horderly : Orderly sys t) :
    Settled ((sys.setLock none).move t (storeSlot client op object slot sys.fs opening).2 .idle) := by
  have hheld : (sys.phase t).Holding := by rw [hp]; trivial
  rw [storeSlot_state] at hhost ⊢
  cases opening with
  | file path mode =>
    have hreserved := h.files.filed t
    rw [hp] at hreserved
    have hkept := hreserved.filled (hhost.1 slot object record_fileLog)
    refine settled_of (h.locked.unlock hheld id) (.move h.locked hheld ?_ trivial)
      (h.dirs.off (by rw [hp]; exact id) id record_dirs record_dirLog)
    rw [fillSlot, record_files, record_fileLog]
    exact hkept
  | dir path =>
    have hreserved : Reserved _ _ _ _ := h.walked_at hp trivial
    have hkept := hreserved.filled (hhost.2 slot object rfl)
    exact settled_of (h.locked.unlock hheld id) (h.files.off rfl rfl trivial)
      (settledDirs_move (horderly.only hp trivial) hkept)

end Orderly

theorem OrderlyStep.settled (hs : OrderlyStep H sys e sys') (h : Settled sys) : Settled sys' := by
  obtain ⟨hstep, hhost, horderly⟩ := hs
  cases hstep with
  | rejected => exact h
  | begin hp | inited hp | uninited hp => exact h.goto (by rw [hp]; exact id) id id
  | reset hp =>
    rw [setLock_self (horderly.first _ hp)]
    exact h.goto (by rw [hp]; exact id) id id
  | flag hp => exact h.setInited.goto (by rw [hp]; exact id) id id
  | lock hp hlock =>
    exact settled_of (h.locked.lock hlock) (h.files.off rfl rfl trivial)
      (h.dirs.off (by rw [hp]; exact id) id rfl rfl)
  | call hp hkind hnone => exact h.called hp hkind hnone hhost horderly
  | reserve hp hop hacquire hx => exact h.reserve hp hop hacquire hx horderly
  | store hp => exact h.store hp hhost horderly
  | @shutdownFiles t hp =>
    have hheld : (sys.phase t).Holding := by rw [hp]; trivial
    have hfiles := closeFiles_kept (H := H) h.files.kept
    exact settled_of (h.locked.unlock hheld id) (.move h.locked hheld hfiles trivial)
      (h.dirs.off (by rw [hp]; exact id) id rfl rfl)
  | beginDirs hp =>
    have hquiet := h.quiet_at horderly hp trivial id
    exact h.walk horderly hp trivial id rfl rfl
      ⟨rfl, fun j _ hj => absurd hj (Nat.not_lt_zero j), hquiet⟩
  | sweepDir hp _ hget =>
    exact h.walk horderly hp trivial id rfl rfl (sweepDir_walked hget (h.walked_at hp trivial))
  | markDir hp =>
    exact h.walk horderly hp trivial id rfl rfl (markDir_walked (h.walked_at hp trivial))
  | clearDirs hp =>
    exact h.walk horderly hp trivial id rfl rfl (clearDirs_kept (h.walked_at hp trivial))

theorem settled_run (run : Transition.Run (OrderlyStep H) sys es sys') (h : Settled sys) :
    Settled sys' := by
  induction run with
  | nil => exact h
  | snoc _ hs ih => exact hs.settled ih

end CoreinitNx.FileSystem
