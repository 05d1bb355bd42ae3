import Mathlib.Logic.Function.Basic
import CoreinitNx.FileSystem.Calls

namespace CoreinitNx.FileSystem

open SlotTable

-- What there is to see of the streams of a host.
structure View (σ : Type) where
  pos : σ → FILE → Int
  contents : σ → FILE → List UInt8

-- What the C library promises of `fseek` and `ftell`.
structure Stdio {σ : Type} (H : Host σ) (view : View σ) : Prop where
  failed : ∀ host f offset whence, (H.fseek host f offset whence).1 = false →
    view.pos (H.fseek host f offset whence).2 f = view.pos host f
  set : ∀ host f offset, (H.fseek host f offset .set).1 = true →
    view.pos (H.fseek host f offset .set).2 f = offset.toInt
  others : ∀ host f offset whence g, g ≠ f →
    view.pos (H.fseek host f offset whence).2 g = view.pos host g
  contents : ∀ host f offset whence g,
    view.contents (H.fseek host f offset whence).2 g = view.contents host g
  tell : ∀ host f, ¬H.ftell host f < 0 → (H.ftell host f).toInt = view.pos host f

variable {σ : Type} {H : Host σ} {view : View σ} {s : State σ} {host : σ} {client : FSClient}
  {op : Op} {f : HostFile} {offset : Int64} {whence : Whence} {buffer stat out : Pointer}
  {size count pos : UInt32} {handle : FSFileHandle} {data : Option (List UInt8)}

def Open (s : State σ) (f : FILE) : Prop :=
  ∃ handle slot, fileFor s handle = some slot ∧ slot.object = f

def InPlace (view : View σ) (s : State σ) (host : σ) : Prop :=
  ∀ f, Open s f → view.pos host f = view.pos s.host f

structure Undisturbed (view : View σ) (s : State σ) (host : σ) : Prop where
  inPlace : InPlace view s host
  contents : ∀ f, Open s f → view.contents host f = view.contents s.host f

def Op.positional : Op → Prop
  | .readFile _ _ _ _ | .readFileWithPos _ _ _ _ _ | .readFileWithPosAsync _ _ _ _ _ _ _ => True
  | .writeFile _ _ _ _ | .writeFileWithPosAsync _ _ _ _ _ _ _ => True
  | .setPosFile _ _ | .getPosFile _ _ | .getStatFile _ _ | .getStatFileAsync _ _ _ _ => True
  | _ => False

def Op.stats : Op → Prop
  | .getStatFile _ _ | .getStatFileAsync _ _ _ _ => True
  | _ => False

def LeavesFiles (view : View σ) (s : State σ) (result : Answer × State σ) : Prop :=
  result.1.status = FSStatus.fatalError → Undisturbed view s result.2.host

structure LeavesPositions (H : Host σ) (view : View σ) (client : FSClient) (op : Op) (s : State σ) :
    Prop where
  rejected : LeavesFiles view s (call H client op s)
  stat : op.stats → InPlace view s (call H client op s).2.host

section Conditions

variable (H : Host σ) (view : View σ) (s : State σ)

-- A count of 0xFFFFFC00 reads as a rejection, with the transfer done.
def Counted (count : UInt64) (host : σ) : Prop :=
  count.toUInt32.toInt32 = FSStatus.fatalError → Undisturbed view s host

def ReadsAt (buffer : Pointer) (size count pos : UInt32) (handle : FSFileHandle) : Prop :=
  ∀ f, fileFor s handle = some f →
    let (moved, host) := H.fseek s.host f.object pos.toUInt64.toInt64 .set
    moved = true →
      if buffer = 0 ∨ size = 0 then view.pos s.host f.object = pos.toNat
      else
        let (read, _, host) := H.fread host f.object size count
        Counted view s read host

def WritesAt (data : Option (List UInt8)) (size count pos : UInt32) (handle : FSFileHandle) : Prop :=
  ∀ f, fileFor s handle = some f →
    let (moved, host) := H.fseek s.host f.object pos.toUInt64.toInt64 .set
    moved = true →
      if data = none ∨ size = 0 then view.pos s.host f.object = pos.toNat
      else
        ∀ bytes ∈ data,
          let (written, host) := H.fwrite host f.object bytes size count
          Counted view s written host

-- The way back from the end is open, or there is none.
def StatsAt (handle : FSFileHandle) (stat : Pointer) : Prop :=
  stat ≠ 0 → ∀ f, fileFor s handle = some f →
    let here := H.ftell s.host f.object
    let (moved, host) := H.fseek s.host f.object 0 .end
    ¬here < 0 → moved = true →
      (H.fseek host f.object here .set).1 = true ∨ view.pos host f.object = view.pos s.host f.object

def Harmless : Op → Prop
  | .readFile buffer size count handle =>
    ∀ f, fileFor s handle = some f → ¬(buffer = 0 ∨ size = 0) →
      let (read, _, host) := H.fread s.host f.object size count
      Counted view s read host
  | .writeFile data size count handle =>
    ∀ f, fileFor s handle = some f → ¬(data = none ∨ size = 0) → ∀ bytes ∈ data,
      let (written, host) := H.fwrite s.host f.object bytes size count
      Counted view s written host
  | .readFileWithPos buffer size count pos handle => ReadsAt H view s buffer size count pos handle
  | .readFileWithPosAsync _ buffer size count pos handle _ =>
    ReadsAt H view s buffer size count pos handle
  | .writeFileWithPosAsync _ data size count pos handle _ =>
    WritesAt H view s data size count pos handle
  | .getStatFile handle stat => StatsAt H view s handle stat
  | .getStatFileAsync _ handle stat _ => StatsAt H view s handle stat
  | _ => True

end Conditions

theorem undisturbed_refl : Undisturbed view s s.host := ⟨fun _ _ => rfl, fun _ _ => rfl⟩

theorem open_of_fileFor (h : fileFor s handle = some f) : Open s f.object := ⟨handle, f, h, rfl⟩

-- Nothing has changed but the place of one file.
structure Moved (view : View σ) (f : FILE) (host host' : σ) : Prop where
  others : ∀ g, g ≠ f → view.pos host' g = view.pos host g
  contents : ∀ g, view.contents host' g = view.contents host g

theorem Stdio.moved (hstdio : Stdio H view) (host : σ) (f : FILE) (offset : Int64) (whence : Whence) :
    Moved view f host (H.fseek host f offset whence).2 :=
  ⟨fun g hg => hstdio.others host f offset whence g hg, hstdio.contents host f offset whence⟩

theorem Moved.trans {g : FILE} {host₁ host₂ host₃ : σ} (h : Moved view g host₁ host₂)
    (h' : Moved view g host₂ host₃) : Moved view g host₁ host₃ :=
  ⟨fun f hf => (h'.others f hf).trans (h.others f hf),
    fun f => (h'.contents f).trans (h.contents f)⟩

theorem Moved.inPlace_iff (h : Moved view f.object s.host host) (hfile : fileFor s handle = some f) :
    InPlace view s host ↔ view.pos host f.object = view.pos s.host f.object := by
  constructor
  · exact fun hplace => hplace _ (open_of_fileFor hfile)
  · intro hpos g _
    by_cases hg : g = f.object
    · rw [hg, hpos]
    · exact h.others g hg

theorem Moved.undisturbed_iff (h : Moved view f.object s.host host)
    (hfile : fileFor s handle = some f) :
    Undisturbed view s host ↔ view.pos host f.object = view.pos s.host f.object := by
  rw [← h.inPlace_iff hfile]
  exact ⟨fun hsame => hsame.inPlace, fun hplace => ⟨hplace, fun g _ => h.contents g⟩⟩

theorem toInt_offset (pos : UInt32) : pos.toUInt64.toInt64.toInt = pos.toNat := by
  have hnat : pos.toUInt64.toBitVec.toNat = pos.toNat := UInt32.toNat_toUInt64 pos
  have hlt := pos.toNat_lt
  calc pos.toUInt64.toInt64.toInt = pos.toUInt64.toBitVec.toInt := rfl
    _ = pos.toUInt64.toBitVec.toNat := BitVec.toInt_eq_toNat_of_lt (by omega)
    _ = pos.toNat := congrArg Nat.cast hnat

theorem Stdio.undisturbed_set_iff (hstdio : Stdio H view) (hfile : fileFor s handle = some f)
    (hmoved : (H.fseek s.host f.object pos.toUInt64.toInt64 .set).1 = true) :
    Undisturbed view s (H.fseek s.host f.object pos.toUInt64.toInt64 .set).2 ↔
      view.pos s.host f.object = pos.toNat := by
  rw [(hstdio.moved _ _ _ _).undisturbed_iff hfile, hstdio.set _ _ _ hmoved, toInt_offset, eq_comm]

theorem Stdio.undisturbed_of_failed (hstdio : Stdio H view) (hfile : fileFor s handle = some f)
    (hfailed : ¬(H.fseek s.host f.object offset whence).1 = true) :
    Undisturbed view s (H.fseek s.host f.object offset whence).2 :=
  ((hstdio.moved _ _ _ _).undisturbed_iff hfile).2
    (hstdio.failed _ _ _ _ (eq_false_of_ne_true hfailed))

theorem leavesFiles_fatal_iff :
    LeavesFiles view s (answer FSStatus.fatalError, { s with host }) ↔ Undisturbed view s host :=
  ⟨fun h => h rfl, fun h _ => h⟩

theorem leavesFiles_fatal : LeavesFiles view s (answer FSStatus.fatalError, s) :=
  fun _ => undisturbed_refl

theorem leavesFiles_ok {t : State σ} {out : Out} :
    LeavesFiles view s (answerWith FSStatus.ok out, t) :=
  fun hstatus => absurd hstatus (show FSStatus.ok ≠ FSStatus.fatalError by decide)

theorem LeavesFiles.completeAsync {result : Answer × State σ} {block : FSCmdBlock}
    {asyncData : Option FSAsyncData} :
    LeavesFiles view s (completeAsync client block asyncData result) ↔ LeavesFiles view s result := by
  rw [LeavesFiles, completeAsync_status, completeAsync_state]
  exact Iff.rfl

theorem fsReadFile_leaves_iff (hfile : fileFor s handle = some f) :
    LeavesFiles view s (fsReadFile H buffer size count handle { s with host }) ↔
      if buffer = 0 ∨ size = 0 then Undisturbed view s host
      else
        let (read, _, host) := H.fread host f.object size count
        Counted view s read host := by
  rw [fsReadFile]
  split
  next => exact leavesFiles_fatal_iff
  next =>
    have hsame : fileFor { s with host } handle = some f := hfile
    rw [hsame]
    exact Iff.rfl

theorem fsWriteFile_leaves_iff (hfile : fileFor s handle = some f) :
    LeavesFiles view s (fsWriteFile H data size count handle { s with host }) ↔
      if data = none ∨ size = 0 then Undisturbed view s host
      else
        ∀ bytes ∈ data,
          let (written, host) := H.fwrite host f.object bytes size count
          Counted view s written host := by
  cases data with
  | none => exact leavesFiles_fatal_iff
  | some bytes =>
    have hsame : fileFor { s with host } handle = some f := hfile
    simp only [fsWriteFile, reduceCtorEq, false_or, Option.mem_some_iff, forall_eq']
    split
    next => exact leavesFiles_fatal_iff
    next =>
      rw [hsame]
      exact Iff.rfl

theorem forall_file_iff {p : HostFile → Prop} (hfile : fileFor s handle = some f) :
    (∀ g, fileFor s handle = some g → p g) ↔ p f := by
  simp only [hfile, Option.some.injEq, forall_eq']

theorem fsReadFile_leaves :
    LeavesFiles view s (fsReadFile H buffer size count handle s) ↔
      Harmless H view s (.readFile buffer size count handle) := by
  cases hfile : fileFor s handle with
  | none =>
    refine iff_of_true ?_ fun f hf => nomatch hfile.symm.trans hf
    rw [fsReadFile, hfile]
    split <;> exact leavesFiles_fatal
  | some f =>
    apply (fsReadFile_leaves_iff hfile).trans
    apply Iff.trans _ (forall_file_iff hfile).symm
    split
    next hargs => exact iff_of_true undisturbed_refl fun hgood => absurd hargs hgood
    next hargs => exact (imp_iff_right hargs).symm

theorem fsWriteFile_leaves :
    LeavesFiles view s (fsWriteFile H data size count handle s) ↔
      Harmless H view s (.writeFile data size count handle) := by
  cases hfile : fileFor s handle with
  | none =>
    refine iff_of_true ?_ fun f hf => nomatch hfile.symm.trans hf
    cases data with
    | none => exact leavesFiles_fatal
    | some bytes =>
      simp only [fsWriteFile, hfile]
      split <;> exact leavesFiles_fatal
  | some f =>
    apply (fsWriteFile_leaves_iff hfile).trans
    apply Iff.trans _ (forall_file_iff hfile).symm
    split
    next hargs => exact iff_of_true undisturbed_refl fun hgood => absurd hargs hgood
    next hargs => exact (imp_iff_right hargs).symm

theorem Stdio.fsReadFileWithPos_leaves (hstdio : Stdio H view) :
    LeavesFiles view s (fsReadFileWithPos H buffer size count pos handle s) ↔
      ReadsAt H view s buffer size count pos handle := by
  cases hfile : fileFor s handle with
  | none =>
    refine iff_of_true ?_ fun f hf => nomatch hfile.symm.trans hf
    rw [fsReadFileWithPos, hfile]
    exact leavesFiles_fatal
  | some f =>
    apply Iff.trans _ (forall_file_iff hfile).symm
    rw [fsReadFileWithPos, hfile]
    dsimp only
    split
    next hmoved =>
      rw [fsReadFile_leaves_iff hfile, forall_prop_of_true hmoved, hstdio.undisturbed_set_iff hfile hmoved]
    next hstuck =>
      refine iff_of_true ?_ fun hmoved => absurd hmoved hstuck
      exact leavesFiles_fatal_iff.2 (hstdio.undisturbed_of_failed hfile hstuck)

theorem Stdio.fsWriteFileWithPosAsync_leaves {block : FSCmdBlock} {asyncData : Option FSAsyncData}
    (hstdio : Stdio H view) :
    LeavesFiles view s
        (fsWriteFileWithPosAsync H client block data size count pos handle asyncData s) ↔
      WritesAt H view s data size count pos handle := by
  cases hfile : fileFor s handle with
  | none =>
    refine iff_of_true ?_ fun f hf => nomatch hfile.symm.trans hf
    rw [fsWriteFileWithPosAsync, hfile]
    exact LeavesFiles.completeAsync.2 leavesFiles_fatal
  | some f =>
    apply Iff.trans _ (forall_file_iff hfile).symm
    rw [fsWriteFileWithPosAsync, hfile]
    dsimp only
    split
    next hmoved =>
      rw [LeavesFiles.completeAsync, fsWriteFile_leaves_iff hfile, forall_prop_of_true hmoved,
        hstdio.undisturbed_set_iff hfile hmoved]
    next hstuck =>
      refine iff_of_true ?_ fun hmoved => absurd hmoved hstuck
      apply LeavesFiles.completeAsync.2
      exact leavesFiles_fatal_iff.2 (hstdio.undisturbed_of_failed hfile hstuck)

theorem Stdio.fsSetPosFile_leaves (hstdio : Stdio H view) :
    LeavesFiles view s (fsSetPosFile H handle pos s) := by
  rw [fsSetPosFile]
  cases hfile : fileFor s handle with
  | none => exact leavesFiles_fatal
  | some f =>
    dsimp only
    split
    next => exact leavesFiles_ok
    next hstuck => exact leavesFiles_fatal_iff.2 (hstdio.undisturbed_of_failed hfile hstuck)

theorem fsGetPosFile_leaves : LeavesFiles view s (fsGetPosFile H handle out s) := by
  fun_cases fsGetPosFile <;> exact fun _ => undisturbed_refl

-- To the end and back: the way back brings the file to where `ftell` said it was.
theorem Stdio.back_iff (hstdio : Stdio H view) (hhere : ¬H.ftell s.host f.object < 0) :
    view.pos (H.fseek host f.object (H.ftell s.host f.object) .set).2 f.object =
        view.pos s.host f.object ↔
      (H.fseek host f.object (H.ftell s.host f.object) .set).1 = true ∨
        view.pos host f.object = view.pos s.host f.object := by
  by_cases hback : (H.fseek host f.object (H.ftell s.host f.object) .set).1 = true
  · rw [hstdio.set _ _ _ hback, hstdio.tell _ _ hhere]
    exact iff_of_true rfl (.inl hback)
  · rw [hstdio.failed _ _ _ _ (eq_false_of_ne_true hback), or_iff_right hback]

theorem Stdio.fsGetStatFile_leaves (hstdio : Stdio H view) :
    LeavesFiles view s (fsGetStatFile H handle stat s) ∧
        InPlace view s (fsGetStatFile H handle stat s).2.host ↔ StatsAt H view s handle stat := by
  have hkept : LeavesFiles view s (answer FSStatus.fatalError, s) ∧ InPlace view s s.host :=
    ⟨leavesFiles_fatal, undisturbed_refl.inPlace⟩
  rw [fsGetStatFile]
  split
  next hstat => exact iff_of_true hkept fun hne => absurd hstat hne
  next hstat =>
    cases hfile : fileFor s handle with
    | none => exact iff_of_true hkept fun _ f hf => nomatch hfile.symm.trans hf
    | some f =>
      rw [StatsAt, imp_iff_right hstat, forall_file_iff hfile]
      dsimp only
      split
      next hneg => exact iff_of_true hkept fun hhere => absurd hneg hhere
      next hhere =>
        split
        next hmoved =>
          rw [imp_iff_right hhere, imp_iff_right hmoved, ← hstdio.back_iff hhere]
          have hround := (hstdio.moved s.host f.object 0 .end).trans
            (hstdio.moved _ f.object (H.ftell s.host f.object) .set)
          split
          next =>
            rw [leavesFiles_fatal_iff, hround.undisturbed_iff hfile]
            exact and_iff_left_of_imp fun hpos => (hround.inPlace_iff hfile).2 hpos
          next =>
            rw [← hround.inPlace_iff hfile]
            exact and_iff_right leavesFiles_ok
        next hstuck =>
          have hsame := hstdio.undisturbed_of_failed hfile hstuck
          refine iff_of_true ⟨leavesFiles_fatal_iff.2 hsame, hsame.inPlace⟩ fun _ hmoved => ?_
          exact absurd hmoved hstuck

theorem leavesPositions_iff (hop : ¬op.stats) :
    LeavesPositions H view client op s ↔ LeavesFiles view s (call H client op s) :=
  ⟨fun h => h.rejected, fun h => ⟨h, fun hstats => absurd hstats hop⟩⟩

theorem rejected_calls_leave_files_iff (H : Host σ) (view : View σ) (hstdio : Stdio H view)
    (client : FSClient) (op : Op) (s : State σ) (hop : op.positional) :
    LeavesPositions H view client op s ↔ Harmless H view s op := by
  cases op with
  | readFile buffer size count handle => exact (leavesPositions_iff id).trans fsReadFile_leaves
  | readFileWithPos buffer size count pos handle =>
    exact (leavesPositions_iff id).trans hstdio.fsReadFileWithPos_leaves
  | readFileWithPosAsync block buffer size count pos handle asyncData =>
    exact ((leavesPositions_iff id).trans LeavesFiles.completeAsync).trans
      hstdio.fsReadFileWithPos_leaves
  | writeFile data size count handle => exact (leavesPositions_iff id).trans fsWriteFile_leaves
  | writeFileWithPosAsync block data size count pos handle asyncData =>
    exact (leavesPositions_iff id).trans hstdio.fsWriteFileWithPosAsync_leaves
  | setPosFile handle pos =>
    exact iff_of_true ((leavesPositions_iff id).2 hstdio.fsSetPosFile_leaves) trivial
  | getPosFile handle out =>
    exact iff_of_true ((leavesPositions_iff id).2 fsGetPosFile_leaves) trivial
  | getStatFile handle stat =>
    refine Iff.trans ?_ hstdio.fsGetStatFile_leaves
    exact ⟨fun h => ⟨h.rejected, h.stat trivial⟩, fun h => ⟨h.1, fun _ => h.2⟩⟩
  | getStatFileAsync block handle stat asyncData =>
    refine Iff.trans ?_ hstdio.fsGetStatFile_leaves
    have hsame : (call H client (.getStatFileAsync block handle stat asyncData) s).2 =
        (fsGetStatFile H handle stat s).2 := completeAsync_state
    constructor
    · exact fun h => ⟨LeavesFiles.completeAsync.1 h.rejected, hsame ▸ h.stat trivial⟩
    · exact fun h => ⟨LeavesFiles.completeAsync.2 h.1, fun _ => hsame ▸ h.2⟩
  | _ => exact hop.elim

structure Stream where
  bytes : List UInt8
  pos : Int64

def Stream.target (stream : Stream) (offset : Int64) : Whence → Int64
  | .set => offset
  | .end => Int64.ofNat stream.bytes.length + offset

-- A host that has every stream in memory, and gives out the first.
def streamHost : Host (FILE → Stream) where
  fopen m _ _ := (1, Function.update m 1 { m 1 with pos := 0 })
  isDirectory _ _ := false
  fclose m _ := m
  fread m f size count :=
    let stream := m f
    let taken := (stream.bytes.drop stream.pos.toInt.toNat).take (size.toNat * count.toNat)
    ((taken.length / size.toNat).toUInt64, taken,
      Function.update m f { stream with pos := stream.pos + Int64.ofNat taken.length })
  fwrite m f data size count :=
    let stream := m f
    let start := stream.pos.toInt.toNat
    let taken := data.take (size.toNat * count.toNat)
    let before := (stream.bytes ++ List.replicate (start - stream.bytes.length) 0).take start
    ((taken.length / size.toNat).toUInt64,
      Function.update m f ⟨before ++ taken ++ stream.bytes.drop (start + taken.length),
        stream.pos + Int64.ofNat taken.length⟩)
  fseek m f offset whence :=
    let target := (m f).target offset whence
    if target < 0 then (false, m) else (true, Function.update m f { m f with pos := target })
  ftell m f := (m f).pos
  opendir m _ := (0, m)
  readdir m _ := (none, m)
  closedir m _ := m
  mkdir m _ := (false, m)
  remove m _ := (false, m)
  rmdir m _ := (false, m)
  rename m _ _ := (false, m)

def streamView : View (FILE → Stream) where
  pos m f := (m f).pos.toInt
  contents m f := (m f).bytes

theorem streamHost_stdio : Stdio streamHost streamView where
  failed m f offset whence h := by
    simp only [streamHost] at h ⊢
    split at h
    next hneg => rw [if_pos hneg]
    next => cases h
  set m f offset h := by
    simp only [streamHost] at h ⊢
    split at h
    next => cases h
    next hpos =>
      rw [if_neg hpos]
      simp only [streamView, Function.update_self, Stream.target]
  others m f offset whence g hg := by
    simp only [streamHost]
    split
    next => rfl
    next => simp only [streamView, Function.update_of_ne hg]
  contents m f offset whence g := by
    simp only [streamHost]
    split
    next => rfl
    next =>
      simp only [streamView, Function.update_apply]
      split
      next hg => rw [hg]
      next => rfl
  tell m f _ := rfl

def savedGame : FILE → Stream := fun _ => ⟨[1, 2, 3, 4, 5, 6, 7, 8], 0⟩

-- `fopen("/save", "r")`
def reading : State (FILE → Stream) :=
  (fsOpenFile streamHost 1 (some [slash, 0x73, 0x61, 0x76, 0x65]) (some [0x72]) 8
    (State.initial savedGame)).2

theorem rejected_calls_leave_files_iff_stat :
    LeavesPositions streamHost streamView 1 (.getStatFile 1 16) reading :=
  (rejected_calls_leave_files_iff streamHost streamView streamHost_stdio 1 (.getStatFile 1 16)
    reading trivial).2 fun _ f hf _ _ => .inl (by
      obtain rfl := Option.some.inj hf
      decide +kernel)

-- No buffer to read into, and the file stands at the position asked for.
theorem rejected_read_moves :
    (call streamHost 1 (.readFileWithPos 0 1 1 4 1) reading).1.status = FSStatus.fatalError ∧
      streamView.pos (call streamHost 1 (.readFileWithPos 0 1 1 4 1) reading).2.host 1 = 4 ∧
      ¬LeavesPositions streamHost streamView 1 (.readFileWithPos 0 1 1 4 1) reading := by
  refine ⟨by decide +kernel, by decide +kernel, fun h => ?_⟩
  have hopen : Open reading 1 := ⟨1, ⟨1, true⟩, by decide +kernel, rfl⟩
  have hpos := (h.rejected (by decide +kernel)).inPlace 1 hopen
  exact absurd hpos (by decide +kernel)

end CoreinitNx.FileSystem
