import Mathlib.Data.List.Induction
import Mathlib.Data.List.Infix
import CoreinitNx.FileSystem.LastError
import CoreinitNx.FileSystem.Streams

namespace CoreinitNx.FileSystem

open SlotTable

variable {σ : Type} {H : Host σ} {v : Sight σ} {s : State σ} {a : Held} {client : FSClient}
  {op : Op} {out : Pointer}

-- The call of which an asynchronous one is the completion.
def Op.sync : Op → Op
  | .openFileAsync _ path mode outHandle _ => .openFile path mode outHandle
  | .closeFileAsync _ handle _ => .closeFile handle
  | .readFileWithPosAsync _ buffer size count pos handle _ =>
    .readFileWithPos buffer size count pos handle
  | .getStatFileAsync _ handle stat _ => .getStatFile handle stat
  | .openDirAsync _ path handle _ => .openDir path handle
  | .readDirAsync _ handle entry _ => .readDir handle entry
  | .closeDirAsync _ handle _ => .closeDir handle
  | op => op

def Op.completion : Op → Option (FSCmdBlock × FSAsyncData)
  | .openFileAsync block _ _ _ asyncData => asyncData.map (block, ·)
  | .closeFileAsync block _ asyncData => asyncData.map (block, ·)
  | .readFileWithPosAsync block _ _ _ _ _ asyncData => asyncData.map (block, ·)
  | .getStatFileAsync block _ _ asyncData => asyncData.map (block, ·)
  | .openDirAsync block _ _ asyncData => asyncData.map (block, ·)
  | .readDirAsync block _ _ asyncData => asyncData.map (block, ·)
  | .closeDirAsync block _ asyncData => asyncData.map (block, ·)
  | _ => none

-- The one callback of an asynchronous call is given the status that the other call answers.
def Op.notify (client : FSClient) (op : Op) (a : Answer) : Answer :=
  match op.completion with
  | some (block, data) =>
    if data.callback = 0 then a
    else { a with notified := some ⟨data.callback, client, block, a.status, data.param.toUInt32⟩ }
  | none => a

theorem completeAsync_eq (client : FSClient) (block : FSCmdBlock) (asyncData : Option FSAsyncData)
    (result : Answer × State σ) : completeAsync client block asyncData result =
      (match asyncData.map (block, ·) with
        | some (block, data) =>
          if data.callback = 0 then result.1
          else { result.1 with
            notified := some ⟨data.callback, client, block, result.1.status, data.param.toUInt32⟩ }
        | none => result.1, result.2) := by
  cases asyncData with
  | none => rfl
  | some data =>
    rw [completeAsync, Option.map_some]
    dsimp only
    split <;> rfl

theorem notify_out (op : Op) (b : Answer) : (op.notify client b).out = b.out := by
  rw [Op.notify]
  split
  next => split <;> rfl
  next => rfl

-- An asynchronous call is the other one, and its callback.
theorem call_sync (H : Host σ) (client : FSClient) (s : State σ)
    (hwrite : ∀ block data size count pos handle asyncData,
      op ≠ .writeFileWithPosAsync block data size count pos handle asyncData) :
    call H client op s = (op.notify client (call H client op.sync s).1,
      (call H client op.sync s).2) := by
  cases op with
  | writeFileWithPosAsync => exact absurd rfl (hwrite _ _ _ _ _ _ _)
  | openFileAsync | closeFileAsync | readFileWithPosAsync | getStatFileAsync | openDirAsync
  | readDirAsync | closeDirAsync => exact completeAsync_eq _ _ _ _
  | _ => rfl

-- Nothing is written, neither by the call nor by the mode of the file it opens.
def Op.ReadsOnly : Op → Prop
  | .openFile _ mode _ => ∀ m ∈ mode, ReadMode m
  | .openFileAsync _ _ mode _ _ => ∀ m ∈ mode, ReadMode m
  | .writeFile _ _ _ _ | .writeFileWithPosAsync _ _ _ _ _ _ _ => False
  | _ => True

namespace Held

-- A file or a directory that is opened goes behind the handle that the call hands out.
def after (v : Sight σ) (s : State σ) (client : FSClient) (a : Held) (op : Op) (out : Out) : Held :=
  match a.serve op with
  | some (_, b) => b
  | none =>
    match op, out with
    | .openFile (some path) _ _, .handle handle =>
      a.putReader handle ((v.file s.host (translate s client path)).map fun bytes => ⟨bytes, 0⟩)
    | .openDir (some path) _, .handle handle =>
      a.putListing handle (v.directory s.host (translate s client path))
    | _, _ => a

def next (H : Host σ) (v : Sight σ) (s : State σ) (a : Held) : Request → Held
  | .status client op => a.after v s client op.sync (call H client op s).1.out
  | .shutdown => nothing
  | .addVolumeMapping _ _ | .clearVolumeMappings => a

-- The handle is a new one, and there is something to go behind it.
def Opens (v : Sight σ) (s : State σ) (client : FSClient) (a : Held) (handle : UInt32) : Op → Prop
  | .openFile (some path) _ _ =>
    a.reader handle = none ∧ (v.file s.host (translate s client path)).isSome
  | .openDir (some path) _ =>
    a.listing handle = none ∧ (v.directory s.host (translate s client path)).isSome
  | _ => False

-- A call on a handle answers what is behind it says, and no other call hands one out unopened.
def Foretells (H : Host σ) (v : Sight σ) (s : State σ) (a : Held) : Request → Prop
  | .status client op =>
    match a.serve op.sync with
    | some (expected, _) => (call H client op s).1 = op.notify client expected
    | none => ∀ handle, (call H client op s).1.out = .handle handle →
      a.Opens v s client handle op.sync
  | _ => True

end Held

def Request.ReadsOnly : Request → Prop
  | .status _ op => op.ReadsOnly
  | _ => True

-- Fewer handles are taken than there are.
def Roomy (s : State σ) : Prop :=
  s.files.countP (·.used) < 2 ^ 32 - 1 ∧ s.dirs.countP (·.used) < 2 ^ 32 - 1

structure Handed (v : Sight σ) (s : State σ) (client : FSClient) (a : Held) (op : Op)
    (result : Answer × State σ) : Prop where
  kept : Mirrored v result.2 (a.after v s client op result.1.out)
  opens : ∀ handle, result.1.out = .handle handle → a.Opens v s client handle op

theorem Mirrored.record {status : FSStatus} (hk : Mirrored v s a) :
    Mirrored v (record client status s) a := by
  rw [FileSystem.record]
  split
  next => exact hk
  next => exact ⟨hk.files, hk.dirs, hk.fits⟩

section Runs

variable (client) (hp : Promises H v) (hk : Mirrored v s a)

include hp hk

theorem call_served {expected : Answer × Held} (h : a.serve op = some expected) :
    Served v (call H client op s) expected := by
  cases op with
  | readFile => cases h; exact fsReadFile_served hp hk
  | readFileWithPos => cases h; exact fsReadFileWithPos_served hp hk
  | getPosFile => cases h; exact fsGetPosFile_served hp hk
  | setPosFile => cases h; exact fsSetPosFile_served hp hk
  | getStatFile => cases h; exact fsGetStatFile_served hp hk
  | closeFile => cases h; exact fsCloseFile_served hp hk
  | readDir => cases h; exact fsReadDir_served hp hk
  | closeDir => cases h; exact fsCloseDir_served hp hk
  | _ => cases h

theorem fsOpenFile_handed {path mode : Option CString} (hmode : ∀ m ∈ mode, ReadMode m)
    (hroom : Roomy s) :
    Handed v s client a (.openFile path mode out) (fsOpenFile H client path mode out s) := by
  cases path with
  | none => exact ⟨hk, (by rintro _ ⟨⟩)⟩
  | some path =>
    cases mode with
    | none => exact ⟨hk, (by rintro _ ⟨⟩)⟩
    | some mode =>
      rw [fsOpenFile]
      dsimp only
      split
      next => exact ⟨hk, (by rintro _ ⟨⟩)⟩
      next =>
        rcases hp.fopen s.host (translate s client path) mode (hmode mode rfl) with
          ⟨hnull, hunseen⟩ | ⟨hopen, hnew, hlisting, bytes, hfile, hlen, hstream⟩
        · rw [if_pos hnull]
          exact ⟨(hk.unseen hunseen).record, (by rintro _ ⟨⟩)⟩
        · rw [if_neg hopen]
          obtain ⟨hstored, hfree⟩ := hk.files.store (a := ⟨bytes, 0⟩) hroom.1 hopen hnew
          constructor
          · have hafter : a.after v s client (.openFile (some path) (some mode) out)
                (.handle (store s.files (H.fopen s.host (translate s client path) mode).1).1) =
                  a.putReader (store s.files (H.fopen s.host (translate s client path) mode).1).1
                    (some ⟨bytes, 0⟩) := by
              change a.putReader _ ((v.file s.host (translate s client path)).map _) = _
              rw [hfile, Option.map_some]
            refine Mirrored.record ?_
            dsimp only [answerWith]
            rw [hafter]
            refine ⟨?_, ?_, hk.put_fits fun r hr => ?_⟩
            · rw [hstream]
              exact hstored
            · rw [hlisting]
              exact hk.dirs
            · cases hr
              exact ⟨hlen, Nat.two_pow_pos 63⟩
          · rintro k ⟨⟩
            refine ⟨hfree, ?_⟩
            rw [hfile]
            rfl

theorem fsOpenDir_handed {path : Option CString} (hroom : Roomy s) :
    Handed v s client a (.openDir path out) (fsOpenDir H client path out s) := by
  cases path with
  | none => exact ⟨hk, (by rintro _ ⟨⟩)⟩
  | some path =>
    rw [fsOpenDir]
    dsimp only
    split
    next => exact ⟨hk, (by rintro _ ⟨⟩)⟩
    next =>
      rcases hp.opendir s.host (translate s client path) with
        ⟨hnull, hunseen⟩ | ⟨hopen, hnew, hstream, names, hdir, hlisting⟩
      · rw [if_pos hnull]
        exact ⟨(hk.unseen hunseen).record, (by rintro _ ⟨⟩)⟩
      · rw [if_neg hopen]
        obtain ⟨hstored, hfree⟩ := hk.dirs.store (a := names) hroom.2 hopen hnew
        constructor
        · refine ⟨?_, ?_, hk.fits⟩
          · dsimp only
            rw [hstream]
            exact hk.files
          · change Shows _ _ (Function.update a.listing _ (v.directory s.host _))
            dsimp only
            rw [hlisting, hdir]
            exact hstored
        · rintro k ⟨⟩
          refine ⟨hfree, ?_⟩
          rw [hdir]
          rfl

theorem call_handed (h : a.serve op = none) (hreads : op.ReadsOnly) (hsync : op.sync = op)
    (hroom : Roomy s) : Handed v s client a op (call H client op s) := by
  cases op with
  | readFile | readFileWithPos | getPosFile | setPosFile | getStatFile | closeFile | readDir
  | closeDir => cases h
  | openFileAsync | closeFileAsync | readFileWithPosAsync | getStatFileAsync | openDirAsync
  | readDirAsync | closeDirAsync => cases hsync
  | writeFile | writeFileWithPosAsync => exact hreads.elim
  | openFile path mode out => exact fsOpenFile_handed client hp hk hreads hroom
  | openDir path out => exact fsOpenDir_handed client hp hk hroom
  | addClient =>
    rw [call, fsAddClient]
    split
    next => exact ⟨hk, (by rintro _ ⟨⟩)⟩
    next => exact ⟨⟨hk.files, hk.dirs, hk.fits⟩, (by rintro _ ⟨⟩)⟩
  | delClient =>
    rw [call, fsDelClient]
    split
    next => exact ⟨hk, (by rintro _ ⟨⟩)⟩
    next => exact ⟨⟨hk.files, hk.dirs, hk.fits⟩, (by rintro _ ⟨⟩)⟩
  | changeDir path =>
    cases path with
    | none => exact ⟨hk, (by rintro _ ⟨⟩)⟩
    | some path =>
      rw [call, fsChangeDir]
      split
      next => exact ⟨hk, (by rintro _ ⟨⟩)⟩
      next => exact ⟨⟨hk.files, hk.dirs, hk.fits⟩, (by rintro _ ⟨⟩)⟩
  | getCwd returnedPath bytes =>
    rw [call, fsGetCwd]
    split
    next => exact ⟨hk, (by rintro _ ⟨⟩)⟩
    next => exact ⟨⟨hk.files, hk.dirs, hk.fits⟩, (by rintro _ ⟨⟩)⟩
  | makeDir path =>
    cases path with
    | none => exact ⟨hk, (by rintro _ ⟨⟩)⟩
    | some path => exact ⟨hk.unseen (hp.mkdir _ _), (by rintro _ ⟨⟩)⟩
  | remove path =>
    cases path with
    | none => exact ⟨hk, (by rintro _ ⟨⟩)⟩
    | some path =>
      have hremoved := hk.unseen (hp.remove s.host (translate s client path))
      rw [call, fsRemove]
      dsimp only
      split
      next => exact ⟨hremoved.record, (by rintro _ ⟨⟩)⟩
      next => exact ⟨(hremoved.unseen (hp.rmdir _ _)).record, (by rintro _ ⟨⟩)⟩
  | rename oldPath newPath =>
    cases oldPath with
    | none => exact ⟨hk, (by rintro _ ⟨⟩)⟩
    | some oldPath =>
      cases newPath with
      | none => exact ⟨hk, (by rintro _ ⟨⟩)⟩
      | some newPath => exact ⟨(hk.unseen (hp.rename _ _ _)).record, (by rintro _ ⟨⟩)⟩
  | getMountSource type out =>
    rw [call, fsGetMountSource]
    split
    next => exact ⟨hk.record, (by rintro _ ⟨⟩)⟩
    next => exact ⟨hk.record, (by rintro _ ⟨⟩)⟩
  | mount source target =>
    have hmapped (m : List Mapping) : Mirrored v { s with mappings := m } a :=
      ⟨hk.files, hk.dirs, hk.fits⟩
    rw [call, fsMount.eq_def]
    split
    next => exact ⟨(hmapped _).record, (by rintro _ ⟨⟩)⟩
    next => exact ⟨hk.record, (by rintro _ ⟨⟩)⟩

theorem Mirrored.step {request : Request} (hreads : request.ReadsOnly) (hroom : Roomy s) :
    a.Foretells H v s request ∧ Mirrored v (request.next H s) (a.next H v s request) := by
  cases request with
  | addVolumeMapping wiiuPrefix hostPrefix =>
    refine ⟨trivial, ?_⟩
    rw [Request.next, coreinitNxAddVolumeMapping.eq_def]
    split
    next => exact ⟨hk.files, hk.dirs, hk.fits⟩
    next => exact hk
  | clearVolumeMappings => exact ⟨trivial, hk.files, hk.dirs, hk.fits⟩
  | shutdown => exact ⟨trivial, shows_nil _, shows_nil _, nofun⟩
  | status client op =>
    have hwrite : ∀ block data size count pos handle asyncData,
        op ≠ .writeFileWithPosAsync block data size count pos handle asyncData := by
      rintro _ _ _ _ _ _ _ rfl
      exact hreads
    have hcall := call_sync H client s hwrite
    have hsync : op.sync.sync = op.sync := by cases op <;> rfl
    have hreads' : op.sync.ReadsOnly := by
      cases op with
      | writeFile | writeFileWithPosAsync => exact hreads.elim
      | openFile | openFileAsync => exact hreads
      | _ => trivial
    rw [Held.Foretells, Request.next, Held.next, hcall]
    cases hserve : a.serve op.sync with
    | some expected =>
      obtain ⟨hanswer, hkept⟩ := call_served client hp hk hserve
      dsimp only
      refine ⟨congrArg (op.notify client) hanswer, ?_⟩
      rw [Held.after.eq_def, hserve]
      exact hkept
    | none =>
      obtain ⟨hkept, hopens⟩ := call_handed client hp hk hserve hreads' hsync hroom
      dsimp only
      rw [notify_out]
      exact ⟨hopens, hkept⟩

end Runs

def held (H : Host σ) (v : Sight σ) (p : State σ × Held) (request : Request) : State σ × Held :=
  (request.next H p.1, p.2.next H v p.1 request)

theorem held_fst (requests : List Request) (p : State σ × Held) :
    (requests.foldl (held H v) p).1 = requests.foldl (Request.next H) p.1 := by
  induction requests generalizing p with
  | nil => rfl
  | cons request requests ih => exact ih _

theorem held_kept (hp : Promises H v) (host : σ) {requests : List Request}
    (hreads : ∀ request ∈ requests, request.ReadsOnly)
    (hroom : ∀ before request, before ++ [request] <+: requests →
      Roomy (before.foldl (Request.next H) (State.initial host))) :
    Mirrored v (requests.foldl (held H v) (State.initial host, Held.nothing)).1
      (requests.foldl (held H v) (State.initial host, Held.nothing)).2 := by
  induction requests using List.reverseRecOn with
  | nil => exact ⟨shows_nil _, shows_nil _, nofun⟩
  | append_singleton requests request ih =>
    have hkept := ih (fun r hr => hreads r (List.mem_append_left _ hr))
      fun before r hr => hroom before r (hr.trans (List.prefix_append _ _))
    have hroomy := hroom requests request List.prefix_rfl
    rw [← held_fst (v := v) requests (State.initial host, Held.nothing)] at hroomy
    rw [List.foldl_concat]
    exact (hkept.step hp (hreads request (by simp)) hroomy).2

-- While nothing is written, every handle is a stream of its own, or a listing, whatever is called
-- in between on the others and by whatever clients: what is opened goes behind a new handle, and
-- each call on a handle answers, or tells its callback, what the stream behind it says.
theorem handles_are_streams (hp : Promises H v) (host : σ) {requests before after : List Request}
    {request : Request} (hreads : ∀ request ∈ requests, request.ReadsOnly)
    (hroom : ∀ before request, before ++ [request] <+: requests →
      Roomy (before.foldl (Request.next H) (State.initial host)))
    (hsplit : requests = before ++ request :: after) :
    (before.foldl (held H v) (State.initial host, Held.nothing)).2.Foretells H v
      (before.foldl (Request.next H) (State.initial host)) request := by
  subst hsplit
  have hprefix : before ++ [request] <+: before ++ request :: after :=
    ⟨after, List.append_assoc before [request] after⟩
  have hkept := held_kept hp host (fun r hr => hreads r (List.mem_append_left _ hr))
    fun b r hr => hroom b r (hr.trans (List.prefix_append before _))
  have hroomy := hroom before request hprefix
  have hread := hreads request (by simp)
  rw [← held_fst (v := v) before (State.initial host, Held.nothing)] at hroomy ⊢
  exact (hkept.step hp hread hroomy).1

-- A host with one file, and one directory that it is in; it numbers what it opens.
structure Shelf where
  streams : FILE → Option Reader
  listings : DIR → Option (List CString)
  last : UInt64

namespace Shelf

def name : CString := [0x61]

def bare : Shelf := ⟨fun _ => none, fun _ => none, 0⟩

def file (path : CString) : Option (List UInt8) :=
  if path = slash :: name then some [1, 2, 3, 4, 5, 6, 7, 8] else none

def directory (path : CString) : Option (List CString) :=
  if path = [slash] then some [name] else none

def put (m : Shelf) (f : FILE) (r : Option Reader) : Shelf :=
  { m with streams := Function.update m.streams f r }

def putDir (m : Shelf) (d : DIR) (names : Option (List CString)) : Shelf :=
  { m with listings := Function.update m.listings d names }

def onStream {β : Type} (m : Shelf) (f : FILE) (none : β) (some : Reader → β) : β :=
  match m.streams f with
  | .none => none
  | .some r => some r

def shelfHost : Host Shelf where
  fopen m path _ :=
    match file path with
    | none => (0, m)
    | some bytes =>
      if m.last + 1 = 0 ∨ (m.streams (m.last + 1)).isSome then (0, m)
      else (m.last + 1, { m.put (m.last + 1) (some ⟨bytes, 0⟩) with last := m.last + 1 })
  isDirectory _ path := (directory path).isSome
  fclose m f := m.put f none
  fread m f size count :=
    m.onStream f (0, [], m) fun r =>
      let taken := r.taken (size.toNat * count.toNat)
      (UInt64.ofNat (taken.length / size.toNat), taken,
        m.put f (some (r.advance (size.toNat * count.toNat))))
  fwrite m _ _ _ _ := (0, m)
  fseek m f offset whence :=
    m.onStream f (false, m) fun r =>
      match whence with
      | .set =>
        if offset < 0 then (false, m) else (true, m.put f (some (r.seek offset.toInt.toNat)))
      | .end => (true, m.put f (some (r.seek r.bytes.length)))
  ftell m f := m.onStream f (-1) fun r => Int64.ofNat r.pos
  opendir m path :=
    match directory path with
    | none => (0, m)
    | some names =>
      if m.last + 1 = 0 ∨ (m.listings (m.last + 1)).isSome then (0, m)
      else (m.last + 1, { m.putDir (m.last + 1) (some names) with last := m.last + 1 })
  readdir m d :=
    match m.listings d with
    | none => (none, m)
    | some names => (names.head?, m.putDir d (some names.tail))
  closedir m d := m.putDir d none
  mkdir m _ := (false, m)
  remove m _ := (false, m)
  rmdir m _ := (false, m)
  rename m _ _ := (false, m)

def sight : Sight Shelf where
  stream m := m.streams
  listing m := m.listings
  file _ := file
  directory _ := directory

theorem onStream_some {β : Type} {m : Shelf} {f : FILE} {r : Reader} {x : β} {g : Reader → β}
    (h : m.streams f = some r) : m.onStream f x g = g r := by
  rw [onStream, h]

theorem eq_none_of_not_isSome {α : Type} {o : Option α} (h : ¬o.isSome) : o = none :=
  Option.not_isSome_iff_eq_none.1 h

theorem promises : Promises shelfHost sight where
  fopen m path mode _ := by
    simp only [shelfHost]
    split
    next => exact .inl ⟨rfl, rfl, rfl⟩
    next bytes hfile =>
      split
      next => exact .inl ⟨rfl, rfl, rfl⟩
      next hfree =>
        obtain ⟨hzero, hnone⟩ := not_or.1 hfree
        refine .inr ⟨hzero, eq_none_of_not_isSome hnone, rfl, bytes, hfile, ?_, rfl⟩
        rw [file] at hfile
        split at hfile
        next =>
          cases hfile
          decide
        next => cases hfile
  fclose m f r _ := ⟨rfl, rfl⟩
  fread m f r size count h _ := by
    have heq : shelfHost.fread m f size count = _ := onStream_some h
    rw [heq]
    exact ⟨rfl, rfl, rfl, rfl⟩
  seek m f r offset h hpos := by
    have hneg : ¬offset < 0 := by
      rw [Int64.lt_iff_toInt_lt]
      exact Int.not_lt.2 hpos
    have heq : shelfHost.fseek m f offset .set = _ := onStream_some h
    rw [heq]
    dsimp only
    rw [if_neg hneg]
    exact ⟨rfl, rfl, rfl⟩
  seekEnd m f r h := by
    have heq : shelfHost.fseek m f 0 .end = _ := onStream_some h
    rw [heq]
    exact ⟨rfl, rfl, rfl⟩
  ftell m f r h hpos := by
    have heq : shelfHost.ftell m f = _ := onStream_some h
    rw [heq]
    exact Int64.toInt_ofNat_of_lt hpos
  opendir m path := by
    simp only [shelfHost]
    split
    next => exact .inl ⟨rfl, rfl, rfl⟩
    next names hdir =>
      split
      next => exact .inl ⟨rfl, rfl, rfl⟩
      next hfree =>
        obtain ⟨hzero, hnone⟩ := not_or.1 hfree
        exact .inr ⟨hzero, eq_none_of_not_isSome hnone, rfl, names, hdir, rfl⟩
  readdir m d names h := by
    have h : m.listings d = some names := h
    simp only [shelfHost]
    rw [h]
    exact ⟨rfl, rfl, rfl⟩
  closedir m d names _ := ⟨rfl, rfl⟩
  mkdir _ _ := ⟨rfl, rfl⟩
  remove _ _ := ⟨rfl, rfl⟩
  rmdir _ _ := ⟨rfl, rfl⟩
  rename _ _ _ := ⟨rfl, rfl⟩

end Shelf

-- One file is open twice, and read by turns.
def readTwice : List Request :=
  [.status 1 (.openFile (some (slash :: Shelf.name)) (some [0x72]) 8),
    .status 2 (.openFileAsync 16 (some (slash :: Shelf.name)) (some [0x72]) 8 none),
    .status 1 (.readFile 32 1 2 1), .status 2 (.readFileWithPos 32 2 2 3 2),
    .status 1 (.readFile 32 1 2 1)]

theorem handles_are_streams_by_turns :
    (call Shelf.shelfHost 1 (.readFile 32 1 2 1)
      ((readTwice.take 4).foldl (Request.next Shelf.shelfHost) (State.initial Shelf.bare))).1 =
        answerWith 2 (.data [3, 4]) := by
  have hreads : ∀ request ∈ readTwice, request.ReadsOnly := by
    have hmode : ∀ m ∈ some [0x72], ReadMode m := fun m hm => .inl (Option.mem_some_iff.1 hm).symm
    rw [readTwice]
    simp only [List.forall_mem_cons]
    exact ⟨hmode, hmode, trivial, trivial, trivial, nofun⟩
  have hroomy : ∀ before ∈ readTwice.inits,
      Roomy (before.foldl (Request.next Shelf.shelfHost) (State.initial Shelf.bare)) := by
    simp only [Roomy]
    decide +kernel
  have hsplit : readTwice = readTwice.take 4 ++ .status 1 (.readFile 32 1 2 1) :: [] := rfl
  have hforetold := handles_are_streams Shelf.promises Shelf.bare hreads
    (fun before request hpre => hroomy before
      ((List.mem_inits _ _).2 ((List.prefix_append _ _).trans hpre))) hsplit
  have hexpected : (((readTwice.take 4).foldl (held Shelf.shelfHost Shelf.sight)
      (State.initial Shelf.bare, Held.nothing)).2.read 32 1 2 1).1 =
        answerWith 2 (.data [3, 4]) := by decide +kernel
  exact hforetold.trans hexpected

end CoreinitNx.FileSystem
