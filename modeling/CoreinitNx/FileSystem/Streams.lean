import CoreinitNx.FileSystem.Positions
import CoreinitNx.Library.Holdings

namespace CoreinitNx.FileSystem

open SlotTable

structure Reader where
  bytes : List UInt8
  pos : Nat
deriving DecidableEq, Repr

namespace Reader

def taken (r : Reader) (n : Nat) : List UInt8 := (r.bytes.drop r.pos).take n

def advance (r : Reader) (n : Nat) : Reader := { r with pos := r.pos + (r.taken n).length }

def seek (r : Reader) (pos : Nat) : Reader := { r with pos }

-- The bytes and the place are counted in a `long`.
def Fits (r : Reader) : Prop := r.bytes.length < 2 ^ 63 ∧ r.pos < 2 ^ 63

theorem Fits.seek {r : Reader} (h : r.Fits) (pos : UInt32) : (r.seek pos.toNat).Fits :=
  ⟨h.1, Nat.lt_trans pos.toNat_lt (by decide)⟩

theorem Fits.advance {r : Reader} (h : r.Fits) (n : Nat) : (r.advance n).Fits := by
  obtain ⟨hbytes, hpos⟩ := h
  refine ⟨hbytes, ?_⟩
  rw [Reader.advance, taken]
  have htake := List.length_take_le n (r.bytes.drop r.pos)
  have htaken : ((r.bytes.drop r.pos).take n).length ≤ (r.bytes.drop r.pos).length :=
    List.length_take_le' n _
  rw [List.length_drop] at htaken
  dsimp only
  omega

end Reader

-- What there is to see of the open streams, of the open directories and of the file system.
structure Sight (σ : Type) where
  stream : σ → FILE → Option Reader
  listing : σ → DIR → Option (List CString)
  file : σ → CString → Option (List UInt8)
  directory : σ → CString → Option (List CString)

structure Unseen {σ : Type} (v : Sight σ) (host host' : σ) : Prop where
  stream : v.stream host' = v.stream host
  listing : v.listing host' = v.listing host

-- `"r"` and `"rb"`.
def ReadMode (mode : CString) : Prop := mode = [0x72] ∨ mode = [0x72, 0x62]

-- What the C library promises of files that are only read, and of directories.
structure Promises {σ : Type} (H : Host σ) (v : Sight σ) : Prop where
  fopen : ∀ host path mode, ReadMode mode →
    (H.fopen host path mode).1 = 0 ∧ Unseen v host (H.fopen host path mode).2 ∨
    (H.fopen host path mode).1 ≠ 0 ∧ v.stream host (H.fopen host path mode).1 = none ∧
      v.listing (H.fopen host path mode).2 = v.listing host ∧
      ∃ bytes, v.file host path = some bytes ∧ bytes.length < 2 ^ 63 ∧
        v.stream (H.fopen host path mode).2 =
          Function.update (v.stream host) (H.fopen host path mode).1 (some ⟨bytes, 0⟩)
  fclose : ∀ host f r, v.stream host f = some r →
    v.listing (H.fclose host f) = v.listing host ∧
      v.stream (H.fclose host f) = Function.update (v.stream host) f none
  fread : ∀ host f r size count, v.stream host f = some r → size ≠ 0 →
    (H.fread host f size count).1 =
        UInt64.ofNat ((r.taken (size.toNat * count.toNat)).length / size.toNat) ∧
      (H.fread host f size count).2.1 = r.taken (size.toNat * count.toNat) ∧
      v.listing (H.fread host f size count).2.2 = v.listing host ∧
      v.stream (H.fread host f size count).2.2 =
        Function.update (v.stream host) f (some (r.advance (size.toNat * count.toNat)))
  seek : ∀ host f r offset, v.stream host f = some r → 0 ≤ offset.toInt →
    (H.fseek host f offset .set).1 = true ∧
      v.listing (H.fseek host f offset .set).2 = v.listing host ∧
      v.stream (H.fseek host f offset .set).2 =
        Function.update (v.stream host) f (some (r.seek offset.toInt.toNat))
  seekEnd : ∀ host f r, v.stream host f = some r →
    (H.fseek host f 0 .end).1 = true ∧
      v.listing (H.fseek host f 0 .end).2 = v.listing host ∧
      v.stream (H.fseek host f 0 .end).2 =
        Function.update (v.stream host) f (some (r.seek r.bytes.length))
  ftell : ∀ host f r, v.stream host f = some r → r.pos < 2 ^ 63 →
    (H.ftell host f).toInt = r.pos
  opendir : ∀ host path,
    (H.opendir host path).1 = 0 ∧ Unseen v host (H.opendir host path).2 ∨
    (H.opendir host path).1 ≠ 0 ∧ v.listing host (H.opendir host path).1 = none ∧
      v.stream (H.opendir host path).2 = v.stream host ∧
      ∃ names, v.directory host path = some names ∧
        v.listing (H.opendir host path).2 =
          Function.update (v.listing host) (H.opendir host path).1 (some names)
  readdir : ∀ host d names, v.listing host d = some names →
    (H.readdir host d).1 = names.head? ∧ v.stream (H.readdir host d).2 = v.stream host ∧
      v.listing (H.readdir host d).2 = Function.update (v.listing host) d (some names.tail)
  closedir : ∀ host d names, v.listing host d = some names →
    v.stream (H.closedir host d) = v.stream host ∧
      v.listing (H.closedir host d) = Function.update (v.listing host) d none
  mkdir : ∀ host path, Unseen v host (H.mkdir host path).2
  remove : ∀ host path, Unseen v host (H.remove host path).2
  rmdir : ∀ host path, Unseen v host (H.rmdir host path).2
  rename : ∀ host oldPath newPath, Unseen v host (H.rename host oldPath newPath).2

-- Handles as a game may think of them: each a stream, or what a directory has still to give.
structure Held where
  reader : FSFileHandle → Option Reader
  listing : FSDirectoryHandle → Option (List CString)

namespace Held

def nothing : Held := ⟨fun _ => none, fun _ => none⟩

def putReader (a : Held) (handle : FSFileHandle) (r : Option Reader) : Held :=
  { a with reader := Function.update a.reader handle r }

def putListing (a : Held) (handle : FSDirectoryHandle) (names : Option (List CString)) : Held :=
  { a with listing := Function.update a.listing handle names }

def onReader (a : Held) (handle : FSFileHandle) (f : Reader → Answer × Held) : Answer × Held :=
  match a.reader handle with
  | none => (answer FSStatus.fatalError, a)
  | some r => f r

def onListing (a : Held) (handle : FSDirectoryHandle) (f : List CString → Answer × Held) :
    Answer × Held :=
  match a.listing handle with
  | none => (answer FSStatus.fatalError, a)
  | some names => f names

def read (a : Held) (buffer : Pointer) (size count : UInt32) (handle : FSFileHandle) :
    Answer × Held :=
  if buffer = 0 ∨ size = 0 then (answer FSStatus.fatalError, a)
  else
    a.onReader handle fun r =>
      let taken := r.taken (size.toNat * count.toNat)
      (answerWith (UInt64.ofNat (taken.length / size.toNat)).toUInt32.toInt32 (.data taken),
        a.putReader handle (some (r.advance (size.toNat * count.toNat))))

def stat (a : Held) (handle : FSFileHandle) (stat : Pointer) : Answer × Held :=
  if stat = 0 then (answer FSStatus.fatalError, a)
  else
    a.onReader handle fun r =>
      let size := UInt32.ofNat r.bytes.length
      (answerWith FSStatus.ok (.stat size size), a)

def readDir (a : Held) (handle : FSDirectoryHandle) (entry : Pointer) : Answer × Held :=
  if entry = 0 then (answer FSStatus.fatalError, a)
  else
    a.onListing handle fun
      | [] => (answer FSStatus.end, a)
      | name :: names =>
        (answerWith FSStatus.ok (.entry (name.take 255)), a.putListing handle (some names))

-- What a call on a handle answers, and what it makes of the handle.
def serve (a : Held) : Op → Option (Answer × Held)
  | .readFile buffer size count handle => some (a.read buffer size count handle)
  | .readFileWithPos buffer size count pos handle =>
    some (a.onReader handle fun r =>
      (a.putReader handle (some (r.seek pos.toNat))).read buffer size count handle)
  | .getPosFile handle pos =>
    some (if pos = 0 then (answer FSStatus.fatalError, a)
      else a.onReader handle fun r =>
        (answerWith FSStatus.ok (.position (UInt32.ofNat r.pos)), a))
  | .setPosFile handle pos =>
    some (a.onReader handle fun r =>
      (answer FSStatus.ok, a.putReader handle (some (r.seek pos.toNat))))
  | .getStatFile handle stat => some (a.stat handle stat)
  | .closeFile handle =>
    some (a.onReader handle fun _ => (answer FSStatus.ok, a.putReader handle none))
  | .readDir handle entry => some (a.readDir handle entry)
  | .closeDir handle =>
    some (a.onListing handle fun _ => (answer FSStatus.ok, a.putListing handle none))
  | _ => none

end Held

variable {σ : Type} {H : Host σ} {v : Sight σ} {s : State σ} {a : Held} {host : σ}
  {client : FSClient} {op : Op} {handle : UInt32} {r : Reader} {names : List CString} {x : UInt64}
  {buffer stat out entry : Pointer} {size count pos : UInt32}

structure Mirrored (v : Sight σ) (s : State σ) (a : Held) : Prop where
  files : Shows s.files (v.stream s.host) a.reader
  dirs : Shows s.dirs (v.listing s.host) a.listing
  fits : ∀ handle r, a.reader handle = some r → r.Fits

structure Served (v : Sight σ) (result : Answer × State σ) (expected : Answer × Held) : Prop where
  answer : result.1 = expected.1
  kept : Mirrored v result.2 expected.2

theorem slotFor_of_find {table : Table UInt64} (h : find table handle = some x) :
    slotFor table handle = some ⟨x, true⟩ := by
  obtain ⟨hzero, hget⟩ := find_eq_some.1 h
  have hlen : ¬handle.toNat > table.length := by
    intro hout
    rw [List.getElem?_eq_none (by omega)] at hget
    cases hget
  rw [slotFor, if_neg (not_or.2 ⟨hzero, hlen⟩), hget]
  rfl

theorem slotFor_of_missing {table : Table UInt64} (h : find table handle = none) :
    slotFor table handle = none := Option.map_eq_none_iff.1 h

namespace Mirrored

theorem file (hk : Mirrored v s a) (hr : a.reader handle = some r) :
    ∃ f, fileFor s handle = some ⟨f, true⟩ ∧ find s.files handle = some f ∧ f ≠ 0 ∧
      v.stream s.host f = some r := by
  obtain ⟨f, hfind, hzero, hview⟩ := hk.files.found hr
  exact ⟨f, slotFor_of_find hfind, hfind, hzero, hview⟩

theorem no_file (hk : Mirrored v s a) (hr : a.reader handle = none) : fileFor s handle = none :=
  slotFor_of_missing (hk.files.missing hr)

theorem dir (hk : Mirrored v s a) (hn : a.listing handle = some names) :
    ∃ d, dirFor s handle = some ⟨d, true⟩ ∧ find s.dirs handle = some d ∧ d ≠ 0 ∧
      v.listing s.host d = some names := by
  obtain ⟨d, hfind, hzero, hview⟩ := hk.dirs.found hn
  exact ⟨d, slotFor_of_find hfind, hfind, hzero, hview⟩

theorem no_dir (hk : Mirrored v s a) (hn : a.listing handle = none) : dirFor s handle = none :=
  slotFor_of_missing (hk.dirs.missing hn)

theorem unseen (hk : Mirrored v s a) (h : Unseen v s.host host) : Mirrored v { s with host } a := by
  refine ⟨?_, ?_, hk.fits⟩
  · rw [h.stream]
    exact hk.files
  · rw [h.listing]
    exact hk.dirs

theorem put_fits {new : Option Reader} (hk : Mirrored v s a) (hnew : ∀ r ∈ new, r.Fits)
    (k : FSFileHandle) (r : Reader) (h : (a.putReader handle new).reader k = some r) : r.Fits := by
  change Function.update a.reader handle new k = some r at h
  by_cases hkh : k = handle
  · rw [hkh, Function.update_self] at h
    exact hnew r h
  · rw [Function.update_of_ne hkh] at h
    exact hk.fits k r h

theorem moved {f : FILE} {r' : Reader} (hk : Mirrored v s a) (hfind : find s.files handle = some f)
    (hlisting : v.listing host = v.listing s.host)
    (hstream : v.stream host = Function.update (v.stream s.host) f (some r')) (hfits : r'.Fits) :
    Mirrored v { s with host } (a.putReader handle (some r')) := by
  refine ⟨?_, ?_, hk.put_fits fun r hr => Option.some.inj hr ▸ hfits⟩
  · rw [hstream]
    exact hk.files.update hfind
  · rw [hlisting]
    exact hk.dirs

end Mirrored

theorem served_fatal (hk : Mirrored v s a) :
    Served v (answer FSStatus.fatalError, s) (answer FSStatus.fatalError, a) := ⟨rfl, hk⟩

theorem not_neg_of_toInt {p : Int64} {n : Nat} (h : p.toInt = n) : ¬p < 0 := by
  rw [Int64.lt_iff_toInt_lt, h]
  exact Int.not_lt.2 (Int.natCast_nonneg n)

theorem toUInt32_of_toInt {p : Int64} {n : Nat} (h : p.toInt = n) :
    p.toUInt64.toUInt32 = UInt32.ofNat n := by
  have hnat : p.toUInt64.toNat = n := by
    have hcond : p.toInt = _ := BitVec.toInt_eq_toNat_cond p.toBitVec
    have hlt := p.toBitVec.isLt
    change p.toBitVec.toNat = n
    split at hcond <;> omega
  rw [← UInt32.toNat_inj, UInt64.toNat_toUInt32, hnat, UInt32.toNat_ofNat']

section Calls

variable (hp : Promises H v) (hk : Mirrored v s a)

include hp hk

theorem fsReadFile_served :
    Served v (fsReadFile H buffer size count handle s) (a.read buffer size count handle) := by
  rw [fsReadFile, Held.read]
  split
  next => exact served_fatal hk
  next hok =>
    rw [Held.onReader]
    cases hr : a.reader handle with
    | none =>
      rw [hk.no_file hr]
      exact served_fatal hk
    | some r =>
      obtain ⟨f, hfile, hfind, -, hview⟩ := hk.file hr
      obtain ⟨hcount, hdata, hlisting, hstream⟩ :=
        hp.fread s.host f r size count hview fun hz => hok (.inr hz)
      rw [hfile]
      refine ⟨?_, hk.moved hfind hlisting hstream ((hk.fits _ _ hr).advance _)⟩
      dsimp only
      rw [hcount, hdata]

theorem seek_kept (hr : a.reader handle = some r) {f : FILE}
    (hfind : find s.files handle = some f) (hview : v.stream s.host f = some r) (pos : UInt32) :
    (H.fseek s.host f pos.toUInt64.toInt64 .set).1 = true ∧
      Mirrored v { s with host := (H.fseek s.host f pos.toUInt64.toInt64 .set).2 }
        (a.putReader handle (some (r.seek pos.toNat))) := by
  have hoffset := toInt_offset pos
  obtain ⟨hmoved, hlisting, hstream⟩ := hp.seek s.host f r pos.toUInt64.toInt64 hview (by omega)
  rw [hoffset, Int.toNat_natCast] at hstream
  exact ⟨hmoved, hk.moved hfind hlisting hstream ((hk.fits _ _ hr).seek pos)⟩

theorem fsReadFileWithPos_served :
    Served v (fsReadFileWithPos H buffer size count pos handle s)
      (a.onReader handle fun r =>
        (a.putReader handle (some (r.seek pos.toNat))).read buffer size count handle) := by
  rw [fsReadFileWithPos, Held.onReader]
  cases hr : a.reader handle with
  | none =>
    rw [hk.no_file hr]
    exact served_fatal hk
  | some r =>
    obtain ⟨f, hfile, hfind, -, hview⟩ := hk.file hr
    obtain ⟨hmoved, hkept⟩ := seek_kept hp hk hr hfind hview pos
    rw [hfile]
    dsimp only
    rw [if_pos hmoved]
    exact fsReadFile_served hp hkept

theorem fsSetPosFile_served :
    Served v (fsSetPosFile H handle pos s) (a.onReader handle fun r =>
      (answer FSStatus.ok, a.putReader handle (some (r.seek pos.toNat)))) := by
  rw [fsSetPosFile, Held.onReader]
  cases hr : a.reader handle with
  | none =>
    rw [hk.no_file hr]
    exact served_fatal hk
  | some r =>
    obtain ⟨f, hfile, hfind, -, hview⟩ := hk.file hr
    obtain ⟨hmoved, hkept⟩ := seek_kept hp hk hr hfind hview pos
    rw [hfile]
    refine ⟨?_, hkept⟩
    dsimp only
    rw [if_pos hmoved]

theorem fsGetPosFile_served :
    Served v (fsGetPosFile H handle out s)
      (if out = 0 then (answer FSStatus.fatalError, a)
        else a.onReader handle fun r =>
          (answerWith FSStatus.ok (.position (UInt32.ofNat r.pos)), a)) := by
  rw [fsGetPosFile]
  split
  next => exact served_fatal hk
  next =>
    rw [Held.onReader]
    cases hr : a.reader handle with
    | none =>
      rw [hk.no_file hr]
      exact served_fatal hk
    | some r =>
      obtain ⟨f, hfile, -, -, hview⟩ := hk.file hr
      have htell := hp.ftell s.host f r hview (hk.fits _ _ hr).2
      rw [hfile]
      dsimp only
      rw [if_neg (not_neg_of_toInt htell), toUInt32_of_toInt htell]
      exact ⟨rfl, hk⟩

theorem fsGetStatFile_served :
    Served v (fsGetStatFile H handle stat s) (a.stat handle stat) := by
  rw [fsGetStatFile, Held.stat]
  split
  next => exact served_fatal hk
  next =>
    rw [Held.onReader]
    cases hr : a.reader handle with
    | none =>
      rw [hk.no_file hr]
      exact served_fatal hk
    | some r =>
      obtain ⟨f, hfile, -, -, hview⟩ := hk.file hr
      obtain ⟨hbytes, hpos⟩ := hk.fits _ _ hr
      have hhere := hp.ftell s.host f r hview hpos
      obtain ⟨hmoved, hlisting, hstream⟩ := hp.seekEnd s.host f r hview
      rw [hfile]
      dsimp only
      rw [if_neg (not_neg_of_toInt hhere), if_pos hmoved]
      generalize (H.fseek s.host f 0 .end).2 = host at hlisting hstream ⊢
      have hend : v.stream host f = some (r.seek r.bytes.length) := by
        rw [hstream, Function.update_self]
      have hlast := hp.ftell host f _ hend hbytes
      obtain ⟨-, hlisting', hstream'⟩ := hp.seek host f _ (H.ftell s.host f) hend (by omega)
      -- The way to the end and back again is none.
      have hback : Unseen v s.host (H.fseek host f (H.ftell s.host f) .set).2 := by
        refine ⟨?_, hlisting'.trans hlisting⟩
        have hsame : (r.seek r.bytes.length).seek r.pos = r := rfl
        rw [hstream', hhere, Int.toNat_natCast, hsame, hstream, Function.update_idem, ← hview,
          Function.update_eq_self]
      rw [if_neg (not_neg_of_toInt hlast), toUInt32_of_toInt hlast]
      exact ⟨rfl, hk.unseen hback⟩

theorem fsCloseFile_served :
    Served v (fsCloseFile H handle s)
      (a.onReader handle fun _ => (answer FSStatus.ok, a.putReader handle none)) := by
  rw [fsCloseFile, Held.onReader]
  cases hr : a.reader handle with
  | none =>
    rw [hk.no_file hr]
    exact served_fatal hk
  | some r =>
    obtain ⟨f, hfile, hfind, hzero, hview⟩ := hk.file hr
    obtain ⟨hlisting, hstream⟩ := hp.fclose s.host f r hview
    rw [hfile]
    dsimp only
    rw [if_neg hzero]
    refine ⟨rfl, ?_, ?_, hk.put_fits nofun⟩
    · change Shows (release s.files handle) (v.stream (H.fclose s.host f)) _
      rw [hstream]
      exact hk.files.release hfind
    · change Shows s.dirs (v.listing (H.fclose s.host f)) _
      rw [hlisting]
      exact hk.dirs

theorem fsReadDir_served :
    Served v (fsReadDir H handle entry s) (a.readDir handle entry) := by
  rw [fsReadDir, Held.readDir]
  split
  next => exact served_fatal hk
  next =>
    rw [Held.onListing]
    cases hn : a.listing handle with
    | none =>
      rw [hk.no_dir hn]
      exact served_fatal hk
    | some names =>
      obtain ⟨d, hdir, hfind, -, hview⟩ := hk.dir hn
      obtain ⟨hread, hstream, hlisting⟩ := hp.readdir s.host d names hview
      have hkept : Mirrored v { s with host := (H.readdir s.host d).2 }
          (a.putListing handle (some names.tail)) := by
        refine ⟨?_, ?_, hk.fits⟩
        · rw [hstream]
          exact hk.files
        · rw [hlisting]
          exact hk.dirs.update hfind
      rw [hdir]
      dsimp only
      rw [hread]
      cases names with
      | nil =>
        have hsame : a.putListing handle (some []) = a := by
          rw [Held.putListing, ← hn, Function.update_eq_self]
        rw [List.tail_nil, hsame] at hkept
        exact ⟨rfl, hkept⟩
      | cons name names => exact ⟨rfl, hkept⟩

theorem fsCloseDir_served :
    Served v (fsCloseDir H handle s)
      (a.onListing handle fun _ => (answer FSStatus.ok, a.putListing handle none)) := by
  rw [fsCloseDir, Held.onListing]
  cases hn : a.listing handle with
  | none =>
    rw [hk.no_dir hn]
    exact served_fatal hk
  | some names =>
    obtain ⟨d, hdir, hfind, hzero, hview⟩ := hk.dir hn
    obtain ⟨hstream, hlisting⟩ := hp.closedir s.host d names hview
    rw [hdir]
    dsimp only
    rw [if_neg hzero]
    refine ⟨rfl, ?_, ?_, hk.fits⟩
    · change Shows s.files (v.stream (H.closedir s.host d)) _
      rw [hstream]
      exact hk.files
    · change Shows (release s.dirs handle) (v.listing (H.closedir s.host d)) _
      rw [hlisting]
      exact hk.dirs.release hfind

end Calls

end CoreinitNx.FileSystem
