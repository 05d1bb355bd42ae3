import Mathlib.Data.Finset.Card
import CoreinitNx.FileSystem.LastError
import CoreinitNx.Library.Requests

namespace CoreinitNx.FileSystem

open Requests

variable {σ : Type} {H : Host σ} {client : FSClient} {s s' t : State σ} {status : FSStatus}

-- The calls whose answer `record` has seen, by their arguments and their status.
def recordsStatus (status : FSStatus) : Op → Bool
  | .openFile path mode handle => path.isSome && mode.isSome && handle != 0
  | .openFileAsync _ path mode handle _ => path.isSome && mode.isSome && handle != 0
  | .openDir path handle => path.isSome && handle != 0 && status != FSStatus.ok
  | .openDirAsync _ path handle _ => path.isSome && handle != 0 && status != FSStatus.ok
  | .remove path => path.isSome
  | .rename oldPath newPath => oldPath.isSome && newPath.isSome
  | .getMountSource _ _ => true
  | .mount _ _ => true
  | _ => false

-- What a call of the client's own, answered with `status`, makes of its directory and last error.
def HostClient.after (state : HostClient) : Op × FSStatus → HostClient
  | (.changeDir (some path), _) => { state with cwd := path }
  | (op, status) =>
    if recordsStatus status op then { state with lastError := statusToError status } else state

-- The clients added and not yet deleted, and every client's own calls since it was added last.
structure Ledger where
  added : Finset FSClient
  calls : FSClient → List (Op × FSStatus)

namespace Ledger

def initial : Ledger := ⟨∅, fun _ => []⟩

def note (l : Ledger) (client : FSClient) (op : Op) (status : FSStatus) : Ledger :=
  if client = 0 then l
  else if op = .addClient then
    ⟨insert client l.added, Function.update l.calls client []⟩
  else
    ⟨if op = .delClient then l.added.erase client else l.added,
      Function.update l.calls client (l.calls client ++ [(op, status)])⟩

def session (l : Ledger) (client : FSClient) : HostClient :=
  (l.calls client).foldl HostClient.after HostClient.fresh

-- `FSShutdown` ends every session.
def next (H : Host σ) (s : State σ) (l : Ledger) : Request → Ledger
  | .status client op => l.note client op (call H client op s).1.status
  | .addVolumeMapping _ _ => l
  | .clearVolumeMappings => l
  | .shutdown => initial

end Ledger

structure Isolated (s : State σ) (l : Ledger) : Prop where
  cwd : ∀ client, client ≠ 0 → (s.client client).cwd = (l.session client).cwd
  lastError : ∀ client, client ≠ 0 → fsGetLastError client s = (l.session client).lastError
  number : (fsGetClientNum s).toNat = l.added.card

-- The client number is one of 32 bits.
def MeetsSession (s : State σ) (l : Ledger) : Request → Prop
  | .status client .addClient =>
    client ≠ 0 → client ∉ l.added ∧ s.client client = HostClient.fresh ∧ l.added.card + 1 < 2 ^ 32
  | .status client .delClient => client ≠ 0 → client ∈ l.added ∨ l.added = ∅
  | _ => True

def session (H : Host σ) (p : State σ × Ledger) (request : Request) : State σ × Ledger :=
  (request.next H p.1, p.2.next H p.1 request)

structure Keeps (s s' : State σ) : Prop where
  clientState : s'.clientState = s.clientState
  clients : s'.clients = s.clients

-- The client's record becomes `state`, and no other record and no number changes.
structure Updates (client : FSClient) (state : HostClient) (s s' : State σ) : Prop where
  own : client ≠ 0 → s'.client client = state
  others : ∀ other, other ≠ client → s'.client other = s.client other
  clients : s'.clients = s.clients

theorem Keeps.sameClient (h : Keeps s s') : s'.client client = s.client client := by
  rw [State.client, State.client, h.clientState]

theorem Keeps.updates (h : Keeps s s') : Updates client (s.client client) s s' :=
  ⟨fun _ => h.sameClient, fun _ _ => h.sameClient, h.clients⟩

theorem client_insert_other {other : FSClient} {state : HostClient} (h : other ≠ client) :
    State.client { s with clientState := s.clientState.insert client state } other =
      s.client other := by
  rw [State.client, State.client, Std.TreeMap.getElem?_insert, if_neg]
  rw [Std.LawfulEqCmp.compare_eq_iff_eq]
  exact Ne.symm h

theorem updates_insert {state : HostClient} :
    Updates client state s { s with clientState := s.clientState.insert client state } :=
  ⟨fun _ => client_insert, fun _ hother => client_insert_other hother, rfl⟩

theorem Keeps.refl : Keeps s s := ⟨rfl, rfl⟩

theorem Keeps.trans_updates {state : HostClient} (h : Keeps s t) (hupdates : Updates client state t s') :
    Updates client state s s' :=
  ⟨hupdates.own, fun other hother => (hupdates.others other hother).trans h.sameClient,
    hupdates.clients.trans h.clients⟩

theorem Keeps.record (h : Keeps s t) :
    Updates client { s.client client with lastError := statusToError status } s
      (record client status t) := by
  rw [FileSystem.record]
  split
  next hzero => exact ⟨fun hclient => absurd hzero hclient, fun _ _ => h.sameClient, h.clients⟩
  next =>
    rw [← h.sameClient]
    exact h.trans_updates updates_insert

-- A call that is about its table and the host alone.
structure Quiet (s s' : State σ) : Prop extends Keeps s s' where
  mappings : s'.mappings = s.mappings

theorem Quiet.refl : Quiet s s := ⟨.refl, rfl⟩

theorem after_records {state : HostClient} {op : Op} (h : recordsStatus status op = true) :
    state.after (op, status) = { state with lastError := statusToError status } := by
  rw [HostClient.after.eq_def]
  split
  next heq =>
    cases heq
    cases h
  next heq =>
    cases heq
    rw [if_pos h]

section Calls

variable {buffer pos stat entry returnedPath : Pointer} {size count start bytes : UInt32}
  {handle : UInt32} {path oldPath newPath mode : Option CString} {data : Option (List UInt8)}
  {block : FSCmdBlock} {asyncData : Option FSAsyncData}

theorem fsCloseFile_quiet : Quiet s (fsCloseFile H handle s).2 := by
  rw [fsCloseFile]
  cases fileFor s handle with
  | none => exact .refl
  | some f =>
    dsimp only
    split <;> exact ⟨⟨rfl, rfl⟩, rfl⟩

theorem fsCloseDir_quiet : Quiet s (fsCloseDir H handle s).2 := by
  rw [fsCloseDir]
  cases dirFor s handle with
  | none => exact .refl
  | some d =>
    dsimp only
    split <;> exact ⟨⟨rfl, rfl⟩, rfl⟩

theorem fsReadFile_quiet {host : σ} :
    Quiet s (fsReadFile H buffer size count handle { s with host }).2 := by
  rw [fsReadFile]
  split
  next => exact ⟨⟨rfl, rfl⟩, rfl⟩
  next => split <;> exact ⟨⟨rfl, rfl⟩, rfl⟩

theorem fsReadFileWithPos_quiet : Quiet s (fsReadFileWithPos H buffer size count start handle s).2 := by
  rw [fsReadFileWithPos]
  cases fileFor s handle with
  | none => exact .refl
  | some f =>
    dsimp only
    split
    next => exact fsReadFile_quiet
    next => exact ⟨⟨rfl, rfl⟩, rfl⟩

theorem fsGetPosFile_quiet : Quiet s (fsGetPosFile H handle pos s).2 := by
  rw [fsGetPosFile]
  split
  next => exact .refl
  next =>
    cases fileFor s handle with
    | none => exact .refl
    | some f =>
      dsimp only
      split <;> exact .refl

theorem fsSetPosFile_quiet : Quiet s (fsSetPosFile H handle start s).2 := by
  rw [fsSetPosFile]
  split <;> exact ⟨⟨rfl, rfl⟩, rfl⟩

theorem fsGetStatFile_quiet : Quiet s (fsGetStatFile H handle stat s).2 := by
  rw [fsGetStatFile]
  split
  next => exact .refl
  next =>
    cases fileFor s handle with
    | none => exact .refl
    | some f =>
      dsimp only
      split
      next => exact .refl
      next =>
        split
        next => split <;> exact ⟨⟨rfl, rfl⟩, rfl⟩
        next => exact ⟨⟨rfl, rfl⟩, rfl⟩

theorem fsWriteFile_quiet {host : σ} :
    Quiet s (fsWriteFile H data size count handle { s with host }).2 := by
  cases data with
  | none => exact ⟨⟨rfl, rfl⟩, rfl⟩
  | some bytes =>
    simp only [fsWriteFile]
    split
    next => exact ⟨⟨rfl, rfl⟩, rfl⟩
    next => split <;> exact ⟨⟨rfl, rfl⟩, rfl⟩

theorem fsWriteFileWithPosAsync_quiet :
    Quiet s (fsWriteFileWithPosAsync H client block data size count start handle asyncData s).2 := by
  rw [fsWriteFileWithPosAsync]
  cases fileFor s handle with
  | none =>
    rw [completeAsync_state]
    exact .refl
  | some f =>
    dsimp only
    split
    next =>
      rw [completeAsync_state]
      exact fsWriteFile_quiet
    next =>
      rw [completeAsync_state]
      exact ⟨⟨rfl, rfl⟩, rfl⟩

theorem fsReadDir_quiet : Quiet s (fsReadDir H handle entry s).2 := by
  rw [fsReadDir]
  split
  next => exact .refl
  next =>
    cases dirFor s handle with
    | none => exact .refl
    | some d =>
      dsimp only
      split <;> exact ⟨⟨rfl, rfl⟩, rfl⟩

theorem fsMakeDir_quiet : Quiet s (fsMakeDir H client path s).2 := by
  cases path with
  | none => exact .refl
  | some path => exact ⟨⟨rfl, rfl⟩, rfl⟩

-- The clients after `result`, where `op` is the client's call.
def Noted (client : FSClient) (op : Op) (s : State σ) (result : Answer × State σ) : Prop :=
  Updates client ((s.client client).after (op, result.1.status)) s result.2

variable {op : Op}

theorem Keeps.noted {answer : Answer} (h : Keeps s s')
    (hafter : (s.client client).after (op, answer.status) = s.client client) :
    Noted client op s (answer, s') := by
  rw [Noted, hafter]
  exact h.updates

theorem Keeps.record_noted {answer : Answer} (h : Keeps s t)
    (hrecords : recordsStatus answer.status op = true) :
    Noted client op s (answer, FileSystem.record client answer.status t) := by
  rw [Noted, after_records hrecords]
  exact h.record

theorem fsOpenFile_noted :
    Noted client (.openFile path mode pos) s (fsOpenFile H client path mode pos s) := by
  cases path with
  | none => exact Keeps.refl.noted rfl
  | some path =>
    cases mode with
    | none => exact Keeps.refl.noted rfl
    | some mode =>
      simp only [fsOpenFile]
      split
      next hpos =>
        subst hpos
        exact Keeps.refl.noted rfl
      next hpos =>
        have hpos : (pos != 0) = true := bne_iff_ne.2 hpos
        split
        next => exact Keeps.record_noted ⟨rfl, rfl⟩ hpos
        next => exact Keeps.record_noted ⟨rfl, rfl⟩ hpos

theorem fsOpenDir_noted :
    Noted client (.openDir path pos) s (fsOpenDir H client path pos s) := by
  cases path with
  | none => exact Keeps.refl.noted rfl
  | some path =>
    simp only [fsOpenDir]
    split
    next hpos =>
      subst hpos
      exact Keeps.refl.noted rfl
    next hpos =>
      have hpos : (pos != 0) = true := bne_iff_ne.2 hpos
      split
      next =>
        refine Keeps.record_noted ⟨rfl, rfl⟩ ?_
        simp only [recordsStatus, Option.isSome_some, hpos]
        decide
      next =>
        refine Keeps.noted ⟨rfl, rfl⟩ ?_
        simp only [HostClient.after, recordsStatus, Option.isSome_some, hpos]
        rfl

theorem fsChangeDir_noted : Noted client (.changeDir path) s (fsChangeDir client path s) := by
  cases path with
  | none => exact Keeps.refl.noted rfl
  | some path =>
    simp only [fsChangeDir]
    split
    next hzero => exact ⟨fun hclient => absurd hzero hclient, fun _ _ => rfl, rfl⟩
    next => exact updates_insert

theorem fsGetCwd_noted :
    Noted client (.getCwd returnedPath bytes) s (fsGetCwd client returnedPath bytes s) := by
  rw [fsGetCwd]
  split
  next => exact Keeps.refl.noted rfl
  next => exact updates_insert

theorem fsRemove_noted : Noted client (.remove path) s (fsRemove H client path s) := by
  cases path with
  | none => exact Keeps.refl.noted rfl
  | some path =>
    simp only [fsRemove]
    split
    next => exact Keeps.record_noted ⟨rfl, rfl⟩ rfl
    next => exact Keeps.record_noted ⟨rfl, rfl⟩ rfl

theorem fsRename_noted :
    Noted client (.rename oldPath newPath) s (fsRename H client oldPath newPath s) := by
  cases oldPath with
  | none => exact Keeps.refl.noted rfl
  | some oldPath =>
    cases newPath with
    | none => exact Keeps.refl.noted rfl
    | some newPath => exact Keeps.record_noted ⟨rfl, rfl⟩ rfl

theorem fsGetMountSource_noted {type : UInt8} :
    Noted client (.getMountSource type pos) s (fsGetMountSource client type pos s) := by
  rw [fsGetMountSource]
  split
  next => exact Keeps.refl.record_noted rfl
  next => exact Keeps.refl.record_noted rfl

theorem fsMount_noted {source : Option UInt8} :
    Noted client (.mount source path) s (fsMount client source path s) := by
  rw [fsMount.eq_def]
  split
  next =>
    refine Keeps.record_noted ?_ rfl
    exact ⟨rfl, rfl⟩
  next => exact Keeps.refl.record_noted rfl

theorem Quiet.completeAsync {result : Answer × State σ} (h : Quiet s result.2) :
    Quiet s (completeAsync client block asyncData result).2 := by
  rw [completeAsync_state]
  exact h

theorem Noted.completeAsync {op' : Op} {result : Answer × State σ} (h : Noted client op s result)
    (hsame : ∀ state : HostClient, state.after (op', result.1.status) =
      state.after (op, result.1.status)) :
    Noted client op' s (completeAsync client block asyncData result) := by
  rw [Noted, completeAsync_state, completeAsync_status, hsame]
  exact h

theorem call_noted (hadd : op ≠ .addClient) (hdel : op ≠ .delClient) :
    Noted client op s (call H client op s) := by
  cases op with
  | addClient => exact absurd rfl hadd
  | delClient => exact absurd rfl hdel
  | openFile path mode handle => exact fsOpenFile_noted
  | closeFile handle => exact fsCloseFile_quiet.noted rfl
  | readFile buffer size count handle => exact fsReadFile_quiet.noted rfl
  | readFileWithPos buffer size count pos handle => exact fsReadFileWithPos_quiet.noted rfl
  | getPosFile handle pos => exact fsGetPosFile_quiet.noted rfl
  | setPosFile handle pos => exact fsSetPosFile_quiet.noted rfl
  | getStatFile handle stat => exact fsGetStatFile_quiet.noted rfl
  | writeFile buffer size count handle => exact fsWriteFile_quiet.noted rfl
  | changeDir path => exact fsChangeDir_noted
  | getCwd returnedPath bytes => exact fsGetCwd_noted
  | openDir path handle => exact fsOpenDir_noted
  | readDir handle entry => exact fsReadDir_quiet.noted rfl
  | closeDir handle => exact fsCloseDir_quiet.noted rfl
  | makeDir path => exact fsMakeDir_quiet.noted rfl
  | remove path => exact fsRemove_noted
  | rename oldPath newPath => exact fsRename_noted
  | getMountSource type out => exact fsGetMountSource_noted
  | mount source target => exact fsMount_noted
  | openFileAsync block path mode handle asyncData =>
    exact fsOpenFile_noted.completeAsync fun _ => rfl
  | closeFileAsync block handle asyncData =>
    exact fsCloseFile_quiet.completeAsync.noted rfl
  | readFileWithPosAsync block buffer size count pos handle asyncData =>
    exact fsReadFileWithPos_quiet.completeAsync.noted rfl
  | writeFileWithPosAsync block buffer size count pos handle asyncData =>
    exact fsWriteFileWithPosAsync_quiet.noted rfl
  | getStatFileAsync block handle stat asyncData =>
    exact fsGetStatFile_quiet.completeAsync.noted rfl
  | openDirAsync block path handle asyncData => exact fsOpenDir_noted.completeAsync fun _ => rfl
  | readDirAsync block handle entry asyncData => exact fsReadDir_quiet.completeAsync.noted rfl
  | closeDirAsync block handle asyncData => exact fsCloseDir_quiet.completeAsync.noted rfl

end Calls

variable {op : Op} {l l' : Ledger}

theorem Isolated.record (h : Isolated s l) (hclient : client ≠ 0) :
    s.client client = l.session client := by
  have herror := h.lastError client hclient
  rw [fsGetLastError_eq hclient] at herror
  calc s.client client = ⟨(s.client client).cwd, (s.client client).lastError⟩ := rfl
    _ = l.session client := by rw [h.cwd client hclient, herror]

theorem isolated_of_records (hrecords : ∀ client, client ≠ 0 → s.client client = l.session client)
    (hnumber : s.clients.toNat = l.added.card) : Isolated s l where
  cwd client hclient := by rw [hrecords client hclient]
  lastError client hclient := by rw [fsGetLastError_eq hclient, hrecords client hclient]
  number := hnumber

theorem fsGetCwd_out {returnedPath : Pointer} {bytes : UInt32} (hclient : client ≠ 0)
    (hpath : returnedPath ≠ 0) (hbytes : bytes ≠ 0) :
    (fsGetCwd client returnedPath bytes s).1.out =
      .cwd ((s.client client).cwd.take (bytes.toNat - 1)) := by
  have hgood : ¬(client = 0 ∨ returnedPath = 0 ∨ bytes = 0) := by
    rintro (hzero | hzero | hzero)
    · exact hclient hzero
    · exact hpath hzero
    · exact hbytes hzero
  rw [fsGetCwd, if_neg hgood]
  rfl

theorem Isolated.fsGetCwd {returnedPath : Pointer} {bytes : UInt32} (h : Isolated s l)
    (hclient : client ≠ 0) (hpath : returnedPath ≠ 0) (hbytes : bytes ≠ 0) :
    (FileSystem.fsGetCwd client returnedPath bytes s).1.out =
      .cwd ((l.session client).cwd.take (bytes.toNat - 1)) := by
  rw [fsGetCwd_out hclient hpath hbytes, h.cwd client hclient]

theorem session_added (hclient : client ≠ 0) (status : FSStatus) (other : FSClient) :
    (l.note client .addClient status).session other =
      if other = client then HostClient.fresh else l.session other := by
  rw [Ledger.note, if_neg hclient, if_pos rfl, Ledger.session]
  dsimp only
  rw [Function.update_apply]
  split <;> rfl

theorem session_called (hclient : client ≠ 0) (hadd : op ≠ .addClient) (other : FSClient) :
    (l.note client op status).session other =
      if other = client then (l.session client).after (op, status) else l.session other := by
  rw [Ledger.note, if_neg hclient, if_neg hadd, Ledger.session]
  dsimp only
  rw [Function.update_apply]
  split
  next => rw [List.foldl_append]; rfl
  next => rfl

theorem note_zero : l.note 0 op status = l := if_pos rfl

theorem Isolated.keeps (h : Isolated s l) (hkeeps : Keeps s s') : Isolated s' l :=
  isolated_of_records (fun _ hclient => hkeeps.sameClient.trans (h.record hclient))
    ((congrArg UInt32.toNat hkeeps.clients).trans h.number)

theorem Isolated.noted {result : Answer × State σ} (h : Isolated s l) (hadd : op ≠ .addClient)
    (hdel : op ≠ .delClient) (hnoted : Noted client op s result) :
    Isolated result.2 (l.note client op result.1.status) := by
  obtain ⟨hown, hothers, hclients⟩ := hnoted
  by_cases hclient : client = 0
  · subst hclient
    rw [note_zero]
    exact isolated_of_records (fun other hother => (hothers other hother).trans (h.record hother))
      (hclients ▸ h.number)
  · refine isolated_of_records (fun other hother => ?_) ?_
    · rw [session_called hclient hadd]
      split
      next hsame =>
        rw [hsame, hown hclient, h.record hclient]
      next hsame => rw [hothers other hsame, h.record hother]
    · rw [hclients, Ledger.note, if_neg hclient, if_neg hadd, if_neg hdel]
      exact h.number

theorem isolated_add_iff (h : Isolated s l) (hclient : client ≠ 0) :
    Isolated { s with clients := s.clients + 1 } (l.note client .addClient status) ↔
      client ∉ l.added ∧ s.client client = HostClient.fresh ∧ l.added.card + 1 < 2 ^ 32 := by
  have hadded : (l.note client .addClient status).added = insert client l.added := by
    rw [Ledger.note, if_neg hclient, if_pos rfl]
  have hnumber : s.clients.toNat = l.added.card := h.number
  have hsum : (s.clients + 1).toNat = (l.added.card + 1) % 2 ^ 32 := by
    rw [UInt32.toNat_add, hnumber]
    rfl
  have hbound := s.clients.toNat_lt
  constructor
  · intro hafter
    have hcard : (s.clients + 1).toNat = (insert client l.added).card := hadded ▸ hafter.number
    rw [hsum] at hcard
    have hnew : client ∉ l.added := by
      intro hmem
      rw [Finset.insert_eq_of_mem hmem] at hcard
      omega
    rw [Finset.card_insert_of_notMem hnew] at hcard
    have hfresh : s.client client = HostClient.fresh := by
      have hrecord := hafter.record hclient
      rw [session_added hclient, if_pos rfl] at hrecord
      exact hrecord
    exact ⟨hnew, hfresh, by omega⟩
  · rintro ⟨hnew, hfresh, hroom⟩
    refine isolated_of_records (fun other hother => ?_) ?_
    · rw [session_added hclient]
      split
      next hsame =>
        rw [hsame]
        exact hfresh
      next => exact h.record hother
    · rw [hadded, Finset.card_insert_of_notMem hnew, hsum, Nat.mod_eq_of_lt hroom]

theorem isolated_del_iff (h : Isolated s l) (hclient : client ≠ 0) :
    Isolated { s with clients := if s.clients = 0 then 0 else s.clients - 1 }
      (l.note client .delClient status) ↔ client ∈ l.added ∨ l.added = ∅ := by
  have hadded : (l.note client .delClient status).added = l.added.erase client := by
    rw [Ledger.note, if_neg hclient, if_neg nofun, if_pos rfl]
  have hnumber : s.clients.toNat = l.added.card := h.number
  have hcalled : Op.delClient ≠ .addClient := nofun
  have hrest : (if s.clients = 0 then 0 else s.clients - 1).toNat = l.added.card - 1 := by
    rw [← hnumber]
    split
    next hzero => rw [hzero]; rfl
    next hpos =>
      have hone : (1 : UInt32) ≤ s.clients := by
        rw [UInt32.le_iff_toNat_le]
        have : s.clients.toNat ≠ 0 := fun hzero => hpos (UInt32.toNat_inj.1 hzero)
        exact Nat.one_le_iff_ne_zero.2 this
      rw [UInt32.toNat_sub_of_le _ _ hone]
      rfl
  constructor
  · intro hafter
    have hcard : _ = (l.added.erase client).card := hadded ▸ hafter.number
    rw [fsGetClientNum, hrest] at hcard
    by_cases hmem : client ∈ l.added
    · exact .inl hmem
    · rw [Finset.erase_eq_of_notMem hmem] at hcard
      exact .inr (Finset.card_eq_zero.1 (by omega))
  · intro hmem
    refine isolated_of_records (fun other hother => ?_) ?_
    · rw [session_called hclient hcalled]
      by_cases hsame : other = client
      · rw [if_pos hsame, hsame]
        exact h.record hclient
      · rw [if_neg hsame]
        exact h.record hother
    · rw [hadded, hrest]
      rcases hmem with hmem | hempty
      · rw [Finset.card_erase_of_mem hmem]
      · rw [hempty]
        rfl

theorem isolated_initial (host : σ) : Isolated (State.initial host) Ledger.initial :=
  isolated_of_records (fun _ _ => rfl) rfl

theorem isolated_fsAddClient_iff (h : Isolated s l) :
    Isolated (fsAddClient client s).2 (l.note client .addClient (fsAddClient client s).1.status) ↔
      MeetsSession s l (.status client .addClient) := by
  by_cases hclient : client = 0
  · subst hclient
    rw [note_zero]
    exact iff_of_true h (absurd rfl)
  · rw [fsAddClient, if_neg hclient, isolated_add_iff h hclient]
    exact ⟨fun hmeets _ => hmeets, fun hmeets => hmeets hclient⟩

theorem isolated_fsDelClient_iff (h : Isolated s l) :
    Isolated (fsDelClient client s).2 (l.note client .delClient (fsDelClient client s).1.status) ↔
      MeetsSession s l (.status client .delClient) := by
  by_cases hclient : client = 0
  · subst hclient
    rw [note_zero]
    exact iff_of_true h (absurd rfl)
  · rw [fsDelClient, if_neg hclient, isolated_del_iff h hclient]
    exact ⟨fun hmeets _ => hmeets, fun hmeets => hmeets hclient⟩

theorem isolated_next_iff {request : Request} (h : Isolated s l) :
    Isolated (request.next H s) (l.next H s request) ↔ MeetsSession s l request := by
  cases request with
  | status client op =>
    cases op with
    | addClient => exact isolated_fsAddClient_iff h
    | delClient => exact isolated_fsDelClient_iff h
    | _ => exact iff_of_true (h.noted nofun nofun (call_noted nofun nofun)) trivial
  | addVolumeMapping wiiuPrefix hostPrefix =>
    refine iff_of_true (h.keeps ?_) trivial
    rw [Request.next, coreinitNxAddVolumeMapping.eq_def]
    split <;> exact ⟨rfl, rfl⟩
  | clearVolumeMappings => exact iff_of_true (h.keeps ⟨rfl, rfl⟩) trivial
  | shutdown => exact iff_of_true (isolated_of_records (fun _ _ => rfl) rfl) trivial

theorem sessions_isolated_iff (σ : Type) (H : Host σ) (host : σ) (requests : List Request) :
    EveryState (session H) (fun p => Isolated p.1 p.2) (State.initial host, Ledger.initial)
        requests ↔
      EveryRequest (session H) (fun p request => MeetsSession p.1 p.2 request)
        (State.initial host, Ledger.initial) requests := by
  refine everyState_iff (fun p request hp => ?_) (isolated_initial host)
  exact isolated_next_iff hp

-- A client deleted and added again keeps its directory, and one added twice counts twice.
theorem sessions_leak :
    ¬EveryState (session bareHost) (fun p => Isolated p.1 p.2) (State.initial (), Ledger.initial)
      [.status 1 .addClient, .status 1 (.changeDir (some [slash])), .status 1 .delClient,
        .status 1 .addClient] ∧
    ¬EveryState (session bareHost) (fun p => Isolated p.1 p.2) (State.initial (), Ledger.initial)
      [.status 1 .addClient, .status 1 .addClient] := by
  constructor
  · rintro ⟨-, -, -, -, hlast⟩
    exact absurd (hlast.cwd 1 (by decide)) (by decide +kernel)
  · rintro ⟨-, -, hlast⟩
    exact absurd hlast.number (by decide +kernel)

end CoreinitNx.FileSystem
