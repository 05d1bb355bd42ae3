import CoreinitNx.FileSystem.Mount

namespace CoreinitNx.FileSystem

open Paths

variable {σ : Type} {H : Host σ} {client other : FSClient} {s : State σ} {status : FSStatus}
  {op : Op} {request : Request} {requests : List Request} {path path' dir dir₀ : CString}
  {dirs : List CString}

-- The paths of a call, made from the directory; the empty one is no path.
def absolutely (dir path : CString) : CString := if path = [] then [] else enter slash dir path

def Op.under (dir : CString) : Op → Op
  | .openFile path mode handle => .openFile (path.map (absolutely dir)) mode handle
  | .openFileAsync block path mode outHandle asyncData =>
    .openFileAsync block (path.map (absolutely dir)) mode outHandle asyncData
  | .openDir path handle => .openDir (path.map (absolutely dir)) handle
  | .openDirAsync block path handle asyncData =>
    .openDirAsync block (path.map (absolutely dir)) handle asyncData
  | .makeDir path => .makeDir (path.map (absolutely dir))
  | .remove path => .remove (path.map (absolutely dir))
  | .rename oldPath newPath =>
    .rename (oldPath.map (absolutely dir)) (newPath.map (absolutely dir))
  | op => op

structure WorksIn (H : Host σ) (client : FSClient) (dir : CString) (s : State σ) : Prop where
  translated : ∀ path, path ≠ [] → ¬IsAbsolute slash path →
    translate s client path = translate s client (join slash dir path)
  calls : ∀ op, call H client op s = call H client (op.under dir) s
  getCwd : ∀ returnedPath bytes, returnedPath ≠ 0 → bytes ≠ 0 →
    (fsGetCwd client returnedPath bytes s).1.out = .cwd (dir.take (bytes.toNat - 1))

-- The directories the client has changed to since the last shutdown, which forgets them.
def visit (client : FSClient) (dirs : List CString) : Request → List CString
  | .status other (.changeDir (some path)) => if other = client then dirs ++ [path] else dirs
  | .shutdown => []
  | _ => dirs

def visited (client : FSClient) (requests : List Request) : List CString :=
  requests.foldl (visit client) []

def Stored (client : FSClient) (dirs : List CString) (s : State σ) : Prop :=
  ∀ dir ∈ dirs.getLast?, (s.client client).cwd = dir

theorem after_cwd {state : HostClient} (h : ∀ path, op ≠ .changeDir (some path)) :
    (state.after (op, status)).cwd = state.cwd := by
  rw [HostClient.after.eq_def]
  split
  next heq =>
    cases heq
    exact absurd rfl (h _)
  next heq =>
    cases heq
    split <;> rfl

theorem call_cwd (hclient : client ≠ 0)
    (h : other = client → ∀ path, op ≠ .changeDir (some path)) :
    ((call H other op s).2.client client).cwd = (s.client client).cwd := by
  by_cases hadd : op = .addClient
  · subst hadd
    simp only [call]
    fun_cases fsAddClient <;> rfl
  by_cases hdel : op = .delClient
  · subst hdel
    simp only [call]
    fun_cases fsDelClient <;> rfl
  have hnoted : Noted other op s (call H other op s) := call_noted hadd hdel
  by_cases hsame : client = other
  · subst hsame
    rw [hnoted.own hclient, after_cwd (h rfl)]
  · rw [hnoted.others client hsame]

theorem visit_status (h : other = client → ∀ path, op ≠ .changeDir (some path)) :
    visit client dirs (.status other op) = dirs := by
  rw [visit.eq_def]
  split
  next heq =>
    cases heq
    exact if_neg fun hsame => h hsame _ rfl
  next heq => cases heq
  next => rfl

theorem Stored.of_cwd {s' : State σ} (h : Stored client dirs s)
    (hcwd : (s'.client client).cwd = (s.client client).cwd) : Stored client dirs s' :=
  fun dir hdir => hcwd.trans (h dir hdir)

theorem Request.next_stored (hclient : client ≠ 0) (h : Stored client dirs s) :
    Stored client (visit client dirs request) (request.next H s) := by
  cases request with
  | status other op =>
    by_cases hchange : other = client → ∀ path, op ≠ .changeDir (some path)
    · rw [visit_status hchange]
      exact h.of_cwd (call_cwd hclient hchange)
    · push Not at hchange
      obtain ⟨rfl, path, rfl⟩ := hchange
      intro dir hdir
      rw [visit, if_pos rfl, List.getLast?_concat] at hdir
      obtain rfl := Option.some.inj hdir
      exact client_fsChangeDir hclient
  | addVolumeMapping wiiuPrefix hostPrefix =>
    refine h.of_cwd ?_
    rw [Request.next]
    fun_cases coreinitNxAddVolumeMapping <;> rfl
  | clearVolumeMappings => exact h
  | shutdown => rintro dir ⟨⟩

theorem run_stored (hclient : client ≠ 0) (h : Stored client dirs s) :
    Stored client (requests.foldl (visit client) dirs) (requests.foldl (Request.next H) s) := by
  induction requests generalizing s dirs with
  | nil => exact h
  | cons request requests ih => exact ih (Request.next_stored hclient h)

section Congruence

variable {mode : Option CString} {out : Pointer}

theorem translate_absolutely (h : ∀ path, path ≠ [] → ¬IsAbsolute slash path →
    translate s client path = translate s client (join slash dir path)) (path : CString) :
    translate s client path = translate s client (absolutely dir path) := by
  rw [absolutely]
  split
  next hnil => rw [hnil]
  next hne =>
    rw [enter]
    split
    next => rfl
    next hrel => exact h path hne hrel

theorem fsOpenFile_congr (h : translate s client path = translate s client path') :
    fsOpenFile H client (some path) mode out s = fsOpenFile H client (some path') mode out s := by
  cases mode with
  | none => rfl
  | some mode => simp only [fsOpenFile, h]

theorem fsOpenDir_congr (h : translate s client path = translate s client path') :
    fsOpenDir H client (some path) out s = fsOpenDir H client (some path') out s := by
  simp only [fsOpenDir, h]

theorem call_under (h : ∀ path, translate s client path = translate s client (absolutely dir path))
    (op : Op) : call H client op s = call H client (op.under dir) s := by
  cases op with
  | openFile path mode handle =>
    cases path with
    | none => rfl
    | some path => exact fsOpenFile_congr (h path)
  | openFileAsync block path mode outHandle asyncData =>
    cases path with
    | none => rfl
    | some path => exact congrArg (completeAsync client block asyncData) (fsOpenFile_congr (h path))
  | openDir path handle =>
    cases path with
    | none => rfl
    | some path => exact fsOpenDir_congr (h path)
  | openDirAsync block path handle asyncData =>
    cases path with
    | none => rfl
    | some path => exact congrArg (completeAsync client block asyncData) (fsOpenDir_congr (h path))
  | makeDir path =>
    cases path with
    | none => rfl
    | some path => simp only [call, Op.under, Option.map_some, fsMakeDir, h path]
  | remove path =>
    cases path with
    | none => rfl
    | some path => simp only [call, Op.under, Option.map_some, fsRemove, h path]
  | rename oldPath newPath =>
    cases oldPath with
    | none => rfl
    | some oldPath =>
      cases newPath with
      | none => rfl
      | some newPath =>
        simp only [call, Op.under, Option.map_some, fsRename, h oldPath, h newPath]
  | _ => rfl

end Congruence

theorem worksIn (hclient : client ≠ 0) (habs : IsAbsolute slash dir)
    (hcwd : (s.client client).cwd = dir) : WorksIn H client dir s := by
  have htranslated : ∀ path, path ≠ [] → ¬IsAbsolute slash path →
      translate s client path = translate s client (join slash dir path) := by
    intro path hne hrel
    have hdir : (s.client client).cwd ≠ [] := by
      rintro hnil
      rw [← hcwd, hnil] at habs
      cases habs
    rw [translate, translate, resolve_relative hne hrel hdir, hcwd,
      resolve_absolute (isAbsolute_join habs path)]
  refine ⟨htranslated, call_under (translate_absolutely htranslated), ?_⟩
  intro returnedPath bytes hpath hbytes
  rw [fsGetCwd_out hclient hpath hbytes, hcwd]

-- The first character that `FSGetCwd` answers tells.
theorem WorksIn.isAbsolute_cwd (h : WorksIn H client dir s) (hclient : client ≠ 0)
    (habs : IsAbsolute slash dir) : IsAbsolute slash (s.client client).cwd := by
  have hcwd := h.getCwd 1 2 (by decide) (by decide)
  rw [fsGetCwd_out hclient (by decide) (by decide)] at hcwd
  have htake : (s.client client).cwd.take 1 = dir.take 1 := Out.cwd.inj hcwd
  have hhead := congrArg List.head? htake
  rw [List.head?_take, List.head?_take, if_neg one_ne_zero, if_neg one_ne_zero] at hhead
  exact hhead.trans habs

theorem works_in_directory_iff (H : Host σ) (s : State σ) (requests : List Request)
    (client : FSClient) (dir : CString) (dirs : List CString) (hclient : client ≠ 0)
    (hvisited : visited client requests = dir :: dirs) (habs : IsAbsolute slash dir) :
    WorksIn H client (dirs.foldl (enter slash) dir) (requests.foldl (Request.next H) s) ↔
      IsAbsolute slash ((dir :: dirs).getLast (List.cons_ne_nil _ _)) := by
  have hnone : Stored client [] s := fun dir hdir => nomatch hdir
  have hstored : Stored client (visited client requests) (requests.foldl (Request.next H) s) :=
    run_stored hclient hnone
  rw [hvisited] at hstored
  have hcwd := hstored _ (List.getLast?_eq_some_getLast (List.cons_ne_nil dir dirs))
  constructor
  · intro h
    rw [← hcwd]
    exact h.isAbsolute_cwd hclient (isAbsolute_foldl_enter habs dirs)
  · intro hlast
    rw [foldl_enter_getLast hlast]
    exact worksIn hclient hlast hcwd

theorem works_in_directory_iff_absolute :
    let requests : List Request := [.status 1 (.changeDir (some (text "/vol"))),
      .status 1 (.changeDir (some (text "save"))), .status 1 (.changeDir (some (text "/vol/save/")))]
    WorksIn bareHost 1 (text "/vol/save/") (requests.foldl (Request.next bareHost) (State.initial ())) :=
  (works_in_directory_iff bareHost (State.initial ()) _ 1 (text "/vol")
    [text "save", text "/vol/save/"] (by decide) (by decide +kernel) (by decide +kernel)).2
    (by decide +kernel)

-- The directory is "save" and no longer "/vol/save".
theorem works_in_relative_directory :
    let requests : List Request :=
      [.status 1 (.changeDir (some (text "/vol"))), .status 1 (.changeDir (some (text "save")))]
    let s := requests.foldl (Request.next bareHost) (State.initial ())
    translate s 1 (text "x") = text "save/x" ∧ ¬WorksIn bareHost 1 (text "/vol/save") s := by
  intro requests s
  refine ⟨by decide +kernel, fun h => ?_⟩
  exact absurd (h.translated (text "x") (by decide +kernel) (by decide +kernel)) (by decide +kernel)

end CoreinitNx.FileSystem
