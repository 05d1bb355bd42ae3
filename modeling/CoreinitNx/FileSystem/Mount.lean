import CoreinitNx.FileSystem.Mappings
import CoreinitNx.FileSystem.Sessions

namespace CoreinitNx.FileSystem

open Paths

variable {σ : Type} {H : Host σ} {client user : FSClient} {s s' : State σ} {status : FSStatus}
  {source : UInt8} {target path : CString} {op : Op} {request : Request} {requests : List Request}

section Calls

variable {pos : Pointer} {file mode : Option CString} {block : FSCmdBlock}
  {asyncData : Option FSAsyncData}

theorem record_mappings : (record client status s).mappings = s.mappings := by
  rw [record]
  split <;> rfl

theorem completeAsync_mappings {result : Answer × State σ} (h : result.2.mappings = s.mappings) :
    (completeAsync client block asyncData result).2.mappings = s.mappings := by
  rw [completeAsync_state]
  exact h

theorem fsOpenFile_mappings :
    (fsOpenFile H client file mode pos s).2.mappings = s.mappings := by
  fun_cases fsOpenFile
  all_goals first | rfl | exact record_mappings

theorem fsOpenDir_mappings : (fsOpenDir H client file pos s).2.mappings = s.mappings := by
  fun_cases fsOpenDir
  all_goals first | rfl | exact record_mappings

theorem fsMount_mappings :
    (fsMount client (some source) (some target) s).2.mappings = s.mappings ++ [⟨target, [slash]⟩] :=
  record_mappings

-- The mount apart, no call touches the mappings.
theorem call_mappings (h : ∀ source target, op ≠ .mount source target) :
    (call H client op s).2.mappings = s.mappings := by
  cases op with
  | mount source target => exact absurd rfl (h source target)
  | addClient =>
    simp only [call]
    fun_cases fsAddClient <;> rfl
  | delClient =>
    simp only [call]
    fun_cases fsDelClient <;> rfl
  | getPosFile handle pos => exact fsGetPosFile_quiet.mappings
  | setPosFile handle pos => exact fsSetPosFile_quiet.mappings
  | changeDir path =>
    simp only [call]
    fun_cases fsChangeDir <;> rfl
  | getCwd returnedPath bytes =>
    simp only [call]
    fun_cases fsGetCwd <;> rfl
  | makeDir path => exact fsMakeDir_quiet.mappings
  | remove path =>
    simp only [call]
    fun_cases fsRemove
    all_goals first | rfl | exact record_mappings
  | rename oldPath newPath =>
    simp only [call]
    fun_cases fsRename
    all_goals first | rfl | exact record_mappings
  | getMountSource type out =>
    simp only [call]
    fun_cases fsGetMountSource <;> exact record_mappings
  | openFile path mode handle => exact fsOpenFile_mappings
  | closeFile handle => exact fsCloseFile_quiet.mappings
  | readFile buffer size count handle => exact fsReadFile_quiet.mappings
  | readFileWithPos buffer size count pos handle => exact fsReadFileWithPos_quiet.mappings
  | getStatFile handle stat => exact fsGetStatFile_quiet.mappings
  | writeFile buffer size count handle => exact fsWriteFile_quiet.mappings
  | openDir path handle => exact fsOpenDir_mappings
  | readDir handle entry => exact fsReadDir_quiet.mappings
  | closeDir handle => exact fsCloseDir_quiet.mappings
  | openFileAsync block path mode outHandle asyncData =>
    exact completeAsync_mappings fsOpenFile_mappings
  | closeFileAsync block handle asyncData => exact fsCloseFile_quiet.completeAsync.mappings
  | readFileWithPosAsync block buffer size count pos handle asyncData =>
    exact fsReadFileWithPos_quiet.completeAsync.mappings
  | writeFileWithPosAsync block buffer size count pos handle asyncData =>
    exact fsWriteFileWithPosAsync_quiet.mappings
  | getStatFileAsync block handle stat asyncData => exact fsGetStatFile_quiet.completeAsync.mappings
  | openDirAsync block path handle asyncData => exact completeAsync_mappings fsOpenDir_mappings
  | readDirAsync block handle entry asyncData => exact fsReadDir_quiet.completeAsync.mappings
  | closeDirAsync block handle asyncData => exact fsCloseDir_quiet.completeAsync.mappings

end Calls

theorem Request.next_mappings (h : request ≠ .clearVolumeMappings) :
    ∃ more, (request.next H s).mappings = s.mappings ++ more := by
  cases request with
  | status client op =>
    by_cases hmount : ∃ source target, op = .mount source target
    · obtain ⟨source, target, rfl⟩ := hmount
      simp only [Request.next, call]
      fun_cases fsMount
      · exact ⟨_, record_mappings⟩
      · exact ⟨[], by rw [record_mappings, List.append_nil]⟩
    · refine ⟨[], ?_⟩
      rw [List.append_nil]
      exact call_mappings fun source target hop => hmount ⟨source, target, hop⟩
  | addVolumeMapping wiiuPrefix hostPrefix =>
    rw [Request.next]
    fun_cases coreinitNxAddVolumeMapping
    · exact ⟨_, rfl⟩
    · exact ⟨[], (List.append_nil _).symm⟩
  | clearVolumeMappings => exact absurd rfl h
  | shutdown => exact ⟨[], (List.append_nil _).symm⟩

theorem run_mappings (h : ∀ request ∈ requests, request ≠ .clearVolumeMappings) :
    ∃ more, (requests.foldl (Request.next H) s).mappings = s.mappings ++ more := by
  induction requests generalizing s with
  | nil => exact ⟨[], (List.append_nil _).symm⟩
  | cons request requests ih =>
    obtain ⟨hrequest, hrest⟩ := List.forall_mem_cons.1 h
    obtain ⟨more, hmore⟩ := Request.next_mappings (H := H) (s := s) hrequest
    obtain ⟨rest, hafter⟩ := ih hrest
    refine ⟨more ++ rest, ?_⟩
    rw [List.foldl_cons, hafter, hmore, List.append_assoc]

-- The request leaves the path to the mappings there are.
def Request.Spares (path : CString) : Request → Prop
  | .status _ (.mount (some _) (some key)) => ¬Covers slash key path
  | .addVolumeMapping (some key) (some _) => ¬Covers slash key path
  | .clearVolumeMappings => False
  | _ => True

def MountTakesEffect (H : Host σ) (client : FSClient) (source : UInt8) (target : CString)
    (s : State σ) : Prop :=
  (fsMount client (some source) (some target) s).1.status = FSStatus.ok ∧
    ∀ (requests : List Request) user rest, 0 ∉ rest →
      (∀ request ∈ requests, request.Spares (target ++ slash :: rest)) →
        squeeze slash
            (translate (requests.foldl (Request.next H)
              (fsMount client (some source) (some target) s).2) user (target ++ slash :: rest)) =
          squeeze slash (slash :: rest)

-- An earlier key comes to bear on the paths under the target from the shortest one it begins. There
-- the mapping makes of it what the mount would, or a still earlier one has it.
def Unopposed (mappings : List Mapping) (target : CString) : Prop :=
  ∀ earlier e later, mappings = earlier ++ e :: later → ∀ below beyond, 0 ∉ below →
    below = [] ∨ beyond = [] → target ++ slash :: below = e.wiiu ++ beyond →
      (∀ e' ∈ earlier, ¬e'.wiiu <+: target ++ slash :: below) →
        squeeze slash (e.host ++ beyond) = squeeze slash (slash :: below)

theorem firstMatch_append {mappings more : List Mapping} {m : Mapping}
    (h : firstMatch mappings path = some m) : firstMatch (mappings ++ more) path = some m := by
  rw [firstMatch, List.find?_append, ← firstMatch, h]
  rfl

theorem Unopposed.translated {mappings : List Mapping} {m : Mapping} {rest : CString}
    (h : Unopposed mappings target) (hnul : 0 ∉ rest)
    (hmatch : firstMatch (mappings ++ [⟨target, [slash]⟩]) (target ++ slash :: rest) = some m) :
    squeeze slash (m.host ++ (target ++ slash :: rest).drop m.wiiu.length) =
      squeeze slash (slash :: rest) := by
  rw [firstMatch, List.find?_append, ← firstMatch, Option.or_eq_some_iff] at hmatch
  rcases hmatch with hearly | ⟨-, hlate⟩
  · obtain ⟨⟨next, hnext⟩, earlier, later, hsplit, hnone⟩ := firstMatch_eq_some_iff.1 hearly
    rw [← hnext, List.drop_left]
    have hpath : m.wiiu ++ next = (target ++ [slash]) ++ rest := by
      rw [hnext, List.append_assoc, List.singleton_append]
    -- The key stays inside the target and its slash, or goes beyond them.
    rcases List.append_eq_append_iff.1 hpath with ⟨beyond, htarget, hrest⟩ | ⟨below, hkey, hrest⟩
    · have hshort := h earlier m later hsplit [] beyond List.not_mem_nil (.inl rfl) htarget
        fun e he hbegins => hnone e he (hbegins.trans ⟨rest, by simp⟩)
      rw [hrest, ← List.append_assoc]
      exact squeeze_append_congr hshort rest
    · have hbelow : 0 ∉ below := fun hmem => hnul (hrest ▸ List.mem_append_left _ hmem)
      have hlong := h earlier m later hsplit below [] hbelow (.inr rfl) (by simp [hkey])
        fun e he hbegins => hnone e he (hbegins.trans ⟨next, by simp [hrest]⟩)
      rw [List.append_nil] at hlong
      rw [hrest]
      exact squeeze_append_congr hlong next
  · obtain rfl := List.mem_singleton.1 (List.mem_of_find?_eq_some hlate)
    rw [List.drop_left]
    exact if_pos ⟨rfl, rfl⟩

theorem translate_of_match {m : Mapping} (habs : IsAbsolute slash path)
    (h : firstMatch s.mappings path = some m) :
    translate s user path = m.host ++ path.drop m.wiiu.length := by
  rw [translate, resolve_absolute habs, applyMappings_of_match h]

theorem run_spares (h : ∀ request ∈ requests, request.Spares path) :
    ∀ request ∈ requests, request ≠ .clearVolumeMappings := by
  rintro request hmem rfl
  exact h _ hmem

-- The mount is the last of the mappings, so there always is a match.
theorem firstMatch_mounted (mappings : List Mapping) (target rest : CString) :
    ∃ m, firstMatch (mappings ++ [⟨target, [slash]⟩]) (target ++ slash :: rest) = some m := by
  refine Option.isSome_iff_exists.1 (List.find?_isSome.2 ⟨⟨target, [slash]⟩, ?_, ?_⟩)
  · exact List.mem_append_right _ List.mem_cons_self
  · exact List.isPrefixOf_iff_prefix.2 (List.prefix_append _ _)

theorem Unopposed.takesEffect (h : Unopposed s.mappings target)
    (htarget : target = [] ∨ IsAbsolute slash target) :
    MountTakesEffect H client source target s := by
  refine ⟨rfl, fun requests user rest hnul hspares => ?_⟩
  have habs : IsAbsolute slash (target ++ slash :: rest) := by
    rcases htarget with rfl | htarget
    · rfl
    · exact isAbsolute_append htarget _
  obtain ⟨more, hmore⟩ := run_mappings (H := H)
    (s := (fsMount client (some source) (some target) s).2) (run_spares hspares)
  obtain ⟨m, hmatch⟩ := firstMatch_mounted s.mappings target rest
  rw [translate_of_match habs (m := m)]
  · exact h.translated hnul hmatch
  · rw [hmore, fsMount_mappings]
    exact firstMatch_append hmatch

theorem unopposed_of_takesEffect (h : MountTakesEffect H client source target s)
    (htarget : target = [] ∨ IsAbsolute slash target) : Unopposed s.mappings target := by
  intro earlier e later hsplit below beyond hnul _ hpath hnone
  have habs : IsAbsolute slash (target ++ slash :: below) := by
    rcases htarget with rfl | htarget
    · rfl
    · exact isAbsolute_append htarget _
  have hmatch : firstMatch s.mappings (target ++ slash :: below) = some e :=
    firstMatch_eq_some_iff.2 ⟨⟨beyond, hpath.symm⟩, earlier, later, hsplit, hnone⟩
  have htranslated := h.2 [] 0 below hnul (List.forall_mem_nil _)
  rw [translate_of_match habs (m := e) (by
    rw [List.foldl_nil, fsMount_mappings]
    exact firstMatch_append hmatch), hpath, List.drop_left] at htranslated
  exact htranslated

theorem suffix_applyMappings {mappings : List Mapping} {n : Nat}
    (h : ∀ m ∈ mappings, m.wiiu.length ≤ n) : path.drop n <:+ applyMappings mappings path := by
  cases hmatch : firstMatch mappings path with
  | none =>
    rw [applyMappings_of_none hmatch]
    exact List.drop_suffix n path
  | some m =>
    rw [applyMappings_of_match hmatch]
    have hlength := h m (List.mem_of_find?_eq_some hmatch)
    have hdrop : path.drop n <:+ path.drop m.wiiu.length := List.drop_suffix_drop_left path hlength
    exact hdrop.trans (List.suffix_append _ _)

theorem exists_longest (mappings : List Mapping) : ∃ n, ∀ m ∈ mappings, m.wiiu.length ≤ n := by
  induction mappings with
  | nil => exact ⟨0, List.forall_mem_nil _⟩
  | cons m mappings ih =>
    obtain ⟨n, hn⟩ := ih
    refine ⟨max m.wiiu.length n, List.forall_mem_cons.2 ⟨le_max_left _ _, fun m' hm' => ?_⟩⟩
    exact (hn m' hm').trans (le_max_right _ _)

theorem client_fsChangeDir (hclient : client ≠ 0) :
    ((fsChangeDir client (some path) s).2.client client).cwd = path := by
  simp only [fsChangeDir, if_neg hclient, client_insert]

-- From a directory whose name is longer than every key no relative path reaches the mount.
theorem target_of_takesEffect (h : MountTakesEffect H client source target s) :
    target = [] ∨ IsAbsolute slash target := by
  by_contra hrel
  obtain ⟨hne, hrel⟩ := not_or.1 hrel
  let mounted := (fsMount client (some source) (some target) s).2
  obtain ⟨n, hn⟩ := exists_longest mounted.mappings
  let deep : CString := List.replicate (n + 1) 0x61
  let moved := (fsChangeDir 1 (some deep) mounted).2
  have hcwd : (moved.client 1).cwd = deep := client_fsChangeDir (by decide)
  have hresolve : resolve moved 1 (target ++ [slash]) = join slash deep (target ++ [slash]) := by
    rw [resolve_relative, hcwd]
    · exact List.append_ne_nil_of_left_ne_nil hne _
    · obtain ⟨c, name, rfl⟩ := List.exists_cons_of_ne_nil hne
      exact hrel
    · rw [hcwd]
      exact List.cons_ne_nil _ _
  have hjoin : join slash deep (target ++ [slash]) = deep ++ slash :: (target ++ [slash]) := by
    refine if_neg ?_
    rw [List.getLast?_replicate, if_neg (Nat.succ_ne_zero n)]
    decide
  have hdeep : (0x61 : UInt8) ∈ (deep ++ slash :: (target ++ [slash])).drop n := by
    rw [List.drop_append_of_le_length (by simp [deep])]
    simp [deep]
  have hmem : (0x61 : UInt8) ∈ translate moved 1 (target ++ [slash]) := by
    rw [translate, hresolve, hjoin]
    exact (suffix_applyMappings hn).subset hdeep
  have htranslated := h.2 [.status 1 (.changeDir (some deep))] 1 [] List.not_mem_nil
    (List.forall_mem_singleton.2 trivial)
  exact absurd (mem_of_squeeze_eq htranslated hmem (by decide)) (by decide)

theorem mount_takes_effect_iff (H : Host σ) (client : FSClient) (source : UInt8) (target : CString)
    (s : State σ) :
    MountTakesEffect H client source target s ↔
      (target = [] ∨ IsAbsolute slash target) ∧ Unopposed s.mappings target := by
  constructor
  · intro h
    have htarget := target_of_takesEffect h
    exact ⟨htarget, unopposed_of_takesEffect h htarget⟩
  · rintro ⟨htarget, hunopposed⟩
    exact hunopposed.takesEffect htarget

-- The port has mapped "/vol" already.
theorem mount_has_no_effect :
    let s := coreinitNxAddVolumeMapping (some (text "/vol")) (some (text "/wiiu")) (State.initial ())
    translate (fsMount 1 (some 0) (some (text "/vol/external01")) s).2 1
        (text "/vol/external01/save") = text "/wiiu/external01/save" ∧
      ¬MountTakesEffect bareHost 1 0 (text "/vol/external01") s := by
  intro s
  refine ⟨by decide +kernel, fun h => ?_⟩
  have htranslated := h.2 [] 1 (text "save") (by decide +kernel) (List.forall_mem_nil _)
  exact absurd htranslated (by decide +kernel)

end CoreinitNx.FileSystem
