import CoreinitNx.Census.Basic

namespace CoreinitNx.Census

open Rpx

namespace DirEntry

-- What the tool takes the entry's title to be called.
def title : DirEntry → Str
  | .file name => (splitext name).1
  | .directory name _ => name

def modules (path : Str) : DirEntry → List Str
  | .file name => if isModule name then [join path name] else []
  | .directory name entries => modulesIn ((DirEntry.directory name entries).walk path)

end DirEntry

-- Every path below a directory starts with this.
def base (path : Str) : Str :=
  if path = [] ∨ path.getLast? = some '/' then path else path ++ ['/']

inductive ModuleAt : Str → List DirEntry → Str → Prop where
  | here {path name : Str} {entries : List DirEntry} (hentry : DirEntry.file name ∈ entries)
      (hmodule : isModule name = true) : ModuleAt path entries (join path name)
  | inside {path name p : Str} {entries inner : List DirEntry}
      (hentry : DirEntry.directory name inner ∈ entries)
      (hinner : ModuleAt (join path name) inner p) : ModuleAt path entries p

structure LosesNone (root : Str) (dir : Directory) (titles : Dict Str (List Str)) : Prop where
  one_title : ∀ path, ModuleAt root dir.entries path →
    ∃! title, ∃ files, titles.get? title = some files ∧ path ∈ files
  own_title : ∀ entry ∈ dir.entries, entry.modules root ≠ [] →
    titles.get? entry.title = some (sorted (entry.modules root))
  number : titles.total List.length = (findRpx root (.directory dir)).length

def DistinctTitles (root : Str) (dir : Directory) : Prop :=
  ∀ a ∈ dir.entries, ∀ b ∈ dir.entries, a.modules root ≠ [] → b.modules root ≠ [] →
    a.title = b.title → a = b

variable {path root p name : Str} {entry : DirEntry} {entries : List DirEntry}

theorem mem_sorted {names : List Str} : p ∈ sorted names ↔ p ∈ names :=
  (List.perm_insertionSort _ names).mem_iff

theorem length_sorted (names : List Str) : (sorted names).length = names.length :=
  (List.perm_insertionSort _ names).length_eq

section Walk

theorem modulesIn_append (xs ys : List (Str × List Str)) :
    modulesIn (xs ++ ys) = modulesIn xs ++ modulesIn ys := List.flatMap_append

theorem modulesIn_cons (x : Str × List Str) (xs : List (Str × List Str)) :
    modulesIn (x :: xs) = (x.2.filter isModule).map (join x.1) ++ modulesIn xs := List.flatMap_cons

theorem walk_directory (path name : Str) (entries : List DirEntry) :
    (DirEntry.directory name entries).walk path =
      (join path name, entries.filterMap DirEntry.fileName?) ::
        DirEntry.walkAll (join path name) entries := by
  rw [DirEntry.walk]

-- The files of a directory come before those of its subdirectories.
theorem modulesIn_walkAll (path : Str) (entries : List DirEntry) :
    (modulesIn ((path, entries.filterMap DirEntry.fileName?) :: DirEntry.walkAll path entries)).Perm
      (entries.flatMap (DirEntry.modules path)) := by
  induction entries with
  | nil => exact .nil
  | cons entry entries ih =>
    rw [modulesIn_cons] at ih ⊢
    rw [DirEntry.walkAll, modulesIn_append, List.flatMap_cons]
    cases entry with
    | file name =>
      rw [DirEntry.walk, List.filterMap_cons]
      simp only [DirEntry.fileName?, DirEntry.modules]
      rw [List.filter_cons]
      split
      next => exact ih.cons _
      next => exact ih
    | directory name inner =>
      rw [List.filterMap_cons]
      simp only [DirEntry.fileName?, DirEntry.modules]
      exact (List.perm_append_comm_assoc _ _ _).trans (ih.append_left _)

theorem modules_directory (path name : Str) (inner : List DirEntry) :
    ((DirEntry.directory name inner).modules path).Perm
      (inner.flatMap (DirEntry.modules (join path name))) := by
  rw [DirEntry.modules, walk_directory]
  exact modulesIn_walkAll _ _

theorem findRpx_perm (root : Str) (dir : Directory) :
    (findRpx root (.directory dir)).Perm (dir.entries.flatMap (DirEntry.modules root)) :=
  (List.perm_insertionSort _ _).trans (modulesIn_walkAll root dir.entries)

theorem mem_modules_iff (h : Listing entries) :
    p ∈ entries.flatMap (DirEntry.modules path) ↔ ModuleAt path entries p := by
  constructor
  · intro hmem
    induction h generalizing path with
    | mk _ _ _ ih =>
      obtain ⟨entry, hentry, hp⟩ := List.mem_flatMap.1 hmem
      cases entry with
      | file name =>
        rw [DirEntry.modules] at hp
        split at hp
        next hmodule =>
          rw [List.mem_singleton.1 hp]
          exact .here hentry hmodule
        next => cases hp
      | directory name inner =>
        rw [(modules_directory path name inner).mem_iff] at hp
        exact .inside hentry (ih name inner hentry hp)
  · intro hat
    clear h
    induction hat with
    | here hentry hmodule =>
      refine List.mem_flatMap.2 ⟨_, hentry, ?_⟩
      rw [DirEntry.modules, if_pos hmodule]
      exact List.mem_singleton_self _
    | inside hentry _ ih =>
      refine List.mem_flatMap.2 ⟨_, hentry, ?_⟩
      rwa [(modules_directory _ _ _).mem_iff]

-- What is found are the modules at any depth below the root.
theorem mem_findRpx_iff {dir : Directory} :
    p ∈ findRpx root (.directory dir) ↔ ModuleAt root dir.entries p := by
  rw [(findRpx_perm root dir).mem_iff, mem_modules_iff dir.listing]

end Walk

section Paths

theorem join_eq_base (hname : name ≠ [] ∧ '/' ∉ name) (path : Str) :
    join path name = base path ++ name := by
  obtain ⟨hne, hsep⟩ := hname
  have hhead : name.head? ≠ some '/' := by
    intro hhead
    exact hsep (List.mem_of_head? hhead)
  rw [join, base]
  by_cases hempty : path = []
  · rw [if_pos (.inr hempty), if_pos (.inl hempty), hempty, List.nil_append]
  · rw [if_neg (not_or.2 ⟨hhead, hempty⟩)]
    by_cases hlast : path.getLast? = some '/'
    · rw [if_pos hlast, if_pos (.inr hlast)]
    · rw [if_neg hlast, if_neg (not_or.2 ⟨hempty, hlast⟩), List.append_assoc,
        List.singleton_append]

theorem base_join (hname : name ≠ [] ∧ '/' ∉ name) (path : Str) :
    base (join path name) = base path ++ (name ++ ['/']) := by
  have hlast : (base path ++ name).getLast? ≠ some '/' := by
    rw [List.getLast?_append_of_ne_nil _ hname.1]
    intro hlast
    exact hname.2 (List.mem_of_getLast? hlast)
  rw [join_eq_base hname, base, if_neg, List.append_assoc]
  exact not_or.2 ⟨List.append_ne_nil_of_right_ne_nil _ hname.1, hlast⟩

theorem base_prefix (h : Listing entries) (path : Str) :
    ∀ entry ∈ entries, ∀ p ∈ entry.modules path, base path <+: p := by
  induction h generalizing path with
  | mk _ names _ ih =>
    intro entry hentry p hp
    cases entry with
    | file name =>
      have hname : name ≠ [] ∧ '/' ∉ name := names _ hentry
      rw [DirEntry.modules] at hp
      split at hp
      next =>
        rw [List.mem_singleton.1 hp, join_eq_base hname]
        exact List.prefix_append _ _
      next => cases hp
    | directory name inner =>
      have hname : name ≠ [] ∧ '/' ∉ name := names _ hentry
      obtain ⟨below, hbelow, hmem⟩ :=
        List.mem_flatMap.1 ((modules_directory path name inner).mem_iff.1 hp)
      have hprefix := ih name inner hentry (join path name) below hbelow p hmem
      rw [base_join hname] at hprefix
      exact (List.prefix_append _ _).trans hprefix

theorem takeWhile_name (hname : '/' ∉ name) (rest : Str) :
    (name ++ rest).takeWhile (· ≠ '/') = name ++ rest.takeWhile (· ≠ '/') :=
  List.takeWhile_append_of_pos fun _ hc => decide_eq_true (ne_of_mem_of_not_mem hc hname)

-- The first component of what follows the base is the name of the entry the path was found in.
theorem entry_of_path (h : Listing entries) (hentry : entry ∈ entries)
    (hp : p ∈ entry.modules path) :
    (p.drop (base path).length).takeWhile (· ≠ '/') = entry.name := by
  obtain ⟨_, names, below⟩ := h
  cases entry with
  | file name =>
    have hname : name ≠ [] ∧ '/' ∉ name := names _ hentry
    have hfirst := takeWhile_name hname.2 []
    rw [List.append_nil, List.takeWhile_nil, List.append_nil] at hfirst
    rw [DirEntry.modules] at hp
    split at hp
    next =>
      rw [List.mem_singleton.1 hp, join_eq_base hname, List.drop_left]
      exact hfirst
    next => cases hp
  | directory name inner =>
    have hname : name ≠ [] ∧ '/' ∉ name := names _ hentry
    obtain ⟨entry, hinner, hmem⟩ :=
      List.mem_flatMap.1 ((modules_directory path name inner).mem_iff.1 hp)
    obtain ⟨rest, rfl⟩ := base_prefix (below name inner hentry) _ entry hinner p hmem
    have hfirst := takeWhile_name hname.2 (['/'] ++ rest)
    rw [List.singleton_append, List.takeWhile_cons_of_neg (by decide), List.append_nil] at hfirst
    rw [base_join hname, List.append_assoc, List.drop_left, List.append_assoc]
    exact hfirst

theorem entry_unique {a b : DirEntry} (h : Listing entries) (ha : a ∈ entries) (hb : b ∈ entries)
    (hpa : p ∈ a.modules path) (hpb : p ∈ b.modules path) : a = b := by
  have hname : a.name = b.name := (entry_of_path h ha hpa).symm.trans (entry_of_path h hb hpb)
  obtain ⟨distinct, -, -⟩ := h
  exact List.inj_on_of_nodup_map distinct ha hb hname

theorem nodup_modules (h : Listing entries) (path : Str) :
    (entries.flatMap (DirEntry.modules path)).Nodup := by
  induction h generalizing path with
  | @mk entries distinct names below ih =>
    rw [List.nodup_flatMap]
    constructor
    · intro entry hentry
      cases entry with
      | file name =>
        rw [DirEntry.modules]
        split
        next => exact List.nodup_singleton _
        next => exact List.nodup_nil
      | directory name inner =>
        rw [(modules_directory path name inner).nodup_iff]
        exact ih name inner hentry _
    · have hlisting : Listing entries := ⟨distinct, names, below⟩
      refine distinct.of_map.imp_of_mem fun ha hb hne => ?_
      intro p hpa hpb
      exact hne (entry_unique hlisting ha hb hpa hpb)

theorem nodup_findRpx (root : Str) (dir : Directory) :
    (findRpx root (.directory dir)).Nodup :=
  (findRpx_perm root dir).nodup_iff.2 (nodup_modules dir.listing root)

end Paths

section Titles

-- The titles in the order in which they are stored, each with the files of its entry.
def titled (root : Str) (dir : Directory) : List (Str × List Str) :=
  (dir.listdir.filter fun entry => entry.modules root ≠ []).map fun entry =>
    (entry.title, sorted (entry.modules root))

theorem addTitle_eq (root : Str) (titles : Dict Str (List Str)) (entry : DirEntry) :
    addTitle root titles entry =
      if entry.modules root ≠ [] then titles.set entry.title (sorted (entry.modules root))
      else titles := by
  cases entry with
  | file name =>
    rw [addTitle, DirEntry.modules, DirEntry.title]
    by_cases hmodule : isModule name = true
    · rw [if_pos hmodule, if_pos hmodule, if_pos (List.cons_ne_nil _ _)]
      rfl
    · rw [if_neg hmodule, if_neg hmodule, if_neg (not_not.2 rfl)]
  | directory name entries => rfl

theorem groupTitles_eq (root : Str) (dir : Directory) :
    groupTitles root (.directory dir) = .assign (titled root dir) := by
  rw [groupTitles, Dict.assign, titled, List.foldl_map, List.foldl_filter]
  congr 1
  funext titles entry
  rw [addTitle_eq]
  simp only [decide_eq_true_eq]

theorem listdir_perm (dir : Directory) : dir.listdir.Perm dir.entries :=
  List.perm_insertionSort _ _

theorem mem_titled {dir : Directory} {title : Str} {files : List Str} :
    (title, files) ∈ titled root dir ↔ ∃ entry ∈ dir.entries, entry.modules root ≠ [] ∧
      entry.title = title ∧ sorted (entry.modules root) = files := by
  simp only [titled, List.mem_map, List.mem_filter, (listdir_perm dir).mem_iff,
    decide_eq_true_eq, Prod.mk.injEq, and_assoc]

theorem nodup_titled_iff (root : Str) (dir : Directory) :
    ((titled root dir).map Prod.fst).Nodup ↔ DistinctTitles root dir := by
  obtain ⟨distinct, -, -⟩ := dir.listing
  have hnodup : (dir.listdir.filter fun entry => entry.modules root ≠ []).Nodup :=
    ((listdir_perm dir).nodup_iff.2 distinct.of_map).filter _
  rw [titled, List.map_map, Function.comp_def, List.nodup_map_iff_inj_on hnodup]
  simp only [List.mem_filter, (listdir_perm dir).mem_iff, decide_eq_true_eq, DistinctTitles]
  constructor
  · intro h a ha b hb hamod hbmod htitle
    exact h a ⟨ha, hamod⟩ b ⟨hb, hbmod⟩ htitle
  · intro h a ha b hb htitle
    exact h a ha.1 b hb.1 ha.2 hb.2 htitle

theorem sum_titled (root : Str) (dir : Directory) :
    ((titled root dir).map fun p => p.2.length).sum =
      (findRpx root (.directory dir)).length := by
  have hempty : (dir.listdir.map fun entry => (entry.modules root).length).sum =
      ((titled root dir).map fun p => p.2.length).sum := by
    rw [titled, List.map_map]
    induction dir.listdir with
    | nil => rfl
    | cons entry entries ih =>
      rw [List.map_cons, List.sum_cons, ih, List.filter_cons]
      split
      next => rw [List.map_cons, List.sum_cons, Function.comp_apply, length_sorted]
      next hnone =>
        have hnil : entry.modules root = [] := by
          by_contra hne
          exact hnone (decide_eq_true hne)
        rw [hnil, List.length_nil, Nat.zero_add]
  rw [(findRpx_perm root dir).length_eq, List.length_flatMap, ← hempty]
  exact ((listdir_perm dir).map _).sum_nat

theorem length_titled_pos {dir : Directory} : ∀ p ∈ titled root dir, 0 < p.2.length := by
  intro p hp
  obtain ⟨entry, -, hne, -, hfiles⟩ := mem_titled.1 hp
  rw [← hfiles, length_sorted]
  exact List.length_pos_iff.2 hne

end Titles

theorem get?_groupTitles {dir : Directory} (h : DistinctTitles root dir) {title : Str}
    {files : List Str} : (groupTitles root (.directory dir)).get? title = some files ↔
      ∃ entry ∈ dir.entries, entry.modules root ≠ [] ∧ entry.title = title ∧
        sorted (entry.modules root) = files := by
  rw [groupTitles_eq, Dict.get?_eq_some_iff, Dict.entries_assign ((nodup_titled_iff root dir).2 h),
    mem_titled]

theorem losesNone_of_distinct {dir : Directory} (h : DistinctTitles root dir) :
    LosesNone root dir (groupTitles root (.directory dir)) := by
  refine ⟨?_, ?_, ?_⟩
  · intro path hpath
    rw [← mem_modules_iff dir.listing] at hpath
    obtain ⟨entry, hentry, hmem⟩ := List.mem_flatMap.1 hpath
    have hown := (get?_groupTitles h).2 ⟨entry, hentry, List.ne_nil_of_mem hmem, rfl, rfl⟩
    refine ⟨entry.title, ⟨_, hown, mem_sorted.2 hmem⟩, ?_⟩
    rintro title ⟨files, hfiles, hin⟩
    obtain ⟨other, hother, -, rfl, rfl⟩ := (get?_groupTitles h).1 hfiles
    rw [entry_unique dir.listing hother hentry (mem_sorted.1 hin) hmem]
  · intro entry hentry hne
    exact (get?_groupTitles h).2 ⟨entry, hentry, hne, rfl, rfl⟩
  · rw [groupTitles_eq, Dict.total, Dict.entries_assign ((nodup_titled_iff root dir).2 h),
      sum_titled]

theorem distinct_of_number {dir : Directory}
    (h : (groupTitles root (.directory dir)).total List.length =
      (findRpx root (.directory dir)).length) : DistinctTitles root dir := by
  rw [groupTitles_eq, ← sum_titled] at h
  exact (nodup_titled_iff root dir).1 (Dict.nodup_of_total_assign length_titled_pos h)

theorem group_titles_loses_none_iff (root : Str) (dir : Directory) :
    LosesNone root dir (groupTitles root (.directory dir)) ↔ DistinctTitles root dir :=
  ⟨fun h => distinct_of_number h.number, losesNone_of_distinct⟩

-- A program and a library of one name, side by side.
def sameStem : Directory where
  entries := [.file ['a', '.', 'r', 'p', 'l'], .file ['a', '.', 'r', 'p', 'x']]
  listing := by
    refine ⟨by decide, by decide, ?_⟩
    intro name inner h
    simp at h

theorem group_titles_loses_module :
    (findRpx ['c'] (.directory sameStem)).length = 2 ∧
      (groupTitles ['c'] (.directory sameStem)).entries =
        [(['a'], [['c', '/', 'a', '.', 'r', 'p', 'x']])] ∧
      ¬ LosesNone ['c'] sameStem (groupTitles ['c'] (.directory sameStem)) := by
  refine ⟨by decide, by decide, fun h => ?_⟩
  exact absurd h.number (by decide)

end CoreinitNx.Census
