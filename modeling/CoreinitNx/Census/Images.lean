import CoreinitNx.Census.Frequency
import CoreinitNx.Rpx.Imports
import Mathlib.Data.Set.Card

namespace CoreinitNx.Census

open Rpx

section Counting

variable {α β : Type} [DecidableEq α] {d : Dict α β}

theorem countP_eq_ncard (d : Dict α β) (p : α × β → Prop) [DecidablePred p] :
    d.entries.countP p = {k | ∃ b, d.get? k = some b ∧ p (k, b)}.ncard := by
  have hset : {k | ∃ b, d.get? k = some b ∧ p (k, b)} =
      (((d.entries.filter p).map Prod.fst).toFinset : Set α) := by
    ext k
    simp only [Set.mem_ofPred_eq, Dict.get?_eq_some_iff, List.coe_toFinset, List.mem_map,
      List.mem_filter, decide_eq_true_eq]
    constructor
    · rintro ⟨b, hmem, hp⟩
      exact ⟨(k, b), ⟨hmem, hp⟩, rfl⟩
    · rintro ⟨⟨k, b⟩, ⟨hmem, hp⟩, rfl⟩
      exact ⟨b, hmem, hp⟩
  have hnodup : ((d.entries.filter p).map Prod.fst).Nodup :=
    d.nodup.sublist (List.filter_sublist.map Prod.fst)
  rw [hset, Set.ncard_coe_finset, List.toFinset_card_of_nodup hnodup, List.length_map,
    List.countP_eq_length_filter]

end Counting

-- `rpx.load(path).imports()`, with the text of what it raises.
def loadImports (decompress : Bytes → Option Bytes) (message : Rpx.Error → Str)
    (files : Str → Bytes) (path : Str) : Except Str (Dict Str Entry) :=
  (read decompress (files path) >>= fun r => r.imports decompress true).mapError message

section Images

variable (Deflates : Bytes → Bytes → Prop) (files : Str → Bytes) (root : Str) (dir : Directory)

-- Some module of the title imports the symbol.
def Uses (entry : DirEntry) (key : Symbol) : Prop :=
  ∃ path ∈ entry.modules root, Imported Deflates (files path) true key.library key.kind key.name

def users (key : Symbol) : Set Str :=
  {title | ∃ entry ∈ dir.entries, entry.title = title ∧ Uses Deflates files root entry key}

def titlesIn : Set Str := {title | ∃ entry ∈ dir.entries, entry.title = title ∧
  entry.modules root ≠ []}

structure CountsImages (rows : List Row) : Prop where
  distinct : (rows.map Row.key).Nodup
  used : ∀ key, key ∈ rows.map Row.key ↔ (users Deflates files root dir key).Nonempty
  count : ∀ row ∈ rows, row.titles = (users Deflates files root dir row.key).ncard
  percentage : ∀ row ∈ rows, row.pctOfCorpus =
    100 * (users Deflates files root dir row.key).ncard / (titlesIn root dir).ncard

end Images

variable {Deflates : Bytes → Bytes → Prop} {decompress : Bytes → Option Bytes}
  {message : Rpx.Error → Str} {files : Str → Bytes} {order : SetOrder} {src : Sources} {root : Str}
  {dir : Directory} {entry : DirEntry} {key : Symbol} {path : Str} {paths : List Str}

section Loading

variable (hzlib : ∀ content stream, Deflates content stream → decompress stream = some content)

include hzlib

theorem loadImports_exact (message : Rpx.Error → Str) (wf : WellFormed Deflates (files path)) :
    ∃ imports, loadImports decompress message files path = .ok imports ∧
      Exact (Imported Deflates (files path) true) imports := by
  obtain ⟨names, hnames⟩ := wf.contents _ wf.names
  obtain ⟨imports, himports, hexact⟩ := imports_eq hzlib wf hnames true
  refine ⟨imports, ?_, hexact⟩
  rw [loadImports, read_eq hzlib wf hnames]
  exact congrArg (Except.mapError message) himports

theorem imports_iff (hsrc : src.imports = loadImports decompress message files)
    (wf : ∀ path ∈ paths, WellFormed Deflates (files path)) :
    src.Imports paths key ↔
      ∃ path ∈ paths, Imported Deflates (files path) true key.library key.kind key.name := by
  refine exists_congr fun path => and_congr_right fun hpath => ?_
  obtain ⟨imports, hload, hexact⟩ := loadImports_exact hzlib message (wf path hpath)
  rw [hsrc, hload]
  constructor
  · rintro ⟨imports', himports, entry, hentry, hname⟩
    obtain rfl := Option.some.inj himports
    exact (hexact.names _ entry hentry _ _).1 hname
  · intro himported
    have hsome := (hexact.libraries key.library).2 ⟨key.kind, key.name, himported⟩
    obtain ⟨entry, hentry⟩ := Option.isSome_iff_exists.1 hsome
    exact ⟨imports, rfl, entry, hentry, (hexact.names _ entry hentry _ _).2 himported⟩

theorem parsed_of_wellFormed (hsrc : src.imports = loadImports decompress message files)
    (wf : ∀ path ∈ paths, WellFormed Deflates (files path)) (hne : paths ≠ []) :
    src.Parsed paths := by
  obtain ⟨path, hpath⟩ := List.exists_mem_of_ne_nil _ hne
  obtain ⟨imports, hload, -⟩ := loadImports_exact hzlib message (wf path hpath)
  refine ⟨path, hpath, ?_⟩
  rw [hsrc, hload]
  rfl

end Loading

theorem sorted_ne_nil {names : List Str} (h : names ≠ []) : sorted names ≠ [] := by
  obtain ⟨name, hname⟩ := List.exists_mem_of_ne_nil _ h
  exact List.ne_nil_of_mem (mem_sorted.2 hname)

section Corpus

variable (hzlib : ∀ content stream, Deflates content stream → decompress stream = some content)
  (hsrc : src.imports = loadImports decompress message files)
  (wf : ∀ path, ModuleAt root dir.entries path → WellFormed Deflates (files path))
  (hdistinct : DistinctTitles root dir)

theorem title_entry (hdistinct : DistinctTitles root dir) {title : Str × List Str} :
    title ∈ (groupTitles root (.directory dir)).entries ↔
      ∃ entry ∈ dir.entries, entry.modules root ≠ [] ∧ entry.title = title.1 ∧
        sorted (entry.modules root) = title.2 := by
  rw [← get?_groupTitles hdistinct]
  exact Dict.get?_eq_some_iff.symm

include wf in
theorem wellFormed_of_entry (hentry : entry ∈ dir.entries) :
    ∀ path ∈ sorted (entry.modules root), WellFormed Deflates (files path) := by
  intro path hpath
  exact wf path ((mem_modules_iff dir.listing).1
    (List.mem_flatMap.2 ⟨entry, hentry, mem_sorted.1 hpath⟩))

include hzlib hsrc wf in
theorem imports_iff_uses (hentry : entry ∈ dir.entries) :
    src.Imports (sorted (entry.modules root)) key ↔ Uses Deflates files root entry key := by
  rw [imports_iff hzlib hsrc (wellFormed_of_entry wf hentry)]
  exact exists_congr fun path => and_congr_left fun _ => mem_sorted

include hzlib hsrc wf hdistinct

theorem importers_eq (key : Symbol) : src.importers (groupTitles root (.directory dir)) key =
    (users Deflates files root dir key).ncard := by
  rw [Sources.importers, countP_eq_ncard]
  congr 1
  ext title
  constructor
  · rintro ⟨paths, hget, himports⟩
    obtain ⟨entry, hentry, -, htitle, rfl⟩ := (get?_groupTitles hdistinct).1 hget
    exact ⟨entry, hentry, htitle, (imports_iff_uses hzlib hsrc wf hentry).1 himports⟩
  · rintro ⟨entry, hentry, htitle, huses⟩
    have hne : entry.modules root ≠ [] := by
      obtain ⟨path, hpath, -⟩ := huses
      exact List.ne_nil_of_mem hpath
    exact ⟨_, (get?_groupTitles hdistinct).2 ⟨entry, hentry, hne, htitle, rfl⟩,
      (imports_iff_uses hzlib hsrc wf hentry).2 huses⟩

theorem parsedTitles_eq : src.parsedTitles (groupTitles root (.directory dir)) =
    (titlesIn root dir).ncard := by
  rw [Sources.parsedTitles, countP_eq_ncard]
  congr 1
  ext title
  constructor
  · rintro ⟨paths, hget, -⟩
    obtain ⟨entry, hentry, hne, htitle, -⟩ := (get?_groupTitles hdistinct).1 hget
    exact ⟨entry, hentry, htitle, hne⟩
  · rintro ⟨entry, hentry, htitle, hne⟩
    exact ⟨_, (get?_groupTitles hdistinct).2 ⟨entry, hentry, hne, htitle, rfl⟩,
      parsed_of_wellFormed hzlib hsrc (wellFormed_of_entry wf hentry) (sorted_ne_nil hne)⟩

theorem toldApart_of_images
    (huses : ∀ entry ∈ dir.entries, entry.modules root ≠ [] →
      ∃ key, Uses Deflates files root entry key)
    (hnames : ∀ a ∈ dir.entries, ∀ b ∈ dir.entries, a.modules root ≠ [] → b.modules root ≠ [] →
      displayName order src a.title (sorted (a.modules root)) =
        displayName order src b.title (sorted (b.modules root)) → a = b) :
    ToldApart order src (groupTitles root (.directory dir)) := by
  rintro -
  constructor
  · rintro ⟨title, paths⟩ htitle -
    obtain ⟨entry, hentry, hne, rfl, rfl⟩ := (title_entry hdistinct).1 htitle
    obtain ⟨key, hkey⟩ := huses entry hentry hne
    exact ⟨key, (imports_iff_uses hzlib hsrc wf hentry).2 hkey⟩
  · rintro ⟨title, paths⟩ ha ⟨title', paths'⟩ hb - - hshown
    obtain ⟨a, hina, hane, rfl, rfl⟩ := (title_entry hdistinct).1 ha
    obtain ⟨b, hinb, hbne, rfl, rfl⟩ := (title_entry hdistinct).1 hb
    rw [hnames a hina b hinb hane hbne hshown]

end Corpus

theorem census_counts_images (Deflates : Bytes → Bytes → Prop) (decompress : Bytes → Option Bytes)
    (hzlib : ∀ content stream, Deflates content stream → decompress stream = some content)
    (message : Rpx.Error → Str) (files : Str → Bytes) (order : SetOrder) (src : Sources)
    (hsrc : src.imports = loadImports decompress message files) (root : Str) (dir : Directory)
    (wf : ∀ path, ModuleAt root dir.entries path → WellFormed Deflates (files path))
    (hdistinct : DistinctTitles root dir)
    (huses : ∀ entry ∈ dir.entries, entry.modules root ≠ [] →
      ∃ key, Uses Deflates files root entry key)
    (hnames : ∀ a ∈ dir.entries, ∀ b ∈ dir.entries, a.modules root ≠ [] → b.modules root ≠ [] →
      displayName order src a.title (sorted (a.modules root)) =
        displayName order src b.title (sorted (b.modules root)) → a = b) :
    CountsImages Deflates files root dir (written (main order src root (.directory dir))) := by
  have hapart := toldApart_of_images hzlib hsrc wf hdistinct huses hnames
  obtain ⟨-, hcounts⟩ := main_counts_corpus hdistinct hapart
  have himporters := importers_eq hzlib hsrc wf hdistinct
  have hparsed := parsedTitles_eq hzlib hsrc wf hdistinct
  refine ⟨hcounts.distinct, fun key => ?_, fun row hrow => ?_, fun row hrow => ?_⟩
  · constructor
    · intro hmem
      obtain ⟨row, hrow, rfl⟩ := List.mem_map.1 hmem
      obtain ⟨hpos, hcount⟩ := hcounts.count row hrow
      rw [hcount, himporters] at hpos
      exact Set.nonempty_of_ncard_ne_zero hpos.ne'
    · rintro ⟨title, entry, hentry, htitle, huse⟩
      have hne : entry.modules root ≠ [] := by
        obtain ⟨path, hpath, -⟩ := huse
        exact List.ne_nil_of_mem hpath
      have himports := (imports_iff_uses hzlib hsrc wf hentry).2 huse
      have hpos : 0 < src.importers (groupTitles root (.directory dir)) key :=
        List.countP_pos_iff.2 ⟨(entry.title, sorted (entry.modules root)),
          (title_entry hdistinct).2 ⟨entry, hentry, hne, rfl, rfl⟩, decide_eq_true himports⟩
      obtain ⟨row, hrow, hkey⟩ := hcounts.complete key hpos
      exact List.mem_map.2 ⟨row, hrow, hkey⟩
  · rw [(hcounts.count row hrow).2, himporters]
  · rw [hcounts.percentage row hrow, himporters, hparsed]

-- A corpus of two titles, a loose file and a directory, that hold the one small image.
def twoImages : Directory where
  entries :=
    [.file ['a', '.', 'r', 'p', 'x'], .directory ['b'] [.file ['x', '.', 'r', 'p', 'l']]]
  listing := by
    refine ⟨by decide, by decide, ?_⟩
    intro name inner h
    obtain ⟨rfl, rfl⟩ : name = ['b'] ∧ inner = [.file ['x', '.', 'r', 'p', 'l']] := by simpa using h
    exact ⟨by decide, by decide, fun name inner h => by simp at h⟩

def imageSources : Sources where
  metaXml _ := .missing
  metadata := []
  implemented := []
  imports := loadImports smallDecompress (fun _ => []) fun _ => smallImage

theorem smallImage_imports :
    Imported SmallDeflates smallImage true ['a'] .functions ['f'] := by
  let files : Str → Bytes := fun _ => smallImage
  have hwf : WellFormed SmallDeflates (files []) := smallImage_wellFormed
  obtain ⟨imports, hload, hexact⟩ := loadImports_exact smallDecompress_undoes (fun _ => []) hwf
  have hentries : (loadImports smallDecompress (fun _ => []) (fun _ => smallImage) []).toOption.map
      (fun imports => imports.get? ['a']) = some (some ⟨[['f']], []⟩) := by decide +kernel
  rw [hload] at hentries
  have hget : imports.get? ['a'] = some ⟨[['f']], []⟩ := by
    rw [Except.toOption, Option.map_some] at hentries
    exact Option.some.inj hentries
  exact (hexact.names _ _ hget .functions ['f']).1 (List.mem_singleton_self _)

theorem census_counts_images_two :
    CountsImages SmallDeflates (fun _ => smallImage) ['c'] twoImages
        (written (main .asBuilt imageSources ['c'] (.directory twoImages))) ∧
      (written (main .asBuilt imageSources ['c'] (.directory twoImages))).map Row.figures =
        [(⟨['a'], ['f'], .functions⟩, 2, 100)] := by
  have hfigures : (written (main .asBuilt imageSources ['c'] (.directory twoImages))).map
      Row.figures = [(⟨['a'], ['f'], .functions⟩, 2, 100)] := by decide +kernel
  have hentry {entry : DirEntry} (h : entry ∈ twoImages.entries) :
      entry = .file ['a', '.', 'r', 'p', 'x'] ∨
        entry = .directory ['b'] [.file ['x', '.', 'r', 'p', 'l']] := by
    simpa [twoImages] using h
  have hdistinct : DistinctTitles ['c'] twoImages := by
    intro a ha b hb _ _ htitle
    rcases hentry ha with rfl | rfl <;> rcases hentry hb with rfl | rfl
    · rfl
    · exact absurd htitle (by decide)
    · exact absurd htitle (by decide)
    · rfl
  have huses : ∀ entry ∈ twoImages.entries, entry.modules ['c'] ≠ [] →
      ∃ key, Uses SmallDeflates (fun _ => smallImage) ['c'] entry key := by
    intro entry h _
    rcases hentry h with rfl | rfl
    · exact ⟨⟨['a'], ['f'], .functions⟩, ['c', '/', 'a', '.', 'r', 'p', 'x'], by decide +kernel,
        smallImage_imports⟩
    · exact ⟨⟨['a'], ['f'], .functions⟩, ['c', '/', 'b', '/', 'x', '.', 'r', 'p', 'l'],
        by decide +kernel, smallImage_imports⟩
  have hnames : ∀ a ∈ twoImages.entries, ∀ b ∈ twoImages.entries, a.modules ['c'] ≠ [] →
      b.modules ['c'] ≠ [] →
      displayName .asBuilt imageSources a.title (sorted (a.modules ['c'])) =
        displayName .asBuilt imageSources b.title (sorted (b.modules ['c'])) → a = b := by
    intro a ha b hb _ _ hshown
    rcases hentry ha with rfl | rfl <;> rcases hentry hb with rfl | rfl
    · rfl
    · exact absurd hshown (by decide +kernel)
    · exact absurd hshown (by decide +kernel)
    · rfl
  have hsrc : imageSources.imports =
      loadImports smallDecompress (fun _ => []) fun _ => smallImage := by rw [imageSources]
  have hcounts := census_counts_images SmallDeflates smallDecompress smallDecompress_undoes
    (fun _ => []) (fun _ => smallImage) .asBuilt imageSources hsrc ['c'] twoImages
    (fun _ _ => smallImage_wellFormed) hdistinct huses hnames
  exact ⟨hcounts, hfigures⟩

end CoreinitNx.Census
