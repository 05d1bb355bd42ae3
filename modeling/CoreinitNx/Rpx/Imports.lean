import Mathlib.Data.List.Induction
import CoreinitNx.Rpx.Image
import CoreinitNx.Library.Distinct

namespace CoreinitNx.Rpx

def Kind.tag : Kind → Str
  | .functions => fimport
  | .data => dimport

-- One `.rpl` at the end goes.
def Library (full lib : Str) : Prop :=
  full = lib ++ rplSuffix ∨ (full = lib ∧ ¬rplSuffix <:+ full)

section Meaning

variable (Deflates : Bytes → Bytes → Prop) (blob : Bytes)

structure ImportsFrom (imp : Nat) (lib : Str) (kind : Kind) : Prop where
  index : imp < shnum blob
  type : (sectionAt blob imp).type = shtRplImports
  name : ∃ names full, Contents Deflates blob (sectionAt blob (shstrndx blob)) names ∧
    cString names (sectionAt blob imp).nameOff = kind.tag ++ full ∧ Library full lib

-- The `i`th symbol of the symbol table at section `tab`.
structure IsSymbol (tab i : Nat) (sym : Symbol) (name : Str) : Prop where
  index : tab < shnum blob
  type : (sectionAt blob tab).type = shtSymtab
  entry : ∃ symtab, Contents Deflates blob (sectionAt blob tab) symtab ∧
    i < symtab.length / 16 ∧ sym = symbolAt symtab i
  string : ∃ strtab, Contents Deflates blob (sectionAt blob (sectionAt blob tab).link) strtab ∧
    name = cString strtab sym.name

def Relocated (tab i : Nat) : Prop :=
  ∃ rel < shnum blob, (sectionAt blob rel).type = shtRela ∧ (sectionAt blob rel).link = tab ∧
    ∃ rela, Contents Deflates blob (sectionAt blob rel) rela ∧
      ∃ k < rela.length / 12, relocatedAt rela k = i

structure Names (referencedOnly : Bool) (lib : Str) (kind : Kind) (name : Str)
    (tab i : Nat) (sym : Symbol) : Prop where
  symbol : IsSymbol Deflates blob tab i sym name
  library : ImportsFrom Deflates blob sym.shndx lib kind
  notSection : sym.info % 16 ≠ 3
  nonempty : name ≠ []
  notDot : name.head? ≠ some '.'
  referenced : referencedOnly = true → Relocated Deflates blob tab i

def Imported (referencedOnly : Bool) (lib : Str) (kind : Kind) (name : Str) : Prop :=
  ∃ tab i sym, Names Deflates blob referencedOnly lib kind name tab i sym

end Meaning

-- An entry for every library that something is imported from, with what is.
structure Lists (Imported : Str → Kind → Str → Prop) (result : Dict Str Entry) : Prop where
  libraries : ∀ lib, (result.get? lib).isSome ↔ ∃ kind name, Imported lib kind name
  names : ∀ lib entry, result.get? lib = some entry →
    ∀ kind name, name ∈ entry.names kind ↔ Imported lib kind name

structure Exact (Imported : Str → Kind → Str → Prop) (result : Dict Str Entry) : Prop extends
    Lists Imported result where
  sorted : ∀ lib entry, result.get? lib = some entry →
    ∀ kind, (entry.names kind).Pairwise (· < ·)

variable {Deflates : Bytes → Bytes → Prop} {decompress : Bytes → Option Bytes} {blob : Bytes}

theorem stripRpl_iff {full lib : Str} : stripRpl full = lib ↔ Library full lib := by
  rw [stripRpl, Library]
  by_cases hsuffix : rplSuffix <:+ full
  · rw [if_pos (List.isSuffixOf_iff_suffix.2 hsuffix)]
    obtain ⟨base, rfl⟩ := hsuffix
    rw [List.length_append, Nat.add_sub_cancel, List.take_left, List.append_cancel_right_eq]
    exact (or_iff_left fun h => h.2 (List.suffix_append base rplSuffix)).symm
  · rw [if_neg (mt List.isSuffixOf_iff_suffix.1 hsuffix)]
    rw [or_iff_right, and_iff_left hsuffix]
    rintro rfl
    exact hsuffix (List.suffix_append lib rplSuffix)

theorem libraryOf_tag {full : Str} {kind : Kind} :
    libraryOf (kind.tag ++ full) = some (stripRpl full, kind) := by
  cases kind <;> rfl

theorem libraryOf_iff {name lib : Str} {kind : Kind} :
    libraryOf name = some (lib, kind) ↔ ∃ full, name = kind.tag ++ full ∧ Library full lib := by
  constructor
  · intro h
    rw [libraryOf] at h
    split at h
    next hprefix =>
      obtain ⟨full, rfl⟩ := List.isPrefixOf_iff_prefix.1 hprefix
      rw [List.drop_left] at h
      cases h
      exact ⟨full, rfl, stripRpl_iff.1 rfl⟩
    next =>
      split at h
      next hprefix =>
        obtain ⟨full, rfl⟩ := List.isPrefixOf_iff_prefix.1 hprefix
        rw [List.drop_left] at h
        cases h
        exact ⟨full, rfl, stripRpl_iff.1 rfl⟩
      next => cases h
  · rintro ⟨full, rfl, hlib⟩
    rw [libraryOf_tag, stripRpl_iff.2 hlib]

section Read

variable (decompress) in
def bytesOf (blob : Bytes) (sh : Section) : Bytes :=
  match data decompress blob sh with
  | .ok bytes => bytes
  | .error _ => []

-- The reader of a well-formed image, and what is known of the image it reads.
variable {names : Bytes} {i idx : Nat}
  (hzlib : ∀ content stream, Deflates content stream → decompress stream = some content)
  (wf : WellFormed Deflates blob)
  (hnames : Contents Deflates blob (sectionAt blob (shstrndx blob)) names)

include hzlib wf

theorem contents_iff (hi : i < shnum blob) {content : Bytes} :
    Contents Deflates blob (sectionAt blob i) content ↔
      content = bytesOf decompress blob (sectionAt blob i) := by
  obtain ⟨bytes, hbytes⟩ := wf.contents i hi
  have heq : bytesOf decompress blob (sectionAt blob i) = bytes := by
    rw [bytesOf, data_eq hzlib hbytes]
  constructor
  · intro hcontent
    have hsame := (data_eq hzlib hcontent).symm.trans (data_eq hzlib hbytes)
    rw [heq, Except.ok.inj hsame]
  · rintro rfl
    rwa [heq]

theorem data_ok (hi : i < shnum blob) :
    data decompress blob (sectionAt blob i) =
      .ok (bytesOf decompress blob (sectionAt blob i)) :=
  data_eq hzlib ((contents_iff hzlib wf hi).2 rfl)

end Read

def Reader.importOf (r : Reader) (sh : Section) : Option (Str × Kind) :=
  if sh.type ≠ shtRplImports then none else libraryOf (r.name sh)

theorem get?_addKind {r : Reader} {kinds : Dict Nat (Str × Kind)} {sh : Section} {idx : Nat} :
    (r.addKind kinds sh).get? idx =
      if idx = sh.idx then (r.importOf sh).or (kinds.get? idx) else kinds.get? idx := by
  rw [Reader.addKind, Reader.importOf]
  split
  next => rw [Option.none_or, ite_self]
  next =>
    cases libraryOf (r.name sh) with
    | none => rw [Option.none_or, ite_self]
    | some library => exact Dict.get?_set

theorem kinds_range (r : Reader) (n idx : Nat) :
    (((List.range n).map (sectionAt blob)).foldl r.addKind .empty).get? idx =
      if idx < n then r.importOf (sectionAt blob idx) else none := by
  induction n with
  | zero => rfl
  | succ n ih =>
    rw [List.range_succ, List.map_append, List.foldl_append, List.map_singleton, List.foldl_cons,
      List.foldl_nil, get?_addKind, ih]
    have hidx : (sectionAt blob n).idx = n := rfl
    rw [hidx]
    split
    next heq => rw [heq, if_neg (lt_irrefl n), if_pos n.lt_succ_self, Option.or_none]
    next hne =>
      have hlt : idx < n ↔ idx < n + 1 := by omega
      rw [if_congr hlt rfl rfl]

section Read

variable {names : Bytes}
  (hzlib : ∀ content stream, Deflates content stream → decompress stream = some content)
  (wf : WellFormed Deflates blob)
  (hnames : Contents Deflates blob (sectionAt blob (shstrndx blob)) names)

include hzlib wf hnames

theorem kinds_iff {imp : Nat} {lib : Str} {kind : Kind} :
    (Reader.mk blob (imageSections blob) names).kinds.get? imp = some (lib, kind) ↔
      ImportsFrom Deflates blob imp lib kind := by
  have hname : (Reader.mk blob (imageSections blob) names).name (sectionAt blob imp) =
      cString names (sectionAt blob imp).nameOff :=
    stringAt_eq (wf.namesTerminated names hnames) _
  rw [Reader.kinds, imageSections, kinds_range, Reader.importOf]
  constructor
  · intro h
    split at h
    next hindex =>
      split at h
      next => cases h
      next htype =>
        rw [not_not] at htype
        obtain ⟨full, hfull, hlib⟩ := libraryOf_iff.1 h
        exact ⟨hindex, htype, names, full, hnames, hname.symm.trans hfull, hlib⟩
    next => cases h
  · rintro ⟨hindex, htype, names', full, hnames', hfull, hlib⟩
    rw [(contents_iff hzlib wf wf.names).1 hnames', ← (contents_iff hzlib wf wf.names).1 hnames]
      at hfull
    rw [if_pos hindex, if_neg (not_not.2 htype)]
    exact libraryOf_iff.2 ⟨full, hname.trans hfull, hlib⟩

end Read

variable (decompress) in
def referencesOf (blob : Bytes) (sh : Section) : List (Nat × Nat) :=
  if sh.type ≠ shtRela then []
  else
    let bytes := bytesOf decompress blob sh
    (List.range (bytes.length / relaEntrySize)).map fun k => (sh.link, relocatedAt bytes k)

theorem addReference_eq {sh : Section} {bytes : Bytes} {refs : List (Nat × Nat)} {k : Nat}
    (h : k * 12 + 12 ≤ bytes.length) :
    addReference sh bytes refs (k * 12) = .ok (refs.insert (sh.link, relocatedAt bytes k)) := by
  have hunpack : unpack [4, 4, 4] (slice bytes (k * 12) (k * 12 + 12)) = _ := unpack_slice h
  rw [addReference, relaEntrySize, hunpack, ok_bind, relocatedAt, ← Nat.shiftRight_eq_div_pow _ 8]
  rfl

section Read

variable {names : Bytes}
  (hzlib : ∀ content stream, Deflates content stream → decompress stream = some content)
  (wf : WellFormed Deflates blob)

include hzlib wf

theorem addReferences_eq {i : Nat} (hi : i < shnum blob) (refs : List (Nat × Nat)) :
    (Reader.mk blob (imageSections blob) names).addReferences decompress refs (sectionAt blob i) =
      .ok ((referencesOf decompress blob (sectionAt blob i)).foldl (fun refs a => refs.insert a)
        refs) := by
  rw [Reader.addReferences, referencesOf]
  split
  next => rfl
  next =>
    rw [data_ok hzlib wf hi, ok_bind, rangeBy]
    generalize bytesOf decompress blob (sectionAt blob i) = bytes
    have hcount : (bytes.length + 1 - relaEntrySize + relaEntrySize - 1) / relaEntrySize =
        bytes.length / relaEntrySize := by
      rw [relaEntrySize]
      omega
    rw [hcount, List.foldlM_map, List.foldl_map]
    refine foldlM_ok fun k hk refs => addReference_eq ?_
    have hlt := List.mem_range.1 hk
    rw [relaEntrySize] at hlt
    omega

variable (decompress blob) in
omit hzlib wf in
def references : List (Nat × Nat) :=
  ((imageSections blob).flatMap (referencesOf decompress blob)).foldl
    (fun refs a => refs.insert a) []

theorem referencedSymbols_eq :
    (Reader.mk blob (imageSections blob) names).referencedSymbols decompress =
      .ok (references decompress blob) := by
  rw [references, List.foldl_flatMap]
  refine foldlM_ok fun sh hsh refs => ?_
  obtain ⟨i, hi, rfl⟩ := List.mem_map.1 hsh
  exact addReferences_eq hzlib wf (List.mem_range.1 hi) refs

theorem mem_references {tab i : Nat} :
    (tab, i) ∈ references decompress blob ↔ Relocated Deflates blob tab i := by
  rw [references, Distinct.mem_foldl_insert, or_iff_right List.not_mem_nil, List.mem_flatMap]
  constructor
  · rintro ⟨sh, hsh, hmem⟩
    obtain ⟨rel, hrel, rfl⟩ := List.mem_map.1 hsh
    have hrel := List.mem_range.1 hrel
    rw [referencesOf] at hmem
    split at hmem
    next => cases hmem
    next htype =>
      obtain ⟨k, hk, heq⟩ := List.mem_map.1 hmem
      cases heq
      exact ⟨rel, hrel, not_not.1 htype, rfl, _, (contents_iff hzlib wf hrel).2 rfl, k,
        List.mem_range.1 hk, rfl⟩
  · rintro ⟨rel, hrel, htype, rfl, rela, hrela, k, hk, rfl⟩
    rw [contents_iff hzlib wf hrel] at hrela
    subst hrela
    refine ⟨_, List.mem_map_of_mem (List.mem_range.2 hrel), ?_⟩
    rw [referencesOf, if_neg (not_not.2 htype)]
    exact List.mem_map_of_mem (List.mem_range.2 hk)

end Read

abbrev Found := Str × Kind × Str

def collect (result : Dict Str Entry) (found : Found) : Dict Str Entry :=
  (result.setDefault found.1 .empty).adjust found.1 (Entry.append found.2.1 found.2.2)

theorem mem_names_append {kind kind' : Kind} {name sym : Str} {e : Entry} :
    name ∈ (e.append kind' sym).names kind ↔ name ∈ e.names kind ∨ kind = kind' ∧ name = sym := by
  cases kind' <;> cases kind <;> simp [Entry.append, Entry.names]

theorem get?_collect {result : Dict Str Entry} {lib : Str} {found : Found} :
    (collect result found).get? lib =
      if lib = found.1 then
        some (((result.get? lib).getD .empty).append found.2.1 found.2.2)
      else result.get? lib := by
  rw [collect, Dict.get?_adjust, Dict.get?_setDefault]
  split <;> rfl

theorem lists_empty : Lists (fun _ _ _ => False) .empty where
  libraries lib := by simp [Dict.get?_empty]
  names lib entry h := by cases h

theorem Lists.collect {P : Str → Kind → Str → Prop} {result : Dict Str Entry} (h : Lists P result)
    (lib' : Str) (kind' : Kind) (name' : Str) :
    Lists (fun lib kind name => P lib kind name ∨ lib = lib' ∧ kind = kind' ∧ name = name')
      (collect result (lib', kind', name')) where
  libraries lib := by
    rw [get?_collect]
    split
    next heq => exact iff_of_true rfl ⟨kind', name', .inr ⟨heq, rfl, rfl⟩⟩
    next hne =>
      rw [h.libraries]
      simp [hne]
  names lib entry hentry kind name := by
    rw [get?_collect] at hentry
    split at hentry
    next heq =>
      obtain rfl := Option.some.inj hentry
      rw [mem_names_append, and_iff_right heq]
      refine or_congr_left ?_
      cases hbefore : result.get? lib with
      | none =>
        refine iff_of_false ?_ fun hp => ?_
        · cases kind <;> exact List.not_mem_nil
        · have hsome := (h.libraries lib).2 ⟨kind, name, hp⟩
          rw [hbefore] at hsome
          cases hsome
      | some before => exact h.names lib before hbefore kind name
    next hne =>
      rw [h.names lib entry hentry, or_iff_left]
      exact fun hsame => hne hsame.1

theorem lists_collected (found : List Found) :
    Lists (fun lib kind name => (lib, kind, name) ∈ found) (found.foldl collect .empty) := by
  induction found using List.reverseRecOn with
  | nil => simpa using lists_empty
  | append_singleton found last ih =>
    obtain ⟨lib', kind', name'⟩ := last
    rw [List.foldl_append, List.foldl_cons, List.foldl_nil]
    have hnext := ih.collect lib' kind' name'
    simpa only [List.mem_append, List.mem_singleton, Prod.mk.injEq] using hnext

theorem Lists.sorted {P : Str → Kind → Str → Prop} {result : Dict Str Entry} (h : Lists P result) :
    Exact P (result.mapEntries fun _ entry => entry.sorted) := by
  have hnames : ∀ (e : Entry) kind, e.sorted.names kind = sortedSet (e.names kind) := by
    intro e kind
    cases kind <;> rfl
  refine ⟨⟨fun lib => ?_, fun lib entry hentry kind name => ?_⟩, fun lib entry hentry kind => ?_⟩
  · rw [Dict.get?_mapEntries, Option.isSome_map]
    exact h.libraries lib
  · rw [Dict.get?_mapEntries] at hentry
    obtain ⟨e, he, rfl⟩ := Option.map_eq_some_iff.1 hentry
    rw [hnames, mem_sortedSet]
    exact h.names lib e he kind name
  · rw [Dict.get?_mapEntries] at hentry
    obtain ⟨e, -, rfl⟩ := Option.map_eq_some_iff.1 hentry
    rw [hnames]
    exact pairwise_sortedSet _

section Symbols

variable {kinds : Dict Nat (Str × Kind)} {refs : Option (List (Nat × Nat))} {sh : Section}
  {symtab strtab : Bytes} {i : Nat} {lib name : Str} {kind : Kind}

-- What the loop adds for the `i`th symbol.
def pick (kinds : Dict Nat (Str × Kind)) (refs : Option (List (Nat × Nat))) (sh : Section)
    (symtab strtab : Bytes) (i : Nat) : Option Found :=
  match kinds.get? (symbolAt symtab i).shndx with
  | none => none
  | some (lib, kind) =>
    if (symbolAt symtab i).info &&& 0xF = 3 then none
    else if refs.any fun refs => (sh.idx, i) ∉ refs then none
    else
      let sym := stringAt strtab (symbolAt symtab i).name
      if sym = [] ∨ sym.head? = some '.' then none else some (lib, kind, sym)

theorem addSymbol_eq {result : Dict Str Entry} (h : i * 16 + 16 ≤ symtab.length) :
    addSymbol kinds refs sh symtab strtab result i =
      .ok ((pick kinds refs sh symtab strtab i).elim result (collect result)) := by
  have hunpack : unpack [4, 4, 4, 1, 1, 2] (slice symtab (i * 16) (i * 16 + 16)) = _ :=
    unpack_slice h
  simp only [addSymbol]
  rw [symtabEntrySize, hunpack, ok_bind, pick]
  change (match kinds.get? (symbolAt symtab i).shndx with
    | none => Except.ok result
    | some (lib, kind) =>
      if (symbolAt symtab i).info &&& 0xF = 3 then Except.ok result
      else if refs.any fun refs => (sh.idx, i) ∉ refs then Except.ok result
      else if stringAt strtab (symbolAt symtab i).name = [] ∨
          (stringAt strtab (symbolAt symtab i).name).head? = some '.' then Except.ok result
      else Except.ok (collect result (lib, kind, stringAt strtab (symbolAt symtab i).name))) = _
  cases kinds.get? (symbolAt symtab i).shndx with
  | none => rfl
  | some library =>
    dsimp only
    split
    next => rfl
    next =>
      split
      next => rfl
      next => split <;> rfl

theorem pick_iff : pick kinds refs sh symtab strtab i = some (lib, kind, name) ↔
    kinds.get? (symbolAt symtab i).shndx = some (lib, kind) ∧
      (symbolAt symtab i).info % 16 ≠ 3 ∧ (∀ refs' ∈ refs, (sh.idx, i) ∈ refs') ∧
      name = stringAt strtab (symbolAt symtab i).name ∧ name ≠ [] ∧ name.head? ≠ some '.' := by
  have hmask : (symbolAt symtab i).info &&& 0xF = (symbolAt symtab i).info % 16 :=
    Nat.and_two_pow_sub_one_eq_mod _ 4
  have hany : (refs.any fun refs => (sh.idx, i) ∉ refs) = true ↔ ¬∀ refs' ∈ refs, (sh.idx, i) ∈ refs' := by
    cases refs <;> simp
  rw [pick, hmask]
  cases kinds.get? (symbolAt symtab i).shndx with
  | none => simp
  | some library =>
    obtain ⟨lib', kind'⟩ := library
    dsimp only
    split
    next hsection => exact iff_of_false nofun fun h => h.2.1 hsection
    next hsection =>
      split
      next hunref => exact iff_of_false nofun fun h => hany.1 hunref h.2.2.1
      next href =>
        rw [hany, not_not] at href
        split
        next hbad =>
          refine iff_of_false nofun ?_
          rintro ⟨-, -, -, rfl, hne, hdot⟩
          exact hbad.elim hne hdot
        next hgood =>
          rw [not_or] at hgood
          constructor
          · rintro ⟨⟩
            exact ⟨rfl, hsection, href, rfl, hgood⟩
          · rintro ⟨hlib, -, -, rfl, -⟩
            cases hlib
            rfl

variable (decompress) in
def foundIn (blob : Bytes) (kinds : Dict Nat (Str × Kind)) (refs : Option (List (Nat × Nat)))
    (sh : Section) : List Found :=
  if sh.type ≠ shtSymtab then []
  else
    let symtab := bytesOf decompress blob sh
    let strtab := bytesOf decompress blob (sectionAt blob sh.link)
    (List.range (symtab.length / symtabEntrySize)).filterMap (pick kinds refs sh symtab strtab)

end Symbols

section Read

variable {names : Bytes} {kinds : Dict Nat (Str × Kind)} {refs : Option (List (Nat × Nat))} {i : Nat}
  (hzlib : ∀ content stream, Deflates content stream → decompress stream = some content)
  (wf : WellFormed Deflates blob)

include hzlib wf

theorem addSymbols_eq (hi : i < shnum blob) (result : Dict Str Entry) :
    (Reader.mk blob (imageSections blob) names).addSymbols decompress kinds refs result
        (sectionAt blob i) =
      .ok ((foundIn decompress blob kinds refs (sectionAt blob i)).foldl collect result) := by
  rw [Reader.addSymbols, foundIn]
  split
  next => rfl
  next htype =>
    have hlink := wf.links i hi (not_not.1 htype)
    rw [data_ok hzlib wf hi, ok_bind]
    dsimp only
    rw [getItem_eq (imageSections_getElem? hlink), ok_bind, data_ok hzlib wf hlink, ok_bind,
      List.foldl_filterMap]
    refine foldlM_ok fun k hk result => ?_
    have hlt := List.mem_range.1 hk
    rw [symtabEntrySize] at hlt
    rw [addSymbol_eq (by omega)]
    cases pick kinds refs (sectionAt blob i) (bytesOf decompress blob (sectionAt blob i)) _ k with
    | none => rfl
    | some found => rfl

theorem allSymbols_eq : (imageSections blob).foldlM
      ((Reader.mk blob (imageSections blob) names).addSymbols decompress kinds refs) .empty =
    .ok (((imageSections blob).flatMap (foundIn decompress blob kinds refs)).foldl collect
      .empty) := by
  rw [List.foldl_flatMap]
  refine foldlM_ok fun sh hsh result => ?_
  obtain ⟨i, hi, rfl⟩ := List.mem_map.1 hsh
  exact addSymbols_eq hzlib wf (List.mem_range.1 hi) result

theorem sortedSymbols_eq : ((imageSections blob).foldlM
      ((Reader.mk blob (imageSections blob) names).addSymbols decompress kinds refs) .empty >>=
        fun result => .ok (result.mapEntries fun _ entry => entry.sorted)) =
    .ok ((((imageSections blob).flatMap (foundIn decompress blob kinds refs)).foldl collect
      .empty).mapEntries fun _ entry => entry.sorted) := by
  rw [allSymbols_eq hzlib wf, ok_bind]

theorem mem_found_iff {referencedOnly : Bool} {lib name : Str} {kind : Kind}
    (hkinds : ∀ imp lib kind, kinds.get? imp = some (lib, kind) ↔
      ImportsFrom Deflates blob imp lib kind)
    (hrefs : ∀ tab i, (∀ refs' ∈ refs, (tab, i) ∈ refs') ↔
      (referencedOnly = true → Relocated Deflates blob tab i)) :
    (lib, kind, name) ∈ (imageSections blob).flatMap (foundIn decompress blob kinds refs) ↔
      Imported Deflates blob referencedOnly lib kind name := by
  rw [List.mem_flatMap]
  constructor
  · rintro ⟨sh, hsh, hmem⟩
    obtain ⟨tab, htab, rfl⟩ := List.mem_map.1 hsh
    have htab := List.mem_range.1 htab
    rw [foundIn] at hmem
    split at hmem
    next => cases hmem
    next htype =>
      rw [not_not] at htype
      obtain ⟨i, hi, hpick⟩ := List.mem_filterMap.1 hmem
      obtain ⟨hlib, hsection, href, hname, hne, hdot⟩ := pick_iff.1 hpick
      have hlink := wf.links tab htab htype
      have hstrings := (contents_iff hzlib wf hlink).2 rfl
      rw [stringAt_eq (wf.stringsTerminated tab htab htype _ hstrings)] at hname
      exact ⟨tab, i, _, ⟨htab, htype, ⟨_, (contents_iff hzlib wf htab).2 rfl,
        List.mem_range.1 hi, rfl⟩, ⟨_, hstrings, hname⟩⟩, (hkinds _ _ _).1 hlib, hsection, hne, hdot,
        (hrefs tab i).1 href⟩
  · rintro ⟨tab, i, sym, ⟨htab, htype, ⟨symtab, hsymtab, hi, rfl⟩, strtab, hstrtab, hname⟩, hlib,
      hsection, hne, hdot, href⟩
    have hlink := wf.links tab htab htype
    rw [← stringAt_eq (wf.stringsTerminated tab htab htype _ hstrtab)] at hname
    rw [contents_iff hzlib wf htab] at hsymtab
    rw [contents_iff hzlib wf hlink] at hstrtab
    subst hsymtab hstrtab
    refine ⟨_, List.mem_map_of_mem (List.mem_range.2 htab), ?_⟩
    rw [foundIn, if_neg (not_not.2 htype)]
    refine List.mem_filterMap.2 ⟨i, List.mem_range.2 hi, ?_⟩
    exact pick_iff.2 ⟨(hkinds _ _ _).2 hlib, hsection, (hrefs tab i).2 href, hname, hne, hdot⟩

end Read

theorem Imported.of_referenced {lib name : Str} {kind : Kind}
    (h : Imported Deflates blob true lib kind name) : Imported Deflates blob false lib kind name := by
  obtain ⟨tab, i, sym, hsymbol, hlib, hsection, hne, hdot, -⟩ := h
  exact ⟨tab, i, sym, hsymbol, hlib, hsection, hne, hdot, nofun⟩

section Read

variable {names : Bytes}
  (hzlib : ∀ content stream, Deflates content stream → decompress stream = some content)
  (wf : WellFormed Deflates blob)
  (hnames : Contents Deflates blob (sectionAt blob (shstrndx blob)) names)

include hzlib wf hnames

theorem exact_of_refs (refs : Option (List (Nat × Nat))) {referencedOnly : Bool}
    (hrefs : ∀ tab i, (∀ refs' ∈ refs, (tab, i) ∈ refs') ↔
      (referencedOnly = true → Relocated Deflates blob tab i)) :
    Exact (Imported Deflates blob referencedOnly)
      ((((imageSections blob).flatMap (foundIn decompress blob
        (Reader.mk blob (imageSections blob) names).kinds refs)).foldl collect .empty).mapEntries
          fun _ entry => entry.sorted) := by
  have hlists := lists_collected ((imageSections blob).flatMap (foundIn decompress blob
    (Reader.mk blob (imageSections blob) names).kinds refs))
  have hkinds : ∀ imp lib kind, (Reader.mk blob (imageSections blob) names).kinds.get? imp =
      some (lib, kind) ↔ ImportsFrom Deflates blob imp lib kind :=
    fun _ _ _ => kinds_iff hzlib wf hnames
  simp only [mem_found_iff hzlib wf hkinds hrefs] at hlists
  exact hlists.sorted

theorem imports_eq (referencedOnly : Bool) :
    ∃ result, (Reader.mk blob (imageSections blob) names).imports decompress referencedOnly =
        .ok result ∧ Exact (Imported Deflates blob referencedOnly) result := by
  rw [Reader.imports]
  split
  next hempty =>
    have hnone : ∀ lib kind name, ¬Imported Deflates blob referencedOnly lib kind name := by
      rintro lib kind name ⟨tab, i, sym, h⟩
      have hsome := (kinds_iff hzlib wf hnames).2 h.library
      rw [Dict.isEmpty_iff.1 hempty] at hsome
      cases hsome
    refine ⟨.empty, rfl, ⟨fun lib => ?_, fun lib entry h => ?_⟩, fun lib entry h => ?_⟩
    · refine iff_of_false nofun ?_
      rintro ⟨kind, name, h⟩
      exact hnone lib kind name h
    · cases h
    · cases h
  next =>
    cases referencedOnly with
    | true =>
      refine ⟨_, ?_, exact_of_refs hzlib wf hnames (some (references decompress blob))
        fun tab i => ?_⟩
      · rw [if_pos rfl, referencedSymbols_eq hzlib wf]
        exact sortedSymbols_eq hzlib wf
      · simp [mem_references hzlib wf]
    | false =>
      refine ⟨_, ?_, exact_of_refs hzlib wf hnames none fun tab i => ?_⟩
      · rw [if_neg Bool.false_ne_true]
        exact sortedSymbols_eq hzlib wf
      · simp

end Read

theorem imports_exact (Deflates : Bytes → Bytes → Prop) (decompress : Bytes → Option Bytes)
    (hzlib : ∀ content stream, Deflates content stream → decompress stream = some content)
    (blob : Bytes) (wf : WellFormed Deflates blob) :
    ∃ r referenced all, read decompress blob = .ok r ∧
      r.imports decompress true = .ok referenced ∧ r.imports decompress false = .ok all ∧
      Exact (Imported Deflates blob true) referenced ∧ Exact (Imported Deflates blob false) all ∧
      ∀ lib entry, referenced.get? lib = some entry → ∃ entry', all.get? lib = some entry' ∧
        ∀ kind, entry.names kind ⊆ entry'.names kind := by
  obtain ⟨names, hnames⟩ := wf.contents _ wf.names
  obtain ⟨referenced, hreferenced, hexact⟩ := imports_eq hzlib wf hnames true
  obtain ⟨all, hall, hexact'⟩ := imports_eq hzlib wf hnames false
  refine ⟨_, referenced, all, read_eq hzlib wf hnames, hreferenced, hall, hexact, hexact', ?_⟩
  intro lib entry hentry
  have hsome : (referenced.get? lib).isSome := by
    rw [hentry]
    rfl
  obtain ⟨kind, name, himported⟩ := (hexact.libraries lib).1 hsome
  obtain ⟨entry', hentry'⟩ := Option.isSome_iff_exists.1
    ((hexact'.libraries lib).2 ⟨kind, name, himported.of_referenced⟩)
  refine ⟨entry', hentry', fun kind name hname => ?_⟩
  exact (hexact'.names lib entry' hentry' kind name).2
    ((hexact.names lib entry hentry kind name).1 hname).of_referenced

def word (n : Nat) : Bytes := [24, 16, 8, 0].map fun shift => UInt8.ofNat (n >>> shift)

def half (n : Nat) : Bytes := [8, 0].map fun shift => UInt8.ofNat (n >>> shift)

def sectionHeader (name type flags offset size link : Nat) : Bytes :=
  [name, type, flags, 0, offset, size, link, 0, 0, 0].flatMap word

def smallStrings : Bytes := [0, 0x66, 0] ++ (".fimport_a.rpl".toList.map fun c => UInt8.ofNat c.toNat) ++ [0]

-- The null symbol and `f`, and what zlib makes of them.
def smallSymbols : Bytes :=
  List.replicate 16 0 ++ word 1 ++ word 0xC0000000 ++ word 0 ++ [0x12, 0] ++ half 1

def smallStream : Bytes :=
  [0x78, 0xDA, 0x63, 0x60, 0xC0, 0x00, 0x8C, 0x07, 0xA0, 0x0C, 0x21, 0x20, 0x1B, 0x00, 0x09, 0x76,
    0x00, 0xD5]

-- One import section, a compressed symbol table, a relocation against `f`, and the strings.
def smallImage : Bytes :=
  elfMagic ++ [1, 2] ++ List.replicate 10 0 ++ half 0xFE01 ++ half 20 ++ word 1 ++ word 0 ++ word 0 ++
    word 52 ++ word 0 ++ half 52 ++ half 0 ++ half 0 ++ half 40 ++ half 5 ++ half 4 ++
    sectionHeader 0 0 0 0 0 0 ++ sectionHeader 3 shtRplImports 0 304 0 0 ++
    sectionHeader 0 shtSymtab shfRplZlib 270 22 4 ++ sectionHeader 0 shtRela 0 292 12 2 ++
    sectionHeader 0 3 0 252 18 0 ++
    smallStrings ++ word 32 ++ smallStream ++ word 0 ++ word 0x101 ++ word 0

def smallDecompress (stream : Bytes) : Option Bytes :=
  if stream = smallStream then some smallSymbols else none

def SmallDeflates (content stream : Bytes) : Prop := content = smallSymbols ∧ stream = smallStream

theorem smallDecompress_undoes (content stream : Bytes) (h : SmallDeflates content stream) :
    smallDecompress stream = some content := by
  obtain ⟨rfl, rfl⟩ := h
  exact if_pos rfl

theorem Contents.eq_raw {sh : Section} {content : Bytes} (h : Contents Deflates blob sh content)
    (hflag : sh.flags &&& shfRplZlib = 0) : content = rawBytes blob sh := by
  cases h with
  | plain => rfl
  | empty hne => exact absurd hflag hne
  | deflated hne => exact absurd hflag hne

theorem smallImage_wellFormed : WellFormed SmallDeflates smallImage := by
  have hcount : shnum smallImage = 5 := by decide +kernel
  have hstrings : (sectionAt smallImage 4).flags &&& shfRplZlib = 0 ∧
      ∀ last ∈ (rawBytes smallImage (sectionAt smallImage 4)).getLast?, last = 0 := by
    decide +kernel
  have hterminated : ∀ table, Contents SmallDeflates smallImage (sectionAt smallImage 4) table →
      Terminated table := by
    intro table htable
    rw [htable.eq_raw hstrings.1]
    exact hstrings.2
  refine ⟨by decide +kernel, by decide +kernel, by decide +kernel, by decide +kernel,
    by decide +kernel, by decide +kernel, fun i hi => ?_, by decide +kernel, ?_, by decide +kernel,
    fun i hi htype => ?_⟩
  · have hraw : ∀ i < 5, (sectionAt smallImage i).flags &&& shfRplZlib = 0 ∨
        (sectionAt smallImage i).flags &&& shfRplZlib ≠ 0 ∧
          4 ≤ (rawBytes smallImage (sectionAt smallImage i)).length ∧
          (rawBytes smallImage (sectionAt smallImage i)).drop 4 = smallStream := by decide +kernel
    rcases hraw i (hcount ▸ hi) with hflag | ⟨hflag, hlong, hstream⟩
    · exact ⟨_, .plain hflag⟩
    · exact ⟨smallSymbols, .deflated hflag hlong ⟨rfl, hstream⟩⟩
  · have hnames : shstrndx smallImage = 4 := by decide +kernel
    rwa [hnames]
  · have hlink : ∀ i < 5, (sectionAt smallImage i).type = shtSymtab →
        (sectionAt smallImage i).link = 4 := by decide +kernel
    rwa [hlink i (hcount ▸ hi) htype]

theorem imports_exact_small :
    (∃ r referenced all, read smallDecompress smallImage = .ok r ∧
      r.imports smallDecompress true = .ok referenced ∧ r.imports smallDecompress false = .ok all ∧
      Exact (Imported SmallDeflates smallImage true) referenced ∧
      Exact (Imported SmallDeflates smallImage false) all ∧
      ∀ lib entry, referenced.get? lib = some entry → ∃ entry', all.get? lib = some entry' ∧
        ∀ kind, entry.names kind ⊆ entry'.names kind) ∧
    (read smallDecompress smallImage >>= fun r => r.imports smallDecompress true).toOption.map
      (fun result => result.entries) = some [(['a'], ⟨[['f']], []⟩)] :=
  ⟨imports_exact SmallDeflates smallDecompress smallDecompress_undoes smallImage
    smallImage_wellFormed, by decide +kernel⟩

end CoreinitNx.Rpx
