import Mathlib.Data.Set.Card
import CoreinitNx.Rpx.Imports

namespace CoreinitNx.Rpx

-- What is printed of one library.
structure LibraryListing where
  lib : Str
  count : Nat
  symbols : List (Kind × Str)
deriving DecidableEq, Repr

-- What `extract_imports.py` prints where anything is imported.
structure Listing where
  libraries : List LibraryListing
  total : Nat
deriving DecidableEq, Repr

def Entry.symbols (e : Entry) : List (Kind × Str) :=
  [Kind.functions, Kind.data].flatMap fun kind => (e.names kind).map (kind, ·)

-- `sorted(imports)`
def sortedKeys (imports : Dict Str Entry) : List Str :=
  (imports.entries.map Prod.fst).insertionSort (· ≤ ·)

def listLibrary (imports : Dict Str Entry) (lib : Str) : LibraryListing :=
  let entries := (imports.get? lib).getD .empty
  ⟨lib, entries.functions.length + entries.data.length, entries.symbols⟩

def listing (imports : Dict Str Entry) : Option Listing :=
  if imports.isEmpty then none
  else
    let libraries := (sortedKeys imports).map (listLibrary imports)
    some ⟨libraries, (libraries.map (·.count)).sum⟩

def extractImports (decompress : Bytes → Option Bytes) (blob : Bytes) :
    Except Error (Option Listing) := do
  let r ← read decompress blob
  let imports ← r.imports decompress true
  pure (listing imports)

-- Everything that is listed, line by line.
def Listing.lines (l : Listing) : List (Str × Kind × Str) :=
  l.libraries.flatMap fun library => library.symbols.map (library.lib, ·)

-- Each import stands on one line of its library, in order, and the totals are those of the sets.
structure ExactListing (P : Str → Kind → Str → Prop) (l : Listing) : Prop where
  libraries : (l.libraries.map (·.lib)).Pairwise (· < ·)
  symbols : ∀ library ∈ l.libraries, library.symbols.Pairwise fun a b =>
    a.1 = .functions ∧ b.1 = .data ∨ a.1 = b.1 ∧ a.2 < b.2
  mem : ∀ lib kind name, (lib, kind, name) ∈ l.lines ↔ P lib kind name
  nonempty : ∀ library ∈ l.libraries, library.symbols ≠ []
  count : ∀ library ∈ l.libraries, library.count = {p : Kind × Str | P library.lib p.1 p.2}.ncard
  total : l.total = {p : Str × Kind × Str | P p.1 p.2.1 p.2.2}.ncard

variable {P : Str → Kind → Str → Prop} {imports : Dict Str Entry} {lib name : Str} {kind : Kind}
  {e : Entry} {l : Listing}

theorem length_eq_ncard {α : Type} [DecidableEq α] {xs : List α} {S : Set α} (h : xs.Nodup)
    (hmem : ∀ x, x ∈ xs ↔ x ∈ S) : xs.length = S.ncard := by
  have hset : S = (xs.toFinset : Set α) := by
    ext x
    rw [List.coe_toFinset]
    exact (hmem x).symm
  rw [hset, Set.ncard_coe_finset, List.toFinset_card_of_nodup h]

theorem mem_symbols : (kind, name) ∈ e.symbols ↔ name ∈ e.names kind := by
  cases kind <;> simp [Entry.symbols, Entry.names]

theorem length_symbols (e : Entry) : e.symbols.length = e.functions.length + e.data.length := by
  simp [Entry.symbols, Entry.names]

theorem pairwise_symbols (h : ∀ kind, (e.names kind).Pairwise (· < ·)) :
    e.symbols.Pairwise fun a b => a.1 = .functions ∧ b.1 = .data ∨ a.1 = b.1 ∧ a.2 < b.2 := by
  have hkind (kind : Kind) : ((e.names kind).map (kind, ·)).Pairwise fun a b =>
      a.1 = .functions ∧ b.1 = .data ∨ a.1 = b.1 ∧ a.2 < b.2 :=
    List.pairwise_map.2 ((h kind).imp fun hlt => .inr ⟨rfl, hlt⟩)
  rw [Entry.symbols, List.flatMap_cons, List.flatMap_singleton, List.pairwise_append]
  refine ⟨hkind .functions, hkind .data, ?_⟩
  intro a ha b hb
  obtain ⟨_, -, rfl⟩ := List.mem_map.1 ha
  obtain ⟨_, -, rfl⟩ := List.mem_map.1 hb
  exact .inl ⟨rfl, rfl⟩

theorem nodup_symbols (h : ∀ kind, (e.names kind).Pairwise (· < ·)) : e.symbols.Nodup := by
  refine (pairwise_symbols h).imp fun hab heq => ?_
  subst heq
  rcases hab with ⟨hfun, hdata⟩ | ⟨-, hlt⟩
  · exact absurd (hfun.symm.trans hdata) nofun
  · exact absurd hlt (lt_irrefl _)

theorem mem_sortedKeys : lib ∈ sortedKeys imports ↔ (imports.get? lib).isSome := by
  rw [sortedKeys, (List.perm_insertionSort _ _).mem_iff, ← Option.ne_none_iff_isSome,
    Ne, Dict.get?_eq_none_iff, not_not]

theorem pairwise_sortedKeys (imports : Dict Str Entry) :
    (sortedKeys imports).Pairwise (· < ·) := by
  have hsorted := List.pairwise_insertionSort (· ≤ ·) (imports.entries.map Prod.fst)
  have hdistinct := ((List.perm_insertionSort (· ≤ ·) _).nodup_iff).2 imports.nodup
  exact (hsorted.and hdistinct).imp fun hle => lt_of_le_of_ne hle.1 hle.2

theorem mem_listLibrary (h : Exact P imports) :
    (kind, name) ∈ (listLibrary imports lib).symbols ↔ P lib kind name := by
  rw [listLibrary, mem_symbols]
  cases hentry : imports.get? lib with
  | some entry => exact h.names lib entry hentry kind name
  | none =>
    have hnone : ¬P lib kind name := fun himported => by
      have hsome := (h.libraries lib).2 ⟨kind, name, himported⟩
      rw [hentry] at hsome
      cases hsome
    refine iff_of_false ?_ hnone
    cases kind <;> exact List.not_mem_nil

theorem pairwise_listLibrary (h : Exact P imports) (lib : Str) (kind : Kind) :
    (((imports.get? lib).getD .empty).names kind).Pairwise (· < ·) := by
  cases hentry : imports.get? lib with
  | some entry => exact h.sorted lib entry hentry kind
  | none => cases kind <;> exact .nil

theorem listLibrary_count (imports : Dict Str Entry) (lib : Str) :
    (listLibrary imports lib).count = (listLibrary imports lib).symbols.length :=
  (length_symbols _).symm

-- All lines, in order.
def linesOf (imports : Dict Str Entry) : List (Str × Kind × Str) :=
  (sortedKeys imports).flatMap fun lib => (listLibrary imports lib).symbols.map (lib, ·)

theorem mem_linesOf (h : Exact P imports) :
    (lib, kind, name) ∈ linesOf imports ↔ P lib kind name := by
  simp only [linesOf, List.mem_flatMap, List.mem_map, Prod.mk.injEq]
  constructor
  · rintro ⟨lib, -, ⟨_, _⟩, hsymbol, rfl, rfl, rfl⟩
    exact (mem_listLibrary h).1 hsymbol
  · intro himported
    exact ⟨lib, mem_sortedKeys.2 ((h.libraries lib).2 ⟨kind, name, himported⟩), _,
      (mem_listLibrary h).2 himported, rfl, rfl⟩

theorem nodup_linesOf (h : Exact P imports) : (linesOf imports).Nodup := by
  refine List.nodup_flatMap.2 ⟨fun lib _ => ?_, ?_⟩
  · exact (nodup_symbols (pairwise_listLibrary h lib)).map fun _ _ heq => (Prod.mk.inj heq).2
  · refine (pairwise_sortedKeys imports).imp fun hlt p hp hp' => ?_
    obtain ⟨_, -, rfl⟩ := List.mem_map.1 hp
    obtain ⟨_, -, heq⟩ := List.mem_map.1 hp'
    exact absurd (Prod.mk.inj heq).1.symm hlt.ne

theorem length_linesOf (imports : Dict Str Entry) : (linesOf imports).length =
    ((sortedKeys imports).map fun lib => (listLibrary imports lib).count).sum := by
  rw [linesOf, List.length_flatMap]
  refine congrArg List.sum (List.map_congr_left fun lib _ => ?_)
  rw [List.length_map]
  exact (listLibrary_count imports lib).symm

theorem exactListing (h : Exact P imports) (hl : listing imports = some l) :
    ExactListing P l := by
  rw [listing] at hl
  split at hl
  next => cases hl
  next =>
    obtain rfl := Option.some.inj hl
    refine ⟨?_, ?_, fun lib kind name => ?_, ?_, ?_, ?_⟩
    · have hkeys : (sortedKeys imports).map (LibraryListing.lib ∘ listLibrary imports) =
          sortedKeys imports := List.map_id _
      rw [List.map_map, hkeys]
      exact pairwise_sortedKeys imports
    · intro library hlibrary
      obtain ⟨lib, -, rfl⟩ := List.mem_map.1 hlibrary
      exact pairwise_symbols (pairwise_listLibrary h lib)
    · rw [Listing.lines, List.flatMap_map]
      exact mem_linesOf h
    · intro library hlibrary
      obtain ⟨lib, hkey, rfl⟩ := List.mem_map.1 hlibrary
      obtain ⟨kind, name, himported⟩ := (h.libraries lib).1 (mem_sortedKeys.1 hkey)
      exact List.ne_nil_of_mem ((mem_listLibrary h).2 himported)
    · intro library hlibrary
      obtain ⟨lib, -, rfl⟩ := List.mem_map.1 hlibrary
      rw [listLibrary_count]
      exact length_eq_ncard (nodup_symbols (pairwise_listLibrary h lib)) fun _ => mem_listLibrary h
    · dsimp only
      rw [List.map_map]
      exact (length_linesOf imports).symm.trans
        (length_eq_ncard (nodup_linesOf h) fun _ => mem_linesOf h)

theorem listing_isSome_iff (h : Exact P imports) :
    (listing imports).isSome ↔ ∃ lib kind name, P lib kind name := by
  have hlibraries : (∃ lib kind name, P lib kind name) ↔ ∃ lib, (imports.get? lib).isSome :=
    exists_congr fun lib => (h.libraries lib).symm
  rw [hlibraries, listing]
  split
  next hempty =>
    refine iff_of_false (by rintro ⟨⟩) ?_
    rintro ⟨lib, hsome⟩
    rw [Dict.isEmpty_iff.1 hempty lib] at hsome
    cases hsome
  next hsome =>
    refine iff_of_true rfl ?_
    obtain ⟨lib, hlib⟩ := not_forall.1 (mt Dict.isEmpty_iff.2 hsome)
    exact ⟨lib, Option.ne_none_iff_isSome.1 hlib⟩

-- For every well-formed image the tool lists what its relocations use, each thing once, and counts
-- it, unless there is nothing, which it says.
theorem listing_exact (Deflates : Bytes → Bytes → Prop) (decompress : Bytes → Option Bytes)
    (hzlib : ∀ content stream, Deflates content stream → decompress stream = some content)
    (blob : Bytes) (wf : WellFormed Deflates blob) :
    ∃ result, extractImports decompress blob = .ok result ∧
      (result.isSome ↔ ∃ lib kind name, Imported Deflates blob true lib kind name) ∧
      ∀ l ∈ result, ExactListing (Imported Deflates blob true) l := by
  obtain ⟨names, hnames⟩ := wf.contents _ wf.names
  obtain ⟨imports, himports, hexact⟩ := imports_eq hzlib wf hnames true
  refine ⟨listing imports, ?_, listing_isSome_iff hexact, fun l hl => exactListing hexact hl⟩
  rw [extractImports, read_eq hzlib wf hnames, ok_bind, himports, ok_bind]
  rfl

theorem listing_exact_small :
    ∃ result, extractImports smallDecompress smallImage = .ok result ∧
      result = some ⟨[⟨['a'], 1, [(.functions, ['f'])]⟩], 1⟩ ∧
      (result.isSome ↔ ∃ lib kind name, Imported SmallDeflates smallImage true lib kind name) := by
  obtain ⟨result, hresult, hsome, -⟩ := listing_exact SmallDeflates smallDecompress
    smallDecompress_undoes smallImage smallImage_wellFormed
  have hlisted : (extractImports smallDecompress smallImage).toOption =
      some (some ⟨[⟨['a'], 1, [(.functions, ['f'])]⟩], 1⟩) := by decide +kernel
  rw [hresult] at hlisted
  exact ⟨result, hresult, Option.some.inj hlisted, hsome⟩

end CoreinitNx.Rpx
