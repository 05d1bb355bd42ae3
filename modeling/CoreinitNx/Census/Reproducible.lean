import CoreinitNx.Census.Frequency

namespace CoreinitNx.Census

open Rpx Distinct

section Sorting

variable {α β : Type} [LinearOrder β] {key : α → β} {xs ys : List α}

theorem pairwise_insertionSort_key (key : α → β) (xs : List α) :
    (xs.insertionSort (key · ≤ key ·)).Pairwise (key · ≤ key ·) := by
  have htrans : IsTrans α (key · ≤ key ·) := ⟨fun _ _ _ => le_trans⟩
  have htotal : Std.Total (α := α) (key · ≤ key ·) := ⟨fun _ _ => le_total _ _⟩
  exact List.pairwise_insertionSort _ xs

-- A sort sees the order it is given only in what its key does not tell apart.
theorem insertionSort_eq_of_perm (key : α → β) (hperm : xs.Perm ys)
    (hkey : ∀ a ∈ xs, ∀ b ∈ xs, key a = key b → a = b) :
    xs.insertionSort (key · ≤ key ·) = ys.insertionSort (key · ≤ key ·) := by
  have hsame : (xs.insertionSort (key · ≤ key ·)).Perm (ys.insertionSort (key · ≤ key ·)) :=
    ((List.perm_insertionSort _ _).trans hperm).trans (List.perm_insertionSort _ _).symm
  refine List.Perm.eq_of_pairwise (fun a b ha hb hab hba => ?_)
    (pairwise_insertionSort_key key xs) (pairwise_insertionSort_key key ys) hsame
  have ha' : a ∈ xs := (List.perm_insertionSort _ _).mem_iff.1 ha
  have hb' : b ∈ xs := hperm.mem_iff.2 ((List.perm_insertionSort _ _).mem_iff.1 hb)
  exact hkey a ha' b hb' (le_antisymm hab hba)

end Sorting

theorem kindName_injective : Function.Injective kindName := by
  intro a b h
  cases a <;> cases b <;> first | rfl | exact absurd h (by decide)

theorem useKey_injective : Function.Injective useKey := by
  intro use use' h
  obtain ⟨hdisplay, h⟩ := Prod.mk.inj (toLex.injective h)
  obtain ⟨hlibrary, h⟩ := Prod.mk.inj (toLex.injective h)
  obtain ⟨hname, hkind⟩ := Prod.mk.inj (toLex.injective h)
  obtain ⟨display, library, name, kind⟩ := use
  obtain ⟨display', library', name', kind'⟩ := use'
  obtain rfl : display = display' := hdisplay
  obtain rfl : library = library' := hlibrary
  obtain rfl : name = name' := hname
  obtain rfl : kind = kind' := kindName_injective hkind
  rfl

theorem sortedSet_eq_of_perm {names names' : List Str} (h : names.Perm names') :
    sortedSet names = sortedSet names' :=
  insertionSort_eq_of_perm id h.dedup fun _ _ _ _ heq => heq

section Names

variable {order order' : SetOrder} {metaXml : Str → MetaXml} {paths : List Str} {d : Str}

-- The directories of the modules and the ones above them.
def Beside (paths : List Str) (d : Str) : Prop :=
  d ∈ paths.map dirname ∨ ∃ below ∈ paths.map dirname, dirname below = d

def metaAt (metaXml : Str → MetaXml) (d : Str) : Option (Option Str × Option Str) :=
  match metaXml (join d metaXmlName) with
  | .missing => none
  | .broken => none
  | .parsed longnameEn titleId =>
    let name := (text longnameEn).map fun c => if c = '\n' then ' ' else c
    some (orNone name, orNone (text titleId))

-- Where more than one of them has a `meta.xml`, these give the one name.
def OneName (metaXml : Str → MetaXml) (paths : List Str) : Prop :=
  ∀ d d', Beside paths d → Beside paths d' →
    ∀ m ∈ metaAt metaXml d, ∀ m' ∈ metaAt metaXml d', m.1 = m'.1

def searched (order : SetOrder) (paths : List Str) : List Str :=
  order.iterate ((paths.map dirname).dedup ++
    (order.iterate (paths.map dirname).dedup).map dirname).dedup

theorem mem_searched : d ∈ searched order paths ↔ Beside paths d := by
  rw [searched, (order.perm _).mem_iff, List.mem_dedup, List.mem_append, List.mem_dedup, Beside]
  refine or_congr_right ?_
  rw [List.mem_map]
  refine exists_congr fun below => and_congr_left fun _ => ?_
  rw [(order.perm _).mem_iff, List.mem_dedup]

theorem readMetaXml_eq : readMetaXml order metaXml paths =
    ((searched order paths).findSome? (metaAt metaXml)).getD (none, none) := rfl

theorem readMetaXml_name (h : OneName metaXml paths) :
    (readMetaXml order metaXml paths).1 = (readMetaXml order' metaXml paths).1 := by
  rw [readMetaXml_eq, readMetaXml_eq]
  have hnone (order order' : SetOrder)
      (hfound : (searched order paths).findSome? (metaAt metaXml) = none) :
      (searched order' paths).findSome? (metaAt metaXml) = none := by
    rw [List.findSome?_eq_none_iff] at hfound ⊢
    exact fun d hd => hfound d (mem_searched.2 (mem_searched.1 hd))
  cases hfound : (searched order paths).findSome? (metaAt metaXml) with
  | none => rw [hnone order order' hfound]
  | some m =>
    cases hfound' : (searched order' paths).findSome? (metaAt metaXml) with
    | none =>
      rw [hnone order' order hfound'] at hfound
      cases hfound
    | some m' =>
      obtain ⟨d, hd, hm⟩ := List.exists_of_findSome?_eq_some hfound
      obtain ⟨d', hd', hm'⟩ := List.exists_of_findSome?_eq_some hfound'
      exact h d d' (mem_searched.1 hd) (mem_searched.1 hd') m hm m' hm'

end Names

section Collected

variable {order order' : SetOrder} {src : Sources} {c c' : Collected} {display : Str}
  {symbols : List Symbol} {titles : List (Str × List Str)}

theorem perTitle_foldl (c : Collected) (display : Str) (symbols : List Symbol) :
    (symbols.foldl (addUser display) c).perTitle =
      c.perTitle ++ symbols.map fun key => (display, key) := by
  induction symbols generalizing c with
  | nil => exact (List.append_nil _).symm
  | cons key symbols ih =>
    rw [List.foldl_cons, ih, addUser, List.map_cons, List.append_assoc, List.singleton_append]

theorem failures_foldl (c : Collected) (display : Str) (symbols : List Symbol) :
    (symbols.foldl (addUser display) c).failures = c.failures := by
  induction symbols generalizing c with
  | nil => rfl
  | cons key symbols ih => rw [List.foldl_cons, ih, addUser]

theorem whoUses_foldl (c : Collected) (display : Str) (symbols : List Symbol) (k : Symbol) :
    (symbols.foldl (addUser display) c).whoUses k =
      if k ∈ symbols then (c.whoUses k).insert display else c.whoUses k := by
  induction symbols generalizing c with
  | nil => rfl
  | cons key symbols ih =>
    rw [List.foldl_cons, ih, whoUses_addUser]
    by_cases hk : k = key
    · rw [if_pos hk, hk, if_pos List.mem_cons_self]
      split
      next => exact List.insert_of_mem List.mem_insert_self
      next => rfl
    · rw [if_neg hk]
      exact if_congr (List.mem_cons.trans (or_iff_right hk)).symm rfl rfl

-- What two passes over the titles collect, whatever the order within a title.
structure Alike (c c' : Collected) : Prop where
  whoUses : ∀ key, c.whoUses key = c'.whoUses key
  perTitle : c.perTitle.Perm c'.perTitle
  failures : c.failures = c'.failures

theorem alike_collect (h : ∀ title ∈ titles, shown order src title = shown order' src title) :
    Alike (collect order src titles) (collect order' src titles) := by
  induction titles using List.reverseRecOn with
  | nil => exact ⟨fun _ => rfl, .nil, rfl⟩
  | append_singleton titles title ih =>
    obtain ⟨hwho, hper, hfail⟩ := ih fun t ht => h t (List.mem_append_left _ ht)
    have hshown : displayName order src title.1 title.2 = displayName order' src title.1 title.2 :=
      h title (List.mem_append_right _ (List.mem_singleton_self _))
    rw [collect_concat, collect_concat, collectTitle, collectTitle, hfail, hshown]
    generalize title.2.foldl (addModule src) ([], (collect order' src titles).failures) = read
    have hsymbols : (order.iterate read.1).Perm (order'.iterate read.1) :=
      (order.perm _).trans (order'.perm _).symm
    refine ⟨fun key => ?_, ?_, ?_⟩
    · rw [whoUses_foldl, whoUses_foldl]
      have hsame := hwho key
      rw [Collected.whoUses, Collected.whoUses] at hsame ⊢
      rw [hsame]
      exact if_congr hsymbols.mem_iff rfl rfl
    · rw [perTitle_foldl, perTitle_foldl]
      exact hper.append (hsymbols.map _)
    · rw [failures_foldl, failures_foldl]

theorem Alike.entries (h : Alike c c') (hc : Consistent c) (hc' : Consistent c') :
    c.users.entries.Perm c'.users.entries := by
  refine (List.perm_ext_iff_of_nodup c.users.nodup.of_map c'.users.nodup.of_map).2 ?_
  rintro ⟨key, who⟩
  rw [mem_entries_users hc, mem_entries_users hc', h.whoUses]

end Collected

-- Two reports of one census. The key that their rows are sorted by leaves the kind of a symbol out.
structure Report.Alike (r r' : Report) : Prop where
  importsByTitle : r.importsByTitle = r'.importsByTitle
  sorted : r.frequency.Pairwise (rowKey · ≤ rowKey ·)
  sorted' : r'.frequency.Pairwise (rowKey · ≤ rowKey ·)
  rows : r.frequency.Perm r'.frequency
  frequency : (∀ a ∈ r.frequency, ∀ b ∈ r.frequency, rowKey a = rowKey b → a.kind = b.kind) →
    r.frequency = r'.frequency
  titles : r.titles = r'.titles
  failures : r.failures = r'.failures

section Reports

variable {order order' : SetOrder} {src : Sources} {c c' : Collected} {implemented : List Str}
  {titles : Dict Str (List Str)} {n : Nat}

-- A row says nothing that its symbol and its number do not.
theorem rowOf_eq {user user' : Symbol × List Str}
    (hrow : rowKey (rowOf implemented n user) = rowKey (rowOf implemented n user'))
    (hkind : (rowOf implemented n user).kind = (rowOf implemented n user').kind) :
    rowOf implemented n user = rowOf implemented n user' := by
  obtain ⟨⟨library, name, kind⟩, who⟩ := user
  obtain ⟨⟨library', name', kind'⟩, who'⟩ := user'
  obtain ⟨hcount, hrow⟩ := Prod.mk.inj (toLex.injective hrow)
  obtain ⟨hlibrary, hname⟩ := Prod.mk.inj (toLex.injective hrow)
  obtain rfl : library = library' := hlibrary
  obtain rfl : name = name' := hname
  obtain rfl : kind = kind' := hkind
  have hlength : who.length = who'.length := Int.ofNat.inj (neg_inj.1 hcount)
  rw [rowOf, rowOf, hlength]

theorem report_alike (h : Alike c c') (hc : Consistent c) (hc' : Consistent c') :
    (∃ message, report implemented c = .error message ∧ report implemented c' = .error message) ∨
      ∃ r r', report implemented c = .ok r ∧ report implemented c' = .ok r' ∧ r.Alike r' := by
  have htitles : sortedSet (c.perTitle.map Prod.fst) = sortedSet (c'.perTitle.map Prod.fst) :=
    sortedSet_eq_of_perm (h.perTitle.map _)
  rw [report, report, htitles]
  generalize (sortedSet (c'.perTitle.map Prod.fst)).length = n
  split
  next => exact .inl ⟨_, rfl, rfl⟩
  next =>
    refine .inr ⟨_, _, rfl, rfl, ?_⟩
    have hrows : (c.users.entries.map (rowOf implemented n)).Perm
        (c'.users.entries.map (rowOf implemented n)) := (h.entries hc hc').map _
    refine ⟨?_, pairwise_insertionSort_key _ _, pairwise_insertionSort_key _ _, ?_,
      fun hkinds => ?_, rfl, h.failures⟩
    · exact insertionSort_eq_of_perm useKey h.perTitle fun _ _ _ _ heq => useKey_injective heq
    · exact ((List.perm_insertionSort _ _).trans hrows).trans (List.perm_insertionSort _ _).symm
    · refine insertionSort_eq_of_perm rowKey hrows fun a ha b hb hkey => ?_
      have hkind := hkinds a ((List.perm_insertionSort _ _).mem_iff.2 ha) b
        ((List.perm_insertionSort _ _).mem_iff.2 hb) hkey
      obtain ⟨user, -, rfl⟩ := List.mem_map.1 ha
      obtain ⟨user', -, rfl⟩ := List.mem_map.1 hb
      exact rowOf_eq hkey hkind

theorem census_reproducible (order order' : SetOrder) (src : Sources)
    (titles : Dict Str (List Str))
    (hnames : ∀ title ∈ titles.entries, OneName src.metaXml title.2) :
    (∃ message, census order src titles = .error message ∧
        census order' src titles = .error message) ∨
      ∃ r r', census order src titles = .ok r ∧ census order' src titles = .ok r' ∧
        r.Alike r' := by
  have hshown : ∀ title ∈ titles.entries, shown order src title = shown order' src title := by
    intro title htitle
    rw [shown, shown, displayName, displayName, readMetaXml_name (hnames title htitle)]
  exact report_alike (alike_collect hshown) (consistent_collect _ _ _) (consistent_collect _ _ _)

-- The other order in which a set can be iterated.
def SetOrder.backwards : SetOrder := ⟨fun xs => xs.reverse, fun xs => xs.reverse_perm⟩

-- Every module imports the one name, as a function and as data.
def bothKinds : Sources where
  metaXml _ := .missing
  metadata := []
  implemented := []
  imports _ := .ok (Dict.empty.set ['c', 'o', 'r', 'e'] ⟨[['R']], [['R']]⟩)

theorem census_reproducible_backwards :
    ∃ r r', census .asBuilt bothKinds oneTitle = .ok r ∧
      census .backwards bothKinds oneTitle = .ok r' ∧ r.Alike r' ∧ r.frequency ≠ r'.frequency := by
  have hnames : ∀ title ∈ oneTitle.entries, OneName bothKinds.metaXml title.2 :=
    fun title _ d d' _ _ m hm => nomatch hm
  have hdiffer : written (census .asBuilt bothKinds oneTitle) ≠
      written (census .backwards bothKinds oneTitle) := by decide +kernel
  rcases census_reproducible .asBuilt .backwards bothKinds oneTitle hnames with
    ⟨message, hone, htwo⟩ | ⟨r, r', hone, htwo, halike⟩
  · rw [hone, htwo] at hdiffer
    exact absurd rfl hdiffer
  · rw [hone, htwo] at hdiffer
    exact ⟨r, r', hone, htwo, halike, hdiffer⟩

end Reports

section Files

variable {order : SetOrder} {src : Sources} {c : Collected} {implemented : List Str}
  {titles : Dict Str (List Str)} {r : Report}

-- What `frequency.csv` says can be counted again in `imports_by_title.csv`, but for what is
-- implemented, which it takes from the list.
structure Report.Agrees (implemented : List Str) (r : Report) : Prop where
  usesSorted : r.importsByTitle.Pairwise (useKey · ≤ useKey ·)
  rowsSorted : r.frequency.Pairwise (rowKey · ≤ rowKey ·)
  distinct : (r.frequency.map Row.key).Nodup
  used : ∀ key, key ∈ r.frequency.map Row.key ↔ ∃ display, (display, key) ∈ r.importsByTitle
  titles : r.titles = number Prod.fst r.importsByTitle
  count : ∀ row ∈ r.frequency,
    row.titles = number Prod.fst (r.importsByTitle.filter fun use => use.2 = row.key)
  percentage : ∀ row ∈ r.frequency, row.pctOfCorpus = 100 * row.titles / r.titles
  covered : ∀ row ∈ r.frequency, row.implemented = true ↔ row.symbol ∈ implemented

theorem report_agrees (hc : Consistent c) (hreport : report implemented c = .ok r) :
    r.Agrees implemented := by
  rw [report] at hreport
  split at hreport
  next => cases hreport
  next =>
    obtain rfl := Except.ok.inj hreport
    have huses {use : Str × Symbol} :
        use ∈ c.perTitle.insertionSort (useKey · ≤ useKey ·) ↔ use ∈ c.perTitle :=
      (List.perm_insertionSort _ _).mem_iff
    have hrows (n : Nat) {row : Row} : row ∈ (c.users.entries.map (rowOf implemented n)).insertionSort
        (rowKey · ≤ rowKey ·) ↔ ∃ key, c.whoUses key ≠ [] ∧
          rowOf implemented n (key, c.whoUses key) = row := by
      rw [(List.perm_insertionSort _ _).mem_iff, List.mem_map]
      constructor
      · rintro ⟨⟨key, who⟩, huser, hrow⟩
        obtain ⟨hne, rfl⟩ := (mem_entries_users hc).1 huser
        exact ⟨key, hne, hrow⟩
      · rintro ⟨key, hne, hrow⟩
        exact ⟨_, (mem_entries_users hc).2 ⟨hne, rfl⟩, hrow⟩
    have hnumber : (sortedSet (c.perTitle.map Prod.fst)).length =
        number Prod.fst (c.perTitle.insertionSort (useKey · ≤ useKey ·)) := by
      refine length_eq_number ((pairwise_sortedSet _).imp ne_of_lt) fun display => ?_
      rw [mem_sortedSet, List.mem_map]
      exact exists_congr fun use => and_congr_left fun _ => huses.symm
    refine ⟨pairwise_insertionSort_key _ _, pairwise_insertionSort_key _ _, ?_, fun key => ?_,
      hnumber, fun row hrow => ?_, fun row hrow => ?_, fun row hrow => ?_⟩
    · rw [((List.perm_insertionSort _ _).map Row.key).nodup_iff, List.map_map]
      exact c.users.nodup
    · rw [List.mem_map]
      constructor
      · rintro ⟨row, hrow, rfl⟩
        obtain ⟨key, hne, rfl⟩ := (hrows _).1 hrow
        obtain ⟨display, hdisplay⟩ := List.exists_mem_of_ne_nil _ hne
        exact ⟨display, huses.2 ((hc.perTitle display key).2 hdisplay)⟩
      · rintro ⟨display, huse⟩
        have hmem := (hc.perTitle display key).1 (huses.1 huse)
        exact ⟨_, (hrows _).2 ⟨key, List.ne_nil_of_mem hmem, rfl⟩, rfl⟩
    · obtain ⟨key, hne, rfl⟩ := (hrows _).1 hrow
      refine length_eq_number (hc.nodup key) fun display => ?_
      rw [← hc.perTitle]
      constructor
      · intro huse
        exact ⟨(display, key), List.mem_filter.2 ⟨huses.2 huse, decide_eq_true rfl⟩, rfl⟩
      · rintro ⟨⟨x, k⟩, hfilter, rfl⟩
        obtain ⟨huse, hkey⟩ := List.mem_filter.1 hfilter
        obtain rfl : k = key := of_decide_eq_true hkey
        exact huses.1 huse
    · obtain ⟨key, hne, rfl⟩ := (hrows _).1 hrow
      rfl
    · obtain ⟨key, hne, rfl⟩ := (hrows _).1 hrow
      exact decide_eq_true_iff

theorem files_agree (order : SetOrder) (src : Sources) (titles : Dict Str (List Str)) (r : Report)
    (hreport : census order src titles = .ok r) : r.Agrees (loadImplemented src.implemented) :=
  report_agrees (consistent_collect _ _ _) hreport

-- The one of the two symbols is on the list, in a line with a comment.
def coveredKind : Sources :=
  { sameName none with
    implemented := [['R', ' ', '#', '1'], []]
    imports := fun _ => .ok (Dict.empty.set ['c', 'o', 'r', 'e'] ⟨[['R']], [['S']]⟩) }

theorem files_agree_covered :
    ∃ r, census .asBuilt coveredKind threeModules = .ok r ∧ r.Agrees [['R']] ∧
      r.frequency.map (fun row => (row.symbol, row.titles, row.implemented)) =
        [(['R'], 2, true), (['S'], 2, false)] := by
  have hrows : (written (census .asBuilt coveredKind threeModules)).map
      (fun row => (row.symbol, row.titles, row.implemented)) =
        [(['R'], 2, true), (['S'], 2, false)] := by decide +kernel
  cases hreport : census .asBuilt coveredKind threeModules with
  | error message =>
    rw [hreport] at hrows
    cases hrows
  | ok r =>
    rw [hreport] at hrows
    have hlist : loadImplemented coveredKind.implemented = [['R']] := by decide +kernel
    exact ⟨r, rfl, hlist ▸ files_agree _ _ _ r hreport, hrows⟩

end Files

end CoreinitNx.Census
