import CoreinitNx.Census.Grouping
import CoreinitNx.Library.Distinct

namespace CoreinitNx.Census

open Rpx Distinct

namespace Sources

def Imports (src : Sources) (paths : List Str) (key : Symbol) : Prop :=
  ∃ path ∈ paths, ∃ imports ∈ (src.imports path).toOption,
    ∃ entry ∈ imports.get? key.library, key.name ∈ entry.names key.kind

def Parsed (src : Sources) (paths : List Str) : Prop :=
  ∃ path ∈ paths, (src.imports path).isOk = true

def symbols (src : Sources) (paths : List Str) : List Symbol :=
  (paths.foldl (addModule src) ([], [])).1

instance (src : Sources) (paths : List Str) (key : Symbol) : Decidable (src.Imports paths key) :=
  inferInstanceAs (Decidable (∃ path ∈ paths, _))

instance (src : Sources) (paths : List Str) : Decidable (src.Parsed paths) :=
  inferInstanceAs (Decidable (∃ path ∈ paths, _))

def importers (src : Sources) (titles : Dict Str (List Str)) (key : Symbol) : Nat :=
  titles.entries.countP fun title => src.Imports title.2 key

def parsedTitles (src : Sources) (titles : Dict Str (List Str)) : Nat :=
  titles.entries.countP fun title => src.Parsed title.2

end Sources

def Row.key (row : Row) : Symbol := ⟨row.library, row.symbol, row.kind⟩

-- The rows of `frequency.csv`, which is not written when the tool gives up.
def written : Except String Report → List Row
  | .ok report => report.frequency
  | .error _ => []

structure CountsTitles (src : Sources) (titles : Dict Str (List Str)) (rows : List Row) : Prop where
  distinct : (rows.map Row.key).Nodup
  complete : ∀ key, 0 < src.importers titles key → ∃ row ∈ rows, row.key = key
  count : ∀ row ∈ rows, 0 < row.titles ∧ row.titles = src.importers titles row.key
  percentage : ∀ row ∈ rows,
    row.pctOfCorpus = 100 * src.importers titles row.key / src.parsedTitles titles

def ToldApart (order : SetOrder) (src : Sources) (titles : Dict Str (List Str)) : Prop :=
  (∃ title ∈ titles.entries, ∃ key, src.Imports title.2 key) →
    (∀ title ∈ titles.entries, src.Parsed title.2 → ∃ key, src.Imports title.2 key) ∧
      ∀ a ∈ titles.entries, ∀ b ∈ titles.entries, src.Parsed a.2 → src.Parsed b.2 →
        displayName order src a.1 a.2 = displayName order src b.1 b.2 → a = b

variable {order : SetOrder} {src : Sources} {key : Symbol} {paths : List Str}

section Symbols

theorem mem_importedSymbols {imports : Dict Str Entry} :
    key ∈ importedSymbols imports ↔
      ∃ entry ∈ imports.get? key.library, key.name ∈ entry.names key.kind := by
  obtain ⟨lib, sym, kind⟩ := key
  simp only [importedSymbols, List.mem_flatMap, List.mem_map, Symbol.mk.injEq, Option.mem_def,
    Dict.get?_eq_some_iff]
  constructor
  · rintro ⟨⟨lib, entry⟩, hmem, kind, -, sym, hsym, rfl, rfl, rfl⟩
    exact ⟨entry, hmem, hsym⟩
  · rintro ⟨entry, hmem, hsym⟩
    refine ⟨(lib, entry), hmem, kind, ?_, sym, hsym, rfl, rfl, rfl⟩
    cases kind <;> decide

theorem mem_symbols (failures : List (Str × Str)) (symbols : List Symbol) :
    key ∈ (paths.foldl (addModule src) (symbols, failures)).1 ↔
      src.Imports paths key ∨ key ∈ symbols := by
  induction paths generalizing failures symbols with
  | nil => simp [Sources.Imports]
  | cons path paths ih =>
    rw [List.foldl_cons, addModule]
    cases hread : src.imports path with
    | error exc =>
      dsimp only
      rw [ih]
      simp [Sources.Imports, hread, Except.toOption]
    | ok imports =>
      dsimp only
      rw [ih, mem_foldl_insert, or_comm (a := key ∈ symbols), mem_importedSymbols]
      simp [Sources.Imports, hread, Except.toOption, or_assoc, or_left_comm]

theorem symbols_ne_nil_iff : src.symbols paths ≠ [] ↔ ∃ key, src.Imports paths key := by
  have hmem : ∀ key, key ∈ src.symbols paths ↔ src.Imports paths key := fun key => by
    rw [Sources.symbols, mem_symbols, or_iff_left List.not_mem_nil]
  constructor
  · intro hne
    obtain ⟨key, hkey⟩ := List.exists_mem_of_ne_nil _ hne
    exact ⟨key, (hmem key).1 hkey⟩
  · rintro ⟨key, himports⟩
    exact List.ne_nil_of_mem ((hmem key).2 himports)

theorem Sources.Imports.parsed (h : src.Imports paths key) : src.Parsed paths := by
  obtain ⟨path, hpath, imports, hread, -⟩ := h
  refine ⟨path, hpath, ?_⟩
  cases hresult : src.imports path with
  | error exc =>
    rw [hresult] at hread
    cases hread
  | ok imports => rfl

end Symbols

section Users

def Collected.whoUses (c : Collected) (key : Symbol) : List Str := (c.users.get? key).getD []

variable {c : Collected} {display : Str}

structure Consistent (c : Collected) : Prop where
  nodup : ∀ key, (c.whoUses key).Nodup
  used : ∀ key, c.users.get? key ≠ some []
  perTitle : ∀ display key, (display, key) ∈ c.perTitle ↔ display ∈ c.whoUses key

theorem get?_addUser (k : Symbol) : (addUser display c key).users.get? k =
    if k = key then some ((c.whoUses key).insert display) else c.users.get? k := by
  rw [addUser, Dict.get?_adjust, Dict.get?_setDefault]
  split
  next hk =>
    rw [hk]
    rfl
  next => rfl

theorem whoUses_addUser (k : Symbol) : (addUser display c key).whoUses k =
    if k = key then (c.whoUses key).insert display else c.whoUses k := by
  rw [Collected.whoUses, get?_addUser]
  split <;> rfl

theorem mem_addUser {x : Str} {k : Symbol} : x ∈ (addUser display c key).whoUses k ↔
    x ∈ c.whoUses k ∨ k = key ∧ x = display := by
  rw [whoUses_addUser]
  split
  next hk => rw [List.mem_insert_iff, hk, or_comm, and_iff_right rfl]
  next hk => rw [or_iff_left fun h => hk h.1]

theorem mem_entries_users (h : Consistent c) {who : List Str} :
    (key, who) ∈ c.users.entries ↔ who ≠ [] ∧ who = c.whoUses key := by
  have hused := h.used key
  rw [← Dict.get?_eq_some_iff, Collected.whoUses]
  cases hget : c.users.get? key with
  | none => exact iff_of_false (Option.some_ne_none who).symm fun hwho => hwho.1 hwho.2
  | some stored =>
    rw [hget] at hused
    rw [Option.some_inj, Option.getD_some, eq_comm, iff_and_self]
    rintro rfl rfl
    exact hused rfl

theorem consistent_addUser (h : Consistent c) (display : Str) (key : Symbol) :
    Consistent (addUser display c key) := by
  refine ⟨fun k => ?_, fun k => ?_, fun x k => ?_⟩
  · rw [whoUses_addUser]
    split
    next => exact (h.nodup key).insert
    next => exact h.nodup k
  · rw [get?_addUser]
    split
    next =>
      intro hempty
      have hmem : display ∈ (c.whoUses key).insert display := List.mem_insert_self
      rw [Option.some.inj hempty] at hmem
      cases hmem
    next => exact h.used k
  · rw [mem_addUser, ← h.perTitle, addUser, List.mem_append, List.mem_singleton, Prod.mk.injEq,
      and_comm]

theorem consistent_foldl {symbols : List Symbol} (h : Consistent c) :
    Consistent (symbols.foldl (addUser display) c) := by
  induction symbols generalizing c with
  | nil => exact h
  | cons key symbols ih => exact ih (consistent_addUser h display key)

theorem mem_foldl_addUser {symbols : List Symbol} {x : Str} {k : Symbol} :
    x ∈ (symbols.foldl (addUser display) c).whoUses k ↔
      x ∈ c.whoUses k ∨ k ∈ symbols ∧ x = display := by
  induction symbols generalizing c with
  | nil => simp
  | cons key symbols ih =>
    rw [List.foldl_cons, ih, mem_addUser, List.mem_cons, or_and_right, or_assoc]

end Users

section Collect

variable {titles : List (Str × List Str)}

def shown (order : SetOrder) (src : Sources) (title : Str × List Str) : Str :=
  displayName order src title.1 title.2

theorem collect_concat (title : Str × List Str) : collect order src (titles ++ [title]) =
    collectTitle order src (collect order src titles) title := List.foldl_concat ..

theorem consistent_collect (order : SetOrder) (src : Sources) (titles : List (Str × List Str)) :
    Consistent (collect order src titles) := by
  induction titles using List.reverseRecOn with
  | nil => exact ⟨fun _ => List.nodup_nil, fun _ => nofun,
      fun _ _ => iff_of_false List.not_mem_nil List.not_mem_nil⟩
  | append_singleton titles title ih =>
    rw [collect_concat, collectTitle]
    exact consistent_foldl ⟨ih.nodup, ih.used, ih.perTitle⟩

theorem mem_collect {x : Str} : x ∈ (collect order src titles).whoUses key ↔
    ∃ title ∈ titles, src.Imports title.2 key ∧ shown order src title = x := by
  induction titles using List.reverseRecOn with
  | nil => exact iff_of_false List.not_mem_nil fun ⟨_, h, _⟩ => List.not_mem_nil h
  | append_singleton titles title ih =>
    have hsymbols : key ∈ order.iterate (title.2.foldl (addModule src)
        ([], (collect order src titles).failures)).1 ↔ src.Imports title.2 key := by
      rw [(order.perm _).mem_iff, mem_symbols, or_iff_left List.not_mem_nil]
    rw [collect_concat, collectTitle, mem_foldl_addUser, hsymbols]
    simp only [List.mem_append, List.mem_singleton, or_and_right, exists_or, exists_eq_left,
      eq_comm (a := x)]
    exact or_congr_left ih

-- The number that the percentages are of.
theorem titles_eq (order : SetOrder) (src : Sources) (titles : List (Str × List Str)) :
    (sortedSet ((collect order src titles).perTitle.map Prod.fst)).length =
      number (shown order src) (titles.filter fun title => src.symbols title.2 ≠ []) := by
  refine length_eq_number ((pairwise_sortedSet _).imp ne_of_lt) fun display => ?_
  have huses := (consistent_collect order src titles).perTitle
  rw [mem_sortedSet, List.mem_map]
  constructor
  · rintro ⟨⟨display, key⟩, huse, rfl⟩
    obtain ⟨title, hmem, himports, hshown⟩ := mem_collect.1 ((huses _ _).1 huse)
    have hsome := symbols_ne_nil_iff.2 ⟨key, himports⟩
    exact ⟨title, List.mem_filter.2 ⟨hmem, decide_eq_true hsome⟩, hshown⟩
  · rintro ⟨title, hfilter, hshown⟩
    obtain ⟨hmem, hsome⟩ := List.mem_filter.1 hfilter
    obtain ⟨key, himports⟩ := symbols_ne_nil_iff.1 (of_decide_eq_true hsome)
    exact ⟨(display, key), (huses _ _).2 (mem_collect.2 ⟨title, hmem, himports, hshown⟩), rfl⟩

theorem length_whoUses (order : SetOrder) (src : Sources) (titles : List (Str × List Str))
    (key : Symbol) : ((collect order src titles).whoUses key).length =
      number (shown order src) (titles.filter fun title => src.Imports title.2 key) := by
  refine length_eq_number ((consistent_collect order src titles).nodup key) fun display => ?_
  simp only [mem_collect, List.mem_filter, decide_eq_true_eq, and_assoc]

end Collect

section Rows

variable {titles : Dict Str (List Str)} {row : Row}

def rowNumber (order : SetOrder) (src : Sources) (titles : Dict Str (List Str)) : Nat :=
  number (shown order src) (titles.entries.filter fun title => src.symbols title.2 ≠ [])

theorem rowNumber_pos (h : (collect order src titles.entries).whoUses key ≠ []) :
    0 < rowNumber order src titles := by
  obtain ⟨display, hdisplay⟩ := List.exists_mem_of_ne_nil _ h
  obtain ⟨title, hmem, himports, -⟩ := mem_collect.1 hdisplay
  have hsome := symbols_ne_nil_iff.2 ⟨key, himports⟩
  have hfilter : title ∈ titles.entries.filter fun title => src.symbols title.2 ≠ [] :=
    List.mem_filter.2 ⟨hmem, decide_eq_true hsome⟩
  refine Nat.pos_of_ne_zero fun hzero => ?_
  rw [number_eq_zero_iff.1 hzero] at hfilter
  cases hfilter

theorem written_census (order : SetOrder) (src : Sources) (titles : Dict Str (List Str)) :
    (written (census order src titles)).Perm
      ((collect order src titles.entries).users.entries.map
        (rowOf (loadImplemented src.implemented) (rowNumber order src titles))) := by
  rw [census, report, titles_eq]
  split
  next hzero =>
    have hnone : (collect order src titles.entries).users.entries = [] := by
      by_contra hne
      obtain ⟨⟨key, who⟩, hmem⟩ := List.exists_mem_of_ne_nil _ hne
      obtain ⟨hwho, rfl⟩ := (mem_entries_users (consistent_collect order src _)).1 hmem
      exact (rowNumber_pos hwho).ne' hzero
    rw [hnone]
    exact .nil
  next => exact List.perm_insertionSort _ _

theorem mem_written : row ∈ written (census order src titles) ↔
    ∃ key, (collect order src titles.entries).whoUses key ≠ [] ∧
      rowOf (loadImplemented src.implemented) (rowNumber order src titles)
        (key, (collect order src titles.entries).whoUses key) = row := by
  rw [(written_census order src titles).mem_iff, List.mem_map]
  constructor
  · rintro ⟨⟨key, who⟩, hmem, hrow⟩
    obtain ⟨hwho, rfl⟩ := (mem_entries_users (consistent_collect order src _)).1 hmem
    exact ⟨key, hwho, hrow⟩
  · rintro ⟨key, hwho, hrow⟩
    exact ⟨_, (mem_entries_users (consistent_collect order src _)).2 ⟨hwho, rfl⟩, hrow⟩

theorem whoUses_ne_nil_iff : (collect order src titles.entries).whoUses key ≠ [] ↔
    0 < src.importers titles key := by
  rw [Sources.importers, List.countP_pos_iff]
  constructor
  · intro hne
    obtain ⟨display, hdisplay⟩ := List.exists_mem_of_ne_nil _ hne
    obtain ⟨title, hmem, himports, -⟩ := mem_collect.1 hdisplay
    exact ⟨title, hmem, decide_eq_true himports⟩
  · rintro ⟨title, hmem, himports⟩
    exact List.ne_nil_of_mem (mem_collect.2 ⟨title, hmem, of_decide_eq_true himports, rfl⟩)

end Rows

section Exact

variable {titles : Dict Str (List Str)}

-- What the percentages are of is the number of parsed titles.
theorem rowNumber_eq_iff : rowNumber order src titles = src.parsedTitles titles ↔
    (∀ title ∈ titles.entries, src.Parsed title.2 → ∃ key, src.Imports title.2 key) ∧
      ∀ a ∈ titles.entries, ∀ b ∈ titles.entries, src.Parsed a.2 → src.Parsed b.2 →
        shown order src a = shown order src b → a = b := by
  rw [rowNumber, Sources.parsedTitles, number_filter_eq_countP_iff titles.nodup.of_map]
  · simp only [decide_eq_true_eq, symbols_ne_nil_iff]
  · intro title _ hsome
    obtain ⟨key, himports⟩ := symbols_ne_nil_iff.1 (of_decide_eq_true hsome)
    exact decide_eq_true himports.parsed

theorem length_whoUses_eq (h : ToldApart order src titles) (hkey : 0 < src.importers titles key) :
    ((collect order src titles.entries).whoUses key).length = src.importers titles key := by
  obtain ⟨title, htitle, himports⟩ := List.countP_pos_iff.1 hkey
  obtain ⟨-, hapart⟩ := h ⟨title, htitle, key, of_decide_eq_true himports⟩
  rw [length_whoUses, Sources.importers,
    number_filter_eq_countP_iff titles.nodup.of_map fun _ _ himports => himports]
  refine ⟨fun _ _ himports => himports, fun a ha b hb hia hib hshown => ?_⟩
  exact hapart a ha b hb (of_decide_eq_true hia : src.Imports a.2 key).parsed
    (of_decide_eq_true hib : src.Imports b.2 key).parsed hshown

theorem countsTitles_of_toldApart (h : ToldApart order src titles) :
    CountsTitles src titles (written (census order src titles)) := by
  refine ⟨?_, ?_, ?_, ?_⟩
  · rw [((written_census order src titles).map Row.key).nodup_iff, List.map_map]
    exact (collect order src titles.entries).users.nodup
  · intro key hkey
    exact ⟨_, mem_written.2 ⟨key, whoUses_ne_nil_iff.2 hkey, rfl⟩, rfl⟩
  · intro row hrow
    obtain ⟨key, hwho, rfl⟩ := mem_written.1 hrow
    exact ⟨List.length_pos_iff.2 hwho, length_whoUses_eq h (whoUses_ne_nil_iff.1 hwho)⟩
  · intro row hrow
    obtain ⟨key, hwho, rfl⟩ := mem_written.1 hrow
    have hkey := whoUses_ne_nil_iff.1 hwho
    obtain ⟨title, htitle, himports⟩ := List.countP_pos_iff.1 hkey
    have hnumber : rowNumber order src titles = src.parsedTitles titles :=
      rowNumber_eq_iff.2 (h ⟨title, htitle, key, of_decide_eq_true himports⟩)
    rw [rowOf, length_whoUses_eq h hkey, hnumber]
    rfl

theorem toldApart_of_countsTitles
    (h : CountsTitles src titles (written (census order src titles))) :
    ToldApart order src titles := by
  rintro ⟨title, htitle, key, himports⟩
  have hkey : 0 < src.importers titles key :=
    List.countP_pos_iff.2 ⟨title, htitle, decide_eq_true himports⟩
  have hwho : (collect order src titles.entries).whoUses key ≠ [] := whoUses_ne_nil_iff.2 hkey
  have hrow := mem_written.2 ⟨key, hwho, rfl⟩
  have hcount : ((collect order src titles.entries).whoUses key).length =
      src.importers titles key := (h.count _ hrow).2
  have hpct : (100 * ((collect order src titles.entries).whoUses key).length /
      rowNumber order src titles : ℚ) = 100 * src.importers titles key /
      src.parsedTitles titles := h.percentage _ hrow
  have hne : (100 * src.importers titles key : ℚ) ≠ 0 :=
    mul_ne_zero (by decide) (Nat.cast_ne_zero.2 hkey.ne')
  rw [hcount, div_eq_mul_inv, div_eq_mul_inv, mul_right_inj' hne, inv_inj, Nat.cast_inj] at hpct
  exact rowNumber_eq_iff.1 hpct

-- What a row says of its symbol.
def Row.figures (row : Row) : Symbol × Nat × ℚ := (row.key, row.titles, row.pctOfCorpus)

theorem mem_figures {rows : List Row} (h : CountsTitles src titles rows)
    {figures : Symbol × Nat × ℚ} : figures ∈ rows.map Row.figures ↔
      0 < src.importers titles figures.1 ∧ figures.2.1 = src.importers titles figures.1 ∧
        figures.2.2 = 100 * src.importers titles figures.1 / src.parsedTitles titles := by
  constructor
  · intro hmem
    obtain ⟨row, hrow, rfl⟩ := List.mem_map.1 hmem
    obtain ⟨hpos, hcount⟩ := h.count row hrow
    exact ⟨hcount ▸ hpos, hcount, h.percentage row hrow⟩
  · obtain ⟨key, n, pct⟩ := figures
    rintro ⟨hpos, hcount, hpct⟩
    dsimp only at hpos hcount hpct
    obtain ⟨row, hrow, rfl⟩ := h.complete key hpos
    have hfigures : row.figures = (row.key, n, pct) := by
      rw [Row.figures, (h.count row hrow).2, h.percentage row hrow, hcount, hpct]
    exact List.mem_map.2 ⟨row, hrow, hfigures⟩

theorem figures_perm {other : Sources} {rows rows' : List Row}
    (himports : other.imports = src.imports) (h : CountsTitles src titles rows)
    (h' : CountsTitles other titles rows') :
    (rows.map Row.figures).Perm (rows'.map Row.figures) := by
  have hnodup : ∀ {src : Sources} {rows : List Row}, CountsTitles src titles rows →
      (rows.map Row.figures).Nodup := fun h => by
    have hkeys := h.distinct
    exact (List.Nodup.of_map Prod.fst (by rwa [List.map_map]))
  obtain ⟨metaXml, metadata, implemented, imports⟩ := other
  dsimp only at himports
  subst himports
  refine (List.perm_ext_iff_of_nodup (hnodup h) (hnodup h')).2 fun figures => ?_
  rw [mem_figures h, mem_figures h']
  rfl

theorem frequency_counts_titles_iff (order : SetOrder) (src : Sources)
    (titles : Dict Str (List Str)) :
    (CountsTitles src titles (written (census order src titles)) ↔ ToldApart order src titles) ∧
      ∀ (order' : SetOrder) (other : Sources), other.imports = src.imports →
        ToldApart order src titles → ToldApart order' other titles →
        ((written (census order src titles)).map Row.figures).Perm
          ((written (census order' other titles)).map Row.figures) := by
  refine ⟨⟨toldApart_of_countsTitles, countsTitles_of_toldApart⟩, ?_⟩
  intro order' other himports h h'
  exact figures_perm himports (countsTitles_of_toldApart h) (countsTitles_of_toldApart h')

end Exact

section Corpus

variable {root : Str}

-- Where no module is found the tool gives up before it has collected anything.
theorem written_main (order : SetOrder) (src : Sources) (root : Str) (corpus : Corpus) :
    written (main order src root corpus) =
      written (census order src (groupTitles root corpus)) := by
  rw [main]
  split
  next hempty =>
    rw [census, List.isEmpty_iff.1 hempty]
    rfl
  next => rfl

theorem main_counts_corpus {dir : Directory} (hdistinct : DistinctTitles root dir)
    (hapart : ToldApart order src (groupTitles root (.directory dir))) :
    LosesNone root dir (groupTitles root (.directory dir)) ∧
      CountsTitles src (groupTitles root (.directory dir))
        (written (main order src root (.directory dir))) := by
  rw [written_main]
  exact ⟨losesNone_of_distinct hdistinct, countsTitles_of_toldApart hapart⟩

end Corpus

section Samples

variable {titles : Dict Str (List Str)}

def sampleSymbol : Symbol := ⟨['c', 'o', 'r', 'e'], ['R'], .functions⟩

-- Every module imports the one symbol, and every title is shown under the one name.
def sameName (name : Option Str) : Sources where
  metaXml _ := .parsed name none
  metadata := []
  implemented := []
  imports _ := .ok (Dict.empty.set ['c', 'o', 'r', 'e'] ⟨[['R']], []⟩)

def oneTitle : Dict Str (List Str) := Dict.empty.set ['a'] [['c', '/', 'a', '.', 'r', 'p', 'x']]

def twoTitles : Dict Str (List Str) := oneTitle.set ['b'] [['c', '/', 'b', '.', 'r', 'p', 'x']]

-- The second title imports the symbol from both of its modules.
def threeModules : Dict Str (List Str) :=
  (Dict.empty.set ['a'] [['c', '/', 'a', '/', 'x', '.', 'r', 'p', 'x']]).set ['b']
    [['c', '/', 'b', '/', 'x', '.', 'r', 'p', 'x'], ['c', '/', 'b', '/', 'y', '.', 'r', 'p', 'l']]

-- A title is shown under the path of its `meta.xml`.
def ownName : Sources := { sameName none with metaXml := fun path => .parsed (some path) none }

theorem toldApart_of_nodup (himports : ∀ title ∈ titles.entries, src.Imports title.2 key)
    (hnames : (titles.entries.map (shown order src)).Nodup) : ToldApart order src titles := by
  rintro -
  refine ⟨fun title htitle _ => ⟨key, himports title htitle⟩, fun a ha b hb _ _ hshown => ?_⟩
  exact List.inj_on_of_nodup_map hnames ha hb hshown

theorem frequency_counts_titles_iff_two :
    CountsTitles (sameName none) threeModules
        (written (census .asBuilt (sameName none) threeModules)) ∧
      (written (census .asBuilt (sameName none) threeModules)).map Row.figures =
        [(sampleSymbol, 2, 100)] ∧
      ((written (census .asBuilt (sameName none) threeModules)).map Row.figures).Perm
        ((written (census .asBuilt ownName threeModules)).map Row.figures) := by
  have himports : ∀ title ∈ threeModules.entries, (sameName none).Imports title.2 sampleSymbol := by
    decide +kernel
  have hapart : ToldApart .asBuilt (sameName none) threeModules :=
    toldApart_of_nodup himports (by decide +kernel)
  have hown : ToldApart .asBuilt ownName threeModules :=
    toldApart_of_nodup himports (by decide +kernel)
  obtain ⟨hiff, hindependent⟩ :=
    frequency_counts_titles_iff .asBuilt (sameName none) threeModules
  exact ⟨hiff.2 hapart, by decide +kernel, hindependent .asBuilt ownName rfl hapart hown⟩

theorem frequency_merges_titles :
    (sameName (some ['X'])).importers twoTitles sampleSymbol = 2 ∧
      (written (census .asBuilt (sameName (some ['X'])) twoTitles)).map Row.figures =
        [(sampleSymbol, 1, 100)] ∧
      ¬ CountsTitles (sameName (some ['X'])) twoTitles
        (written (census .asBuilt (sameName (some ['X'])) twoTitles)) := by
  have hfigures : (written (census .asBuilt (sameName (some ['X'])) twoTitles)).map Row.figures =
      [(sampleSymbol, 1, 100)] := by decide +kernel
  refine ⟨by decide, hfigures, fun h => ?_⟩
  have hmem := (mem_figures h).1 (hfigures ▸ List.mem_singleton_self _)
  exact absurd hmem.2.1 (by decide)

end Samples

end CoreinitNx.Census
