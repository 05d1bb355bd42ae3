import CoreinitNx.DynLoad.Basic
import CoreinitNx.Library.Slots

namespace CoreinitNx.DynLoad

open Search Slots

def dot : UInt8 := 0x2E

-- The names that the table of exports gives to its libraries.
def Libraries (exports : ExportTable) (library : CString) : Prop :=
  ∃ e ∈ exports, e.library = library

structure PlainLibraries (exports : ExportTable) : Prop where
  undotted : ∀ e ∈ exports, dot ∉ e.library
  short : ∀ e ∈ exports, e.library.length < 64

-- The two spellings of a library.
def Spells (library name : CString) : Prop := name = library ∨ name = library ++ rpl

-- The call yields a module for the library.
def Acquires (exports : ExportTable) (modules : Modules) (name : CString) (outModule : Pointer)
    (library : CString) : Prop :=
  ∃ i m modules', osDynLoadAcquire exports modules (some name) outModule =
    (.ok, some (some i), modules') ∧ modules'[i]? = some m ∧ m.used = true ∧ m.name = library

structure ReadsName (exports : ExportTable) (modules : Modules) (name : CString)
    (outModule : Pointer) : Prop where
  acquires : ∀ library, Acquires exports modules name outModule library ↔
    Libraries exports library ∧ Spells library name
  refuses : (∀ library, Libraries exports library → ¬Spells library name) →
    osDynLoadAcquire exports modules (some name) outModule = (.moduleNotFound, some none, modules)

-- A slot is free or holds the library.
def HasRoom (modules : Modules) (library : CString) : Prop :=
  ∃ (i : Nat) (m : LoadedModule), modules[i]? = some m ∧ (m.used = true → m.name = library)

-- What the name must not be, of each library: its name with the suffix and more, where that fits
-- in the copy; a name as long as the copy that goes on in another way; or its name with the suffix
-- where the suffix is cut in two. And there is a slot for it, where it is spelt right.
structure Legible (modules : Modules) (name library : CString) : Prop where
  ends : library.length ≤ 59 → library ++ rpl <+: name → name = library ++ rpl
  full : library.length = 63 → library <+: name → Spells library name
  whole : name = library ++ rpl → library.length ≤ 59 ∨ library.length = 63
  room : Spells library name → HasRoom modules library

variable {exports : ExportTable} {modules : Modules} {name library base : CString}
  {outModule : Pointer} {i : Nat} {m : LoadedModule}

theorem hasLibrary_iff : hasLibrary exports library = true ↔ Libraries exports library := by
  simp [hasLibrary, Libraries]

theorem copied_baseName : copied (baseName name) = baseName name := by
  refine List.take_of_length_le (cutAt_length_le.trans ?_)
  exact List.length_take_le _ _

theorem copied_eq_iff (hshort : library.length < 64) :
    copied name = library ↔ name = library ∨ library.length = 63 ∧ library <+: name := by
  constructor
  · rintro rfl
    rcases Nat.lt_or_ge 63 name.length with hlong | hfits
    · refine .inr ⟨?_, List.take_prefix _ _⟩
      rw [copied, List.length_take]
      omega
    · exact .inl (List.take_of_length_le hfits).symm
  · rintro (rfl | ⟨hlength, hpre⟩)
    · exact List.take_of_length_le (Nat.le_of_lt_succ hshort)
    · rw [copied, ← hlength]
      exact (List.prefix_iff_eq_take.1 hpre).symm

theorem baseName_eq_iff (hdot : dot ∉ library) (hshort : library.length < 64) :
    baseName name = library ↔ name = library ∨ library.length = 63 ∧ library <+: name ∨
      library.length ≤ 59 ∧ library ++ rpl <+: name := by
  have hcut : baseName name = library ↔ copied name = library ∨ library ++ rpl <+: copied name :=
    cutAt_eq_iff hdot
  have hlength : (library ++ rpl).length ≤ 63 ↔ library.length ≤ 59 := by
    rw [List.length_append]
    exact Nat.add_le_add_iff_right (n := 4) (m := library.length) (k := 59)
  rw [hcut, copied_eq_iff hshort, or_assoc, copied, List.prefix_take_iff, hlength,
    and_comm (a := library ++ rpl <+: name)]

theorem holding_eq_some (h : modules.holding base = some i) :
    ∃ m, modules[i]? = some m ∧ m.used = true ∧ m.name = base := by
  obtain ⟨⟨m, hm, hfound⟩, -⟩ := first_eq_some_iff.1 h
  exact ⟨m, hm, of_decide_eq_true hfound⟩

theorem holding_eq_none (h : modules.holding base = none) (hm : modules[i]? = some m)
    (hused : m.used = true) : m.name ≠ base :=
  fun hsame => of_decide_eq_false (first_eq_none_iff.1 h i m hm) ⟨hused, hsame⟩

theorem firstFree_eq_some (h : modules.firstFree = some i) :
    ∃ m, modules[i]? = some m ∧ m.used = false := by
  obtain ⟨⟨m, hm, hfree⟩, -⟩ := first_eq_some_iff.1 h
  exact ⟨m, hm, by simpa using hfree⟩

theorem firstFree_eq_none (h : modules.firstFree = none) (hm : modules[i]? = some m) :
    m.used = true := by
  simpa using first_eq_none_iff.1 h i m hm

-- What a call does with a name: refuse it, count a reference to the slot that holds the library,
-- take a free slot, or find them all taken.
theorem acquire_cases (exports : ExportTable) (modules : Modules) (hname : name ≠ [])
    (hout : outModule ≠ 0) :
    (¬Libraries exports (baseName name) ∧
      osDynLoadAcquire exports modules (some name) outModule =
        (.moduleNotFound, some none, modules)) ∨
    Libraries exports (baseName name) ∧
      ((∃ (i : Nat) (m : LoadedModule), modules[i]? = some m ∧ m.used = true ∧ m.name = baseName name ∧
          osDynLoadAcquire exports modules (some name) outModule =
            (.ok, some (some i), modules.setIfInBounds i { m with refCount := m.refCount + 1 })) ∨
        (∀ (j : Nat) (n : LoadedModule), modules[j]? = some n → n.used = true → n.name ≠ baseName name) ∧
          ((∃ (i : Nat) (m : LoadedModule), modules[i]? = some m ∧ m.used = false ∧
              osDynLoadAcquire exports modules (some name) outModule =
                (.ok, some (some i), modules.setIfInBounds i ⟨baseName name, 1, true⟩)) ∨
            (∀ (j : Nat) (n : LoadedModule), modules[j]? = some n → n.used = true) ∧
              osDynLoadAcquire exports modules (some name) outModule =
                (.outOfMemory, some none, modules))) := by
  cases name with
  | nil => exact absurd rfl hname
  | cons c cs =>
    simp only [osDynLoadAcquire, if_neg hout, ← hasLibrary_iff]
    split
    next hnone => exact .inl ⟨hnone, rfl⟩
    next hsome =>
      refine .inr ⟨Decidable.not_not.1 hsome, ?_⟩
      split
      next i hi =>
        obtain ⟨m, hm, hused, hsame⟩ := holding_eq_some hi
        refine .inl ⟨i, m, hm, hused, hsame, ?_⟩
        rw [Modules.update, hm]
      next hnone =>
        refine .inr ⟨fun j n hn hused => holding_eq_none hnone hn hused, ?_⟩
        split
        next i hi =>
          obtain ⟨m, hm, hfree⟩ := firstFree_eq_some hi
          refine .inl ⟨i, m, hm, hfree, ?_⟩
          rw [copied_baseName]
        next hfull => exact .inr ⟨fun j n hn => firstFree_eq_none hfull hn, rfl⟩

theorem acquires_iff (exports : ExportTable) (modules : Modules) (hname : name ≠ [])
    (hout : outModule ≠ 0) (library : CString) :
    Acquires exports modules name outModule library ↔
      baseName name = library ∧ Libraries exports library ∧ HasRoom modules library := by
  have hset {i : Nat} {m m' : LoadedModule} (hm : modules[i]? = some m) :
      (modules.setIfInBounds i m')[i]? = some m' := by
    obtain ⟨hi, -⟩ := Vector.getElem?_eq_some_iff.1 hm
    rw [Vector.getElem?_setIfInBounds_self, if_pos hi]
  have hyields {i : Nat} {m : LoadedModule} {modules' : Modules}
      (heq : osDynLoadAcquire exports modules (some name) outModule =
        (.ok, some (some i), modules'))
      (hm : modules'[i]? = some m) (hused : m.used = true) (hsame : m.name = baseName name) :
      Acquires exports modules name outModule library ↔ baseName name = library := by
    constructor
    · rintro ⟨j, n, modules'', heq', hn, -, rfl⟩
      rw [heq] at heq'
      cases heq'
      rw [hm] at hn
      cases hn
      exact hsame.symm
    · rintro rfl
      exact ⟨i, m, modules', heq, hm, hused, hsame⟩
  rcases acquire_cases exports modules hname hout with
    ⟨hnone, heq⟩ | ⟨hlib, ⟨i, m, hm, hused, hsame, heq⟩ | ⟨hother, hrest⟩⟩
  · refine iff_of_false ?_ ?_
    · rintro ⟨i, m, modules', heq', -⟩
      rw [heq] at heq'
      cases heq'
    · rintro ⟨rfl, hlib, -⟩
      exact hnone hlib
  · rw [hyields heq (hset hm) hused hsame]
    refine (and_iff_left_of_imp ?_).symm
    rintro rfl
    exact ⟨hlib, i, m, hm, fun _ => hsame⟩
  · rcases hrest with ⟨i, m, hm, hfree, heq⟩ | ⟨hfull, heq⟩
    · rw [hyields heq (hset hm) rfl rfl]
      refine (and_iff_left_of_imp ?_).symm
      rintro rfl
      refine ⟨hlib, i, m, hm, fun hused => ?_⟩
      rw [hfree] at hused
      cases hused
    · refine iff_of_false ?_ ?_
      · rintro ⟨i, m, modules', heq', -⟩
        rw [heq] at heq'
        cases heq'
      · rintro ⟨rfl, -, i, m, hm, hroom⟩
        exact hother i m hm (hfull i m hm) (hroom (hfull i m hm))

theorem refused_iff (exports : ExportTable) (modules : Modules) (hname : name ≠ [])
    (hout : outModule ≠ 0) :
    osDynLoadAcquire exports modules (some name) outModule =
        (.moduleNotFound, some none, modules) ↔ ¬Libraries exports (baseName name) := by
  rcases acquire_cases exports modules hname hout with
    ⟨hnone, heq⟩ | ⟨hlib, ⟨i, m, -, -, -, heq⟩ | ⟨-, ⟨i, m, -, -, heq⟩ | ⟨-, heq⟩⟩⟩
  · exact iff_of_true heq hnone
  all_goals
    rw [heq]
    exact iff_of_false nofun (fun hnone => hnone hlib)

variable (hexports : PlainLibraries exports)

include hexports

theorem baseName_of_libraries (hlib : Libraries exports library) :
    baseName name = library ↔ name = library ∨ library.length = 63 ∧ library <+: name ∨
      library.length ≤ 59 ∧ library ++ rpl <+: name := by
  obtain ⟨e, he, rfl⟩ := hlib
  exact baseName_eq_iff (hexports.undotted e he) (hexports.short e he)

-- The name's base is a library exactly where the name spells it.
theorem legible_iff (hlib : Libraries exports library) :
    (baseName name = library ∧ HasRoom modules library ↔ Spells library name) ∧
        (baseName name = library → Spells library name) ↔ Legible modules name library := by
  have hbase : baseName name = library ↔ _ := baseName_of_libraries hexports hlib
  constructor
  · rintro ⟨hspells, hsound⟩
    refine ⟨fun hlength hpre => ?_, fun hlength hpre => ?_, fun heq => ?_, fun h => (hspells.2 h).2⟩
    · rcases hsound (hbase.2 (.inr (.inr ⟨hlength, hpre⟩))) with heq | heq
      · have hlong := hpre.length_le
        rw [heq, List.length_append] at hlong
        exact absurd hlong (by simp [rpl, ascii])
      · exact heq
    · exact hsound (hbase.2 (.inr (.inl ⟨hlength, hpre⟩)))
    · rcases hbase.1 (hspells.2 (.inr heq)).1 with hname | ⟨hlength, -⟩ | ⟨hlength, -⟩
      · have hlong := congrArg List.length (heq.symm.trans hname)
        rw [List.length_append] at hlong
        exact absurd hlong (by simp [rpl, ascii])
      · exact .inr hlength
      · exact .inl hlength
  · intro h
    have hsound : baseName name = library → Spells library name := by
      intro heq
      rcases hbase.1 heq with hname | ⟨hlength, hpre⟩ | ⟨hlength, hpre⟩
      · exact .inl hname
      · exact h.full hlength hpre
      · exact .inr (h.ends hlength hpre)
    refine ⟨⟨fun hboth => hsound hboth.1, fun hspells => ⟨hbase.2 ?_, h.room hspells⟩⟩, hsound⟩
    rcases hspells with hname | heq
    · exact .inl hname
    · rcases h.whole heq with hlength | hlength
      · exact .inr (.inr ⟨hlength, heq ▸ List.prefix_refl _⟩)
      · exact .inr (.inl ⟨hlength, heq ▸ List.prefix_append _ _⟩)

omit hexports

theorem module_name_iff (exports : ExportTable) (hexports : PlainLibraries exports)
    (modules : Modules) (name : CString) (hname : name ≠ []) (outModule : Pointer)
    (hout : outModule ≠ 0) :
    ReadsName exports modules name outModule ↔
      ∀ library, Libraries exports library → Legible modules name library := by
  constructor
  · intro h library hlib
    refine (legible_iff hexports hlib).1 ⟨?_, fun hbase => ?_⟩
    · have hacquires := h.acquires library
      rw [acquires_iff exports modules hname hout] at hacquires
      simpa [hlib] using hacquires
    · by_cases hspelt : ∃ other, Libraries exports other ∧ Spells other name
      · obtain ⟨other, hother, hspells⟩ := hspelt
        have hacquires := (h.acquires other).2 ⟨hother, hspells⟩
        rw [acquires_iff exports modules hname hout, hbase] at hacquires
        exact hacquires.1 ▸ hspells
      · have hrefused := h.refuses fun other hother hspells => hspelt ⟨other, hother, hspells⟩
        rw [refused_iff exports modules hname hout, hbase] at hrefused
        exact absurd hlib hrefused
  · intro h
    constructor
    · intro library
      rw [acquires_iff exports modules hname hout]
      by_cases hlib : Libraries exports library
      · have hlegible := ((legible_iff hexports hlib).2 (h library hlib)).1
        simpa [hlib] using hlegible
      · exact iff_of_false (fun hboth => hlib hboth.2.1) (fun hboth => hlib hboth.1)
    · intro hnone
      rw [refused_iff exports modules hname hout]
      intro hlib
      exact hnone _ hlib (((legible_iff hexports hlib).2 (h _ hlib)).2 rfl)

def oneExport : ExportTable := [⟨ascii "coreinit", ascii "OSGetTime", 0x1000, .function, by decide⟩]

theorem plainLibraries_oneExport : PlainLibraries oneExport := by
  constructor <;> decide

theorem module_name_iff_suffix :
    ReadsName oneExport Modules.start (ascii "coreinit.rpl") 0x2000 := by
  refine (module_name_iff oneExport plainLibraries_oneExport Modules.start _ (by decide) 0x2000
    (by decide)).2 fun library hlib => ?_
  obtain ⟨e, he, rfl⟩ := hlib
  rw [List.mem_singleton.1 he]
  exact ⟨fun _ _ => rfl, fun h => absurd h (by decide), fun _ => .inl (by decide),
    fun _ => ⟨0, ⟨[], 0, false⟩, rfl, nofun⟩⟩

-- What follows the suffix is not looked at.
theorem module_name_with_more :
    Acquires oneExport Modules.start (ascii "coreinit.rplx") 0x2000 (ascii "coreinit") ∧
      ¬ReadsName oneExport Modules.start (ascii "coreinit.rplx") 0x2000 := by
  have hacquires :
      Acquires oneExport Modules.start (ascii "coreinit.rplx") 0x2000 (ascii "coreinit") :=
    ⟨0, ⟨ascii "coreinit", 1, true⟩, _, rfl, by decide +kernel, rfl, rfl⟩
  refine ⟨hacquires, fun h => ?_⟩
  have hspells := ((h.acquires _).1 hacquires).2
  exact absurd hspells (by unfold Spells; decide)

end CoreinitNx.DynLoad
