import Mathlib
import CoreinitNx.DynLoad.Names
import CoreinitNx.Library.Requests

namespace CoreinitNx.DynLoad

open Requests Search Slots

inductive Request where
  | acquire (name : CString) (outModule : Pointer)
  | release (module : OSDynLoadModule)
  | findExport (module : OSDynLoadModule) (exportType : UInt32) (name : CString)
    (outAddr : Pointer)

-- Beside the table: the acquires that returned a slot since it was last taken, and its releases.
structure History where
  modules : Modules
  acquired : Nat → Nat
  released : Nat → Nat

def History.start : History := ⟨Modules.start, fun _ => 0, fun _ => 0⟩

def Modules.Live (modules : Modules) (i : Nat) : Prop :=
  ∃ m, modules[i]? = some m ∧ m.used = true

instance (modules : Modules) (i : Nat) : Decidable (modules.Live i) :=
  decidable_of_iff ((modules[i]?).any (·.used) = true) (by simp [Modules.Live, Option.any_eq_true])

def History.after (exports : ExportTable) (h : History) : Request → History
  | .acquire name outModule =>
    match osDynLoadAcquire exports h.modules (some name) outModule with
    | (.ok, some (some i), modules) =>
      if h.modules.Live i then
        { h with modules, acquired := Function.update h.acquired i (h.acquired i + 1) }
      else
        { modules
          acquired := Function.update h.acquired i 1
          released := Function.update h.released i 0 }
    | (_, _, modules) => { h with modules }
  | .release module =>
    { h with
      modules := osDynLoadRelease h.modules module
      released :=
        match module with
        | some i => Function.update h.released i (h.released i + 1)
        | none => h.released }
  | .findExport .. => h

structure Tallied (exports : ExportTable) (h : History) : Prop where
  held : ∀ (i : Nat) (m : LoadedModule), h.modules[i]? = some m → m.used = true →
    Libraries exports m.name
  distinct : ∀ (i j : Nat) (m n : LoadedModule), h.modules[i]? = some m → h.modules[j]? = some n →
    m.used = true → n.used = true → m.name = n.name → i = j
  live : ∀ i < kMaxModules, h.modules.Live i ↔ h.released i < h.acquired i

def Matches (library name : CString) (kind : ExportKind) (e : ExportedSymbol) : Prop :=
  e.library = library ∧ e.name = name ∧ e.kind = kind

-- What a call returns and stores.
def Answers (exports : ExportTable) (h : History) : Request → Prop
  | .acquire name outModule => name ≠ [] → outModule ≠ 0 →
    (∀ (i : Nat) (m : LoadedModule), h.modules[i]? = some m → m.used = true →
      baseName name = m.name →
      ∃ modules, osDynLoadAcquire exports h.modules (some name) outModule =
        (.ok, some (some i), modules)) ∧
    (Libraries exports (baseName name) →
      (∃ (i : Nat) (m : LoadedModule), h.modules[i]? = some m ∧
        (m.used = true → m.name = baseName name)) →
      ∃ i modules, osDynLoadAcquire exports h.modules (some name) outModule =
        (.ok, some (some i), modules)) ∧
    ((osDynLoadAcquire exports h.modules (some name) outModule).1 = .outOfMemory →
      ∀ i < kMaxModules, ∃ m, h.modules[i]? = some m ∧ m.used = true ∧ m.name ≠ baseName name)
  | .release _ => True
  | .findExport module exportType name outAddr => outAddr ≠ 0 →
    ∀ (i : Nat) (m : LoadedModule), module = some i → h.modules[i]? = some m → m.used = true →
      (∃ e ∈ exports, Matches m.name name (exportKind exportType) e ∧
        osDynLoadFindExport exports h.modules module exportType (some name) outAddr =
          (.ok, some e.address)) ∨
      (∀ e ∈ exports, ¬Matches m.name name (exportKind exportType) e) ∧
        osDynLoadFindExport exports h.modules module exportType (some name) outAddr =
          (.moduleNotFound, some 0)

def Request.isAcquire : Request → Bool
  | .acquire .. => true
  | _ => false

variable {exports : ExportTable} {modules : Modules} {h : History} {name : CString}
  {outModule : Pointer} {i j n : Nat} {m m' : LoadedModule}

-- A live slot counts the acquires that have not been released.
structure Sane (exports : ExportTable) (n : Nat) (h : History) : Prop extends
    Tallied exports h where
  counts : ∀ (i : Nat) (m : LoadedModule), h.modules[i]? = some m → m.used = true →
    m.refCount.toNat + h.released i = h.acquired i
  bound : ∀ i, h.acquired i ≤ n

theorem live_iff (hm : modules[i]? = some m) : modules.Live i ↔ m.used = true := by
  constructor
  · rintro ⟨m', hm', hused⟩
    rw [hm] at hm'
    cases hm'
    exact hused
  · exact fun hused => ⟨m, hm, hused⟩

theorem live_set (hm : modules[i]? = some m) (j : Nat) :
    Modules.Live (modules.setIfInBounds i m') j ↔ if i = j then m'.used = true else modules.Live j := by
  split
  next heq =>
    subst heq
    exact live_iff (by rw [slot_set hm, if_pos rfl])
  next hne =>
    rw [Modules.Live, Modules.Live, slot_set hm, if_neg hne]

theorem sane_start : Sane exports 0 History.start := by
  have hfree {i : Nat} {m : LoadedModule} (hm : History.start.modules[i]? = some m) :
      m.used ≠ true := by
    have hslot := Vector.getElem?_eq_some_iff.1 hm
    obtain ⟨hi, rfl⟩ := hslot
    simp [History.start, Modules.start]
  exact
    { held := fun i m hm hused => absurd hused (hfree hm)
      distinct := fun i j m n hm _ hused => absurd hused (hfree hm)
      live := by
        intro i _
        refine iff_of_false ?_ (Nat.lt_irrefl 0)
        rintro ⟨m, hm, hused⟩
        exact hfree hm hused
      counts := fun i m hm hused => absurd hused (hfree hm)
      bound := fun _ => Nat.le_refl 0 }

theorem Sane.mono (hs : Sane exports n h) : Sane exports (n + 1) h :=
  { hs with bound := fun i => (hs.bound i).trans (Nat.le_succ n) }

-- A slot is written, and what is counted of it: `a` acquires and `r` releases.
theorem sane_set {n' a r : Nat} (hs : Sane exports n h) (hn : n ≤ n') (hm : h.modules[i]? = some m)
    (hheld : m'.used = true → Libraries exports m'.name)
    (hsole : m'.used = true → ∀ (j : Nat) (m₁ : LoadedModule), h.modules[j]? = some m₁ →
      m₁.used = true → m₁.name = m'.name → i = j)
    (hlive : m'.used = true ↔ r < a) (hcounts : m'.used = true → m'.refCount.toNat + r = a)
    (hbound : a ≤ n') :
    Sane exports n'
      { modules := h.modules.setIfInBounds i m'
        acquired := Function.update h.acquired i a
        released := Function.update h.released i r } where
  held j m₀ hm₀ hused₀ := by
    rw [slot_set hm] at hm₀
    split at hm₀
    next =>
      cases hm₀
      exact hheld hused₀
    next => exact hs.held j m₀ hm₀ hused₀
  distinct j k m₀ m₁ hm₀ hm₁ hused₀ hused₁ hname := by
    rw [slot_set hm] at hm₀ hm₁
    split at hm₀
    next hj =>
      cases hm₀
      split at hm₁
      next hk => exact hj.symm.trans hk
      next => exact hj ▸ hsole hused₀ k m₁ hm₁ hused₁ hname.symm
    next =>
      split at hm₁
      next hk =>
        cases hm₁
        exact hk ▸ (hsole hused₁ j m₀ hm₀ hused₀ hname).symm
      next => exact hs.distinct j k m₀ m₁ hm₀ hm₁ hused₀ hused₁ hname
  live j hj := by
    rw [live_set hm]
    dsimp only
    rw [Function.update_apply, Function.update_apply]
    split
    next heq =>
      rw [if_pos heq.symm, if_pos heq.symm]
      exact hlive
    next hne =>
      rw [if_neg (Ne.symm hne), if_neg (Ne.symm hne)]
      exact hs.live j hj
  counts j m₀ hm₀ hused₀ := by
    rw [slot_set hm] at hm₀
    dsimp only
    rw [Function.update_apply, Function.update_apply]
    split at hm₀
    next heq =>
      cases hm₀
      rw [if_pos heq.symm, if_pos heq.symm]
      exact hcounts hused₀
    next hne =>
      rw [if_neg (Ne.symm hne), if_neg (Ne.symm hne)]
      exact hs.counts j m₀ hm₀ hused₀
  bound j := by
    dsimp only
    rw [Function.update_apply]
    split
    next => exact hbound
    next => exact (hs.bound j).trans hn

-- One more reference to a slot that is live.
theorem sane_counted (hs : Sane exports n h) (hn : n + 1 < 2 ^ 32) (hm : h.modules[i]? = some m)
    (hused : m.used = true) :
    Sane exports (n + 1)
      { h with
        modules := h.modules.setIfInBounds i { m with refCount := m.refCount + 1 }
        acquired := Function.update h.acquired i (h.acquired i + 1) } := by
  have hcount := hs.counts i m hm hused
  have hbound := hs.bound i
  have hlive := (hs.live i (lt_of_slot hm)).1 ⟨m, hm, hused⟩
  have hraise : (m.refCount + 1).toNat = m.refCount.toNat + 1 := by
    rw [UInt32.toNat_add, UInt32.toNat_one, Nat.mod_eq_of_lt (by omega)]
  have hset : Sane exports (n + 1)
      { modules := h.modules.setIfInBounds i { m with refCount := m.refCount + 1 }
        acquired := Function.update h.acquired i (h.acquired i + 1)
        released := Function.update h.released i (h.released i) } :=
    sane_set hs (Nat.le_succ n) hm (fun _ => hs.held i m hm hused)
      (fun _ j m₁ hm₁ hused₁ hname => hs.distinct i j m m₁ hm hm₁ hused hused₁ hname.symm)
      (iff_of_true hused (Nat.lt_succ_of_lt hlive)) (fun _ => by rw [hraise]; omega)
      (Nat.succ_le_succ hbound)
  rwa [Function.update_eq_self] at hset

-- A free slot is taken for a library that no slot holds.
theorem sane_taken (hs : Sane exports n h) (hlib : Libraries exports name)
    (hm : h.modules[i]? = some m)
    (hother : ∀ (j : Nat) (m : LoadedModule), h.modules[j]? = some m → m.used = true →
      m.name ≠ name) :
    Sane exports (n + 1)
      { modules := h.modules.setIfInBounds i ⟨name, 1, true⟩
        acquired := Function.update h.acquired i 1
        released := Function.update h.released i 0 } :=
  sane_set hs (Nat.le_succ n) hm (fun _ => hlib)
    (fun _ j m₁ hm₁ hused₁ hname => absurd hname (hother j m₁ hm₁ hused₁))
    (iff_of_true rfl Nat.one_pos) (fun _ => rfl) (Nat.succ_le_succ (Nat.zero_le n))

-- A release that finds no live slot: of null, of a pointer past the table, or of a dead slot.
theorem sane_dead (hs : Sane exports n h) (hdead : ¬h.modules.Live i) :
    Sane exports n
      { h with released := Function.update h.released i (h.released i + 1) } where
  held := hs.held
  distinct := hs.distinct
  live j hj := by
    have hold := hs.live j hj
    dsimp only
    rw [Function.update_apply]
    split
    next heq =>
      subst heq
      exact iff_of_false hdead (fun hlt => hdead (hold.2 (Nat.lt_of_succ_lt hlt)))
    next => exact hold
  counts j m hm hused := by
    dsimp only
    rw [Function.update_of_ne]
    · exact hs.counts j m hm hused
    · rintro rfl
      exact hdead ⟨m, hm, hused⟩
  bound := hs.bound

theorem sane_released (hs : Sane exports n h) (hm : h.modules[i]? = some m)
    (hused : m.used = true) :
    Sane exports n
      { h with
        modules := h.modules.setIfInBounds i
          { m with refCount := m.refCount - 1, used := m.refCount - 1 ≠ 0 }
        released := Function.update h.released i (h.released i + 1) } := by
  have hcount := hs.counts i m hm hused
  have hlive := (hs.live i (lt_of_slot hm)).1 ⟨m, hm, hused⟩
  have hone : (1 : UInt32) ≤ m.refCount := by
    rw [UInt32.le_iff_toNat_le, UInt32.toNat_one]
    omega
  have hlower : (m.refCount - 1).toNat = m.refCount.toNat - 1 := by
    rw [UInt32.toNat_sub_of_le _ _ hone, UInt32.toNat_one]
  have hstill : m.refCount - 1 ≠ 0 ↔ h.released i + 1 < h.acquired i := by
    rw [ne_eq, ← UInt32.toNat_inj, hlower, UInt32.toNat_zero]
    omega
  have hset : Sane exports n
      { modules := h.modules.setIfInBounds i
          { m with refCount := m.refCount - 1, used := m.refCount - 1 ≠ 0 }
        acquired := Function.update h.acquired i (h.acquired i)
        released := Function.update h.released i (h.released i + 1) } :=
    sane_set hs (Nat.le_refl n) hm (fun _ => hs.held i m hm hused)
      (fun _ j m₁ hm₁ hused₁ hname => hs.distinct i j m m₁ hm hm₁ hused hused₁ hname.symm)
      (by rw [decide_eq_true_eq]; exact hstill) (fun _ => by rw [hlower]; omega) (hs.bound i)
  rwa [Function.update_eq_self] at hset

theorem release_step (hs : Sane exports n h) (module : OSDynLoadModule) :
    Sane exports n (h.after exports (.release module)) := by
  cases module with
  | none => exact hs
  | some i =>
    simp only [History.after, osDynLoadRelease, asModule]
    split
    next hdead =>
      refine sane_dead hs ?_
      rintro ⟨m, hm, hused⟩
      rw [hm] at hdead
      simp [hused] at hdead
    next j m hlive =>
      split at hlive
      next => cases hlive
      next m₀ hm =>
        split at hlive
        next hused =>
          cases hlive
          have hcount := hs.counts i m hm hused
          have hopen := (hs.live i (lt_of_slot hm)).1 ⟨m, hm, hused⟩
          have hpos : m.refCount > 0 := by
            rw [gt_iff_lt, UInt32.lt_iff_toNat_lt, UInt32.toNat_zero]
            omega
          rw [if_pos hpos]
          exact sane_released hs hm hused
        next => cases hlive

theorem acquire_step (hs : Sane exports n h) (hn : n + 1 < 2 ^ 32) (name : CString)
    (outModule : Pointer) : Sane exports (n + 1) (h.after exports (.acquire name outModule)) := by
  by_cases hcall : name ≠ [] ∧ outModule ≠ 0
  · rcases acquire_cases exports h.modules hcall.1 hcall.2 with
      ⟨-, heq⟩ | ⟨hlib, ⟨i, m, hm, hused, hsame, heq⟩ | ⟨hother, ⟨i, m, hm, hfree, heq⟩ | ⟨-, heq⟩⟩⟩
    · simp only [History.after, heq]
      exact hs.mono
    · have hlive : h.modules.Live i := ⟨m, hm, hused⟩
      simp only [History.after, heq, if_pos hlive]
      exact sane_counted hs hn hm hused
    · have hdead : ¬h.modules.Live i := by
        rw [live_iff hm, hfree]
        nofun
      simp only [History.after, heq, if_neg hdead]
      exact sane_taken hs hlib hm hother
    · simp only [History.after, heq]
      exact hs.mono
  · have hnothing : ∃ error stored, osDynLoadAcquire exports h.modules (some name) outModule =
        (error, stored, h.modules) ∧ error ≠ .ok := by
      by_cases hout : outModule = 0
      · exact ⟨.invalidAcquirePtr, none, if_pos hout, nofun⟩
      · cases name with
        | nil => exact ⟨.emptyModuleName, some none, if_neg hout, nofun⟩
        | cons c cs => exact absurd ⟨List.cons_ne_nil c cs, hout⟩ hcall
    obtain ⟨error, stored, heq, herror⟩ := hnothing
    have hafter : h.after exports (.acquire name outModule) = h := by
      simp only [History.after, heq]
      split
      next hok => exact absurd (Prod.mk.inj hok).1 herror
      next hrest => rw [← (Prod.mk.inj (Prod.mk.inj hrest).2).2]
    rw [hafter]
    exact hs.mono

theorem findExportOfKind_cases (exports : ExportTable) (library name : CString)
    (kind : ExportKind) :
    (∃ e ∈ exports, Matches library name kind e ∧
      findExportOfKind exports library name kind = e.address) ∨
    (∀ e ∈ exports, ¬Matches library name kind e) ∧
      findExportOfKind exports library name kind = 0 := by
  rw [findExportOfKind]
  split
  next e hfound =>
    have hmatch := List.find?_some hfound
    rw [decide_eq_true_eq] at hmatch
    exact .inl ⟨e, List.mem_of_find?_eq_some hfound, ⟨hmatch.2.1, hmatch.2.2, hmatch.1⟩, rfl⟩
  next hnone =>
    refine .inr ⟨fun e he hmatch => ?_, rfl⟩
    have hother := List.find?_eq_none.1 hnone e he
    exact hother (decide_eq_true ⟨hmatch.2.2, hmatch.1, hmatch.2.1⟩)

theorem answers (hs : Sane exports n h) (r : Request) : Answers exports h r := by
  cases r with
  | acquire name outModule =>
    intro hname hout
    rcases acquire_cases exports h.modules hname hout with
      ⟨hnone, heq⟩ | ⟨hlib, ⟨i, m, hm, hused, hsame, heq⟩ | ⟨hother, hrest⟩⟩
    · refine ⟨fun j m' hm' hused' hbase => ?_, fun hlib => absurd hlib hnone, fun herror => ?_⟩
      · exact absurd (hbase ▸ hs.held j m' hm' hused') hnone
      · rw [heq] at herror
        cases herror
    · refine ⟨fun j m' hm' hused' hbase => ?_, fun _ _ => ⟨i, _, heq⟩, fun herror => ?_⟩
      · have hsame' := hs.distinct i j m m' hm hm' hused hused' (hsame.trans hbase)
        exact hsame' ▸ ⟨_, heq⟩
      · rw [heq] at herror
        cases herror
    · refine ⟨fun j m' hm' hused' hbase => absurd hbase.symm (hother j m' hm' hused'), ?_⟩
      rcases hrest with ⟨i, m, hm, hfree, heq⟩ | ⟨hfull, heq⟩
      · refine ⟨fun _ _ => ⟨i, _, heq⟩, fun herror => ?_⟩
        rw [heq] at herror
        cases herror
      · refine ⟨fun _ ⟨j, m, hm, hroom⟩ => ?_, fun _ j hj => ?_⟩
        · have hused := hfull j m hm
          exact absurd (hroom hused) (hother j m hm hused)
        have hslot : h.modules[j]? = some h.modules[j] := Vector.getElem?_eq_getElem hj
        exact ⟨_, hslot, hfull j _ hslot, hother j _ hslot (hfull j _ hslot)⟩
  | release module => trivial
  | findExport module exportType name outAddr =>
    rintro hout i m rfl hm hused
    have hmodule : asModule h.modules (some i) = some (i, m) := by
      simp only [asModule, hm, if_pos hused]
    simp only [osDynLoadFindExport, if_neg hout, hmodule]
    rcases findExportOfKind_cases exports m.name name (exportKind exportType) with
      ⟨e, he, hmatch, heq⟩ | ⟨hnone, heq⟩
    · refine .inl ⟨e, he, hmatch, ?_⟩
      rw [heq, if_neg e.address_ne_null]
    · refine .inr ⟨hnone, ?_⟩
      rw [heq, if_pos rfl]

theorem every_call {requests : List Request} (hs : Sane exports n h)
    (hfew : n + requests.countP Request.isAcquire < 2 ^ 32) :
    EveryState (History.after exports) (Tallied exports) h requests ∧
      EveryRequest (History.after exports) (Answers exports) h requests := by
  induction requests generalizing n h with
  | nil => exact ⟨hs.toTallied, trivial⟩
  | cons r requests ih =>
    have hanswer := answers hs r
    cases r with
    | acquire name outModule =>
      rw [List.countP_cons_of_pos rfl] at hfew
      obtain ⟨hstates, hanswers⟩ := ih (acquire_step hs (by omega) name outModule) (by omega)
      exact ⟨⟨hs.toTallied, hstates⟩, hanswer, hanswers⟩
    | release module =>
      rw [List.countP_cons_of_neg Bool.false_ne_true] at hfew
      obtain ⟨hstates, hanswers⟩ := ih (release_step hs module) hfew
      exact ⟨⟨hs.toTallied, hstates⟩, hanswer, hanswers⟩
    | findExport module exportType name outAddr =>
      rw [List.countP_cons_of_neg Bool.false_ne_true] at hfew
      obtain ⟨hstates, hanswers⟩ := ih hs hfew
      exact ⟨⟨hs.toTallied, hstates⟩, hanswer, hanswers⟩

theorem module_handles_every_call (exports : ExportTable) (requests : List Request)
    (hfew : requests.countP Request.isAcquire < 2 ^ 32) :
    EveryState (History.after exports) (Tallied exports) History.start requests ∧
      EveryRequest (History.after exports) (Answers exports) History.start requests :=
  every_call sane_start (by rwa [Nat.zero_add])

-- The one library is acquired by both of its names and released once.
def acquiredTwice : List Request := [.acquire (ascii "coreinit") 0x2000,
  .acquire (ascii "coreinit.rpl") 0x2000, .release (some 0)]

theorem module_handles_every_call_live :
    ∃ h : History, EveryState (History.after oneExport) (Tallied oneExport) History.start
        acquiredTwice ∧
      h = acquiredTwice.foldl (History.after oneExport) History.start ∧
      h.acquired 0 = 2 ∧ h.released 0 = 1 ∧ h.modules.Live 0 ∧
      Answers oneExport h (.findExport (some 0) 0 (ascii "OSGetTime") 0x3000) ∧
      osDynLoadFindExport oneExport h.modules (some 0) 0 (some (ascii "OSGetTime")) 0x3000 =
        (.ok, some 0x1000) := by
  obtain ⟨hstates, -⟩ := module_handles_every_call oneExport acquiredTwice (by decide)
  obtain ⟨-, hanswers⟩ := module_handles_every_call oneExport
    (acquiredTwice ++ [.findExport (some 0) 0 (ascii "OSGetTime") 0x3000]) (by decide)
  obtain ⟨-, -, -, hanswer, -⟩ := hanswers
  exact ⟨_, hstates, rfl, by decide +kernel, by decide +kernel, by decide +kernel, hanswer,
    by decide +kernel⟩

end CoreinitNx.DynLoad
