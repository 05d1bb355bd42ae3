import CoreinitNx.FileSystem.Calls
import CoreinitNx.Library.Paths

namespace CoreinitNx.FileSystem

open Paths

variable {σ : Type} {s : State σ} {client : FSClient} {mappings earlier later : List Mapping}
  {m : Mapping} {path : CString}

def firstMatch (mappings : List Mapping) (path : CString) : Option Mapping :=
  mappings.find? fun m => m.wiiu.isPrefixOf path

theorem firstMatch_eq_some_iff :
    firstMatch mappings path = some m ↔ m.wiiu <+: path ∧
      ∃ earlier later, mappings = earlier ++ m :: later ∧ ∀ e ∈ earlier, ¬e.wiiu <+: path := by
  simp only [firstMatch, List.find?_eq_some_iff_append, List.isPrefixOf_iff_prefix,
    Bool.not_eq_true', ← Bool.not_eq_true, exists_and_right]

theorem applyMappings_of_match (h : firstMatch mappings path = some m) :
    applyMappings mappings path = m.host ++ path.drop m.wiiu.length := by
  induction mappings with
  | nil => cases h
  | cons e mappings ih =>
    simp only [firstMatch, List.find?_cons] at h
    rw [applyMappings]
    split at h
    next he =>
      obtain rfl := Option.some.inj h
      rw [if_pos he]
    next he =>
      rw [if_neg (by simp [he])]
      exact ih h

theorem applyMappings_of_none (h : firstMatch mappings path = none) :
    applyMappings mappings path = path := by
  induction mappings with
  | nil => rfl
  | cons e mappings ih =>
    simp only [firstMatch, List.find?_cons] at h
    rw [applyMappings]
    split at h
    next => cases h
    next he =>
      rw [if_neg (by simp [he])]
      exact ih h

theorem resolve_absolute (h : IsAbsolute slash path) : resolve s client path = path := by
  cases path with
  | nil => cases h
  | cons c path =>
    have hc : c = slash := Option.some.inj h
    rw [resolve, if_pos hc]

theorem resolve_relative (hne : path ≠ []) (hrel : ¬IsAbsolute slash path)
    (hcwd : (s.client client).cwd ≠ []) :
    resolve s client path = join slash (s.client client).cwd path := by
  cases path with
  | nil => exact absurd rfl hne
  | cons c path =>
    rw [resolve, if_neg fun hc => hrel (congrArg some hc)]
    cases hstate : s.clientState[client]? with
    | none =>
      rw [State.client, hstate] at hcwd
      exact absurd rfl hcwd
    | some state =>
      have hclient : s.client client = state := by
        rw [State.client, hstate]
        rfl
      rw [hclient] at hcwd ⊢
      simp only [if_neg hcwd, join]

theorem resolve_of_none (h : s.clientState[client]? = none) : resolve s client path = path := by
  cases path with
  | nil => rfl
  | cons c path =>
    rw [resolve, h]
    split <;> rfl

-- A mapping whose key ends inside a component never gets to see what follows it: each next byte
-- belongs to an earlier mapping.
def Guarded (mappings : List Mapping) : Prop :=
  ∀ earlier m later, mappings = earlier ++ m :: later → 0 ∉ m.wiiu →
    m.wiiu.getLast? = some slash ∨
      ∀ c, c ≠ 0 → c ≠ slash → ∃ e ∈ earlier, e.wiiu <+: m.wiiu ++ [c]

def withHost (host : CString) (m : Mapping) : Mapping := { m with host }

-- The host directory behind the `i`th key is another one.
def State.rehost (s : State σ) (i : Nat) (host : CString) : State σ :=
  { s with mappings := s.mappings.modify i (withHost host) }

-- The `i`th mapping is applied to a path where the translated path depends on its host directory.
def AppliesTo (s : State σ) (i : Nat) (client : FSClient) (path : CString) : Prop :=
  ∃ host, translate (s.rehost i host) client path ≠ translate s client path

def RespectsComponents (s : State σ) : Prop :=
  ∀ client path i m, 0 ∉ resolve s client path → s.mappings[i]? = some m →
    AppliesTo s i client path → Covers slash m.wiiu (resolve s client path)

theorem applyMappings_modify {i : Nat} {host : CString} (he : m.wiiu <+: path) :
    applyMappings ((m :: mappings).modify (i + 1) (withHost host)) path =
      applyMappings (m :: mappings) path := by
  have he : m.wiiu.isPrefixOf path = true := List.isPrefixOf_iff_prefix.2 he
  rw [List.modify_succ_cons, applyMappings, applyMappings, if_pos he, if_pos he]

theorem applyMappings_cons (he : ¬m.wiiu <+: path) :
    applyMappings (m :: mappings) path = applyMappings mappings path := by
  rw [applyMappings, if_neg fun h => he (List.isPrefixOf_iff_prefix.1 h)]

-- Induction on the mappings: the loop ends at the first key that the path begins with.
theorem first_of_applied {i : Nat} {host : CString}
    (h : applyMappings (mappings.modify i (withHost host)) path ≠ applyMappings mappings path) :
    ∃ earlier m later, mappings = earlier ++ m :: later ∧ earlier.length = i ∧ m.wiiu <+: path ∧
      ∀ e ∈ earlier, ¬e.wiiu <+: path := by
  induction mappings generalizing i with
  | nil => exact absurd (by rw [List.modify_nil]) h
  | cons m mappings ih =>
    by_cases hm : m.wiiu <+: path
    · cases i with
      | zero => exact ⟨[], m, mappings, rfl, rfl, hm, fun e he => nomatch he⟩
      | succ i => exact absurd (applyMappings_modify hm) h
    · cases i with
      | zero =>
        have hm' : ¬(withHost host m).wiiu <+: path := hm
        rw [List.modify_zero_cons, applyMappings_cons hm', applyMappings_cons hm] at h
        exact absurd rfl h
      | succ i =>
        rw [List.modify_succ_cons, applyMappings_cons hm, applyMappings_cons hm] at h
        obtain ⟨earlier, m', later, rfl, rfl, hm', hnone⟩ := ih h
        exact ⟨m :: earlier, m', later, rfl, rfl, hm', List.forall_mem_cons.2 ⟨hm, hnone⟩⟩

theorem applied_of_first (hm : m.wiiu <+: path) (hnone : ∀ e ∈ earlier, ¬e.wiiu <+: path) :
    applyMappings ((earlier ++ m :: later).modify earlier.length (withHost (0 :: m.host))) path ≠
      applyMappings (earlier ++ m :: later) path := by
  induction earlier with
  | nil =>
    have hkey : m.wiiu.isPrefixOf path = true := List.isPrefixOf_iff_prefix.2 hm
    have hkey' : (withHost (0 :: m.host) m).wiiu.isPrefixOf path = true := hkey
    rw [List.nil_append, List.length_nil, List.modify_zero_cons, applyMappings, if_pos hkey',
      applyMappings, if_pos hkey]
    intro heq
    simpa [withHost] using congrArg List.length heq
  | cons e earlier ih =>
    obtain ⟨he, hnone⟩ := List.forall_mem_cons.1 hnone
    rw [List.cons_append, List.length_cons, List.modify_succ_cons, applyMappings_cons he,
      applyMappings_cons he]
    exact ih hnone

theorem resolve_rehost (s : State σ) (i : Nat) (host : CString) (client : FSClient)
    (path : CString) : resolve (s.rehost i host) client path = resolve s client path := rfl

theorem Guarded.respects (h : Guarded s.mappings) : RespectsComponents s := by
  intro client path i m' hnul hget happlied
  obtain ⟨host, happlied⟩ := happlied
  rw [translate, translate, resolve_rehost] at happlied
  generalize resolve s client path = full at hnul happlied ⊢
  obtain ⟨earlier, m, later, hsplit, rfl, ⟨next, rfl⟩, hnone⟩ := first_of_applied happlied
  obtain rfl : m' = m := by
    rw [hsplit, List.getElem?_append_right le_rfl, Nat.sub_self, List.getElem?_cons_zero] at hget
    exact (Option.some.inj hget).symm
  refine ⟨List.prefix_append _ _, ?_⟩
  have hkey : 0 ∉ m'.wiiu := fun h => hnul (List.mem_append_left _ h)
  rcases h earlier m' later hsplit hkey with hlast | hnext
  · exact .inr (.inl hlast)
  · cases next with
    | nil => exact .inl (List.append_nil _).symm
    | cons c next =>
      right
      right
      rw [List.getElem?_append_right le_rfl, Nat.sub_self, List.getElem?_cons_zero]
      by_contra hc
      have hzero : c ≠ 0 := by
        rintro rfl
        exact hnul (by simp)
      obtain ⟨e, he, hbegins⟩ := hnext c hzero fun h => hc (congrArg some h)
      refine hnone e he (hbegins.trans ⟨next, ?_⟩)
      rw [List.append_assoc, List.singleton_append]

theorem guarded_of_respects (host : σ)
    (h : RespectsComponents { State.initial host with mappings := mappings }) :
    Guarded mappings := by
  intro earlier m later hsplit hkey
  by_contra hno
  obtain ⟨hlast, hnext⟩ := not_or.1 hno
  push Not at hnext
  obtain ⟨c, hzero, hslash, hnone⟩ := hnext
  have hresolve : resolve { State.initial host with mappings := mappings } 0 (m.wiiu ++ [c]) =
      m.wiiu ++ [c] := resolve_of_none Std.TreeMap.getElem?_emptyc
  have hget : mappings[earlier.length]? = some m := by
    rw [hsplit, List.getElem?_append_right le_rfl, Nat.sub_self, List.getElem?_cons_zero]
  have happlied : AppliesTo { State.initial host with mappings := mappings } earlier.length 0
      (m.wiiu ++ [c]) := by
    refine ⟨0 :: m.host, ?_⟩
    rw [translate, translate, resolve_rehost, hresolve]
    simp only [State.rehost, hsplit]
    exact applied_of_first (List.prefix_append _ _) hnone
  have hcovers := h 0 (m.wiiu ++ [c]) _ m (by rw [hresolve]; simp [hkey, Ne.symm hzero]) hget
    happlied
  rw [hresolve] at hcovers
  rcases hcovers.2 with heq | hend | hat
  · simpa using congrArg List.length heq
  · exact hlast hend
  · rw [List.getElem?_append_right le_rfl, Nat.sub_self, List.getElem?_cons_zero] at hat
    exact hslash (Option.some.inj hat)

-- For every list of mappings: no client's path is ever rewritten inside a component if and only if
-- the list is guarded.
theorem mappings_respect_components_iff (host : σ) (mappings : List Mapping) :
    (∀ s : State σ, s.mappings = mappings → RespectsComponents s) ↔ Guarded mappings := by
  constructor
  · exact fun h => guarded_of_respects host (h _ rfl)
  · rintro h s rfl
    exact h.respects

def text (s : String) : CString := s.toList.map fun c => c.toNat.toUInt8

-- "/vol/content2" is a sibling of "/vol/content".
theorem mappings_rewrite_sibling :
    let s : State Unit :=
      { State.initial () with mappings := [⟨text "/vol/content", text "/wiiu/content"⟩] }
    translate s 1 (text "/vol/content2/x") = text "/wiiu/content2/x" ∧ ¬RespectsComponents s := by
  intro s
  have happlied : AppliesTo s 0 1 (text "/vol/content2/x") := ⟨[], by decide +kernel⟩
  refine ⟨by decide +kernel, fun hrespects => ?_⟩
  obtain ⟨-, heq | hlast | hnext⟩ := hrespects 1 _ 0 _ (by decide +kernel) rfl happlied
  · exact absurd heq (by decide +kernel)
  · exact absurd hlast (by decide +kernel)
  · exact absurd hnext (by decide +kernel)

end CoreinitNx.FileSystem
