import CoreinitNx.Library.Search
import CoreinitNx.MemHeap

namespace CoreinitNx.UserConfig

open Search

inductive UCDataType where
  | undefined
  | unsignedByte
  | unsignedShort
  | unsignedInt
  | signedInt
  | float
  | string
  | hexBinary
  | complex
  | invalid
deriving DecidableEq, Repr

abbrev UCError := Int32

def ucErrorOk : UCError := 0
def ucErrorInvalidParam : UCError := -0x200005
def ucErrorKeyNotFound : UCError := -0x200009

-- `name` is the string in the array of the source, up to its end.
structure UCSysConfig where
  name : List UInt8
  access : UInt32
  dataType : UCDataType
  error : UCError
  dataSize : UInt32
  data : UInt64
deriving DecidableEq, Repr

inductive SetLanguage where
  | ja | enus | fr | de | it | es | zhcn | ko | nl | pt | ru | zhtw | engb | frca | es419
  | zhhans | zhhant | ptbr | other
deriving DecidableEq, Repr

inductive SetRegion where
  | jpn | usa | eur | aus | htk | other
deriving DecidableEq, Repr

-- What the console's own settings answer, or none where they fail.
structure Settings where
  language : Option SetLanguage
  region : Option SetRegion
deriving DecidableEq, Repr

def cafeLanguage (host : Settings) : UInt32 :=
  match host.language.getD .enus with
  | .ja => 0
  | .enus | .engb => 1
  | .fr | .frca => 2
  | .de => 3
  | .it => 4
  | .es | .es419 => 5
  | .zhcn | .zhhans => 6
  | .ko => 7
  | .nl => 8
  | .pt | .ptbr => 9
  | .ru => 10
  | .zhtw | .zhhant => 11
  | .other => 1

def cafeCountry (host : Settings) : UInt32 :=
  match host.region.getD .usa with
  | .jpn => 1
  | .usa => 49
  | .eur => 110
  | .aus => 65
  | .htk => 128
  | .other => 49

def strstr (text : List UInt8) (needle : String) : Bool := (firstAt (ascii needle) text).isSome

def byteAt (value : UInt32) (i : Nat) : UInt8 := UInt8.ofNat (value.toNat / 256 ^ i)

-- The lowest bytes of the value, the lowest first.
def write (memory : Memory) (start : UInt64) (width : Nat) (value : UInt32) : Memory :=
  fun p =>
    if start ≤ p ∧ p.toNat < start.toNat + width then byteAt value (p.toNat - start.toNat)
    else memory p

def store (memory : Memory) (s : UCSysConfig) (value : UInt32) : Bool × Memory :=
  if s.data = 0 ∨ s.dataSize = 0 then (false, memory)
  else
    match s.dataType with
    | .unsignedByte => (true, write memory s.data 1 value)
    | .unsignedShort => (true, write memory s.data 2 value)
    | .unsignedInt | .signedInt => (true, write memory s.data 4 value)
    | _ => (false, memory)

def resolve (host : Settings) (memory : Memory) (s : UCSysConfig) : Bool × Memory :=
  if strstr s.name "language" then store memory s (cafeLanguage host)
  else if strstr s.name "cntry_reg" then store memory s (cafeCountry host)
  else if strstr s.name "eula_agree" then store memory s 1
  else if strstr s.name "eco" then store memory s 0
  else if strstr s.name "initial_launch" then store memory s 0
  else if strstr s.name "parent" then store memory s 0
  else (false, memory)

-- The loop of `UCReadSysConfig`, with the entries and the memory that it leaves.
def readEntries (host : Settings) :
    UCError → Memory → List UCSysConfig → UCError × List UCSysConfig × Memory
  | overall, memory, [] => (overall, [], memory)
  | overall, memory, s :: rest =>
    let (found, memory) := resolve host memory s
    let s := { s with error := if found then ucErrorOk else ucErrorKeyNotFound }
    let overall := if found then overall else ucErrorKeyNotFound
    let (overall, settings, memory) := readEntries host overall memory rest
    (overall, s :: settings, memory)

def ucReadSysConfig (host : Settings) (memory : Memory) (settings : Option (List UCSysConfig)) :
    UCError × List UCSysConfig × Memory :=
  match settings with
  | none => (ucErrorInvalidParam, [], memory)
  | some settings => readEntries host ucErrorOk memory settings

def UCSysConfig.InBuffer (s : UCSysConfig) (p : UInt64) : Prop :=
  s.data ≤ p ∧ p.toNat < s.data.toNat + s.dataSize.toNat

def Disjoint (s t : UCSysConfig) : Prop := ∀ p, ¬(s.InBuffer p ∧ t.InBuffer p)

-- The entries and the memory after a call.
def entriesAfter (host : Settings) (memory : Memory) (settings : List UCSysConfig) :
    List UCSysConfig := (ucReadSysConfig host memory (some settings)).2.1

def memoryAfter (host : Settings) (memory : Memory) (settings : List UCSysConfig) : Memory :=
  (ucReadSysConfig host memory (some settings)).2.2

structure ReadsAlone (host : Settings) (memory : Memory) (settings : List UCSysConfig) : Prop where
  outside : ∀ p, (∀ s ∈ settings, ¬s.InBuffer p) → memoryAfter host memory settings p = memory p
  errors : entriesAfter host memory settings = settings.flatMap (entriesAfter host memory [·])
  data : ∀ s ∈ settings, ∀ p, s.InBuffer p →
    memoryAfter host memory settings p = memoryAfter host memory [s] p

-- In whatever order the entries stand.
def StaysInside (host : Settings) (settings : List UCSysConfig) : Prop :=
  ∀ memory ordered, ordered.Perm settings → ReadsAlone host memory ordered

-- The value that an entry's name stands for.
def UCSysConfig.value (host : Settings) (s : UCSysConfig) : Option UInt32 :=
  if strstr s.name "language" then some (cafeLanguage host)
  else if strstr s.name "cntry_reg" then some (cafeCountry host)
  else if strstr s.name "eula_agree" then some 1
  else if strstr s.name "eco" then some 0
  else if strstr s.name "initial_launch" then some 0
  else if strstr s.name "parent" then some 0
  else none

def UCDataType.width : UCDataType → Nat
  | .unsignedByte => 1
  | .unsignedShort => 2
  | .unsignedInt | .signedInt => 4
  | _ => 0

-- The byte that an entry stores at `p`, if any: how many follow from its type, not its size.
def UCSysConfig.stores (host : Settings) (s : UCSysConfig) (p : UInt64) : Option UInt8 :=
  if s.data ≠ 0 ∧ s.dataSize ≠ 0 ∧ s.data ≤ p ∧ p.toNat < s.data.toNat + s.dataType.width then
    (s.value host).map (byteAt · (p.toNat - s.data.toNat))
  else none

-- What an entry stores is in the buffer of an entry that stores the same there.
def KeepsToBuffers (host : Settings) (settings : List UCSysConfig) : Prop :=
  ∀ s ∈ settings, ∀ p v, s.stores host p = some v →
    ∃ t ∈ settings, t.InBuffer p ∧ t.stores host p = some v

variable {host : Settings} {memory : Memory} {s t : UCSysConfig} {settings : List UCSysConfig}
  {p : UInt64} {v : UInt8} {overall : UCError}

theorem resolve_eq (host : Settings) (memory : Memory) (s : UCSysConfig) :
    resolve host memory s =
      match s.value host with
      | some value => store memory s value
      | none => (false, memory) := by
  let stored : Option UInt32 → Bool × Memory
    | some value => store memory s value
    | none => (false, memory)
  change resolve host memory s = stored (s.value host)
  simp only [UCSysConfig.value, apply_ite stored]
  rfl

def UCSysConfig.found (host : Settings) (s : UCSysConfig) : Bool :=
  s.data ≠ 0 ∧ s.dataSize ≠ 0 ∧ 0 < s.dataType.width ∧ (s.value host).isSome

theorem store_found (memory : Memory) (s : UCSysConfig) (value : UInt32) :
    (store memory s value).1 = decide (s.data ≠ 0 ∧ s.dataSize ≠ 0 ∧ 0 < s.dataType.width) := by
  rw [store]
  split
  next hnull => rcases hnull with h | h <;> simp [h]
  next hbuffer =>
    obtain ⟨hdata, hsize⟩ := not_or.1 hbuffer
    cases s.dataType <;> simp [hdata, hsize, UCDataType.width]

theorem store_byte (memory : Memory) (s : UCSysConfig) (value : UInt32) (p : UInt64) :
    (store memory s value).2 p =
      if s.data ≠ 0 ∧ s.dataSize ≠ 0 ∧ s.data ≤ p ∧
          p.toNat < s.data.toNat + s.dataType.width then
        byteAt value (p.toNat - s.data.toNat)
      else memory p := by
  rw [store]
  split
  next hnull => rcases hnull with h | h <;> simp [h]
  next hbuffer =>
    obtain ⟨hdata, hsize⟩ := not_or.1 hbuffer
    have hnone (h : s.data ≤ p) : ¬p.toNat < s.data.toNat + 0 :=
      Nat.not_lt.2 (UInt64.le_iff_toNat_le.1 h)
    cases s.dataType <;> simp only [UCDataType.width, write, ne_eq, hdata, hsize,
      not_false_eq_true, true_and]
    all_goals
      rw [if_neg]
      exact fun h => hnone h.1 h.2

theorem resolve_found : (resolve host memory s).1 = s.found host := by
  rw [resolve_eq, UCSysConfig.found]
  cases s.value host with
  | none => simp
  | some value => simp [store_found]

theorem resolve_byte : (resolve host memory s).2 p = (s.stores host p).getD (memory p) := by
  rw [resolve_eq, UCSysConfig.stores]
  cases s.value host with
  | none => simp
  | some value =>
    simp only [store_byte, Option.map_some]
    split <;> rfl

-- The entry as a call leaves it.
def UCSysConfig.answered (host : Settings) (s : UCSysConfig) : UCSysConfig :=
  { s with error := if s.found host then ucErrorOk else ucErrorKeyNotFound }

-- The byte that is stored last at `p`.
def lastStored (host : Settings) : List UCSysConfig → UInt64 → Option UInt8
  | [], _ => none
  | s :: rest, p => (lastStored host rest p).or (s.stores host p)

theorem readEntries_settings :
    (readEntries host overall memory settings).2.1 = settings.map (·.answered host) := by
  induction settings generalizing overall memory with
  | nil => rfl
  | cons s rest ih =>
    have hfound : (resolve host memory s).1 = s.found host := resolve_found
    simp only [readEntries, ih, hfound, List.map_cons, UCSysConfig.answered]

theorem readEntries_memory :
    (readEntries host overall memory settings).2.2 p =
      (lastStored host settings p).getD (memory p) := by
  induction settings generalizing overall memory with
  | nil => rfl
  | cons s rest ih =>
    simp only [readEntries, ih, resolve_byte, lastStored]
    cases lastStored host rest p <;> rfl

theorem entriesAfter_eq : entriesAfter host memory settings = settings.map (·.answered host) :=
  readEntries_settings

theorem memoryAfter_eq :
    memoryAfter host memory settings p = (lastStored host settings p).getD (memory p) :=
  readEntries_memory

theorem memoryAfter_singleton :
    memoryAfter host memory [s] p = (s.stores host p).getD (memory p) := by
  rw [memoryAfter_eq, lastStored, lastStored, Option.none_or]

theorem exists_of_lastStored (h : lastStored host settings p = some v) :
    ∃ s ∈ settings, s.stores host p = some v := by
  induction settings with
  | nil => cases h
  | cons s rest ih =>
    rw [lastStored, Option.or_eq_some_iff] at h
    rcases h with hrest | ⟨-, hs⟩
    · obtain ⟨t, ht, hv⟩ := ih hrest
      exact ⟨t, List.mem_cons_of_mem _ ht, hv⟩
    · exact ⟨s, List.mem_cons_self, hs⟩

theorem lastStored_ne_none (hs : s ∈ settings) (h : s.stores host p = some v) :
    lastStored host settings p ≠ none := by
  induction settings with
  | nil => cases hs
  | cons t rest ih =>
    rw [lastStored]
    rcases List.mem_cons.1 hs with rfl | hrest
    · rw [h]
      cases lastStored host rest p <;> nofun
    · cases hlast : lastStored host rest p with
      | none => exact absurd hlast (ih hrest)
      | some v => nofun

theorem lastStored_concat (h : s.stores host p = some v) :
    lastStored host (settings ++ [s]) p = some v := by
  induction settings with
  | nil => rw [List.nil_append, lastStored, lastStored, Option.none_or, h]
  | cons t rest ih => rw [List.cons_append, lastStored, ih, Option.some_or]

theorem entriesAfter_alone :
    entriesAfter host memory settings = settings.flatMap (entriesAfter host memory [·]) := by
  simp only [entriesAfter_eq, List.map_cons, List.map_nil]
  induction settings with
  | nil => rfl
  | cons s rest ih => rw [List.map_cons, List.flatMap_cons, ih, List.singleton_append]

theorem KeepsToBuffers.perm (h : KeepsToBuffers host settings) {ordered : List UCSysConfig}
    (hperm : ordered.Perm settings) : KeepsToBuffers host ordered := by
  intro s hs p v hv
  obtain ⟨t, ht, hin⟩ := h s (hperm.mem_iff.1 hs) p v hv
  exact ⟨t, hperm.mem_iff.2 ht, hin⟩

theorem eq_of_inBuffer (hdisjoint : settings.Pairwise Disjoint) (hs : s ∈ settings)
    (ht : t ∈ settings) (hps : s.InBuffer p) (hpt : t.InBuffer p) : s = t := by
  induction hdisjoint with
  | nil => cases hs
  | @cons head rest hhead _ ih =>
    rcases List.mem_cons.1 hs with rfl | hs'
    · rcases List.mem_cons.1 ht with rfl | ht'
      · rfl
      · exact absurd ⟨hps, hpt⟩ (hhead t ht' p)
    · rcases List.mem_cons.1 ht with rfl | ht'
      · exact absurd ⟨hpt, hps⟩ (hhead s hs' p)
      · exact ih hs' ht'

theorem readsAlone_of_keepsToBuffers (hdisjoint : settings.Pairwise Disjoint)
    (h : KeepsToBuffers host settings) (memory : Memory) : ReadsAlone host memory settings where
  outside p hout := by
    rw [memoryAfter_eq]
    cases hlast : lastStored host settings p with
    | none => rfl
    | some v =>
      obtain ⟨s, hs, hv⟩ := exists_of_lastStored hlast
      obtain ⟨t, ht, hin, -⟩ := h s hs p v hv
      exact absurd hin (hout t ht)
  errors := entriesAfter_alone
  data s hs p hin := by
    rw [memoryAfter_eq, memoryAfter_singleton]
    cases hlast : lastStored host settings p with
    | none =>
      cases hv : s.stores host p with
      | none => rfl
      | some v => exact absurd hlast (lastStored_ne_none hs hv)
    | some v =>
      obtain ⟨t, ht, hv⟩ := exists_of_lastStored hlast
      obtain ⟨u, hu, hinu, hvu⟩ := h t ht p v hv
      rw [eq_of_inBuffer hdisjoint hs hu hin hinu, hvu]

-- The offending entry is read last, over a memory that holds something else.
theorem keepsToBuffers_of_staysInside (h : StaysInside host settings) :
    KeepsToBuffers host settings := by
  intro s hs p v hv
  have hperm : (settings.erase s ++ [s]).Perm settings :=
    (List.perm_append_singleton s _).trans (List.perm_cons_erase hs).symm
  have hreads := h (fun _ => v + 1) _ hperm
  have hne : v ≠ v + 1 := by
    intro heq
    simp at heq
  have hafter : memoryAfter host (fun _ => v + 1) (settings.erase s ++ [s]) p = v := by
    rw [memoryAfter_eq, lastStored_concat hv]
    rfl
  by_cases hin : ∃ t ∈ settings, t.InBuffer p
  · obtain ⟨t, ht, hin⟩ := hin
    refine ⟨t, ht, hin, ?_⟩
    have halone := hreads.data t (hperm.mem_iff.2 ht) p hin
    rw [hafter, memoryAfter_singleton] at halone
    cases hvt : t.stores host p with
    | none =>
      rw [hvt] at halone
      exact absurd halone hne
    | some v' =>
      rw [hvt] at halone
      rw [halone]
      rfl
  · have hkept := hreads.outside p fun t ht hpt => hin ⟨t, hperm.mem_iff.1 ht, hpt⟩
    rw [hafter] at hkept
    exact absurd hkept hne

-- In particular the entries do where none has a type wider than its size.
theorem keepsToBuffers_of_width
    (h : ∀ s ∈ settings, s.dataType.width ≤ s.dataSize.toNat) : KeepsToBuffers host settings := by
  intro s hs p v hv
  refine ⟨s, hs, ?_, hv⟩
  rw [UCSysConfig.stores] at hv
  split at hv
  next hin =>
    have hwidth := h s hs
    exact ⟨hin.2.2.1, by omega⟩
  next => cases hv

theorem system_config_stays_inside_iff (host : Settings) (settings : List UCSysConfig)
    (hdisjoint : settings.Pairwise Disjoint) :
    StaysInside host settings ↔ KeepsToBuffers host settings := by
  constructor
  · exact keepsToBuffers_of_staysInside
  · intro h memory ordered hperm
    have hsymm : ∀ {s t : UCSysConfig}, Disjoint s t → Disjoint t s :=
      fun h p hp => h p ⟨hp.2, hp.1⟩
    exact readsAlone_of_keepsToBuffers (hperm.symm.pairwise hdisjoint hsymm) (h.perm hperm) memory

def languageKey (dataType : UCDataType) (dataSize : UInt32) (data : UInt64) : UCSysConfig :=
  ⟨ascii "cafe.language", 0x777, dataType, 0, dataSize, data⟩

def noSettings : Settings := ⟨none, none⟩

theorem system_config_stays_inside_iff_two_keys :
    StaysInside noSettings
      [languageKey .unsignedInt 4 0x1000, languageKey .unsignedByte 1 0x1004] := by
  refine (system_config_stays_inside_iff noSettings _ ?_).2 (keepsToBuffers_of_width (by decide))
  refine List.pairwise_pair.2 fun p hp => ?_
  obtain ⟨⟨-, hbelow⟩, habove, -⟩ := hp
  rw [UInt64.le_iff_toNat_le] at habove
  exact absurd (Nat.lt_of_le_of_lt habove hbelow) (by decide)

-- A language asked for as an integer into a buffer of one byte takes the three bytes after it.
theorem system_config_overwrites :
    [languageKey .unsignedInt 1 0x1000].Pairwise Disjoint ∧
      ¬StaysInside noSettings [languageKey .unsignedInt 1 0x1000] := by
  refine ⟨List.pairwise_singleton _ _, fun h => ?_⟩
  have hreads := h (fun _ => 1) _ (List.Perm.refl _)
  have hkept := hreads.outside 0x1001 fun s hs hin => ?_
  · exact absurd hkept (by decide +kernel)
  · rw [List.mem_singleton.1 hs] at hin
    exact absurd hin.2 (by decide)

end CoreinitNx.UserConfig
