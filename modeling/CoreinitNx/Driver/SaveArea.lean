import CoreinitNx.Driver.Basic
import CoreinitNx.Library.Requests

namespace CoreinitNx.Driver

open Requests Slots

inductive Request where
  | register (moduleHandle : UInt32) (driverInterface : Option OSDriverInterface)
    (userDriverId : OSDriverUserDriverId)
  | deregister (moduleHandle : UInt32) (userDriverId : OSDriverUserDriverId)
  | copyToSaveArea (driverId : OSDriverUserDriverId) (data : Option (List UInt8))
  | copyFromSaveArea (driverId : OSDriverUserDriverId) (data : Pointer) (size : Nat)

def Drivers.after (drivers : Drivers) : Request → Drivers
  | .register moduleHandle driverInterface id =>
    (osDriverRegister drivers moduleHandle driverInterface id).2.2
  | .deregister moduleHandle id => (osDriverDeregister drivers moduleHandle id).2
  | .copyToSaveArea id data => (osDriverCopyToSaveArea drivers id data).2
  | .copyFromSaveArea .. => drivers

-- Registrations of any driver; deregistrations of others and copies to others.
def Request.Spares (id : OSDriverUserDriverId) : Request → Prop
  | .deregister _ id' | .copyToSaveArea id' _ => id' ≠ id
  | .register .. | .copyFromSaveArea .. => True

def FreeBefore (drivers : Drivers) (id : OSDriverUserDriverId) : Prop :=
  ∃ (i j : Nat) (d : RegisteredDriver), drivers.find id = some j ∧ i < j ∧
    drivers[i]? = some d ∧ d.used = false

-- The driver is not registered anew below the slot that it is found in.
def Keeps (id : OSDriverUserDriverId) (drivers : Drivers) : Request → Prop
  | .register _ (some _) id' => id' = id → ¬FreeBefore drivers id
  | _ => True

def Registers (id : OSDriverUserDriverId) (drivers : Drivers) : Request → Prop
  | .register moduleHandle driverInterface id' =>
    id' = id ∧ (osDriverRegister drivers moduleHandle driverInterface id').1 = 0
  | _ => False

def CopiesFail (id : OSDriverUserDriverId) (drivers : Drivers) : Prop :=
  (∀ data, (osDriverCopyToSaveArea drivers id data).1 = -1) ∧
    ∀ data size, (osDriverCopyFromSaveArea drivers id data size).1 = -1

variable {drivers : Drivers} {d d' : RegisteredDriver} {id id' : OSDriverUserDriverId}
  {i j k n : Nat} {r : Request} {requests : List Request} {bytes data : List UInt8} {buf : Pointer}

-- The first `n` bytes that the driver finds in its area.
def Holds (drivers : Drivers) (id : OSDriverUserDriverId) (n : Nat) (bytes : List UInt8) : Prop :=
  ∃ (i : Nat) (d : RegisteredDriver), drivers.find id = some i ∧ drivers[i]? = some d ∧
    d.saveArea.toList.take n = bytes

theorem holds_set_other (hd : drivers[k]? = some d) (hold : ¬RegisteredIn drivers id k)
    (hnew : ¬(d'.used = true ∧ d'.userDriverId = id)) (h : Holds drivers id n bytes) :
    Holds (drivers.setIfInBounds k d') id n bytes := by
  obtain ⟨i, d₀, hfind, hd₀, hbytes⟩ := h
  rw [find_eq_some] at hfind
  obtain ⟨hi, hbefore⟩ := hfind
  have hne : k ≠ i := by
    rintro rfl
    exact hold hi
  refine ⟨i, d₀, find_eq_some.2 ⟨?_, fun j hj => ?_⟩, ?_, hbytes⟩
  · rwa [registeredIn_set hd, if_neg hne]
  · rw [registeredIn_set hd]
    split
    next => exact hnew
    next => exact hbefore j hj
  · rwa [slot_set hd, if_neg hne]

theorem holds_set_later (hd : drivers[k]? = some d) (hfind : drivers.find id = some i)
    (hlater : i < k) (h : Holds drivers id n bytes) :
    Holds (drivers.setIfInBounds k d') id n bytes := by
  obtain ⟨i₀, d₀, hfind₀, hd₀, hbytes⟩ := h
  rw [hfind] at hfind₀
  cases hfind₀
  rw [find_eq_some] at hfind
  obtain ⟨hi, hbefore⟩ := hfind
  have hne : k ≠ i := Nat.ne_of_gt hlater
  refine ⟨i, d₀, find_eq_some.2 ⟨?_, fun j hj => ?_⟩, ?_, hbytes⟩
  · rwa [registeredIn_set hd, if_neg hne]
  · rw [registeredIn_set hd, if_neg (Nat.ne_of_gt (Nat.lt_trans hj hlater))]
    exact hbefore j hj
  · rwa [slot_set hd, if_neg hne]

theorem holds_set_before (hd : drivers[k]? = some d) (hfind : drivers.find id = some i)
    (hbefore : k < i) (hmatch : d'.used = true ∧ d'.userDriverId = id) :
    Holds (drivers.setIfInBounds k d') id n (d'.saveArea.toList.take n) := by
  obtain ⟨-, hnone⟩ := find_eq_some.1 hfind
  refine ⟨k, d', find_eq_some.2 ⟨?_, fun j hj => ?_⟩, ?_, rfl⟩
  · rwa [registeredIn_set hd, if_pos rfl]
  · rw [registeredIn_set hd, if_neg (Nat.ne_of_gt hj)]
    exact hnone j (Nat.lt_trans hj hbefore)
  · rw [slot_set hd, if_pos rfl]

theorem take_blank (hn : n ≤ kSaveAreaSize) :
    (Vector.replicate kSaveAreaSize (0 : UInt8)).toList.take n = List.replicate n 0 := by
  rw [Vector.toList_replicate, List.take_replicate, Nat.min_eq_left hn]

theorem not_registeredIn_of_free (hd : drivers[k]? = some d) (hfree : d.used = false) :
    ¬RegisteredIn drivers id k := by
  rintro ⟨d₀, hd₀, hused, -⟩
  rw [hd] at hd₀
  cases hd₀
  rw [hfree] at hused
  cases hused

theorem not_registeredIn_of_find (hfind : drivers.find id' = some k) (hne : id' ≠ id) :
    ¬RegisteredIn drivers id k := by
  obtain ⟨⟨d, hd, -, hid⟩, -⟩ := find_eq_some.1 hfind
  rintro ⟨d₀, hd₀, -, hid₀⟩
  rw [hd] at hd₀
  cases hd₀
  exact hne (hid.symm.trans hid₀)

-- The slot that a registration takes is the first free one: a driver registered anew is found
-- there only where it is below the old slot.
theorem holds_registered {moduleHandle : UInt32} {iface : OSDriverInterface}
    (hfree : drivers.firstFree = some k) (hn : n ≤ kSaveAreaSize)
    (h : Holds drivers id n bytes) :
    let taken : RegisteredDriver := ⟨moduleHandle, id', iface, .replicate _ 0, 0, true⟩
    (id' = id → ¬FreeBefore drivers id) ∧ Holds (drivers.setIfInBounds k taken) id n bytes ∨
      ¬(id' = id → ¬FreeBefore drivers id) ∧
        Holds (drivers.setIfInBounds k taken) id n (.replicate n 0) := by
  intro taken
  obtain ⟨⟨d, hd, hunused⟩, hfirst⟩ := firstFree_eq_some.1 hfree
  have hold : ¬RegisteredIn drivers id k := not_registeredIn_of_free hd hunused
  by_cases hid : id' = id
  · have ⟨i, d₀, hfind, hd₀, _⟩ := h
    have hne : k ≠ i := by
      rintro rfl
      exact hold (find_eq_some.1 hfind).1
    rcases Nat.lt_or_gt_of_ne hne with hbefore | hlater
    · refine .inr ⟨fun hkeeps => hkeeps hid ⟨k, i, d, hfind, hbefore, hd, hunused⟩, ?_⟩
      rw [← take_blank hn]
      exact holds_set_before hd hfind hbefore ⟨rfl, hid⟩
    · refine .inl ⟨fun _ => ?_, holds_set_later hd hfind hlater h⟩
      rintro ⟨j, i', d₁, hfind', hj, hd₁, hfree₁⟩
      rw [hfind] at hfind'
      cases hfind'
      rw [hfirst j d₁ (Nat.lt_trans hj hlater) hd₁] at hfree₁
      cases hfree₁
  · exact .inl ⟨fun hsame => absurd hsame hid, holds_set_other hd hold (fun hnew => hid hnew.2) h⟩

-- One request of those that spare the driver leaves its area as it is, or blank.
theorem holds_after (hspares : r.Spares id) (hn : n ≤ kSaveAreaSize)
    (h : Holds drivers id n bytes) :
    Keeps id drivers r ∧ Holds (drivers.after r) id n bytes ∨
      ¬Keeps id drivers r ∧ Holds (drivers.after r) id n (.replicate n 0) := by
  cases r with
  | register moduleHandle driverInterface id' =>
    rcases register_cases drivers moduleHandle driverInterface id' with
      ⟨iface, k, rfl, hfree, heq⟩ | ⟨hnot, heq⟩
    · simp only [Drivers.after, heq]
      exact holds_registered hfree hn h
    · simp only [Drivers.after, heq]
      refine .inl ⟨?_, h⟩
      cases driverInterface with
      | none => trivial
      | some iface =>
        rintro - ⟨i, j, d, -, -, hd, hunused⟩
        have hfull := hnot.resolve_left nofun
        rw [firstFree_eq_none.1 hfull i d hd] at hunused
        cases hunused
  | deregister moduleHandle id' =>
    refine .inl ⟨trivial, ?_⟩
    rcases deregister_cases drivers moduleHandle id' with ⟨i, d, hfind, hd, heq⟩ | ⟨-, heq⟩
    · simp only [Drivers.after, heq]
      exact holds_set_other hd (not_registeredIn_of_find hfind hspares)
        (fun hnew => nomatch hnew.1) h
    · simp only [Drivers.after, heq]
      exact h
  | copyToSaveArea id' data =>
    refine .inl ⟨trivial, ?_⟩
    rcases copyTo_cases drivers id' data with ⟨bytes, i, d, -, -, hfind, hd, heq⟩ | heq
    · simp only [Drivers.after, heq]
      have hother := not_registeredIn_of_find hfind hspares
      exact holds_set_other hd hother (fun hnew => hother ⟨d, hd, hnew⟩) h
    · simp only [Drivers.after, heq]
      exact h
  | copyFromSaveArea id' data size => exact .inl ⟨trivial, h⟩

theorem holds_run (hspares : ∀ r ∈ requests, r.Spares id) (hn : n ≤ kSaveAreaSize)
    (h : Holds drivers id n bytes) :
    EveryRequest Drivers.after (Keeps id) drivers requests ∧
        Holds (requests.foldl Drivers.after drivers) id n bytes ∨
      ¬EveryRequest Drivers.after (Keeps id) drivers requests ∧
        Holds (requests.foldl Drivers.after drivers) id n (.replicate n 0) := by
  induction requests generalizing drivers bytes with
  | nil => exact .inl ⟨trivial, h⟩
  | cons r requests ih =>
    have hrest := fun r' hr' => hspares r' (List.mem_cons_of_mem r hr')
    rcases holds_after (hspares r List.mem_cons_self) hn h with ⟨hkeeps, h'⟩ | ⟨hloses, h'⟩
    · rcases ih hrest h' with ⟨hall, hend⟩ | ⟨hnot, hend⟩
      · exact .inl ⟨⟨hkeeps, hall⟩, hend⟩
      · exact .inr ⟨fun hall => hnot hall.2, hend⟩
    · refine .inr ⟨fun hall => hloses hall.1, ?_⟩
      rcases ih hrest h' with ⟨-, hend⟩ | ⟨-, hend⟩
      · exact hend
      · exact hend

theorem copyFrom_eq_iff (hbuf : buf ≠ 0) (hn : n ≤ kSaveAreaSize) (h : Holds drivers id n bytes) :
    osDriverCopyFromSaveArea drivers id buf n = (0, some data) ↔ bytes = data := by
  obtain ⟨i, d, hfind, hd, rfl⟩ := h
  have hgo : ¬(buf = 0 ∨ n > kSaveAreaSize) := not_or.2 ⟨hbuf, Nat.not_lt.2 hn⟩
  simp only [osDriverCopyFromSaveArea, if_neg hgo, hfind, hd, Prod.mk.injEq, Option.some.injEq,
    true_and]

theorem take_overwrite {area : SaveArea} (h : data.length ≤ kSaveAreaSize) :
    (area.overwrite data).toList.take data.length = data := by
  apply List.ext_getElem?
  intro i
  rw [List.getElem?_take, SaveArea.overwrite]
  split
  next hi =>
    have hin : i < kSaveAreaSize := Nat.lt_of_lt_of_le hi h
    rw [Vector.getElem?_toList, Vector.getElem?_mapIdx, Vector.getElem?_eq_getElem hin,
      Option.map_some, List.getElem?_eq_getElem hi, Option.getD_some]
  next hi => rw [List.getElem?_eq_none (Nat.le_of_not_lt hi)]

theorem holds_copied (h : (osDriverCopyToSaveArea drivers id (some data)).1 = 0) :
    data.length ≤ kSaveAreaSize ∧
      Holds (osDriverCopyToSaveArea drivers id (some data)).2 id data.length data := by
  rcases copyTo_cases drivers id (some data) with
    ⟨bytes, i, d, hdata, hsize, hfind, hd, heq⟩ | heq
  · cases hdata
    obtain ⟨⟨d₀, hd₀, hmatch⟩, hbefore⟩ := find_eq_some.1 hfind
    rw [hd] at hd₀
    cases hd₀
    rw [heq]
    refine ⟨hsize, i, { d with saveArea := d.saveArea.overwrite data, saveAreaUsed := data.length },
      find_eq_some.2 ⟨?_, fun j hj => ?_⟩, ?_, take_overwrite hsize⟩
    · rwa [registeredIn_set hd, if_pos rfl]
    · rw [registeredIn_set hd, if_neg (Nat.ne_of_gt hj)]
      exact hbefore j hj
    · rw [slot_set hd, if_pos rfl]
  · rw [heq] at h
    cases h

theorem copyFrom_yields_iff (h : (osDriverCopyToSaveArea drivers id (some data)).1 = 0)
    (hspares : ∀ r ∈ requests, r.Spares id) (hbuf : buf ≠ 0) :
    osDriverCopyFromSaveArea
        (requests.foldl Drivers.after (osDriverCopyToSaveArea drivers id (some data)).2) id buf
        data.length = (0, some data) ↔
      EveryRequest Drivers.after (Keeps id) (osDriverCopyToSaveArea drivers id (some data)).2
        requests ∨ ∀ b ∈ data, b = 0 := by
  obtain ⟨hsize, hcopied⟩ := holds_copied h
  rcases holds_run hspares hsize hcopied with ⟨hall, hend⟩ | ⟨hnot, hend⟩
  · exact iff_of_true ((copyFrom_eq_iff hbuf hsize hend).2 rfl) (.inl hall)
  · rw [copyFrom_eq_iff hbuf hsize hend, or_iff_right hnot, eq_comm, List.eq_replicate_iff,
      and_iff_right rfl]

theorem copiesFail_iff : CopiesFail id drivers ↔ drivers.find id = none := by
  constructor
  · rintro ⟨hto, -⟩
    cases hfind : drivers.find id with
    | none => rfl
    | some i =>
      have hfail := hto (some [])
      simp only [osDriverCopyToSaveArea, hfind, List.length_nil, Nat.not_lt_zero, gt_iff_lt,
        if_false] at hfail
      cases hfail
  · intro hfind
    constructor
    · intro data
      rcases copyTo_cases drivers id data with ⟨bytes, i, d, -, -, hsome, -, -⟩ | heq
      · rw [hfind] at hsome
        cases hsome
      · rw [heq]
    · intro data size
      simp only [osDriverCopyFromSaveArea, hfind]
      split <;> rfl

-- No request but its registration brings a driver into the table.
theorem find_after (hfind : drivers.find id = none) (hr : ¬Registers id drivers r) :
    (drivers.after r).find id = none := by
  rw [find_eq_none] at hfind ⊢
  cases r with
  | register moduleHandle driverInterface id' =>
    rcases register_cases drivers moduleHandle driverInterface id' with
      ⟨iface, k, rfl, hfree, heq⟩ | ⟨-, heq⟩
    · obtain ⟨⟨d, hd, -⟩, -⟩ := firstFree_eq_some.1 hfree
      intro i
      simp only [Drivers.after, heq]
      rw [registeredIn_set hd]
      split
      next =>
        rintro ⟨-, hid⟩
        refine hr ⟨hid, ?_⟩
        rw [heq]
      next => exact hfind i
    · simp only [Drivers.after, heq]
      exact hfind
  | deregister moduleHandle id' =>
    rcases deregister_cases drivers moduleHandle id' with ⟨k, d, -, hd, heq⟩ | ⟨-, heq⟩
    · intro i
      simp only [Drivers.after, heq]
      rw [registeredIn_set hd]
      split
      next => nofun
      next => exact hfind i
    · simp only [Drivers.after, heq]
      exact hfind
  | copyToSaveArea id' data =>
    rcases copyTo_cases drivers id' data with ⟨bytes, k, d, -, -, -, hd, heq⟩ | heq
    · intro i
      simp only [Drivers.after, heq]
      rw [registeredIn_set hd]
      split
      next => exact fun hmatch => hfind k ⟨d, hd, hmatch⟩
      next => exact hfind i
    · simp only [Drivers.after, heq]
      exact hfind
  | copyFromSaveArea id' data size => exact hfind

-- A deregistration clears the first slot of the driver, and leaves those after it.
theorem find_deregistered_iff {moduleHandle : UInt32}
    (h : (osDriverDeregister drivers moduleHandle id).1 = 0) :
    (osDriverDeregister drivers moduleHandle id).2.find id = none ↔
      ∀ i j, RegisteredIn drivers id i → RegisteredIn drivers id j → i = j := by
  rcases deregister_cases drivers moduleHandle id with ⟨k, d, hfind, hd, heq⟩ | ⟨-, heq⟩
  · obtain ⟨hk, -⟩ := find_eq_some.1 hfind
    rw [heq, find_eq_none]
    simp only [registeredIn_set hd]
    constructor
    · intro hnone i j hi hj
      have hthat {i : Nat} (hi : RegisteredIn drivers id i) : k = i := by
        by_contra hne
        have hgone := hnone i
        rw [if_neg hne] at hgone
        exact hgone hi
      exact (hthat hi).symm.trans (hthat hj)
    · intro hsole i
      split
      next => nofun
      next hne => exact fun hi => hne (hsole k i hk hi)
  · rw [heq] at h
    cases h

theorem copies_fail_iff {moduleHandle : UInt32}
    (h : (osDriverDeregister drivers moduleHandle id).1 = 0)
    (hothers : EveryRequest Drivers.after (fun drivers r => ¬Registers id drivers r)
      (osDriverDeregister drivers moduleHandle id).2 requests) :
    EveryState Drivers.after (CopiesFail id) (osDriverDeregister drivers moduleHandle id).2
        requests ↔ ∀ i j, RegisteredIn drivers id i → RegisteredIn drivers id j → i = j := by
  rw [← find_deregistered_iff h]
  constructor
  · exact fun hall => copiesFail_iff.1 hall.start
  · intro hfind
    exact everyState_of (fun drivers => drivers.find id = none) (fun _ _ hi hr => find_after hi hr)
      (fun _ hi => copiesFail_iff.2 hi) hfind hothers

theorem save_area_iff (drivers : Drivers) (id : OSDriverUserDriverId) :
    (∀ data requests buf, (osDriverCopyToSaveArea drivers id (some data)).1 = 0 →
      (∀ r ∈ requests, r.Spares id) → buf ≠ 0 →
      (osDriverCopyFromSaveArea
          (requests.foldl Drivers.after (osDriverCopyToSaveArea drivers id (some data)).2) id buf
          data.length = (0, some data) ↔
        EveryRequest Drivers.after (Keeps id) (osDriverCopyToSaveArea drivers id (some data)).2
          requests ∨ ∀ b ∈ data, b = 0)) ∧
    ∀ moduleHandle requests, (osDriverDeregister drivers moduleHandle id).1 = 0 →
      EveryRequest Drivers.after (fun drivers r => ¬Registers id drivers r)
        (osDriverDeregister drivers moduleHandle id).2 requests →
      (EveryState Drivers.after (CopiesFail id) (osDriverDeregister drivers moduleHandle id).2
          requests ↔ ∀ i j, RegisteredIn drivers id i → RegisteredIn drivers id j → i = j) :=
  ⟨fun _ _ _ h hspares hbuf => copyFrom_yields_iff h hspares hbuf,
    fun _ _ h hothers => copies_fail_iff h hothers⟩

def twoDrivers : Drivers :=
  [.register 0 (some testDriver) 1, .register 0 (some testDriver) 2].foldl Drivers.after
    Drivers.start

theorem save_area_iff_two :
    (osDriverCopyFromSaveArea ([.copyToSaveArea 1 (some [7])].foldl Drivers.after
        (osDriverCopyToSaveArea twoDrivers 2 (some [5])).2) 2 0x8000 1 = (0, some [5]) ↔
      EveryRequest Drivers.after (Keeps 2) (osDriverCopyToSaveArea twoDrivers 2 (some [5])).2
        [.copyToSaveArea 1 (some [7])] ∨ ∀ b ∈ [(5 : UInt8)], b = 0) ∧
    (EveryState Drivers.after (CopiesFail 2) (osDriverDeregister twoDrivers 0 2).2
        [.deregister 0 1] ↔
      ∀ i j, RegisteredIn twoDrivers 2 i → RegisteredIn twoDrivers 2 j → i = j) := by
  obtain ⟨hyields, hfail⟩ := save_area_iff twoDrivers 2
  have hspares : (Request.copyToSaveArea 1 (some [7])).Spares 2 := by
    show (1 : UInt32) ≠ 2
    decide
  exact ⟨hyields [5] _ 0x8000 (by decide) (List.forall_mem_singleton.2 hspares) (by decide),
    hfail 0 [.deregister 0 1] (by decide) ⟨nofun, trivial⟩⟩

-- A driver leaves the first slot, and the second driver is registered again.
theorem save_area_lost :
    let requests : List Request := [.deregister 0 1, .register 0 (some testDriver) 2]
    let drivers := requests.foldl Drivers.after (osDriverCopyToSaveArea twoDrivers 2 (some [5])).2
    (osDriverCopyToSaveArea twoDrivers 2 (some [5])).1 = 0 ∧ (∀ r ∈ requests, r.Spares 2) ∧
      osDriverCopyFromSaveArea drivers 2 0x8000 1 = (0, some [0]) ∧
      (osDriverDeregister drivers 0 2).1 = 0 ∧ ¬CopiesFail 2 (osDriverDeregister drivers 0 2).2 := by
  refine ⟨by decide, ?_, by decide, by decide, fun hfail => ?_⟩
  · exact List.forall_mem_cons.2
      ⟨(by decide : (1 : UInt32) ≠ 2), List.forall_mem_cons.2 ⟨trivial, nofun⟩⟩
  · exact absurd (hfail.2 0x8000 1) (by decide)

end CoreinitNx.Driver
