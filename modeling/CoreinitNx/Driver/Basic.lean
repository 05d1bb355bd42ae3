import CoreinitNx.Library.Slots

namespace CoreinitNx.Driver

open Slots

abbrev Pointer := UInt64

abbrev OSDriverUserDriverId := UInt32

abbrev OSDriverError := Int32

-- The guest's functions; `0` where it gives none.
structure OSDriverInterface where
  getName : Pointer
  onInit : Pointer
  onAcquiredForeground : Pointer
  onReleasedForeground : Pointer
  onDone : Pointer
deriving DecidableEq, Repr

def kMaxDrivers : Nat := 32

def kSaveAreaSize : Nat := 256

abbrev SaveArea := Vector UInt8 kSaveAreaSize

structure RegisteredDriver where
  moduleHandle : UInt32
  userDriverId : OSDriverUserDriverId
  iface : OSDriverInterface
  saveArea : SaveArea
  saveAreaUsed : Nat
  used : Bool
deriving DecidableEq, Repr

abbrev Drivers := Vector RegisteredDriver kMaxDrivers

def RegisteredDriver.blank : RegisteredDriver :=
  ⟨0, 0, ⟨0, 0, 0, 0, 0⟩, .replicate _ 0, 0, false⟩

def Drivers.start : Drivers := .replicate _ .blank

def Drivers.find (drivers : Drivers) (id : OSDriverUserDriverId) : Option Nat :=
  drivers.toList.findIdx? fun d => d.used ∧ d.userDriverId = id

def Drivers.firstFree (drivers : Drivers) : Option Nat := drivers.toList.findIdx? (!·.used)

def Drivers.update (drivers : Drivers) (i : Nat) (f : RegisteredDriver → RegisteredDriver) :
    Drivers :=
  match drivers[i]? with
  | some d => drivers.setIfInBounds i (f d)
  | none => drivers

-- The slot taken, what is stored through the pointers that are not null, and the callback to make.
structure Registered where
  slot : Nat
  registeredUpid : UInt32
  ownerUpid : UInt32
  didOSDriverInit : Int32
  onInit : Pointer
deriving DecidableEq, Repr

def osDriverRegister (drivers : Drivers) (moduleHandle : UInt32)
    (driverInterface : Option OSDriverInterface) (userDriverId : OSDriverUserDriverId) :
    OSDriverError × Option Registered × Drivers :=
  match driverInterface with
  | none => (-1, none, drivers)
  | some iface =>
    match drivers.firstFree with
    | none => (-1, none, drivers)
    | some slot =>
      (0, some ⟨slot, 0, 0, 1, iface.onInit⟩,
        drivers.setIfInBounds slot
          ⟨moduleHandle, userDriverId, iface, .replicate _ 0, 0, true⟩)

def osDriverDeregister (drivers : Drivers) (_moduleHandle : UInt32)
    (userDriverId : OSDriverUserDriverId) : OSDriverError × Drivers :=
  match drivers.find userDriverId with
  | none => (-1, drivers)
  | some i => (0, drivers.update i fun d => { d with used := false })

def SaveArea.overwrite (saveArea : SaveArea) (data : List UInt8) : SaveArea :=
  saveArea.mapIdx fun i old => data[i]?.getD old

-- `data` is what stands at the pointer, `size` bytes of it; `none` for the null pointer.
def osDriverCopyToSaveArea (drivers : Drivers) (driverId : OSDriverUserDriverId)
    (data : Option (List UInt8)) : OSDriverError × Drivers :=
  match data with
  | none => (-1, drivers)
  | some data =>
    if data.length > kSaveAreaSize then (-1, drivers)
    else
      match drivers.find driverId with
      | none => (-1, drivers)
      | some i =>
        (0, drivers.update i fun d =>
          { d with saveArea := d.saveArea.overwrite data, saveAreaUsed := data.length })

-- The error, and the bytes stored at `data` if any are.
def osDriverCopyFromSaveArea (drivers : Drivers) (driverId : OSDriverUserDriverId)
    (data : Pointer) (size : Nat) : OSDriverError × Option (List UInt8) :=
  if data = 0 ∨ size > kSaveAreaSize then (-1, none)
  else
    match drivers.find driverId with
    | none => (-1, none)
    | some i =>
      match drivers[i]? with
      | none => (-1, none)
      | some d => (0, some (d.saveArea.toList.take size))

-- What `coreinitNxDriverShutdown` does with one slot, and the `onDone` that it goes on to call.
def shutdownSlot (drivers : Drivers) (i : Nat) :
    Drivers × Option (Pointer × OSDriverUserDriverId) :=
  match drivers[i]? with
  | none => (drivers, none)
  | some d =>
    if d.used then
      (drivers.setIfInBounds i { d with used := false }, some (d.iface.onDone, d.userDriverId))
    else (drivers, none)

def testDriver : OSDriverInterface := ⟨0x1000, 0x2000, 0, 0, 0x3000⟩

def RegisteredIn (drivers : Drivers) (id : OSDriverUserDriverId) (i : Nat) : Prop :=
  ∃ d : RegisteredDriver, drivers[i]? = some d ∧ d.used = true ∧ d.userDriverId = id

variable {drivers : Drivers} {d d' : RegisteredDriver} {id : OSDriverUserDriverId} {i j : Nat}
  {f : RegisteredDriver → RegisteredDriver}

theorem update_slot (hd : drivers[i]? = some d) :
    drivers.update i f = drivers.setIfInBounds i (f d) := by
  rw [Drivers.update, hd]

theorem find_eq_some : drivers.find id = some i ↔
    RegisteredIn drivers id i ∧ ∀ j < i, ¬RegisteredIn drivers id j := by
  rw [Drivers.find, first_eq_some_iff]
  simp only [decide_eq_true_eq, decide_eq_false_iff_not]
  refine and_congr_right fun _ => ?_
  constructor
  · rintro hbefore j hj ⟨d, hd, hmatch⟩
    exact hbefore j d hj hd hmatch
  · exact fun hbefore j d hj hd hmatch => hbefore j hj ⟨d, hd, hmatch⟩

theorem find_eq_none : drivers.find id = none ↔ ∀ i, ¬RegisteredIn drivers id i := by
  rw [Drivers.find, first_eq_none_iff]
  simp only [decide_eq_false_iff_not]
  constructor
  · rintro hnone i ⟨d, hd, hmatch⟩
    exact hnone i d hd hmatch
  · exact fun hnone i d hd hmatch => hnone i ⟨d, hd, hmatch⟩

theorem registeredIn_set (hd : drivers[k]? = some d) :
    RegisteredIn (drivers.setIfInBounds k d') id i ↔
      if k = i then d'.used = true ∧ d'.userDriverId = id else RegisteredIn drivers id i := by
  rw [RegisteredIn, RegisteredIn, slot_set hd]
  split
  next =>
    constructor
    · rintro ⟨_, ⟨⟩, hmatch⟩
      exact hmatch
    · exact fun hmatch => ⟨d', rfl, hmatch⟩
  next => rfl

theorem firstFree_eq_some : drivers.firstFree = some i ↔
    (∃ d, drivers[i]? = some d ∧ d.used = false) ∧
      ∀ (j : Nat) (d : RegisteredDriver), j < i → drivers[j]? = some d → d.used = true := by
  rw [Drivers.firstFree, first_eq_some_iff]
  simp only [Bool.not_eq_true', Bool.not_eq_false']

theorem firstFree_eq_none : drivers.firstFree = none ↔
    ∀ (i : Nat) (d : RegisteredDriver), drivers[i]? = some d → d.used = true := by
  rw [Drivers.firstFree, first_eq_none_iff]
  simp only [Bool.not_eq_false']

-- A registration takes the first free slot, or changes nothing.
theorem register_cases (drivers : Drivers) (moduleHandle : UInt32)
    (driverInterface : Option OSDriverInterface) (id : OSDriverUserDriverId) :
    (∃ iface slot, driverInterface = some iface ∧ drivers.firstFree = some slot ∧
      osDriverRegister drivers moduleHandle driverInterface id =
        (0, some ⟨slot, 0, 0, 1, iface.onInit⟩,
          drivers.setIfInBounds slot ⟨moduleHandle, id, iface, .replicate _ 0, 0, true⟩)) ∨
    (driverInterface = none ∨ drivers.firstFree = none) ∧
      osDriverRegister drivers moduleHandle driverInterface id = (-1, none, drivers) := by
  cases driverInterface with
  | none => exact .inr ⟨.inl rfl, rfl⟩
  | some iface =>
    cases hfree : drivers.firstFree with
    | none => exact .inr ⟨.inr rfl, by simp only [osDriverRegister, hfree]⟩
    | some slot =>
      exact .inl ⟨iface, slot, rfl, rfl, by simp only [osDriverRegister, hfree]⟩

theorem deregister_cases (drivers : Drivers) (moduleHandle : UInt32)
    (id : OSDriverUserDriverId) :
    (∃ i d, drivers.find id = some i ∧ drivers[i]? = some d ∧
      osDriverDeregister drivers moduleHandle id =
        (0, drivers.setIfInBounds i { d with used := false })) ∨
    drivers.find id = none ∧ osDriverDeregister drivers moduleHandle id = (-1, drivers) := by
  cases hfind : drivers.find id with
  | none => exact .inr ⟨rfl, by simp only [osDriverDeregister, hfind]⟩
  | some i =>
    obtain ⟨⟨d, hd, -⟩, -⟩ := find_eq_some.1 hfind
    exact .inl ⟨i, d, rfl, hd, by simp only [osDriverDeregister, hfind, update_slot hd]⟩

theorem copyTo_cases (drivers : Drivers) (id : OSDriverUserDriverId)
    (data : Option (List UInt8)) :
    (∃ bytes i d, data = some bytes ∧ bytes.length ≤ kSaveAreaSize ∧ drivers.find id = some i ∧
      drivers[i]? = some d ∧
      osDriverCopyToSaveArea drivers id data =
        (0, drivers.setIfInBounds i
          { d with saveArea := d.saveArea.overwrite bytes, saveAreaUsed := bytes.length })) ∨
    osDriverCopyToSaveArea drivers id data = (-1, drivers) := by
  cases data with
  | none => exact .inr rfl
  | some bytes =>
    by_cases hsize : bytes.length > kSaveAreaSize
    · exact .inr (if_pos hsize)
    · cases hfind : drivers.find id with
      | none => exact .inr (by simp only [osDriverCopyToSaveArea, if_neg hsize, hfind])
      | some i =>
        obtain ⟨⟨d, hd, -⟩, -⟩ := find_eq_some.1 hfind
        refine .inl ⟨bytes, i, d, rfl, Nat.le_of_not_lt hsize, rfl, hd, ?_⟩
        simp only [osDriverCopyToSaveArea, if_neg hsize, hfind, update_slot hd]

end CoreinitNx.Driver
