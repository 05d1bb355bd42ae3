import Mathlib.Logic.Function.Basic
import CoreinitNx.Driver.Basic
import CoreinitNx.Library.Requests
import CoreinitNx.Library.Transition

namespace CoreinitNx.Driver

open Requests Slots Transition

inductive CallbackKind where
  | onInit
  | onDone
deriving DecidableEq, Repr

def CallbackKind.function (iface : OSDriverInterface) : CallbackKind → Pointer
  | .onInit => iface.onInit
  | .onDone => iface.onDone

-- The successful registrations are numbered from 0 on.
structure Callback where
  kind : CallbackKind
  registration : Nat
  function : Pointer
  userDriverId : OSDriverUserDriverId
deriving DecidableEq, Repr

-- `walk` is the slot that a running shutdown comes to next, `callbacks` are those that have not
-- returned, the innermost first. The rest is a record of the run: the interfaces registered so far,
-- the registration that each slot was last taken by, the callbacks made, the registrations that
-- were deregistered, and those made in a slot that the running shutdown had left behind.
structure State where
  drivers : Drivers
  walk : Option Nat
  callbacks : List Callback
  ifaces : List OSDriverInterface
  ticket : Nat → Nat
  invoked : List Callback
  deregistered : List Nat
  missed : List Nat

def State.start : State := ⟨Drivers.start, none, [], [], fun _ => 0, [], [], []⟩

inductive Event where
  | register (moduleHandle : UInt32) (driverInterface : Option OSDriverInterface)
    (userDriverId : OSDriverUserDriverId)
  | deregister (moduleHandle : UInt32) (userDriverId : OSDriverUserDriverId)
  | copyToSaveArea (driverId : OSDriverUserDriverId) (data : Option (List UInt8))
  | callbackReturns
  | shutdown
  | visit
  | shutdownReturns
deriving DecidableEq, Repr

-- The guest runs outside of a shutdown and in the callbacks; shutdown is called by its main program.
def State.Allows (s : State) : Event → Prop
  | .register .. | .deregister .. | .copyToSaveArea .. => s.callbacks ≠ [] ∨ s.walk = none
  | .callbackReturns => s.callbacks ≠ []
  | .shutdown => s.callbacks = [] ∧ s.walk = none
  | .visit => s.callbacks = [] ∧ ∃ i < kMaxDrivers, s.walk = some i
  | .shutdownReturns => s.callbacks = [] ∧ s.walk = some kMaxDrivers

def State.invoke (s : State) (c : Callback) : State :=
  if c.function = 0 then s
  else { s with callbacks := c :: s.callbacks, invoked := c :: s.invoked }

def State.recorded (s : State) (iface : OSDriverInterface) (slot : Nat) (drivers : Drivers) :
    State :=
  { s with
    drivers
    ifaces := s.ifaces ++ [iface]
    ticket := Function.update s.ticket slot s.ifaces.length
    missed := if s.walk.any (slot < ·) then s.ifaces.length :: s.missed else s.missed }

def State.after (s : State) : Event → State
  | .register moduleHandle driverInterface id =>
    match driverInterface, osDriverRegister s.drivers moduleHandle driverInterface id with
    | some iface, (_, some r, drivers) =>
      (s.recorded iface r.slot drivers).invoke ⟨.onInit, s.ifaces.length, r.onInit, id⟩
    | _, (_, _, drivers) => { s with drivers }
  | .deregister moduleHandle id =>
    { s with
      drivers := (osDriverDeregister s.drivers moduleHandle id).2
      deregistered :=
        match s.drivers.find id with
        | some i => s.ticket i :: s.deregistered
        | none => s.deregistered }
  | .copyToSaveArea id data => { s with drivers := (osDriverCopyToSaveArea s.drivers id data).2 }
  | .callbackReturns => { s with callbacks := s.callbacks.tail }
  | .shutdown => { s with walk := some 0, missed := [] }
  | .visit =>
    match s.walk with
    | none => s
    | some i =>
      match shutdownSlot s.drivers i with
      | (drivers, none) => { s with drivers, walk := some (i + 1) }
      | (drivers, some (onDone, id)) =>
        { s with drivers, walk := some (i + 1) }.invoke ⟨.onDone, s.ticket i, onDone, id⟩
  | .shutdownReturns => { s with walk := none, missed := [] }

def Step (s : State) (e : Event) (s' : State) : Prop := s.Allows e ∧ s' = s.after e

def State.times (s : State) (kind : CallbackKind) (n : Nat) : Nat :=
  s.invoked.countP fun c => c.kind = kind ∧ c.registration = n

-- What is called for a registration is the function that it gave.
def CallsItsOwn (s : State) : Prop :=
  ∀ c ∈ s.invoked, ∃ iface, s.ifaces[c.registration]? = some iface ∧
    c.function = c.kind.function iface

-- Each registration had its `onInit`, if it gave one, called once.
def Initialised (s : State) : Prop :=
  ∀ (n : Nat) (iface : OSDriverInterface), s.ifaces[n]? = some iface →
    s.times .onInit n = if iface.onInit = 0 then 0 else 1

-- No driver is registered, and each registration had its `onDone`, if it gave one, called once,
-- unless it was deregistered.
structure Completed (s : State) : Prop where
  none_registered : ∀ (i : Nat) (d : RegisteredDriver), s.drivers[i]? = some d → d.used = false
  dones : ∀ (n : Nat) (iface : OSDriverInterface), s.ifaces[n]? = some iface →
    s.times .onDone n = if iface.onDone = 0 ∨ n ∈ s.deregistered then 0 else 1

variable {s s' : State} {e : Event} {es : List Event} {drivers : Drivers} {ticket : Nat → Nat}
  {i j m n slot : Nat} {d d' : RegisteredDriver} {iface iface' : OSDriverInterface} {c : Callback}

def Serves (drivers : Drivers) (ticket : Nat → Nat) (i n : Nat) (iface : OSDriverInterface) :
    Prop :=
  ∃ d : RegisteredDriver, drivers[i]? = some d ∧ d.used = true ∧ d.iface = iface ∧ ticket i = n

theorem serves_vacated (hd : drivers[i]? = some d) (hfree : d'.used = false) :
    Serves (drivers.setIfInBounds i d') ticket j n iface ↔
      i ≠ j ∧ Serves drivers ticket j n iface := by
  simp only [Serves, slot_set hd]
  constructor
  · rintro ⟨d₀, hd₀, hused, hserve⟩
    split at hd₀
    next =>
      cases hd₀
      rw [hfree] at hused
      cases hused
    next hne => exact ⟨hne, d₀, hd₀, hused, hserve⟩
  · rintro ⟨hne, hserve⟩
    rwa [if_neg hne]

theorem serves_taken (hd : drivers[i]? = some d) (hused : d'.used = true) :
    Serves (drivers.setIfInBounds i d') (Function.update ticket i m) j n iface ↔
      if i = j then m = n ∧ d'.iface = iface else Serves drivers ticket j n iface := by
  simp only [Serves, slot_set hd, Function.update_apply]
  split
  next heq =>
    rw [if_pos heq.symm]
    constructor
    · rintro ⟨d₀, hd₀, -, hiface, hm⟩
      cases hd₀
      exact ⟨hm, hiface⟩
    · rintro ⟨hm, hiface⟩
      exact ⟨d', rfl, hused, hiface, hm⟩
  next hne => rw [if_neg (Ne.symm hne)]

theorem serves_same (hd : drivers[i]? = some d) (hused : d'.used = d.used)
    (hiface : d'.iface = d.iface) :
    Serves (drivers.setIfInBounds i d') ticket j n iface ↔ Serves drivers ticket j n iface := by
  simp only [Serves, slot_set hd]
  split
  next heq =>
    subst heq
    constructor
    · rintro ⟨d₀, hd₀, hserve⟩
      cases hd₀
      rw [hused, hiface] at hserve
      exact ⟨d, hd, hserve⟩
    · rintro ⟨d₀, hd₀, hserve⟩
      rw [hd] at hd₀
      cases hd₀
      refine ⟨d', rfl, ?_⟩
      rwa [hused, hiface]
  next => rfl

section Invoke

variable (s c)

@[simp] theorem invoke_drivers : (s.invoke c).drivers = s.drivers := by
  rw [State.invoke]; split <;> rfl

@[simp] theorem invoke_walk : (s.invoke c).walk = s.walk := by
  rw [State.invoke]; split <;> rfl

@[simp] theorem invoke_ifaces : (s.invoke c).ifaces = s.ifaces := by
  rw [State.invoke]; split <;> rfl

@[simp] theorem invoke_ticket : (s.invoke c).ticket = s.ticket := by
  rw [State.invoke]; split <;> rfl

@[simp] theorem invoke_deregistered : (s.invoke c).deregistered = s.deregistered := by
  rw [State.invoke]; split <;> rfl

@[simp] theorem invoke_missed : (s.invoke c).missed = s.missed := by
  rw [State.invoke]; split <;> rfl

theorem times_invoke (kind : CallbackKind) (n : Nat) : (s.invoke c).times kind n =
    s.times kind n + if c.function ≠ 0 ∧ c.kind = kind ∧ c.registration = n then 1 else 0 := by
  rw [State.invoke]
  split
  next hnull => rw [if_neg fun hcalled => hcalled.1 hnull, Nat.add_zero]
  next hcall =>
    rw [State.times, State.times, List.countP_cons]
    simp only [ne_eq, hcall, not_false_eq_true, true_and, decide_eq_true_eq]

theorem times_invoke_of_ne {kind : CallbackKind} {n : Nat}
    (hne : c.kind ≠ kind ∨ c.registration ≠ n) : (s.invoke c).times kind n = s.times kind n := by
  rw [times_invoke, if_neg, Nat.add_zero]
  rintro ⟨-, hkind, hn⟩
  exact hne.elim (· hkind) (· hn)

variable {s c} in
theorem times_invoke_self {kind : CallbackKind} {n : Nat} (hzero : s.times kind n = 0)
    (hkind : c.kind = kind) (hn : c.registration = n) :
    (s.invoke c).times kind n = if c.function = 0 then 0 else 1 := by
  rw [times_invoke, hzero, Nat.zero_add]
  simp [hkind, hn]

theorem mem_invoke {c' : Callback} (h : c' ∈ (s.invoke c).invoked) : c' = c ∨ c' ∈ s.invoked := by
  rw [State.invoke] at h
  split at h
  next => exact .inr h
  next => exact List.mem_cons.1 h

end Invoke

-- Each slot in use holds one registration, with the interface that was registered.
structure Sited (s : State) : Prop where
  known : ∀ i n iface, Serves s.drivers s.ticket i n iface → s.ifaces[n]? = some iface
  once : ∀ i j n iface iface', Serves s.drivers s.ticket i n iface →
    Serves s.drivers s.ticket j n iface' → i = j

-- A registration that is in no slot has been deregistered, or its `onDone` was called.
structure Told (s : State) : Prop where
  own : CallsItsOwn s
  pending : ∀ i n iface, Serves s.drivers s.ticket i n iface →
    n ∉ s.deregistered ∧ s.times .onDone n = 0
  inits : Initialised s
  dones : ∀ (n : Nat) (iface : OSDriverInterface), s.ifaces[n]? = some iface →
    (∃ i, Serves s.drivers s.ticket i n iface) ∨
      s.times .onDone n = if iface.onDone = 0 ∨ n ∈ s.deregistered then 0 else 1
  ahead : ∀ n, s.ifaces.length ≤ n → n ∉ s.deregistered ∧ ∀ kind, s.times kind n = 0

-- Those in the slots that a running shutdown has left behind are the ones it missed.
structure Walked (s : State) : Prop where
  behind : ∀ i j n iface, s.walk = some j → i < j → Serves s.drivers s.ticket i n iface →
    n ∈ s.missed
  missed : ∀ n ∈ s.missed, n ∈ s.deregistered ∨
    ∃ i j iface, s.walk = some j ∧ i < j ∧ Serves s.drivers s.ticket i n iface

structure Kept (s : State) : Prop extends Sited s, Told s, Walked s

theorem kept_start : Kept State.start := by
  have hfree {i n : Nat} {iface : OSDriverInterface} :
      ¬Serves State.start.drivers State.start.ticket i n iface := by
    rintro ⟨d, hd, hused, -⟩
    obtain ⟨hi, rfl⟩ := Vector.getElem?_eq_some_iff.1 hd
    simp [State.start, Drivers.start, RegisteredDriver.blank] at hused
  exact
    { known := fun i n iface h => absurd h hfree
      once := fun i j n iface iface' h => absurd h hfree
      pending := fun i n iface h => absurd h hfree
      own := nofun
      inits := nofun
      dones := nofun
      ahead := fun n _ => ⟨List.not_mem_nil, fun _ => rfl⟩
      behind := fun i j n iface _ _ h => absurd h hfree
      missed := fun n h => absurd h List.not_mem_nil }

theorem serves_lt (hs : Sited s) (h : Serves s.drivers s.ticket i n iface) :
    n < s.ifaces.length := (List.getElem?_eq_some_iff.1 (hs.known i n iface h)).1

theorem Sited.invoke (hs : Sited s) : Sited (s.invoke c) := by
  constructor
  all_goals simp only [invoke_drivers, invoke_ticket, invoke_ifaces]
  · exact hs.known
  · exact hs.once

theorem Walked.invoke (hw : Walked s) : Walked (s.invoke c) := by
  constructor
  all_goals simp only [invoke_drivers, invoke_ticket, invoke_walk, invoke_deregistered,
    invoke_missed]
  · exact hw.behind
  · exact hw.missed

theorem sited_recorded (hs : Sited s) (hd : s.drivers[slot]? = some d) (hused : d'.used = true) :
    Sited (s.recorded d'.iface slot (s.drivers.setIfInBounds slot d')) where
  known i n iface h := by
    simp only [State.recorded, serves_taken hd hused] at h ⊢
    rw [concat_eq_some_iff]
    split at h
    next => exact .inr ⟨h.1.symm, h.2.symm⟩
    next => exact .inl (hs.known i n iface h)
  once i j n iface iface' hi hj := by
    simp only [State.recorded, serves_taken hd hused] at hi hj
    split at hi
    next heq =>
      split at hj
      next heq' => exact heq.symm.trans heq'
      next => exact absurd hi.1.symm (Nat.ne_of_lt (serves_lt hs hj))
    next =>
      split at hj
      next => exact absurd hj.1.symm (Nat.ne_of_lt (serves_lt hs hi))
      next => exact hs.once i j n iface iface' hi hj

theorem ne_of_free (hd : drivers[i]? = some d) (hfree : d.used = false)
    (h : Serves drivers ticket j n iface) : i ≠ j := by
  rintro rfl
  obtain ⟨d₀, hd₀, hused, -⟩ := h
  rw [hd] at hd₀
  cases hd₀
  rw [hfree] at hused
  cases hused

theorem walked_recorded (hw : Walked s) (hd : s.drivers[slot]? = some d) (hfree : d.used = false)
    (hused : d'.used = true) :
    Walked (s.recorded d'.iface slot (s.drivers.setIfInBounds slot d')) where
  behind i j n iface hwalk hlt h := by
    simp only [State.recorded, serves_taken hd hused] at hwalk h ⊢
    split at h
    next heq =>
      subst heq
      rw [if_pos (by rw [hwalk]; exact decide_eq_true hlt), h.1]
      exact List.mem_cons_self
    next =>
      have hbefore := hw.behind i j n iface hwalk hlt h
      split
      next => exact List.mem_cons_of_mem _ hbefore
      next => exact hbefore
  missed n h := by
    have hkeep (h : n ∈ s.missed) : n ∈ s.deregistered ∨ ∃ i j iface, s.walk = some j ∧
        i < j ∧ Serves (s.drivers.setIfInBounds slot d')
          (Function.update s.ticket slot s.ifaces.length) i n iface := by
      rcases hw.missed n h with hgone | ⟨i, j, iface, hwalk, hlt, hi⟩
      · exact .inl hgone
      · refine .inr ⟨i, j, iface, hwalk, hlt, (serves_taken hd hused).2 ?_⟩
        rwa [if_neg (ne_of_free hd hfree hi)]
    simp only [State.recorded] at h
    split at h
    next hbehind =>
      rcases List.mem_cons.1 h with rfl | hbefore
      · obtain ⟨j, hwalk, hlt⟩ := (Option.any_eq_true _ _).1 hbehind
        refine .inr ⟨slot, j, d'.iface, hwalk, of_decide_eq_true hlt,
          (serves_taken hd hused).2 ?_⟩
        rw [if_pos rfl]
        exact ⟨rfl, rfl⟩
      · exact hkeep hbefore
    next => exact hkeep h

theorem told_recorded (hk : Kept s) (hd : s.drivers[slot]? = some d) (hfree : d.used = false)
    (hused : d'.used = true) (hkind : c.kind = .onInit) (hn : c.registration = s.ifaces.length)
    (hfunction : c.function = d'.iface.onInit) :
    Told ((s.recorded d'.iface slot (s.drivers.setIfInBounds slot d')).invoke c) := by
  have hother : c.kind ≠ .onDone := by
    rw [hkind]
    nofun
  constructor
  case own =>
    intro c' hmem
    rw [invoke_ifaces]
    rcases mem_invoke _ _ hmem with rfl | hold
    · refine ⟨d'.iface, concat_eq_some_iff.2 (.inr ⟨hn, rfl⟩), ?_⟩
      rw [hfunction, hkind]
      rfl
    · obtain ⟨iface, hiface, hcalled⟩ := hk.own c' hold
      exact ⟨iface, concat_eq_some_iff.2 (.inl hiface), hcalled⟩
  all_goals simp only [Initialised, invoke_drivers, invoke_ticket, invoke_ifaces,
    invoke_deregistered, State.recorded, serves_taken hd hused]
  case pending =>
    intro i n iface h
    rw [times_invoke_of_ne _ _ (.inl hother)]
    split at h
    next =>
      obtain ⟨rfl, -⟩ := h
      obtain ⟨hnot, hzero⟩ := hk.ahead _ (Nat.le_refl _)
      exact ⟨hnot, hzero .onDone⟩
    next => exact hk.pending i n iface h
  case inits =>
    intro n iface h
    rcases concat_eq_some_iff.1 h with hbefore | ⟨rfl, rfl⟩
    · have hlt := (List.getElem?_eq_some_iff.1 hbefore).1
      rw [times_invoke_of_ne _ _ (.inr (hn ▸ Nat.ne_of_gt hlt))]
      exact hk.inits n iface hbefore
    · have hzero := (hk.ahead _ (Nat.le_refl _)).2 .onInit
      rw [times_invoke_self ?_ hkind hn, hfunction]
      exact hzero
  case dones =>
    intro n iface h
    rw [times_invoke_of_ne _ _ (.inl hother)]
    rcases concat_eq_some_iff.1 h with hbefore | ⟨rfl, rfl⟩
    · rcases hk.dones n iface hbefore with ⟨i, hi⟩ | hdone
      · refine .inl ⟨i, ?_⟩
        rwa [if_neg (ne_of_free hd hfree hi)]
      · exact .inr hdone
    · refine .inl ⟨slot, ?_⟩
      rw [if_pos rfl]
      exact ⟨rfl, rfl⟩
  case ahead =>
    intro n hlen
    rw [List.length_append, List.length_singleton] at hlen
    obtain ⟨hnot, hzero⟩ := hk.ahead n (Nat.le_of_succ_le hlen)
    refine ⟨hnot, fun kind => ?_⟩
    rw [times_invoke_of_ne _ _ (.inr (hn ▸ Nat.ne_of_lt hlen))]
    exact hzero kind

section Vacated

variable (hd : s.drivers[i]? = some d) (hused : d.used = true)
include hd

theorem serves_vacate {ticket : Nat → Nat} {j n : Nat} {iface : OSDriverInterface} :
    Serves (s.drivers.setIfInBounds i { d with used := false }) ticket j n iface ↔
      i ≠ j ∧ Serves s.drivers ticket j n iface := serves_vacated hd rfl

theorem Sited.vacated (hs : Sited s) :
    Sited { s with drivers := s.drivers.setIfInBounds i { d with used := false } } where
  known j n iface h := hs.known j n iface ((serves_vacate hd).1 h).2
  once j k n iface iface' h h' :=
    hs.once j k n iface iface' ((serves_vacate hd).1 h).2 ((serves_vacate hd).1 h').2

-- Of the registrations, only the one in the slot is no longer in any.
theorem still_serves {P : Prop} (hne : n ≠ s.ticket i)
    (h : (∃ j, Serves s.drivers s.ticket j n iface) ∨ P) :
    (∃ j, Serves (s.drivers.setIfInBounds i { d with used := false }) s.ticket j n iface) ∨ P := by
  refine h.imp_left fun ⟨j, hj⟩ => ⟨j, (serves_vacate hd).2 ⟨?_, hj⟩⟩
  rintro rfl
  obtain ⟨_, _, _, _, hn⟩ := hj
  exact hne hn.symm

theorem walked_visited (hw : Walked s) (hwalk : s.walk = some i) :
    Walked { s with
      drivers := s.drivers.setIfInBounds i { d with used := false }
      walk := some (i + 1) } where
  behind j k n iface hk hlt h := by
    cases hk
    obtain ⟨hne, h⟩ := (serves_vacate hd).1 h
    exact hw.behind j i n iface hwalk (by omega) h
  missed n h := by
    rcases hw.missed n h with hgone | ⟨j, k, iface, hk, hlt, hj⟩
    · exact .inl hgone
    · rw [hwalk] at hk
      cases hk
      exact .inr ⟨j, i + 1, iface, rfl, Nat.lt_succ_of_lt hlt,
        (serves_vacate hd).2 ⟨Nat.ne_of_gt hlt, hj⟩⟩

include hused

theorem serves_this : Serves s.drivers s.ticket i (s.ticket i) d.iface := ⟨d, hd, hused, rfl, rfl⟩

theorem kept_deregistered (hk : Kept s) :
    Kept { s with
      drivers := s.drivers.setIfInBounds i { d with used := false }
      deregistered := s.ticket i :: s.deregistered } where
  toSited := ⟨(hk.toSited.vacated hd).known, (hk.toSited.vacated hd).once⟩
  pending j n iface h := by
    obtain ⟨hne, h⟩ := (serves_vacate hd).1 h
    obtain ⟨hnot, hzero⟩ := hk.pending j n iface h
    refine ⟨fun hmem => ?_, hzero⟩
    rcases List.mem_cons.1 hmem with rfl | hbefore
    · exact hne (hk.once i j _ _ _ (serves_this hd hused) h)
    · exact hnot hbefore
  own := hk.own
  inits := hk.inits
  dones n iface h := by
    by_cases hthat : n = s.ticket i
    · subst hthat
      refine .inr ?_
      rw [if_pos (.inr List.mem_cons_self)]
      exact (hk.pending i _ _ (serves_this hd hused)).2
    · simp only [List.mem_cons, hthat, false_or]
      exact still_serves hd hthat (hk.dones n iface h)
  ahead n hlen := by
    obtain ⟨hnot, hzero⟩ := hk.ahead n hlen
    refine ⟨fun hmem => ?_, hzero⟩
    rcases List.mem_cons.1 hmem with rfl | hbefore
    · exact absurd (serves_lt hk.toSited (serves_this hd hused)) (Nat.not_lt.2 hlen)
    · exact hnot hbefore
  behind j k n iface hwalk hlt h :=
    hk.behind j k n iface hwalk hlt ((serves_vacate hd).1 h).2
  missed n h := by
    rcases hk.missed n h with hgone | ⟨j, k, iface, hwalk, hlt, hj⟩
    · exact .inl (List.mem_cons_of_mem _ hgone)
    · by_cases heq : i = j
      · subst heq
        obtain ⟨_, _, _, _, rfl⟩ := hj
        exact .inl List.mem_cons_self
      · exact .inr ⟨j, k, iface, hwalk, hlt, (serves_vacate hd).2 ⟨heq, hj⟩⟩

theorem told_visited (hk : Kept s) (hkind : c.kind = .onDone) (hn : c.registration = s.ticket i)
    (hfunction : c.function = d.iface.onDone) :
    Told ({ s with
      drivers := s.drivers.setIfInBounds i { d with used := false }
      walk := some (i + 1) }.invoke c) := by
  have hthis := serves_this hd hused
  have hother : c.kind ≠ .onInit := by
    rw [hkind]
    nofun
  constructor
  case own =>
    intro c' hmem
    rw [invoke_ifaces]
    rcases mem_invoke _ _ hmem with rfl | hold
    · refine ⟨d.iface, hn ▸ hk.known i _ _ hthis, ?_⟩
      rw [hfunction, hkind]
      rfl
    · exact hk.own c' hold
  all_goals simp only [Initialised, invoke_drivers, invoke_ticket, invoke_ifaces,
    invoke_deregistered]
  case pending =>
    intro j n iface h
    obtain ⟨hne, h⟩ := (serves_vacate hd).1 h
    rw [times_invoke_of_ne]
    · exact hk.pending j n iface h
    · exact .inr fun heq => hne (hk.once i j n _ _ (heq ▸ hn ▸ hthis) h)
  case inits =>
    intro n iface h
    rw [times_invoke_of_ne _ _ (.inl hother)]
    exact hk.inits n iface h
  case dones =>
    intro n iface h
    by_cases hthat : n = s.ticket i
    · subst hthat
      have hsame := hk.known i _ _ hthis
      rw [h] at hsame
      cases hsame
      obtain ⟨hnot, hzero⟩ := hk.pending i _ _ hthis
      refine .inr ?_
      rw [times_invoke_self ?_ hkind hn, hfunction]
      · simp only [hnot, or_false]
      · exact hzero
    · rw [times_invoke_of_ne _ _ (.inr (hn ▸ Ne.symm hthat))]
      exact still_serves hd hthat (hk.dones n iface h)
  case ahead =>
    intro n hlen
    obtain ⟨hnot, hzero⟩ := hk.ahead n hlen
    refine ⟨hnot, fun kind => ?_⟩
    rw [times_invoke_of_ne]
    · exact hzero kind
    · exact .inr (hn ▸ Nat.ne_of_lt (Nat.lt_of_lt_of_le (serves_lt hk.toSited hthis) hlen))

end Vacated

-- A slot out of use is passed by, and so is the end of the table.
theorem kept_passed (hk : Kept s) (hwalk : s.walk = some i)
    (hfree : ∀ d, s.drivers[i]? = some d → d.used = false) :
    Kept { s with walk := some (i + 1) } where
  known := hk.known
  pending := hk.pending
  once := hk.once
  own := hk.own
  inits := hk.inits
  dones := hk.dones
  ahead := hk.ahead
  behind j k n iface hk' hlt h := by
    cases hk'
    rcases Nat.lt_succ_iff_lt_or_eq.1 hlt with hbefore | rfl
    · exact hk.behind j i n iface hwalk hbefore h
    · obtain ⟨d, hd, hused, -⟩ := h
      rw [hfree d hd] at hused
      cases hused
  missed n h := by
    rcases hk.missed n h with hgone | ⟨j, k, iface, hk', hlt, hj⟩
    · exact .inl hgone
    · rw [hwalk] at hk'
      cases hk'
      exact .inr ⟨j, i + 1, iface, rfl, Nat.lt_succ_of_lt hlt, hj⟩

-- What the record says of a state depends on the table only through the slots that serve.
theorem kept_same (hk : Kept s) (hsame : ∀ i n iface,
      Serves drivers s.ticket i n iface ↔ Serves s.drivers s.ticket i n iface) :
    Kept { s with drivers } where
  known i n iface h := hk.known i n iface ((hsame i n iface).1 h)
  pending i n iface h := hk.pending i n iface ((hsame i n iface).1 h)
  once i j n iface iface' h h' :=
    hk.once i j n iface iface' ((hsame i n iface).1 h) ((hsame j n iface').1 h')
  own := hk.own
  inits := hk.inits
  dones n iface h := (hk.dones n iface h).imp_left fun ⟨i, hi⟩ => ⟨i, (hsame i n iface).2 hi⟩
  ahead := hk.ahead
  behind i j n iface hwalk hlt h := hk.behind i j n iface hwalk hlt ((hsame i n iface).1 h)
  missed n h := (hk.missed n h).imp_right fun ⟨i, j, iface, hwalk, hlt, hi⟩ =>
    ⟨i, j, iface, hwalk, hlt, (hsame i n iface).2 hi⟩

theorem kept_step (hk : Kept s) (h : Step s e s') : Kept s' := by
  obtain ⟨hallows, rfl⟩ := h
  cases e with
  | register moduleHandle driverInterface id =>
    rcases register_cases s.drivers moduleHandle driverInterface id with
      ⟨iface, slot, rfl, hfree, heq⟩ | ⟨-, heq⟩
    · obtain ⟨⟨d, hd, hunused⟩, -⟩ := firstFree_eq_some.1 hfree
      simp only [State.after, heq]
      exact
        { toSited := (sited_recorded hk.toSited hd rfl).invoke
          toTold := told_recorded hk hd hunused rfl rfl rfl rfl
          toWalked := (walked_recorded hk.toWalked hd hunused rfl).invoke }
    · cases driverInterface <;> simp only [State.after, heq] <;> exact hk
  | deregister moduleHandle id =>
    rcases deregister_cases s.drivers moduleHandle id with ⟨i, d, hfind, hd, heq⟩ | ⟨hnone, heq⟩
    · obtain ⟨⟨d₀, hd₀, hused, -⟩, -⟩ := find_eq_some.1 hfind
      rw [hd] at hd₀
      cases hd₀
      simp only [State.after, heq, hfind]
      exact kept_deregistered hd hused hk
    · simp only [State.after, heq, hnone]
      exact hk
  | copyToSaveArea id data =>
    rcases copyTo_cases s.drivers id data with ⟨bytes, i, d, -, -, -, hd, heq⟩ | heq
    · simp only [State.after, heq]
      exact kept_same hk fun j n iface => serves_same hd rfl rfl
    · simp only [State.after, heq]
      exact hk
  | callbackReturns =>
    exact ⟨⟨hk.known, hk.once⟩, ⟨hk.own, hk.pending, hk.inits, hk.dones, hk.ahead⟩, hk.behind, hk.missed⟩
  | shutdown =>
    refine ⟨⟨hk.known, hk.once⟩, ⟨hk.own, hk.pending, hk.inits, hk.dones, hk.ahead⟩, ?_, ?_⟩
    · rintro i j n iface ⟨⟩ hlt
      exact absurd hlt (Nat.not_lt_zero i)
    · exact fun n hn => absurd hn List.not_mem_nil
  | visit =>
    obtain ⟨-, i, hi, hwalk⟩ := hallows
    have hd : s.drivers[i]? = some s.drivers[i] := Vector.getElem?_eq_getElem hi
    cases hused : s.drivers[i].used with
    | true =>
      simp only [State.after, hwalk, shutdownSlot, hd, hused, if_true]
      have hsited := hk.toSited.vacated hd
      exact
        { toSited := Sited.invoke ⟨hsited.known, hsited.once⟩
          toTold := told_visited hd hused hk rfl rfl rfl
          toWalked := (walked_visited hd hk.toWalked hwalk).invoke }
    | false =>
      simp only [State.after, hwalk, shutdownSlot, hd, hused, Bool.false_eq_true, if_false]
      refine kept_passed hk hwalk fun d hd' => ?_
      rw [hd] at hd'
      cases hd'
      exact hused
  | shutdownReturns =>
    refine ⟨⟨hk.known, hk.once⟩, ⟨hk.own, hk.pending, hk.inits, hk.dones, hk.ahead⟩, ?_, ?_⟩
    · rintro i j n iface ⟨⟩
    · exact fun n hn => absurd hn List.not_mem_nil

theorem kept_run (h : Run Step State.start es s) : Kept s :=
  h.invariant_of (fun _ _ => trivial) kept_start fun _ _ _ (_ : True) hk hs => kept_step hk hs

instance (s : State) : (e : Event) → Decidable (s.Allows e)
  | .register .. | .deregister .. | .copyToSaveArea .. =>
    inferInstanceAs (Decidable (s.callbacks ≠ [] ∨ s.walk = none))
  | .callbackReturns => inferInstanceAs (Decidable (s.callbacks ≠ []))
  | .shutdown => inferInstanceAs (Decidable (s.callbacks = [] ∧ s.walk = none))
  | .visit =>
    inferInstanceAs (Decidable (s.callbacks = [] ∧ ∃ i < kMaxDrivers, s.walk = some i))
  | .shutdownReturns =>
    inferInstanceAs (Decidable (s.callbacks = [] ∧ s.walk = some kMaxDrivers))

theorem run_foldl (h : EveryRequest State.after State.Allows s es) :
    Run Step s es (es.foldl State.after s) := by
  induction es generalizing s with
  | nil => exact .nil
  | cons e es ih => exact (ih h.2).cons ⟨h.1, rfl⟩

-- At its end a shutdown has left all slots behind.
theorem completed_iff (hk : Kept s) (hreturns : Step s .shutdownReturns s') :
    Completed s' ↔ ∀ n ∈ s.missed, n ∈ s.deregistered := by
  obtain ⟨⟨-, hwalk⟩, rfl⟩ := hreturns
  have hmissed {i n : Nat} {iface : OSDriverInterface}
      (hserves : Serves s.drivers s.ticket i n iface) : n ∈ s.missed := by
    have ⟨d, hd, _⟩ := hserves
    exact hk.behind i _ n iface hwalk (lt_of_slot hd) hserves
  constructor
  · intro hcompleted n hn
    rcases hk.missed n hn with hgone | ⟨i, j, iface, -, -, d, hd, hused, -⟩
    · exact hgone
    · rw [hcompleted.none_registered i d hd] at hused
      cases hused
  · intro hgone
    have hnone {i n : Nat} {iface : OSDriverInterface} : ¬Serves s.drivers s.ticket i n iface :=
      fun hserves => (hk.pending i n iface hserves).1 (hgone n (hmissed hserves))
    constructor
    · intro i d hd
      by_contra hused
      exact hnone ⟨d, hd, eq_true_of_ne_false hused, rfl, rfl⟩
    · intro n iface hiface
      rcases hk.dones n iface hiface with ⟨i, hserves⟩ | hdone
      · exact absurd hserves hnone
      · exact hdone

theorem shutdown_completes_iff (h : Run Step State.start es s) :
    CallsItsOwn s ∧ Initialised s ∧ ∀ s', Step s .shutdownReturns s' →
      (Completed s' ↔ ∀ n ∈ s.missed, n ∈ s.deregistered) :=
  have hk := kept_run h
  ⟨hk.own, hk.inits, fun _ hreturns => completed_iff hk hreturns⟩

-- The `onDone` of the first driver registers a third, which takes the slot left behind, and
-- deregisters it again together with the second.
def busyDrivers : List Event :=
  [.register 0 (some testDriver) 0x1234, .callbackReturns,
    .register 0 (some testDriver) 0x5678, .callbackReturns, .shutdown, .visit,
    .register 0 (some testDriver) 0x9abc, .callbackReturns, .deregister 0 0x9abc,
    .deregister 0 0x5678, .callbackReturns] ++
    .replicate 31 .visit

theorem shutdown_completes_iff_busy :
    let s := busyDrivers.foldl State.after State.start
    CallsItsOwn s ∧ Initialised s ∧ s.missed = [2] ∧ s.deregistered = [1, 2] ∧
      ∃ s', Step s .shutdownReturns s' ∧ Completed s' := by
  have hrun : Run Step State.start busyDrivers (busyDrivers.foldl State.after State.start) :=
    run_foldl (by decide +kernel)
  obtain ⟨hown, hinit, hcompletes⟩ := shutdown_completes_iff hrun
  have hmissed : (busyDrivers.foldl State.after State.start).missed = [2] := by decide +kernel
  have hgone : (busyDrivers.foldl State.after State.start).deregistered = [1, 2] := by
    decide +kernel
  have hreturns : Step (busyDrivers.foldl State.after State.start) .shutdownReturns _ :=
    ⟨by decide +kernel, rfl⟩
  refine ⟨hown, hinit, hmissed, hgone, _, hreturns, (hcompletes _ hreturns).2 fun n hn => ?_⟩
  rw [hmissed] at hn
  rw [hgone, List.mem_singleton.1 hn]
  decide

-- The `onDone` of the driver in slot 0 registers another, which takes that slot.
def lateDriver : List Event :=
  [.register 0 (some testDriver) 0x1234, .callbackReturns, .shutdown, .visit,
    .register 0 (some testDriver) 0x5678, .callbackReturns, .callbackReturns] ++
    .replicate 31 .visit

theorem shutdown_leaves_late_driver :
    let s := lateDriver.foldl State.after State.start
    Run Step State.start lateDriver s ∧ Step s .shutdownReturns (s.after .shutdownReturns) ∧
      ¬Completed (s.after .shutdownReturns) := by
  refine ⟨run_foldl (by decide), ⟨by decide, rfl⟩, fun hcompleted => ?_⟩
  have hused : ∃ d, ((lateDriver.foldl State.after State.start).after
      .shutdownReturns).drivers[0]? = some d ∧ d.used = true := ⟨_, rfl, by decide⟩
  obtain ⟨d, hd, hused⟩ := hused
  rw [hcompleted.none_registered 0 d hd] at hused
  cases hused

end CoreinitNx.Driver
