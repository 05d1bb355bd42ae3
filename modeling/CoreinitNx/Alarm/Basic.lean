import Mathlib.Tactic.Common
import CoreinitNx.Library.Transition
import CoreinitNx.Ticks

namespace CoreinitNx.Alarm

abbrev OSAlarm := UInt64

-- A function pointer of the guest; `0` is the null one.
abbrev OSAlarmCallback := UInt64

structure HostAlarm where
  due : OSTime
  interval : OSTime
  callback : OSAlarmCallback
  userData : UInt64
  group : UInt32
  armed : Bool
deriving DecidableEq, Repr

def HostAlarm.zero : HostAlarm := ⟨0, 0, 0, 0, 0, false⟩

abbrev Alarms := Std.TreeMap OSAlarm HostAlarm

-- Where the one scheduler thread is. It gives the lock up to sleep and to invoke callbacks.
inductive Scheduler where
  | off
  | looping
  | sleeping (timeout : Option UInt64)
  | invoking (due : List (OSAlarm × OSAlarmCallback))
  | inCallback (alarm : OSAlarm) (due : List (OSAlarm × OSAlarmCallback))
  | exited
deriving DecidableEq, Repr

structure State where
  alarms : Alarms
  clock : Clock
  stop : Bool
  scheduler : Scheduler

def State.initial (clock : Clock) : State := ⟨∅, clock, false, .off⟩

-- `condvarWakeAll(&g_wake)`
def State.wake (s : State) : State :=
  match s.scheduler with
  | .sleeping _ => { s with scheduler := .looping }
  | _ => s

@[simp] theorem wake_alarms (s : State) : s.wake.alarms = s.alarms := by
  rw [State.wake]
  split <;> rfl

@[simp] theorem wake_stop (s : State) : s.wake.stop = s.stop := by
  rw [State.wake]
  split <;> rfl

@[simp] theorem wake_clock (s : State) : s.wake.clock = s.clock := by
  rw [State.wake]
  split <;> rfl

inductive Op where
  | create (alarm : OSAlarm)
  | set (alarm : OSAlarm) (time : OSTime) (callback : OSAlarmCallback)
  | setPeriodic (alarm : OSAlarm) (start interval : OSTime) (callback : OSAlarmCallback)
  | cancel (alarm : OSAlarm)
  | cancelAll (group : UInt32)
  | setTag (alarm : OSAlarm) (group : UInt32)
  | setUserData (alarm : OSAlarm) (data : UInt64)
  | getUserData (alarm : OSAlarm)
deriving DecidableEq, Repr

inductive Reply where
  | void
  | ret (code : Int32)
  | pointer (data : UInt64)
deriving DecidableEq, Repr

-- `g_alarms[alarm]`, which inserts a zeroed record where there is none.
def Alarms.at (alarms : Alarms) (alarm : OSAlarm) : HostAlarm :=
  alarms[alarm]?.getD HostAlarm.zero

def osCreateAlarm (s : State) (alarm : OSAlarm) : Reply × State :=
  if alarm = 0 then (.void, s)
  else (.void, { s with alarms := s.alarms.insert alarm HostAlarm.zero })

def arm (s : State) (alarm : OSAlarm) (time interval : OSTime) (callback : OSAlarmCallback) :
    Reply × State :=
  if alarm = 0 then (.ret 0, s)
  else
    let h := s.alarms.at alarm
    let h := { h with due := s.clock.osGetTime + time, interval, callback, armed := true }
    (.ret 1, { s with alarms := s.alarms.insert alarm h }.wake)

def osSetAlarm (s : State) (alarm : OSAlarm) (time : OSTime) (callback : OSAlarmCallback) :
    Reply × State :=
  arm s alarm time 0 callback

def osSetPeriodicAlarm (s : State) (alarm : OSAlarm) (start interval : OSTime)
    (callback : OSAlarmCallback) : Reply × State :=
  arm s alarm start interval callback

def osCancelAlarm (s : State) (alarm : OSAlarm) : Reply × State :=
  if alarm = 0 then (.ret 0, s)
  else
    match s.alarms[alarm]? with
    | some h =>
      (.ret (if h.armed then 1 else 0),
        { s with alarms := s.alarms.insert alarm { h with armed := false } }.wake)
    | none => (.ret 0, s.wake)

def osCancelAlarms (s : State) (group : UInt32) : Reply × State :=
  let alarms := s.alarms.map fun _ (h : HostAlarm) =>
    if h.group = group then { h with armed := false } else h
  (.void, { s with alarms := alarms }.wake)

def osSetAlarmTag (s : State) (alarm : OSAlarm) (group : UInt32) : Reply × State :=
  if alarm = 0 then (.void, s)
  else (.void, { s with alarms := s.alarms.insert alarm { s.alarms.at alarm with group } })

def osSetAlarmUserData (s : State) (alarm : OSAlarm) (data : UInt64) : Reply × State :=
  if alarm = 0 then (.void, s)
  else
    (.void, { s with alarms := s.alarms.insert alarm { s.alarms.at alarm with userData := data } })

def osGetAlarmUserData (s : State) (alarm : OSAlarm) : Reply × State :=
  if alarm = 0 then (.pointer 0, s)
  else
    match s.alarms[alarm]? with
    | some h => (.pointer h.userData, s)
    | none => (.pointer 0, s)

def call : Op → State → Reply × State
  | .create alarm, s => osCreateAlarm s alarm
  | .set alarm time callback, s => osSetAlarm s alarm time callback
  | .setPeriodic alarm start interval callback, s => osSetPeriodicAlarm s alarm start interval callback
  | .cancel alarm, s => osCancelAlarm s alarm
  | .cancelAll group, s => osCancelAlarms s group
  | .setTag alarm group, s => osSetAlarmTag s alarm group
  | .setUserData alarm data, s => osSetAlarmUserData s alarm data
  | .getUserData alarm, s => osGetAlarmUserData s alarm

-- What a call writes. Without an alarm to write to, only `cancelAll` writes something.
inductive Effect (s : State) : Op → State → Prop
  | unchanged {op : Op} : (∀ group, op ≠ .cancelAll group) → Effect s op s
  | create {a : OSAlarm} : a ≠ 0 →
      Effect s (.create a) { s with alarms := s.alarms.insert a HostAlarm.zero }
  | set {a : OSAlarm} (time : OSTime) (callback : OSAlarmCallback) : a ≠ 0 →
      Effect s (.set a time callback) { s with alarms := s.alarms.insert a { s.alarms.at a with
        due := s.clock.osGetTime + time, interval := 0, callback, armed := true } }.wake
  | setPeriodic {a : OSAlarm} (start interval : OSTime) (callback : OSAlarmCallback) : a ≠ 0 →
      Effect s (.setPeriodic a start interval callback)
        { s with alarms := s.alarms.insert a { s.alarms.at a with
          due := s.clock.osGetTime + start, interval, callback, armed := true } }.wake
  | cancel {a : OSAlarm} {h : HostAlarm} : a ≠ 0 → s.alarms[a]? = some h →
      Effect s (.cancel a) { s with alarms := s.alarms.insert a { h with armed := false } }.wake
  | cancelUnknown {a : OSAlarm} : a ≠ 0 → s.alarms[a]? = none → Effect s (.cancel a) s.wake
  | cancelAll (group : UInt32) :
      Effect s (.cancelAll group) { s with alarms := s.alarms.map fun _ (h : HostAlarm) =>
        if h.group = group then { h with armed := false } else h }.wake
  | setTag {a : OSAlarm} (group : UInt32) : a ≠ 0 → Effect s (.setTag a group)
      { s with alarms := s.alarms.insert a { s.alarms.at a with group } }
  | setUserData {a : OSAlarm} (data : UInt64) : a ≠ 0 → Effect s (.setUserData a data)
      { s with alarms := s.alarms.insert a { s.alarms.at a with userData := data } }

theorem call_effect (op : Op) (s : State) : Effect s op (call op s).2 := by
  cases op with
  | create a =>
    rw [call, osCreateAlarm]
    split
    next => exact .unchanged nofun
    next hz => exact .create hz
  | set a time callback =>
    rw [call, osSetAlarm, arm]
    split
    next => exact .unchanged nofun
    next hz => exact .set time callback hz
  | setPeriodic a start interval callback =>
    rw [call, osSetPeriodicAlarm, arm]
    split
    next => exact .unchanged nofun
    next hz => exact .setPeriodic start interval callback hz
  | cancel a =>
    rw [call, osCancelAlarm]
    split
    next => exact .unchanged nofun
    next hz =>
      split
      next hget => exact .cancel hz hget
      next hget => exact .cancelUnknown hz hget
  | cancelAll group => exact .cancelAll group
  | setTag a group =>
    rw [call, osSetAlarmTag]
    split
    next => exact .unchanged nofun
    next hz => exact .setTag group hz
  | setUserData a data =>
    rw [call, osSetAlarmUserData]
    split
    next => exact .unchanged nofun
    next hz => exact .setUserData data hz
  | getUserData a =>
    rw [call, osGetAlarmUserData]
    split
    next => exact .unchanged nofun
    next => split <;> exact .unchanged nofun

def HostAlarm.isDue (now : OSTime) (h : HostAlarm) : Bool := h.armed && h.due ≤ now

-- What the loop over the alarms of one pass does to one that is due, ...
def HostAlarm.advance (now : OSTime) (h : HostAlarm) : HostAlarm :=
  if h.interval > 0 then { h with due := now + h.interval } else { h with armed := false }

def HostAlarm.settle (now : OSTime) (h : HostAlarm) : HostAlarm :=
  if h.isDue now then h.advance now else h

def write (now : OSTime) (alarms : Alarms) (entry : OSAlarm × HostAlarm) : Alarms :=
  if entry.2.isDue now then alarms.insert entry.1 (entry.2.advance now) else alarms

-- ... to the list of callbacks to invoke ...
def collect (now : OSTime) (due : List (OSAlarm × OSAlarmCallback)) (entry : OSAlarm × HostAlarm) :
    List (OSAlarm × OSAlarmCallback) :=
  if entry.2.isDue now then due ++ [(entry.1, entry.2.callback)] else due

-- ... and to the nearest deadline, where `0` stands for none.
def HostAlarm.nearest (h : HostAlarm) (nearest : OSTime) : OSTime :=
  if h.armed && (nearest = 0 || h.due < nearest) then h.due else nearest

def nearer (now : OSTime) (nearest : OSTime) (entry : OSAlarm × HostAlarm) : OSTime :=
  (entry.2.settle now).nearest nearest

-- One pass of `schedulerLoop` under the lock; `later` is the clock when it reads it again.
def schedulerPass (s : State) (later : Clock) : State :=
  let now := s.clock.osGetTime
  let due := s.alarms.toList.foldl (collect now) []
  let nearest := s.alarms.toList.foldl (nearer now) 0
  { s with
    alarms := s.alarms.toList.foldl (write now) s.alarms
    clock := later
    scheduler :=
      if due.isEmpty then
        .sleeping (if nearest = 0 then none else some (ticksToNs (nearest - later.osGetTime)))
      else .invoking due }

inductive Event where
  | call (op : Op) (reply : Reply)
  | startThread
  | pass
  | skip (alarm : OSAlarm)
  | fire (alarm : OSAlarm) (callback : OSAlarmCallback)
  | finish (alarm : OSAlarm)
  | resume
  | timeout
  | tick
  | setTime (time : OSTime)
  | requestStop
  | exit
  | shutdown
deriving DecidableEq, Repr

-- Every part between taking the lock and giving it up is one step, so calls of other threads
-- and of the running callback fall between any two of them.
inductive Step : State → Event → State → Prop
  | call (s : State) (op : Op) : Step s (.call op (call op s).1) (call op s).2
  | startThread {s : State} : s.scheduler = .off → Step s .startThread { s with scheduler := .looping }
  | pass {s : State} {later : Clock} : s.scheduler = .looping → s.stop = false →
      s.clock.systemTime ≤ later.systemTime → Step s .pass (schedulerPass s later)
  | skip {s : State} {a : OSAlarm} {due : List (OSAlarm × OSAlarmCallback)} :
      s.scheduler = .invoking ((a, 0) :: due) →
      Step s (.skip a) { s with scheduler := .invoking due }
  | fire {s : State} {a : OSAlarm} {cb : OSAlarmCallback}
      {due : List (OSAlarm × OSAlarmCallback)} :
      s.scheduler = .invoking ((a, cb) :: due) → cb ≠ 0 →
      Step s (.fire a cb) { s with scheduler := .inCallback a due }
  | finish {s : State} {a : OSAlarm} {due : List (OSAlarm × OSAlarmCallback)} :
      s.scheduler = .inCallback a due →
      Step s (.finish a) { s with scheduler := .invoking due }
  | resume {s : State} : s.scheduler = .invoking [] →
      Step s .resume { s with scheduler := .looping }
  | timeout {s : State} {ns : UInt64} : s.scheduler = .sleeping (some ns) →
      Step s .timeout { s with scheduler := .looping }
  | tick {s : State} {t : OSTime} : s.clock.systemTime ≤ t →
      Step s .tick { s with clock := { s.clock with systemTime := t } }
  | setTime (s : State) (time : OSTime) :
      Step s (.setTime time) { s with clock := s.clock.osSetAbsoluteSystemTime time }
  | requestStop (s : State) : Step s .requestStop { s with stop := true }.wake
  | exit {s : State} : s.scheduler = .looping → s.stop = true →
      Step s .exit { s with scheduler := .exited }
  | shutdown {s : State} : s.scheduler = .exited ∨ s.scheduler = .off → s.stop = true →
      Step s .shutdown { s with alarms := ∅, stop := false, scheduler := .off }

abbrev Run := Transition.Run Step

-- One turn of the loop of `OSWaitAlarm`, which sleeps and goes round again on `none`.
def osWaitAlarmTurn (s : State) (alarm : OSAlarm) : Option Int32 :=
  if alarm = 0 then some 0
  else
    match s.alarms[alarm]? with
    | some h => if h.armed then none else some 1
    | none => some 1

inductive Turn where
  | event (e : Event)
  | wait (alarm : OSAlarm) (answer : Option Int32)
deriving DecidableEq, Repr

-- The alarms with their waiting threads; each event comes with the time the clock shows then.
inductive ClockedStep : State → OSTime × Turn → State → Prop
  | event {s s' : State} {e : Event} :
      Step s e s' → ClockedStep s (s.clock.osGetTime, .event e) s'
  | wait (s : State) (alarm : OSAlarm) :
      ClockedStep s (s.clock.osGetTime, .wait alarm (osWaitAlarmTurn s alarm)) s

section Pass

variable {alarms : Alarms} {a : OSAlarm} {h : HostAlarm} {now : OSTime}
  {entry : OSAlarm × HostAlarm} {entries : List (OSAlarm × HostAlarm)}

theorem toList_keys (alarms : Alarms) : alarms.toList.Pairwise fun x y => x.1 ≠ y.1 := by
  refine Std.TreeMap.distinct_keys_toList.imp fun hne heq => hne ?_
  rw [heq]
  exact Std.ReflCmp.compare_self

theorem mem_toList_iff : (a, h) ∈ alarms.toList ↔ alarms[a]? = some h :=
  Std.TreeMap.mem_toList_iff_getElem?_eq_some

theorem write_getElem? (hne : entry.1 ≠ a) : (write now alarms entry)[a]? = alarms[a]? := by
  rw [write]
  split
  next =>
    rw [Std.TreeMap.getElem?_insert, if_neg]
    exact fun heq => hne (Std.LawfulEqCmp.eq_of_compare heq)
  next => rfl

theorem write_getElem?_self (hget : alarms[a]? = some h) :
    (write now alarms (a, h))[a]? = some (h.settle now) := by
  rw [write, HostAlarm.settle]
  split
  next => exact Std.TreeMap.getElem?_insert_self
  next => exact hget

theorem foldl_write_getElem? (hne : ∀ entry ∈ entries, entry.1 ≠ a) :
    (entries.foldl (write now) alarms)[a]? = alarms[a]? := by
  induction entries generalizing alarms with
  | nil => rfl
  | cons entry entries ih =>
    rw [List.foldl_cons, ih fun x hx => hne x (List.mem_cons_of_mem _ hx),
      write_getElem? (hne entry List.mem_cons_self)]

theorem foldl_write_getElem?_self (hkeys : entries.Pairwise fun x y => x.1 ≠ y.1)
    (hmem : (a, h) ∈ entries) (hget : alarms[a]? = some h) :
    (entries.foldl (write now) alarms)[a]? = some (h.settle now) := by
  induction entries generalizing alarms with
  | nil => cases hmem
  | cons entry entries ih =>
    obtain ⟨hhead, htail⟩ := List.pairwise_cons.1 hkeys
    rw [List.foldl_cons]
    rcases List.mem_cons.1 hmem with rfl | hrest
    · rw [foldl_write_getElem? fun x hx => (hhead x hx).symm]
      exact write_getElem?_self hget
    · refine ih htail hrest ?_
      rw [write_getElem? (hhead _ hrest)]
      exact hget

theorem schedulerPass_getElem? {s : State} {later : Clock} :
    (schedulerPass s later).alarms[a]? = s.alarms[a]?.map (HostAlarm.settle s.clock.osGetTime) := by
  simp only [schedulerPass]
  cases hget : s.alarms[a]? with
  | some h => exact foldl_write_getElem?_self (toList_keys _) (mem_toList_iff.2 hget) hget
  | none =>
    refine (foldl_write_getElem? ?_).trans hget
    rintro ⟨b, h⟩ hmem rfl
    rw [mem_toList_iff.1 hmem] at hget
    cases hget

end Pass

end CoreinitNx.Alarm
