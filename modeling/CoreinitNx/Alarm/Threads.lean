import Mathlib.Logic.Function.Basic
import CoreinitNx.Alarm.Basic

namespace CoreinitNx.Alarm

-- The calls that come back at once when they are given the null alarm.
def Op.null : Op → Bool
  | .create a | .set a _ _ | .setPeriodic a _ _ _ | .cancel a | .setTag a _ | .setUserData a _
  | .getUserData a => a = 0
  | .cancelAll _ => false

-- `condvarWakeAll(&g_wake)`
def Op.wakes : Op → Bool
  | .set a _ _ | .setPeriodic a _ _ _ | .cancel a => a ≠ 0
  | .cancelAll _ => true
  | .create _ | .setTag _ _ | .setUserData _ _ | .getUserData _ => false

-- `ensureThread()`
def Op.arms : Op → Bool
  | .set _ _ _ | .setPeriodic _ _ _ _ => true
  | .create _ | .cancel _ | .cancelAll _ | .setTag _ _ | .setUserData _ _ | .getUserData _ => false

namespace Threads

-- What is done between taking `g_lock` and giving it up: the body of a call, and the two parts
-- of `coreinitNxAlarmShutdown`.
inductive Section where
  | body (op : Op)
  | wait (alarm : OSAlarm)
  | stop
  | clear
deriving DecidableEq, Repr

def Section.Begins : Section → Prop
  | .body op => op.null = false
  | .wait alarm => alarm ≠ 0
  | .stop => True
  | .clear => False

-- Where a thread is in a call: the first three are in `ensureInit`, those from `ensuring` to
-- `launched` in `ensureThread`.
inductive Place where
  | outside
  | checking (sec : Section)
  | resetting (sec : Section)
  | marking (sec : Section)
  | locking (sec : Section)
  | inside (sec : Section)
  | ensuring
  | creating
  | launched
  | joining
deriving DecidableEq, Repr

-- The variables of one pass; `rest` is what its loop over `g_alarms` has still to come to.
structure Pass where
  now : OSTime
  rest : List OSAlarm
  due : List (OSAlarm × OSAlarmCallback)
  nearest : OSTime
deriving DecidableEq, Repr

-- Where a thread is in `schedulerLoop`, if it is in it at all. In a callback it may make calls.
inductive Loop where
  | absent
  | starting
  | locking
  | looping
  | scanning (pass : Pass)
  | writing (pass : Pass)
  | sleeping (timeout : Option UInt64)
  | invoking (due : List (OSAlarm × OSAlarmCallback))
  | inCallback (alarm : OSAlarm) (due : List (OSAlarm × OSAlarmCallback))
  | exited
deriving DecidableEq, Repr

def Loop.wake : Loop → Loop
  | .sleeping _ => .locking
  | l => l

def Loop.Callable : Loop → Prop
  | .absent | .inCallback _ _ => True
  | _ => False

-- Before `mutexLock(&g_lock)`, behind which `g_stop` is read.
def Loop.Entering : Loop → Prop
  | .starting | .locking => True
  | _ => False

def Loop.Running : Loop → Prop
  | .absent | .exited => False
  | _ => True

-- `thread` is `g_thread`, `lock` who holds `g_lock`.
structure System (τ : Type) where
  alarms : Alarms
  clock : Clock
  inited : Bool
  started : Bool
  stop : Bool
  lock : Option τ
  thread : Option τ
  place : τ → Place
  loop : τ → Loop

variable {τ : Type}

namespace System

def start (clock : Clock) : System τ :=
  ⟨∅, clock, false, false, false, none, none, fun _ => .outside, fun _ => .absent⟩

def now (s : System τ) : OSTime := s.clock.osGetTime

-- What the body of a call finds.
def state (s : System τ) : State := ⟨s.alarms, s.clock, s.stop, .off⟩

def setAlarms (s : System τ) (alarms : Alarms) : System τ := { s with alarms }

def setLock (s : System τ) (lock : Option τ) : System τ := { s with lock }

def wake (s : System τ) : System τ := { s with loop := fun u => (s.loop u).wake }

def call (s : System τ) (op : Op) : System τ :=
  let s := s.setAlarms (Alarm.call op s.state).2.alarms
  if op.wakes then s.wake else s

def goto [DecidableEq τ] (s : System τ) (t : τ) (place : Place) : System τ :=
  { s with place := Function.update s.place t place }

def turnTo [DecidableEq τ] (s : System τ) (u : τ) (loop : Loop) : System τ :=
  { s with loop := Function.update s.loop u loop }

end System

-- A turn is what a section, a pass or a callback shows, with the time that it goes by.
inductive Event (τ : Type) where
  | call (t : τ) (sec : Section)
  | statement (t : τ)
  | turn (t : τ) (now : OSTime) (turn : Turn)
  | tick
  | setTime (time : OSTime)
deriving DecidableEq, Repr

variable [DecidableEq τ]

-- Under the lock only the pass is taken apart: it holds the lock longest, and `ensureInit` may
-- take it away.
inductive Step : System τ → Event τ → System τ → Prop
  | null {s : System τ} {t : τ} {op : Op} : s.place t = .outside → (s.loop t).Callable →
      op.null = true → Step s (.turn t s.now (.event (.call op (call op s.state).1))) s
  | nullWait {s : System τ} {t : τ} : s.place t = .outside → (s.loop t).Callable →
      Step s (.turn t s.now (.wait 0 (osWaitAlarmTurn s.state 0))) s
  | begin {s : System τ} {t : τ} {sec : Section} : s.place t = .outside → (s.loop t).Callable →
      sec.Begins → Step s (.call t sec) (s.goto t (.checking sec))
  | inited {s : System τ} {t : τ} {sec : Section} : s.place t = .checking sec →
      s.inited = true → Step s (.statement t) (s.goto t (.locking sec))
  | uninited {s : System τ} {t : τ} {sec : Section} : s.place t = .checking sec →
      s.inited = false → sec ≠ .stop → Step s (.statement t) (s.goto t (.resetting sec))
  | nothing {s : System τ} {t : τ} : s.place t = .checking .stop → s.inited = false →
      Step s (.statement t) (s.goto t .outside)
  | reset {s : System τ} {t : τ} {sec : Section} : s.place t = .resetting sec →
      Step s (.statement t) ((s.setLock none).goto t (.marking sec))
  | mark {s : System τ} {t : τ} {sec : Section} : s.place t = .marking sec →
      Step s (.statement t) ({ s with inited := true }.goto t (.locking sec))
  | lock {s : System τ} {t : τ} {sec : Section} : s.place t = .locking sec → s.lock = none →
      Step s (.statement t) ((s.setLock (some t)).goto t (.inside sec))
  | body {s : System τ} {t : τ} {op : Op} : s.place t = .inside (.body op) →
      Step s (.turn t s.now (.event (.call op (call op s.state).1)))
        (((s.call op).setLock none).goto t (if op.arms then .ensuring else .outside))
  -- Where the alarm is armed, the thread sleeps for a while and goes round again.
  | wait {s : System τ} {t : τ} {alarm : OSAlarm} : s.place t = .inside (.wait alarm) →
      Step s (.turn t s.now (.wait alarm (osWaitAlarmTurn s.state alarm)))
        ((s.setLock none).goto t
          (if (osWaitAlarmTurn s.state alarm).isSome then .outside else .checking (.wait alarm)))
  | stop {s : System τ} {t : τ} : s.place t = .inside .stop →
      Step s (.turn t s.now (.event .requestStop))
        (({ s with stop := true }.wake.setLock none).goto t .joining)
  | clear {s : System τ} {t : τ} : s.place t = .inside .clear →
      Step s (.turn t s.now (.event .shutdown))
        (({ s with alarms := ∅, stop := false }.setLock none).goto t .outside)
  | started {s : System τ} {t : τ} : s.place t = .ensuring → s.started = true →
      Step s (.statement t) (s.goto t .outside)
  | unstarted {s : System τ} {t : τ} : s.place t = .ensuring → s.started = false →
      Step s (.statement t) (s.goto t .creating)
  | created {s : System τ} {t u : τ} : s.place t = .creating → s.place u = .outside →
      s.loop u = .absent →
      Step s (.statement t) (({ s with thread := some u }.turnTo u .starting).goto t .launched)
  | refused {s : System τ} {t : τ} (thread : Option τ) : s.place t = .creating →
      Step s (.statement t) ({ s with thread }.goto t .outside)
  | launched {s : System τ} {t : τ} : s.place t = .launched →
      Step s (.statement t) ({ s with started := true }.goto t .outside)
  | joined {s : System τ} {t u : τ} : s.place t = .joining → s.started = true →
      s.thread = some u → s.loop u = .exited →
      Step s (.statement t) ({ s with started := false }.goto t (.locking .clear))
  | unjoined {s : System τ} {t : τ} : s.place t = .joining → s.started = false →
      Step s (.statement t) (s.goto t (.locking .clear))
  | enter {s : System τ} {u : τ} : (s.loop u).Entering → s.lock = none → s.stop = false →
      Step s (.statement u) ((s.setLock (some u)).turnTo u .looping)
  | exit {s : System τ} {u : τ} : (s.loop u).Entering → s.lock = none → s.stop = true →
      Step s (.statement u) (s.turnTo u .exited)
  | read {s : System τ} {u : τ} : s.loop u = .looping →
      Step s (.statement u) (s.turnTo u (.scanning ⟨s.now, s.alarms.keys, [], 0⟩))
  | passOver {s : System τ} {u : τ} {p : Pass} {a : OSAlarm} {rest : List OSAlarm}
      {h : HostAlarm} : s.loop u = .scanning p → p.rest = a :: rest → s.alarms[a]? = some h →
      h.isDue p.now = false →
      Step s (.statement u)
        (s.turnTo u (.scanning { p with rest, nearest := h.nearest p.nearest }))
  | collect {s : System τ} {u : τ} {p : Pass} {a : OSAlarm} {rest : List OSAlarm}
      {h : HostAlarm} : s.loop u = .scanning p → p.rest = a :: rest → s.alarms[a]? = some h →
      h.isDue p.now = true →
      Step s (.statement u) (s.turnTo u (.writing { p with due := p.due ++ [(a, h.callback)] }))
  | write {s : System τ} {u : τ} {p : Pass} {a : OSAlarm} {rest : List OSAlarm}
      {h : HostAlarm} : s.loop u = .writing p → p.rest = a :: rest → s.alarms[a]? = some h →
      Step s (.statement u)
        ((s.setAlarms (s.alarms.insert a (h.advance p.now))).turnTo u
          (.scanning { p with rest, nearest := (h.advance p.now).nearest p.nearest }))
  | invoke {s : System τ} {u : τ} {p : Pass} : s.loop u = .scanning p → p.rest = [] →
      p.due ≠ [] →
      Step s (.turn u p.now (.event .pass)) ((s.setLock none).turnTo u (.invoking p.due))
  | sleep {s : System τ} {u : τ} {p : Pass} : s.loop u = .scanning p → p.rest = [] →
      p.due = [] →
      Step s (.turn u p.now (.event .pass))
        ((s.setLock none).turnTo u (.sleeping
          (if p.nearest = 0 then none else some (ticksToNs (p.nearest - s.now)))))
  | skip {s : System τ} {u : τ} {a : OSAlarm} {due : List (OSAlarm × OSAlarmCallback)} :
      s.loop u = .invoking ((a, 0) :: due) →
      Step s (.turn u s.now (.event (.skip a))) (s.turnTo u (.invoking due))
  | fire {s : System τ} {u : τ} {a : OSAlarm} {cb : OSAlarmCallback}
      {due : List (OSAlarm × OSAlarmCallback)} : s.loop u = .invoking ((a, cb) :: due) →
      cb ≠ 0 → Step s (.turn u s.now (.event (.fire a cb))) (s.turnTo u (.inCallback a due))
  | finish {s : System τ} {u : τ} {a : OSAlarm} {due : List (OSAlarm × OSAlarmCallback)} :
      s.loop u = .inCallback a due → s.place u = .outside →
      Step s (.turn u s.now (.event (.finish a))) (s.turnTo u (.invoking due))
  | resume {s : System τ} {u : τ} : s.loop u = .invoking [] →
      Step s (.turn u s.now (.event .resume)) (s.turnTo u .locking)
  | timeout {s : System τ} {u : τ} {ns : UInt64} : s.loop u = .sleeping (some ns) →
      Step s (.statement u) (s.turnTo u .locking)
  | tick {s : System τ} {t : OSTime} : s.clock.systemTime ≤ t →
      Step s .tick { s with clock := { s.clock with systemTime := t } }
  | setTime (s : System τ) (time : OSTime) :
      Step s (.setTime time) { s with clock := s.clock.osSetAbsoluteSystemTime time }

def Place.Holding : Place → Prop
  | .inside _ => True
  | _ => False

-- In `coreinitNxAlarmShutdown`; then behind its first section, and behind its join.
def Place.Ending : Place → Prop
  | .checking sec | .resetting sec | .marking sec | .locking sec | .inside sec =>
    sec = .stop ∨ sec = .clear
  | .joining => True
  | .outside | .ensuring | .creating | .launched => False

def Place.Stopped : Place → Prop
  | .checking sec | .resetting sec | .marking sec | .locking sec | .inside sec => sec = .clear
  | .joining => True
  | .outside | .ensuring | .creating | .launched => False

def Place.Joined : Place → Prop
  | .checking sec | .resetting sec | .marking sec | .locking sec | .inside sec => sec = .clear
  | .outside | .ensuring | .creating | .launched | .joining => False

def Loop.Holding : Loop → Prop
  | .looping | .scanning _ | .writing _ => True
  | .absent | .starting | .locking | .sleeping _ | .invoking _ | .inCallback _ _ | .exited => False

-- Running, and once past `while (!g_stop)`.
def Loop.Live : Loop → Prop
  | .absent | .starting | .exited => False
  | .locking | .looping | .scanning _ | .writing _ | .sleeping _ | .invoking _
  | .inCallback _ _ => True

-- `ensureInit` does not take the lock from a thread that holds it, `ensureThread` creates no
-- thread while an earlier one runs, and `coreinitNxAlarmShutdown` is called by one thread at a
-- time and does not miss a scheduler that `ensureThread` is about to call started.
def Orderly (s : System τ) : Event τ → Prop
  | .call _ .stop => ∀ u, ¬(s.place u).Ending
  | .statement t =>
    match s.place t with
    | .resetting _ => s.lock = none
    | .creating => ∀ u, ¬(s.loop u).Running
    | .joining => s.started = false → ∀ u, ¬(s.loop u).Running
    | _ => True
  | _ => True

def OrderlyStep (s : System τ) (e : Event τ) (s' : System τ) : Prop := Orderly s e ∧ Step s e s'

abbrev Run := Transition.Run (OrderlyStep (τ := τ))

structure Inv (s : System τ) : Prop where
  calling : ∀ t, s.place t ≠ .outside → (s.loop t).Callable
  locked : ∀ t, (s.place t).Holding ∨ (s.loop t).Holding → s.lock = some t
  going : ∀ u, (s.loop u).Holding → s.stop = false
  single : ∀ u, (s.loop u).Running → s.thread = some u
  ending : ∀ t u, (s.place t).Ending → (s.place u).Ending → t = u
  stopped : ∀ t, (s.place t).Stopped → s.stop = true
  joined : ∀ t u, (s.place t).Joined → ¬(s.loop u).Live

variable {s s' s₁ : System τ} {t u : τ} {p : Place} {l : Loop} {e : Event τ} {es : List (Event τ)}

omit [DecidableEq τ] in
theorem inv_start (clock : Clock) : Inv (System.start clock : System τ) where
  calling := fun _ h => absurd rfl h
  locked := fun _ h => by rcases h with h | h <;> exact h.elim
  going := fun _ h => h.elim
  single := fun _ h => h.elim
  ending := fun _ _ h => h.elim
  stopped := fun _ h => h.elim
  joined := fun _ _ h => h.elim

theorem goto_place_self : (s.goto t p).place t = p := Function.update_self _ _ _

theorem goto_place_ne (h : u ≠ t) : (s.goto t p).place u = s.place u := Function.update_of_ne h _ _

theorem goto_cases {Q : Place → Prop} (u : τ) (h : Q ((s.goto t p).place u)) :
    u = t ∧ Q p ∨ u ≠ t ∧ Q (s.place u) := by
  by_cases hut : u = t
  · subst hut
    rw [goto_place_self] at h
    exact .inl ⟨rfl, h⟩
  · rw [goto_place_ne hut] at h
    exact .inr ⟨hut, h⟩

theorem turnTo_loop_self : (s.turnTo u l).loop u = l := Function.update_self _ _ _

theorem turnTo_loop_ne (h : t ≠ u) : (s.turnTo u l).loop t = s.loop t := Function.update_of_ne h _ _

theorem turnTo_cases {Q : Loop → Prop} (t : τ) (h : Q ((s.turnTo u l).loop t)) :
    t = u ∧ Q l ∨ t ≠ u ∧ Q (s.loop t) := by
  by_cases htu : t = u
  · subst htu
    rw [turnTo_loop_self] at h
    exact .inl ⟨rfl, h⟩
  · rw [turnTo_loop_ne htu] at h
    exact .inr ⟨htu, h⟩

theorem Loop.Holding.live (h : l.Holding) : l.Live := by
  cases l <;> first | exact h.elim | trivial

theorem Loop.Live.running (h : l.Live) : l.Running := by
  cases l <;> first | exact h.elim | trivial

theorem Loop.Callable.not_holding (h : l.Callable) : ¬l.Holding := by
  cases l <;> first | exact h.elim | exact id

theorem Place.Joined.stopped (h : p.Joined) : p.Stopped := by
  cases p <;> first | exact h.elim | exact h

theorem Place.Stopped.ending (h : p.Stopped) : p.Ending := by
  cases p <;> first | exact h.elim | exact .inr h | trivial

@[simp] theorem wake_callable : l.wake.Callable ↔ l.Callable := by cases l <;> exact Iff.rfl

@[simp] theorem wake_holding : l.wake.Holding ↔ l.Holding := by cases l <;> exact Iff.rfl

@[simp] theorem wake_running : l.wake.Running ↔ l.Running := by cases l <;> exact Iff.rfl

@[simp] theorem wake_live : l.wake.Live ↔ l.Live := by cases l <;> exact Iff.rfl

-- Two threads under the lock are one.
omit [DecidableEq τ] in
theorem Inv.exclusive (hi : Inv s) (ht : (s.place t).Holding ∨ (s.loop t).Holding)
    (hu : (s.place u).Holding ∨ (s.loop u).Holding) : u = t := by
  have hlock := hi.locked t ht
  rw [hi.locked u hu] at hlock
  exact Option.some.inj hlock

omit [DecidableEq τ] in
theorem Inv.unique (hi : Inv s) (ht : (s.loop t).Running) (hu : (s.loop u).Running) : u = t := by
  have hthread := hi.single t ht
  rw [hi.single u hu] at hthread
  exact Option.some.inj hthread

omit [DecidableEq τ] in
theorem Inv.ending_only (hi : Inv s) (ht : (s.place t).Ending) (hu : u ≠ t) :
    ¬(s.place u).Ending :=
  fun h => hu (hi.ending u t h ht)

-- While a call has the lock no scheduler does.
omit [DecidableEq τ] in
theorem Inv.no_holder (hi : Inv s) (ht : (s.place t).Holding) : ¬(s.loop u).Holding := by
  intro hu
  obtain rfl := hi.exclusive (.inl ht) (.inr hu)
  refine (hi.calling u fun hout => ?_).not_holding hu
  rw [hout] at ht
  exact ht

-- A thread goes on in its call.
theorem Inv.goto (hi : Inv s) (hcall : p ≠ .outside → (s.loop t).Callable)
    (hhold : p.Holding → s.lock = some t) (hend : p.Ending → ∀ u, u ≠ t → ¬(s.place u).Ending)
    (hstop : p.Stopped → s.stop = true) (hjoin : p.Joined → ∀ u, ¬(s.loop u).Live) :
    Inv (s.goto t p) := by
  refine ⟨fun v h => ?_, fun v h => ?_, hi.going, hi.single, fun v w hv hw => ?_, fun v h => ?_,
    fun v w h => ?_⟩
  · rcases goto_cases (Q := (· ≠ .outside)) v h with ⟨rfl, hp⟩ | ⟨-, hp⟩
    · exact hcall hp
    · exact hi.calling v hp
  · rcases h with h | h
    · rcases goto_cases v h with ⟨rfl, hp⟩ | ⟨-, hp⟩
      · exact hhold hp
      · exact hi.locked v (.inl hp)
    · exact hi.locked v (.inr h)
  · rcases goto_cases v hv with ⟨rfl, hp⟩ | ⟨hvt, hp⟩
    · rcases goto_cases w hw with ⟨rfl, -⟩ | ⟨hwt, hq⟩
      · rfl
      · exact absurd hq (hend hp w hwt)
    · rcases goto_cases w hw with ⟨rfl, hq⟩ | ⟨-, hq⟩
      · exact absurd hp (hend hq v hvt)
      · exact hi.ending v w hp hq
  · rcases goto_cases v h with ⟨rfl, hp⟩ | ⟨-, hp⟩
    · exact hstop hp
    · exact hi.stopped v hp
  · rcases goto_cases v h with ⟨rfl, hp⟩ | ⟨-, hp⟩
    · exact hjoin hp w
    · exact hi.joined v w hp

-- ... or in its loop.
theorem Inv.turnTo (hi : Inv s) (hcall : s.place u = .outside ∨ l.Callable)
    (hhold : l.Holding → s.lock = some u ∧ s.stop = false)
    (hrun : l.Running → s.thread = some u) (hlive : l.Live → ∀ t, ¬(s.place t).Joined) :
    Inv (s.turnTo u l) := by
  refine ⟨fun v h => ?_, fun v h => ?_, fun v h => ?_, fun v h => ?_, hi.ending, hi.stopped,
    fun t v h hl => ?_⟩
  · by_cases hv : v = u
    · subst hv
      rw [turnTo_loop_self]
      exact hcall.resolve_left h
    · rw [turnTo_loop_ne hv]
      exact hi.calling v h
  · rcases h with h | h
    · exact hi.locked v (.inl h)
    · rcases turnTo_cases v h with ⟨rfl, hq⟩ | ⟨-, hq⟩
      · exact (hhold hq).1
      · exact hi.locked v (.inr hq)
  · rcases turnTo_cases v h with ⟨rfl, hq⟩ | ⟨-, hq⟩
    · exact (hhold hq).2
    · exact hi.going v hq
  · rcases turnTo_cases v h with ⟨rfl, hq⟩ | ⟨-, hq⟩
    · exact hrun hq
    · exact hi.single v hq
  · rcases turnTo_cases v hl with ⟨rfl, hq⟩ | ⟨-, hq⟩
    · exact hlive hq t h
    · exact hi.joined t v h hq

omit [DecidableEq τ] in
theorem Inv.setLock (lock : Option τ) (hi : Inv s)
    (hnone : ∀ t, ¬((s.place t).Holding ∨ (s.loop t).Holding)) : Inv (s.setLock lock) :=
  ⟨hi.calling, fun t h => absurd h (hnone t), hi.going, hi.single, hi.ending, hi.stopped, hi.joined⟩

omit [DecidableEq τ] in
theorem Inv.free (hi : Inv s) (hlock : s.lock = none) :
    ∀ t, ¬((s.place t).Holding ∨ (s.loop t).Holding) := by
  intro t h
  have hheld := hi.locked t h
  rw [hlock] at hheld
  cases hheld

omit [DecidableEq τ] in
theorem Inv.wake (hi : Inv s) : Inv s.wake where
  calling := fun t h => wake_callable.2 (hi.calling t h)
  locked := fun t h => hi.locked t (h.imp_right wake_holding.1)
  going := fun u h => hi.going u (wake_holding.1 h)
  single := fun u h => hi.single u (wake_running.1 h)
  ending := hi.ending
  stopped := hi.stopped
  joined := fun t u h hl => hi.joined t u h (wake_live.1 hl)

omit [DecidableEq τ] in
theorem Inv.setAlarms {alarms : Alarms} (hi : Inv s) : Inv (s.setAlarms alarms) :=
  ⟨hi.calling, hi.locked, hi.going, hi.single, hi.ending, hi.stopped, hi.joined⟩

omit [DecidableEq τ] in
@[simp] theorem call_place {op : Op} : (s.call op).place = s.place := by
  rw [System.call]
  split <;> rfl

omit [DecidableEq τ] in
theorem Inv.call {op : Op} (hi : Inv s) : Inv (s.call op) := by
  rw [System.call]
  split
  next => exact hi.setAlarms.wake
  next => exact hi.setAlarms

theorem Inv.lock {sec : Section} (hi : Inv s) (ht : s.place t = .locking sec)
    (hlock : s.lock = none) : Inv ((s.setLock (some t)).goto t (.inside sec)) := by
  have hsame := hi.setLock (some t) (hi.free hlock)
  have hcall := hi.calling t (by rw [ht]; exact nofun)
  exact hsame.goto (fun _ => hcall) (fun _ => rfl)
    (fun h _ hu => hi.ending_only (by rw [ht]; exact h) hu)
    (fun h => hi.stopped t (by rw [ht]; exact h)) fun h u => hi.joined t u (by rw [ht]; exact h)

-- The thread that has the lock gives it up with the section it was in.
theorem Inv.unlock {sec : Section} (hi : Inv s) (ht : s.place t = .inside sec)
    (hhold : ¬p.Holding) (hend : p.Ending → sec = .stop ∨ sec = .clear)
    (hstop : p.Stopped → s.stop = true) (hjoin : ¬p.Joined) :
    Inv ((s.setLock none).goto t p) := by
  have hheld : (s.place t).Holding := by rw [ht]; trivial
  have hcall := hi.calling t (by rw [ht]; exact nofun)
  have hgone : Inv (s.goto t p) :=
    hi.goto (fun _ => hcall) (fun h => absurd h hhold)
      (fun h _ hu => hi.ending_only (by rw [ht]; exact hend h) hu) hstop (fun h => absurd h hjoin)
  refine hgone.setLock none fun u hu => ?_
  rcases hu with hu | hu
  · rcases goto_cases u hu with ⟨-, hq⟩ | ⟨hne, hq⟩
    · exact hhold hq
    · exact hne (hi.exclusive (.inl hheld) (.inl hq))
  · exact hi.no_holder hheld hu

theorem Inv.leave {sec : Section} (hi : Inv s) (ht : s.place t = .inside sec)
    (hhold : ¬p.Holding) (hend : ¬p.Ending) : Inv ((s.setLock none).goto t p) :=
  hi.unlock ht hhold (fun h => absurd h hend) (fun h => absurd h.ending hend)
    fun h => hend h.stopped.ending

-- A scheduler gives the lock up to sleep, or to invoke what it has collected.
theorem Inv.release (hi : Inv s) (hu : (s.loop u).Holding) (hhold : ¬l.Holding) :
    Inv ((s.setLock none).turnTo u l) := by
  have hout : s.place u = .outside := by
    by_contra hne
    exact (hi.calling u hne).not_holding hu
  have hgone : Inv (s.turnTo u l) :=
    hi.turnTo (.inl hout) (fun h => absurd h hhold) (fun _ => hi.single u hu.live.running)
      fun _ t ht => hi.joined t u ht hu.live
  refine hgone.setLock none fun t ht => ?_
  rcases ht with ht | ht
  · exact hi.no_holder ht hu
  · rcases turnTo_cases t ht with ⟨-, hq⟩ | ⟨hne, hq⟩
    · exact hhold hq
    · exact hne (hi.exclusive (.inr hu) (.inr hq))

theorem Inv.on {q : Place} (hi : Inv s) (ht : s.place t = q) (hne : q ≠ .outside)
    (hhold : ¬p.Holding) (hend : p.Ending → q.Ending) (hstop : p.Stopped → q.Stopped)
    (hjoin : p.Joined → q.Joined) : Inv (s.goto t p) := by
  subst ht
  exact hi.goto (fun _ => hi.calling t hne) (fun h => absurd h hhold)
    (fun h _ hu => hi.ending_only (hend h) hu) (fun h => hi.stopped t (hstop h))
    fun h u => hi.joined t u (hjoin h)

-- Nothing else do the clauses speak of.
omit [DecidableEq τ] in
theorem Inv.congr (hi : Inv s) (hplace : s'.place = s.place) (hloop : s'.loop = s.loop)
    (hlock : s'.lock = s.lock) (hthread : s'.thread = s.thread) (hstop : s'.stop = s.stop) :
    Inv s' := by
  obtain ⟨alarms, clock, inited, started, stop, lock, thread, place, loop⟩ := s'
  cases hplace
  cases hloop
  cases hlock
  cases hthread
  cases hstop
  exact ⟨hi.calling, hi.locked, hi.going, hi.single, hi.ending, hi.stopped, hi.joined⟩

theorem Inv.begin {sec : Section} (hi : Inv s) (hcall : (s.loop t).Callable) (hbegins : sec.Begins)
    (hstop : sec = .stop → ∀ u, ¬(s.place u).Ending) : Inv (s.goto t (.checking sec)) := by
  have hclear : sec ≠ .clear := by
    rintro rfl
    exact hbegins
  refine hi.goto (fun _ => hcall) False.elim (fun hend u _ => ?_) (fun h => absurd h hclear)
    fun h => absurd h hclear
  exact hstop (hend.resolve_right hclear) u

-- Behind the join no scheduler is left but those that will find `g_stop` set.
theorem Inv.join (hi : Inv s) (ht : s.place t = .joining) (hnone : ∀ u, ¬(s.loop u).Live) :
    Inv (s.goto t (.locking .clear)) := by
  have hcall := hi.calling t (by rw [ht]; exact nofun)
  have hend : (s.place t).Ending := by rw [ht]; trivial
  have hstop := hi.stopped t (by rw [ht]; trivial)
  exact hi.goto (fun _ => hcall) False.elim (fun _ _ hu => hi.ending_only hend hu) (fun _ => hstop)
    fun _ => hnone

omit [DecidableEq τ] in
theorem Inv.requestStop (hi : Inv s) (ht : (s.place t).Holding) : Inv { s with stop := true } :=
  ⟨hi.calling, hi.locked, fun _ h => absurd h (hi.no_holder ht), hi.single, hi.ending,
    fun _ _ => rfl, hi.joined⟩

theorem Inv.clear (hi : Inv s) (ht : s.place t = .inside .clear) :
    Inv (({ s with alarms := ∅, stop := false }.setLock none).goto t .outside) := by
  have hgone := hi.leave (p := .outside) ht id id
  have hend : (s.place t).Ending := by rw [ht]; exact .inr rfl
  refine ⟨hgone.calling, hgone.locked, fun _ _ => rfl, hgone.single, hgone.ending, fun u h => ?_,
    hgone.joined⟩
  rcases goto_cases u h with ⟨-, hq⟩ | ⟨hne, hq⟩
  · exact hq.elim
  · exact absurd hq.ending (hi.ending_only hend hne)

omit [DecidableEq τ] in
theorem Inv.setThread {thread : Option τ} (hi : Inv s) (hnone : ∀ u, ¬(s.loop u).Running) :
    Inv { s with thread } :=
  ⟨hi.calling, hi.locked, hi.going, fun u h => absurd h (hnone u), hi.ending, hi.stopped,
    hi.joined⟩

-- A scheduler goes on in its pass.
theorem Inv.scan {k : Loop} (hi : Inv s) (hu : s.loop u = k) (hheld : k.Holding) :
    Inv (s.turnTo u l) := by
  subst hu
  have hout : s.place u = .outside := by
    by_contra hne
    exact (hi.calling u hne).not_holding hheld
  exact hi.turnTo (.inl hout) (fun _ => ⟨hi.locked u (.inr hheld), hi.going u hheld⟩)
    (fun _ => hi.single u hheld.live.running) fun _ t ht => hi.joined t u ht hheld.live

-- ... or in what it does without the lock.
theorem Inv.unheld {k : Loop} (hi : Inv s) (hu : s.loop u = k) (hlive : k.Live)
    (hcall : s.place u = .outside ∨ l.Callable) (hhold : ¬l.Holding) : Inv (s.turnTo u l) := by
  subst hu
  exact hi.turnTo hcall (fun h => absurd h hhold) (fun _ => hi.single u hlive.running)
    fun _ t ht => hi.joined t u ht hlive

theorem Inv.create (hi : Inv s) (ht : s.place t = .creating) (hout : s.place u = .outside)
    (hnone : ∀ u, ¬(s.loop u).Running) :
    Inv (({ s with thread := some u }.turnTo u .starting).goto t .launched) := by
  have hcreated : Inv ({ s with thread := some u }.turnTo u .starting) :=
    (hi.setThread hnone).turnTo (.inl hout) False.elim (fun _ => rfl) False.elim
  exact hcreated.on ht nofun id False.elim False.elim False.elim

omit [DecidableEq τ] in
theorem Inv.outside_of_entering (hi : Inv s) (hu : (s.loop u).Entering) : s.place u = .outside := by
  by_contra hne
  have hcall := hi.calling u hne
  revert hu hcall
  cases s.loop u <;> first | exact fun h => h.elim | exact fun _ => id

omit [DecidableEq τ] in
theorem Loop.Entering.running (h : l.Entering) : l.Running := by
  cases l <;> first | exact h.elim | trivial

theorem Inv.enter (hi : Inv s) (hu : (s.loop u).Entering) (hlock : s.lock = none)
    (hstop : s.stop = false) : Inv ((s.setLock (some u)).turnTo u .looping) := by
  refine (hi.setLock (some u) (hi.free hlock)).turnTo (.inl (hi.outside_of_entering hu))
    (fun _ => ⟨rfl, hstop⟩) (fun _ => hi.single u hu.running) fun _ t ht => ?_
  have hset := hi.stopped t ht.stopped
  rw [hstop] at hset
  cases hset

theorem Inv.exit (hi : Inv s) (hu : (s.loop u).Entering) : Inv (s.turnTo u .exited) :=
  hi.turnTo (.inl (hi.outside_of_entering hu)) False.elim False.elim False.elim

omit [DecidableEq τ] in
theorem Inv.outside {k : Loop} (hi : Inv s) (hu : s.loop u = k) (hcall : ¬k.Callable) :
    s.place u = .outside := by
  subst hu
  by_contra hne
  exact hcall (hi.calling u hne)

theorem Inv.step (hi : Inv s) (ho : Orderly s e) (hs : Step s e s') : Inv s' := by
  cases hs with
  | null | nullWait => exact hi
  | begin hout hcall hbegins =>
    refine hi.begin hcall hbegins ?_
    rintro rfl
    exact ho
  | inited ht | uninited ht => exact hi.on ht nofun id id id id
  | nothing ht | started ht | unstarted ht =>
    exact hi.on ht nofun id False.elim False.elim False.elim
  | reset ht =>
    rw [Orderly, ht] at ho
    exact (hi.setLock none (hi.free ho)).on ht nofun id id id id
  | mark ht => exact Inv.on (hi.congr rfl rfl rfl rfl rfl) ht nofun id id id id
  | lock ht hlock => exact hi.lock ht hlock
  | body ht =>
    refine hi.call.leave ((congrFun call_place _).trans ht) ?_ ?_ <;> split <;> exact id
  | wait ht =>
    refine hi.leave ht ?_ ?_
    · split <;> exact id
    · split
      next => exact id
      next => rintro (h | h) <;> cases h
  | @stop t ht =>
    have hheld : (s.place t).Holding := by rw [ht]; trivial
    exact (hi.requestStop hheld).wake.unlock ht id (fun _ => .inl rfl) (fun _ => rfl) id
  | clear ht => exact hi.clear ht
  | created ht hout habsent =>
    rw [Orderly, ht] at ho
    exact hi.create ht hout ho
  | refused thread ht =>
    rw [Orderly, ht] at ho
    exact (hi.setThread ho).on ht nofun id False.elim False.elim False.elim
  | launched ht =>
    exact Inv.on (hi.congr rfl rfl rfl rfl rfl) ht nofun id False.elim False.elim False.elim
  | @joined t u ht hstarted hthread hexited =>
    have hnone (v : τ) (hv : (s.loop v).Live) : False := by
      obtain rfl : u = v := Option.some.inj (hthread.symm.trans (hi.single v hv.running))
      rw [hexited] at hv
      exact hv
    exact Inv.join (hi.congr rfl rfl rfl rfl rfl) ht hnone
  | unjoined ht hstarted =>
    rw [Orderly, ht] at ho
    exact hi.join ht fun u hu => ho hstarted u hu.running
  | enter hloop hlock hstop => exact hi.enter hloop hlock hstop
  | exit hloop => exact hi.exit hloop
  | read hloop | passOver hloop | collect hloop => exact hi.scan hloop trivial
  | write hloop => exact Inv.scan (hi.congr rfl rfl rfl rfl rfl) hloop trivial
  | invoke hloop | sleep hloop => exact hi.release (by rw [hloop]; trivial) id
  | skip hloop | fire hloop => exact hi.unheld hloop trivial (.inl (hi.outside hloop id)) id
  | finish hloop hout => exact hi.unheld hloop trivial (.inl hout) id
  | resume hloop | timeout hloop =>
    exact hi.unheld hloop trivial (.inl (hi.outside hloop id)) id
  | tick | setTime => exact hi.congr rfl rfl rfl rfl rfl

theorem inv_run {clock : Clock} (run : Run (System.start clock) es s) : Inv s :=
  run.invariant_of (fun _ _ => trivial) (inv_start clock)
    fun _ _ _ (_ : True) hi hs => hi.step hs.1 hs.2

end Threads

end CoreinitNx.Alarm
