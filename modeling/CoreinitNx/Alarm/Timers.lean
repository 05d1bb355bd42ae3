import CoreinitNx.Alarm.Armed

namespace CoreinitNx.Alarm

structure Arming where
  due : OSTime
  interval : OSTime
  callback : OSAlarmCallback
deriving DecidableEq, Repr

-- One alarm by itself. It rings from the pass that finds it due until its callback is invoked.
structure Timer where
  arming : Option Arming
  group : UInt32
  userData : UInt64
  ringing : Option OSAlarmCallback
deriving DecidableEq, Repr

namespace Timer

def fresh : Timer := ⟨none, 0, 0, none⟩

-- The null alarm is none.
def edit (t : Timer) (a b : OSAlarm) (f : Timer → Timer) : Timer :=
  if b = a ∧ b ≠ 0 then f t else t

def call (t : Timer) (a : OSAlarm) (now : OSTime) : Op → Timer
  | .create b => t.edit a b fun t => { fresh with ringing := t.ringing }
  | .set b time callback => t.edit a b fun t => { t with arming := some ⟨now + time, 0, callback⟩ }
  | .setPeriodic b start interval callback =>
    t.edit a b fun t => { t with arming := some ⟨now + start, interval, callback⟩ }
  | .cancel b => t.edit a b fun t => { t with arming := none }
  | .cancelAll group => if t.group = group then { t with arming := none } else t
  | .setTag b group => t.edit a b fun t => { t with group }
  | .setUserData b userData => t.edit a b fun t => { t with userData }
  | .getUserData _ => t

def again (arming : Arming) (now : OSTime) : Option Arming :=
  if arming.interval > 0 then some { arming with due := now + arming.interval } else none

def pass (t : Timer) (now : OSTime) : Timer :=
  match t.arming with
  | some arming =>
    if arming.due ≤ now then
      { t with arming := again arming now, ringing := some arming.callback }
    else t
  | none => t

def after (a : OSAlarm) (t : Timer) : OSTime × Turn → Timer
  | (now, .event (.call op _)) => t.call a now op
  | (now, .event .pass) => t.pass now
  | (_, .event (.skip b)) => if b = a then { t with ringing := none } else t
  | (_, .event (.fire b _)) => if b = a then { t with ringing := none } else t
  | (_, .event .shutdown) => fresh
  | _ => t

end Timer

-- By what has been done to `a` and the times it was done at, whatever the others did.
def timer (a : OSAlarm) (log : List (OSTime × Turn)) : Timer := log.foldl (Timer.after a) .fresh

def Op.answer (t : OSAlarm → Timer) : Op → Reply
  | .create _ | .cancelAll _ | .setTag _ _ | .setUserData _ _ => .void
  | .set a _ _ | .setPeriodic a _ _ _ => .ret (if a = 0 then 0 else 1)
  | .cancel a => .ret (if (t a).arming.isSome then 1 else 0)
  | .getUserData a => .pointer (t a).userData

-- What the timers say of an event before it comes.
def Turn.Foretold (t : OSAlarm → Timer) : Turn → Prop
  | .event (.call op reply) => reply = op.answer t
  | .event (.fire a callback) => (t a).ringing = some callback ∧ callback ≠ 0
  | .event (.skip a) => (t a).ringing = some 0
  | .event .pass | .event .resume => ∀ a, (t a).ringing = none
  | .wait a answer =>
    answer = if a = 0 then some 0 else if (t a).arming.isSome then none else some 1
  | _ => True

def HostAlarm.arming (h : HostAlarm) : Option Arming :=
  if h.armed then some ⟨h.due, h.interval, h.callback⟩ else none

def HostAlarm.timer (h : HostAlarm) (ringing : Option OSAlarmCallback) : Timer :=
  ⟨h.arming, h.group, h.userData, ringing⟩

def State.ringing (s : State) (a : OSAlarm) : Option OSAlarmCallback :=
  (collections a s).head?.map Prod.snd

def State.timer (s : State) (a : OSAlarm) : Timer := (s.alarms.at a).timer (s.ringing a)

section Atomic

variable {s s' : State} {e : Event} {a b : OSAlarm} {alarms : Alarms} {h : HostAlarm} {op : Op}
  {now : OSTime} {ringing : Option OSAlarmCallback}

theorem at_insert (alarms : Alarms) (a b : OSAlarm) (h : HostAlarm) :
    Alarms.at (alarms.insert b h) a = if b = a then h else alarms.at a := by
  rw [Alarms.at, Std.TreeMap.getElem?_insert]
  by_cases hba : b = a
  · subst hba
    rw [if_pos rfl, if_pos Std.ReflCmp.compare_self, Option.getD_some]
  · rw [if_neg hba, if_neg fun heq => hba (Std.LawfulEqCmp.eq_of_compare heq)]
    rfl

theorem at_map (f : HostAlarm → HostAlarm) (hzero : f .zero = .zero) (alarms : Alarms)
    (a : OSAlarm) : Alarms.at (alarms.map fun _ h => f h) a = f (alarms.at a) := by
  rw [Alarms.at, Alarms.at, Std.TreeMap.getElem?_map]
  cases alarms[a]? with
  | some h => rfl
  | none => exact hzero.symm

theorem at_of_some (hget : alarms[a]? = some h) : alarms.at a = h := by
  rw [Alarms.at, hget, Option.getD_some]

theorem at_of_none (hget : alarms[a]? = none) : alarms.at a = .zero := by
  rw [Alarms.at, hget, Option.getD_none]

theorem timer_insert {f : Timer → Timer} (hb : b ≠ 0)
    (hf : h.timer ringing = f ((alarms.at b).timer ringing)) :
    (Alarms.at (alarms.insert b h) a).timer ringing = ((alarms.at a).timer ringing).edit a b f := by
  rw [at_insert, Timer.edit]
  by_cases hba : b = a
  · subst hba
    rw [if_pos rfl, if_pos ⟨rfl, hb⟩, hf]
  · rw [if_neg hba, if_neg fun hand => hba hand.1]

theorem edit_null (t : Timer) (a : OSAlarm) (f : Timer → Timer) : t.edit a 0 f = t :=
  if_neg fun hand => hand.2 rfl

theorem call_timer (op : Op) (s : State) (a : OSAlarm) :
    ((call op s).2.alarms.at a).timer ringing =
      ((s.alarms.at a).timer ringing).call a s.clock.osGetTime op := by
  cases op with
  | create b =>
    rw [call, osCreateAlarm, Timer.call]
    split
    next hz => rw [hz, edit_null]
    next hz => exact timer_insert hz rfl
  | set b time callback =>
    rw [call, osSetAlarm, arm, Timer.call]
    split
    next hz => rw [hz, edit_null]
    next hz =>
      dsimp only
      rw [wake_alarms]
      exact timer_insert hz rfl
  | setPeriodic b start interval callback =>
    rw [call, osSetPeriodicAlarm, arm, Timer.call]
    split
    next hz => rw [hz, edit_null]
    next hz =>
      dsimp only
      rw [wake_alarms]
      exact timer_insert hz rfl
  | cancel b =>
    rw [call, osCancelAlarm, Timer.call]
    split
    next hz => rw [hz, edit_null]
    next hz =>
      split
      next h hget =>
        dsimp only
        rw [wake_alarms]
        refine timer_insert hz ?_
        rw [at_of_some hget]
        rfl
      next hget =>
        dsimp only
        rw [wake_alarms, Timer.edit]
        split
        next hand =>
          rw [← hand.1, at_of_none hget]
          rfl
        next => rfl
  | cancelAll group =>
    rw [call, osCancelAlarms, Timer.call]
    dsimp only
    rw [wake_alarms, at_map (fun h => if h.group = group then { h with armed := false } else h)
      (ite_self _)]
    by_cases hgroup : (s.alarms.at a).group = group
    · rw [if_pos hgroup]
      exact (if_pos hgroup).symm
    · rw [if_neg hgroup]
      exact (if_neg hgroup).symm
  | setTag b group =>
    rw [call, osSetAlarmTag, Timer.call]
    split
    next hz => rw [hz, edit_null]
    next hz => exact timer_insert hz rfl
  | setUserData b data =>
    rw [call, osSetAlarmUserData, Timer.call]
    split
    next hz => rw [hz, edit_null]
    next hz => exact timer_insert hz rfl
  | getUserData b =>
    rw [call, osGetAlarmUserData, Timer.call]
    split
    next => rfl
    next => split <;> rfl

theorem call_ringing (op : Op) (s : State) (a : OSAlarm) :
    (call op s).2.ringing a = s.ringing a := by
  rw [State.ringing, State.ringing, collections, collections, call_batch]

theorem arming_of_disarmed (harmed : h.armed = false) : h.arming = none := by
  rw [HostAlarm.arming, harmed]
  rfl

theorem arming_of_armed (harmed : h.armed = true) :
    h.arming = some ⟨h.due, h.interval, h.callback⟩ := by
  rw [HostAlarm.arming, harmed]
  rfl

-- A pass leaves of each alarm, and rings, what it would of it alone.
theorem settle_timer (now : OSTime) (h : HostAlarm) (ringing : Option OSAlarmCallback) :
    (h.timer ringing).pass now =
      (h.settle now).timer (if h.isDue now then some h.callback else ringing) := by
  cases harmed : h.armed with
  | false =>
    rw [HostAlarm.settle, isDue_of_disarmed harmed, Timer.pass, HostAlarm.timer,
      arming_of_disarmed harmed]
    exact congrArg (Timer.mk · _ _ _) (arming_of_disarmed harmed).symm
  | true =>
    have hdue : h.isDue now = decide (h.due ≤ now) := by
      rw [HostAlarm.isDue, harmed, Bool.true_and]
    rw [HostAlarm.settle, hdue, Timer.pass, HostAlarm.timer, arming_of_armed harmed]
    by_cases hle : h.due ≤ now
    · by_cases hi : h.interval > 0
      · simp [hle, hi, HostAlarm.advance, Timer.again, HostAlarm.timer, HostAlarm.arming, harmed]
      · simp [hle, hi, HostAlarm.advance, Timer.again, HostAlarm.timer, HostAlarm.arming]
    · simp [hle, HostAlarm.timer, HostAlarm.arming, harmed]

theorem collections_pass (s : State) (later : Clock) (a : OSAlarm) :
    collections a (schedulerPass s later) =
      if (s.alarms.at a).isDue s.clock.osGetTime then [(a, (s.alarms.at a).callback)] else [] := by
  cases hget : s.alarms[a]? with
  | none =>
    rw [at_of_none hget]
    exact collections_pass_none fun h hget' => nomatch hget.symm.trans hget'
  | some h =>
    rw [at_of_some hget]
    cases harmed : h.armed with
    | false =>
      rw [isDue_of_disarmed harmed]
      exact collections_pass_none fun h' hget' => by
        cases hget.symm.trans hget'
        exact isDue_of_disarmed harmed
    | true =>
      have hfor : ArmedFor s.alarms a h.due h.interval h.callback := ⟨h, hget, harmed, rfl, rfl, rfl⟩
      rw [HostAlarm.isDue, harmed, Bool.true_and]
      by_cases hle : h.due ≤ s.clock.osGetTime
      · rw [hfor.collections_due hle, if_pos (decide_eq_true hle)]
      · rw [hfor.collections_early hle, if_neg fun h => hle (of_decide_eq_true h)]

-- What a pass has collected rings once for each alarm.
def RingsOnce (s : State) (a : OSAlarm) : Prop := (collections a s).length ≤ 1

theorem ringing_of_batch_nil (h : s.scheduler.batch = []) : s.ringing a = none := by
  rw [State.ringing, collections, h]
  rfl

theorem pass_timer (s : State) (later : Clock) (a : OSAlarm) (hidle : s.scheduler.batch = []) :
    (schedulerPass s later).timer a = (s.timer a).pass s.clock.osGetTime := by
  have hat : (schedulerPass s later).alarms.at a = (s.alarms.at a).settle s.clock.osGetTime := by
    rw [Alarms.at, schedulerPass_getElem?, Alarms.at]
    cases s.alarms[a]? <;> rfl
  rw [State.timer, State.timer, settle_timer, hat, State.ringing, collections_pass,
    ringing_of_batch_nil hidle]
  split <;> rfl

theorem collections_cons {due : List (OSAlarm × OSAlarmCallback)} {callback : OSAlarmCallback}
    (hsched : s.scheduler.batch = (b, callback) :: due) (hrest : s'.scheduler.batch = due) :
    collections a s =
      if b = a then (b, callback) :: collections a s' else collections a s' := by
  rw [collections, collections, hsched, hrest, List.filter_cons]
  exact if_congr decide_eq_true_iff rfl rfl

theorem ringing_head {due : List (OSAlarm × OSAlarmCallback)} {callback : OSAlarmCallback}
    (hsched : s.scheduler.batch = (a, callback) :: due) : s.ringing a = some callback := by
  rw [State.ringing, collections, hsched, List.filter_cons_of_pos (by simp)]
  rfl

-- Each step does to every alarm what it would do to it alone.
def Alone (s : State) (e : Event) (s' : State) : Prop :=
  (∀ a, RingsOnce s' a) ∧
    ∀ a, s'.timer a = (s.timer a).after a (s.clock.osGetTime, .event e)

theorem alone_of_same (honce : ∀ a, RingsOnce s a) (halarms : s'.alarms = s.alarms)
    (hbatch : s'.scheduler.batch = s.scheduler.batch)
    (he : ∀ a t, Timer.after a t (s.clock.osGetTime, .event e) = t) : Alone s e s' := by
  have hcollections (a : OSAlarm) : collections a s' = collections a s := by
    rw [collections, collections, hbatch]
  refine ⟨fun a => ?_, fun a => ?_⟩
  · rw [RingsOnce, hcollections]
    exact honce a
  · rw [he, State.timer, State.timer, State.ringing, State.ringing, halarms, hcollections]

-- The callback at the head of the batch leaves it, to be invoked or, if null, passed over.
theorem alone_of_leave {due : List (OSAlarm × OSAlarmCallback)} {callback : OSAlarmCallback}
    (honce : ∀ a, RingsOnce s a) (hsched : s.scheduler.batch = (b, callback) :: due)
    (hrest : s'.scheduler.batch = due) (halarms : s'.alarms = s.alarms)
    (he : ∀ a t, Timer.after a t (s.clock.osGetTime, .event e) =
      if b = a then { t with ringing := none } else t) : Alone s e s' := by
  have heach (a : OSAlarm) : RingsOnce s' a ∧
      s'.timer a = if b = a then { s.timer a with ringing := none } else s.timer a := by
    have hcons := collections_cons (a := a) hsched hrest
    have hlength := honce a
    rw [RingsOnce, hcons] at hlength
    rw [RingsOnce, State.timer, State.timer, halarms, State.ringing, State.ringing, hcons]
    by_cases hba : b = a
    · rw [if_pos hba, List.length_cons] at hlength
      have hnil : collections a s' = [] := List.length_eq_zero_iff.1 (by omega)
      rw [if_pos hba, hnil]
      exact ⟨Nat.zero_le _, rfl⟩
    · rw [if_neg hba] at hlength
      rw [if_neg hba, if_neg hba]
      exact ⟨hlength, rfl⟩
  refine ⟨fun a => (heach a).1, fun a => ?_⟩
  rw [he]
  exact (heach a).2

theorem batch_nil_of_eq {sched : Scheduler} (h : s.scheduler = sched) (hnil : sched.batch = []) :
    s.scheduler.batch = [] := by
  rw [h, hnil]

theorem Step.alone (hs : Step s e s') (honce : ∀ a, RingsOnce s a) : Alone s e s' := by
  cases hs with
  | call op =>
    refine ⟨fun a => ?_, fun a => ?_⟩
    · rw [RingsOnce, collections, call_batch]
      exact honce a
    · rw [State.timer, call_ringing]
      exact call_timer op s a
  | startThread hoff =>
    exact alone_of_same honce rfl (batch_nil_of_eq hoff rfl).symm fun _ _ => rfl
  | resume hsched =>
    exact alone_of_same honce rfl (batch_nil_of_eq hsched rfl).symm fun _ _ => rfl
  | timeout hsched =>
    exact alone_of_same honce rfl (batch_nil_of_eq hsched rfl).symm fun _ _ => rfl
  | exit hsched =>
    exact alone_of_same honce rfl (batch_nil_of_eq hsched rfl).symm fun _ _ => rfl
  | finish hsched =>
    exact alone_of_same honce rfl (congrArg Scheduler.batch hsched).symm fun _ _ => rfl
  | tick | setTime => exact alone_of_same honce rfl rfl fun _ _ => rfl
  | requestStop => exact alone_of_same honce (wake_alarms _) (wake_batch _) fun _ _ => rfl
  | @pass later hloop =>
    have hidle := batch_nil_of_eq hloop rfl
    refine ⟨fun a => ?_, fun a => pass_timer s later a hidle⟩
    rw [RingsOnce, collections_pass]
    split
    · exact Nat.le_refl 1
    · exact Nat.zero_le 1
  | skip hsched | fire hsched =>
    exact alone_of_leave honce (congrArg Scheduler.batch hsched) rfl rfl fun _ _ => rfl
  | shutdown => exact ⟨fun _ => Nat.zero_le 1, fun _ => rfl⟩

theorem call_answer (op : Op) (hnull : s.timer 0 = .fresh) :
    (call op s).1 = op.answer s.timer := by
  cases op with
  | create b =>
    rw [call, osCreateAlarm]
    split <;> rfl
  | set b time callback =>
    rw [call, osSetAlarm, arm, Op.answer]
    split <;> rfl
  | setPeriodic b start interval callback =>
    rw [call, osSetPeriodicAlarm, arm, Op.answer]
    split <;> rfl
  | cancel b =>
    rw [call, osCancelAlarm, Op.answer]
    split
    next hz =>
      rw [hz, hnull]
      rfl
    next =>
      split
      next h hget =>
        rw [State.timer, at_of_some hget, HostAlarm.timer, HostAlarm.arming]
        cases h.armed <;> rfl
      next hget =>
        rw [State.timer, at_of_none hget]
        rfl
  | cancelAll group => rfl
  | setTag b group =>
    rw [call, osSetAlarmTag]
    split <;> rfl
  | setUserData b data =>
    rw [call, osSetAlarmUserData]
    split <;> rfl
  | getUserData b =>
    rw [call, osGetAlarmUserData, Op.answer]
    split
    next hz =>
      rw [hz, hnull]
      rfl
    next =>
      split
      next h hget =>
        rw [State.timer, at_of_some hget]
        rfl
      next hget =>
        rw [State.timer, at_of_none hget]
        rfl

theorem wait_answer (s : State) (a : OSAlarm) : osWaitAlarmTurn s a =
    if a = 0 then some 0 else if (s.timer a).arming.isSome then none else some 1 := by
  rw [osWaitAlarmTurn]
  split
  next => rfl
  next =>
    split
    next h hget =>
      rw [State.timer, at_of_some hget, HostAlarm.timer, HostAlarm.arming]
      cases h.armed <;> rfl
    next hget =>
      rw [State.timer, at_of_none hget]
      rfl

theorem Step.foretold (hs : Step s e s') (hnull : s.timer 0 = .fresh) :
    (Turn.event e).Foretold s.timer := by
  cases hs with
  | call op => exact call_answer op hnull
  | skip hsched => exact ringing_head (congrArg Scheduler.batch hsched)
  | fire hsched hcb => exact ⟨ringing_head (congrArg Scheduler.batch hsched), hcb⟩
  | pass hsched | resume hsched =>
    exact fun a => ringing_of_batch_nil (batch_nil_of_eq hsched rfl)
  | startThread | finish | timeout | tick | setTime | requestStop | exit | shutdown =>
    trivial

theorem edit_zero (t : Timer) (b : OSAlarm) (f : Timer → Timer) : t.edit 0 b f = t :=
  if_neg fun hand => hand.2 hand.1

theorem after_null (x : OSTime × Turn) : Timer.fresh.after 0 x = .fresh := by
  obtain ⟨now, turn⟩ := x
  cases turn with
  | wait => rfl
  | event e =>
    cases e with
    | call op reply =>
      cases op with
      | cancelAll group => exact ite_self _
      | getUserData => rfl
      | _ => rw [Timer.after, Timer.call, edit_zero]
    | skip | fire => exact ite_self _
    | _ => rfl

theorem timer_concat (a : OSAlarm) (log : List (OSTime × Turn)) (x : OSTime × Turn) :
    timer a (log ++ [x]) = (timer a log).after a x := by
  rw [timer, List.foldl_append]
  rfl

theorem timer_null (log : List (OSTime × Turn)) : timer 0 log = .fresh := by
  induction log using List.reverseRecOn with
  | nil => rfl
  | append_singleton log x ih => rw [timer_concat, ih, after_null]

theorem call_of_null (t : Timer) (hnull : op.null = true) : t.call a now op = t := by
  cases op with
  | cancelAll group => cases hnull
  | getUserData => rfl
  | create b | set b time callback | setPeriodic b start interval callback | cancel b
  | setTag b group | setUserData b data =>
    obtain rfl : b = 0 := of_decide_eq_true hnull
    rw [Timer.call, edit_null]

end Atomic

namespace Threads

variable {τ : Type}

def Event.logged : Event τ → Option (OSTime × Turn)
  | .turn _ now shown => some (now, shown)
  | .call _ _ | .statement _ | .tick | .setTime _ => none

-- The turns of a run, each with the time it goes by.
def turnsOf (es : List (Event τ)) : List (OSTime × Turn) := es.filterMap Event.logged

def System.ringing (s : System τ) (a : OSAlarm) : Option OSAlarmCallback :=
  s.thread.bind fun u => (collected a (s.loop u)).head?.map Prod.snd

def System.timer (s : System τ) (a : OSAlarm) : Timer := (s.alarms.at a).timer (s.ringing a)

variable {s s' : System τ} {st st' : State} {t u : τ} {e : Event τ} {es : List (Event τ)}
  {x : Turn}

theorem Shows.ringing (hv : Shows s st) (hi : Inv s) (a : OSAlarm) :
    s.ringing a = st.ringing a := by
  obtain ⟨l, hl, hstands, -⟩ := hv.current
  rw [System.ringing, State.ringing, collections, hstands.batch]
  rcases hl with ⟨u, rfl, hu⟩ | ⟨rfl, hnone⟩
  · rw [hi.single u hu]
    rfl
  · cases hthread : s.thread with
    | none => rfl
    | some u =>
      have hidle : (s.loop u).batch = [] :=
        by_contra fun hne => hnone u (Loop.running_of_batch hne)
      rw [Option.bind_some, collected, hidle]
      rfl

-- No pass is on its way through the alarms.
theorem Shows.timer (hv : Shows s st) (hi : Inv s) (hnone : ∀ u, ¬(s.loop u).Holding)
    (a : OSAlarm) : s.timer a = st.timer a := by
  rw [System.timer, State.timer, hv.ringing hi, (hv.same hnone).1]

theorem Moves.timer (hm : Moves st e st') (honce : ∀ a, RingsOnce st a) :
    (∀ a, RingsOnce st' a) ∧
      ∀ a, st'.timer a = e.logged.toList.foldl (Timer.after a) (st.timer a) := by
  cases hm with
  | turn hs =>
    cases hs with
    | event hs => exact hs.alone honce
    | wait => exact ⟨honce, fun _ => rfl⟩
  | null hnull => exact ⟨honce, fun _ => (call_of_null _ hnull).symm⟩
  | nullWait => exact ⟨honce, fun _ => rfl⟩
  | stay hno =>
    cases e with
    | turn t now turn => exact absurd rfl (hno t now turn)
    | call | statement | tick | setTime => exact ⟨honce, fun _ => rfl⟩
  | statement he hs =>
    rcases he with rfl | rfl | rfl <;> exact hs.alone honce
  | tick hs => exact hs.alone honce
  | setTime hs => exact hs.alone honce

-- What the timers say of a turn before it comes is what the state makes of it.
theorem Moves.foretold {now : OSTime} (hm : Moves st (.turn t now x : Event τ) st')
    (hnull : st.timer 0 = .fresh) : x.Foretold st.timer := by
  cases hm with
  | turn hs =>
    cases hs with
    | event hs => exact hs.foretold hnull
    | wait alarm => exact wait_answer st alarm
  | @null t now op => exact call_answer op hnull
  | nullWait => exact wait_answer st 0
  | stay hno => exact absurd rfl (hno t now x)

theorem timer_turns_snoc (a : OSAlarm) (es : List (Event τ)) (e : Event τ) :
    Alarm.timer a (turnsOf (es ++ [e])) =
      e.logged.toList.foldl (Timer.after a) (Alarm.timer a (turnsOf es)) := by
  rw [Alarm.timer, turnsOf, List.filterMap_append, List.foldl_append]
  cases hlogged : e.logged <;> simp [hlogged, Alarm.timer, turnsOf]

variable [DecidableEq τ]

theorem run_timer {clock : Clock} (run : Run (System.start clock) es s) :
    Inv s ∧ ∃ st, Shows s st ∧ (∀ a, RingsOnce st a) ∧
      ∀ a, st.timer a = Alarm.timer a (turnsOf es) := by
  induction run with
  | nil => exact ⟨inv_start clock, _, shows_start clock, fun _ => Nat.zero_le 1, fun _ => rfl⟩
  | snoc _ hs ih =>
    obtain ⟨hi, st, hv, honce, htimer⟩ := ih
    obtain ⟨st', hm, hv'⟩ := hv.step hi hs.1 hs.2
    obtain ⟨honce', hafter⟩ := hm.timer honce
    refine ⟨hi.step hs.1 hs.2, st', hv', honce', fun a => ?_⟩
    rw [hafter, htimer, timer_turns_snoc]

-- Every alarm is a timer of its own: whatever is done to the others, by whichever thread, and
-- however the scheduler's batches fall, it is what its own calls and the passes make of it, and
-- each answer, each wait and each callback is what the timers say.
theorem alarms_are_timers (clock : Clock) (es : List (Event τ)) (s : System τ)
    (run : Run (System.start clock) es s) :
    ((∀ u, ¬(s.loop u).Holding) → ∀ a, s.timer a = Alarm.timer a (turnsOf es)) ∧
      ∀ before t now turn after, es = before ++ .turn t now turn :: after →
        turn.Foretold fun a => Alarm.timer a (turnsOf before) := by
  refine ⟨fun hnone a => ?_, fun before t now turn after hes => ?_⟩
  · obtain ⟨hi, st, hv, -, htimer⟩ := run_timer run
    rw [hv.timer hi hnone, htimer]
  · rw [hes] at run
    obtain ⟨s₁, hbefore, hrest⟩ := run.of_append
    obtain ⟨s₂, hs, -⟩ := hrest.of_cons
    obtain ⟨hi, st, hv, -, htimer⟩ := run_timer hbefore
    obtain ⟨st', hm, -⟩ := hv.step hi hs.1 hs.2
    rw [show (fun a => Alarm.timer a (turnsOf before)) = st.timer from funext fun a => (htimer a).symm]
    refine hm.foretold ?_
    rw [htimer, timer_null]

def Logs (s : System τ) (turns : List (OSTime × Turn)) (s' : System τ) : Prop :=
  ∃ es, Run s es s' ∧ turnsOf es = turns

theorem RunsTo.logs (h : RunsTo s s') : Logs s [] s' := by
  obtain ⟨es, hes, run⟩ := h
  refine ⟨es, run, List.filterMap_eq_nil_iff.2 fun e he => ?_⟩
  have hsilent : e.Silent := hes e he
  cases e with
  | turn | setTime => exact hsilent.elim
  | call | statement | tick => rfl

theorem Logs.run {turns : List (OSTime × Turn)} {s₁ : System τ} (h : Logs s turns s₁)
    (h' : RunsTo s₁ s') : Logs s turns s' := by
  obtain ⟨es, run, rfl⟩ := h
  obtain ⟨es', run', hes'⟩ := h'.logs
  refine ⟨es ++ es', run.append run', ?_⟩
  rw [turnsOf, List.filterMap_append, ← turnsOf, ← turnsOf, hes', List.append_nil]

theorem Logs.turn {turns : List (OSTime × Turn)} {s₁ : System τ} {now : OSTime}
    (h : Logs s turns s₁) (hs : OrderlyStep s₁ (.turn t now x) s') :
    Logs s (turns ++ [(now, x)]) s' := by
  obtain ⟨es, run, rfl⟩ := h
  refine ⟨_, run.snoc hs, ?_⟩
  rw [turnsOf, List.filterMap_append]
  rfl

-- Two alarms come due in one pass; one is waited for, and the other is cancelled before it rings.
def twoAlarms : List (OSTime × Turn) :=
  [(0, .event (.call (.set 4 50 7) (.ret 1))),
    (0, .event (.call (.setPeriodic 5 20 30 8) (.ret 1))), (0, .wait 4 none), (60, .event .pass),
    (60, .wait 4 (some 1)), (60, .event (.call (.cancel 5) (.ret 1))), (60, .event (.fire 4 7))]

theorem logs_twoAlarms : ∃ s : System Bool, Logs (System.start ⟨0, 0⟩) twoAlarms s ∧
    ∀ u, ¬(s.loop u).Holding := by
  let s₁ : System Bool := ((System.ready ⟨0, 0⟩).call (.set 4 50 7)).launch false
  let s₂ := s₁.call (.setPeriodic 5 20 30 8)
  let s₃ := s₂.goto true (.checking (.wait 4))
  let s₄ := { s₃ with clock := ⟨0, 60⟩ }
  let s₅ := s₄.passed false
  let s₆ := s₅.goto true .outside
  let s₇ := s₆.call (.cancel 5)
  have hfirst : RunsTo (System.start ⟨0, 0⟩ : System Bool)
      ((System.ready ⟨0, 0⟩).within true (.body (.set 4 50 7))) :=
    enters_first rfl trivial rfl rfl rfl
  have hset := hfirst.logs.turn (within_step _)
  have hboot : Logs _ _ s₁ :=
    hset.run (launches rfl rfl rfl (fun _ => id) rfl rfl rfl (by decide))
  have henters : RunsTo s₁ (s₁.within true (.body (.setPeriodic 5 20 30 8))) :=
    enters _ trivial rfl trivial rfl rfl rfl
  have hperiodic : Logs _ _ s₂ := ((hboot.run henters).turn (within_step _)).run (leaves rfl rfl rfl)
  have hwaits : RunsTo s₂ (s₂.within true (.wait 4)) :=
    enters _ trivial rfl trivial (show (4 : OSAlarm) ≠ 0 by decide) rfl rfl
  have hwait : Logs _ _ s₃ := (hperiodic.run hwaits).turn (within_wait 4 rfl)
  have htick : RunsTo s₃ s₄ := .tick 60 (by decide)
  have hscan : RunsTo s₄ (s₄.scannedAll false) := scans_all rfl trivial rfl rfl
  have hpass : Logs _ _ s₅ := ((hwait.run htick).run hscan).turn (passes rfl)
  have hagain : RunsTo s₅ (s₅.within true (.wait 4)) := enters_checked rfl rfl rfl
  have hwaited : Logs _ _ s₆ := (hpass.run hagain).turn (within_wait 4 rfl)
  have hcancels : RunsTo s₆ (s₆.within true (.body (.cancel 5))) :=
    enters _ trivial rfl trivial rfl rfl rfl
  have hcancel : Logs _ _ s₇ := ((hwaited.run hcancels).turn (within_step _)).run (leaves rfl rfl rfl)
  let s₈ := s₇.turnTo false (.inCallback 4 [(5, 8)])
  have hfire : OrderlyStep s₇ (.turn false 60 (.event (.fire 4 7))) s₈ :=
    ⟨trivial, .fire (by decide +kernel) (by decide)⟩
  refine ⟨s₈, ?_, ?_⟩
  · convert hcancel.turn hfire using 1
    decide +kernel
  · intro u
    cases u <;> exact id

theorem alarms_are_timers_two :
    ∃ (es : List (Event Bool)) (s : System Bool), Run (System.start ⟨0, 0⟩) es s ∧
      turnsOf es = twoAlarms ∧ s.timer 4 = .fresh ∧ s.timer 5 = ⟨none, 0, 0, some 8⟩ := by
  obtain ⟨s, ⟨es, run, hlog⟩, hnone⟩ := logs_twoAlarms
  have htimer := (alarms_are_timers _ _ _ run).1 hnone
  rw [hlog] at htimer
  refine ⟨es, s, run, hlog, ?_, ?_⟩
  · rw [htimer]
    decide +kernel
  · rw [htimer]
    decide +kernel

end Threads

end CoreinitNx.Alarm
