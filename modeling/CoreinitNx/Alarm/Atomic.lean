import CoreinitNx.Alarm.Threads

namespace CoreinitNx.Alarm

variable {s st : State} {op : Op}

-- The reply of a call and what it writes depend on the alarms and the clock alone, and the
-- scheduler is left as it is but for the wake-up.
theorem call_congr (op : Op) (halarms : st.alarms = s.alarms) (hclock : st.clock = s.clock) :
    (call op st).1 = (call op s).1 ∧
      (call op st).2 =
        if op.wakes then { st with alarms := (call op s).2.alarms }.wake
        else { st with alarms := (call op s).2.alarms } := by
  obtain ⟨alarms, clock, stop, scheduler⟩ := st
  obtain ⟨alarms', clock', stop', scheduler'⟩ := s
  cases halarms
  cases hclock
  cases op with
  | cancelAll group =>
    rw [call, call, osCancelAlarms, osCancelAlarms, wake_alarms]
    exact ⟨rfl, rfl⟩
  | getUserData b =>
    rw [call, call, osGetAlarmUserData, osGetAlarmUserData]
    dsimp only
    by_cases hb : b = 0
    · rw [if_pos hb, if_pos hb]
      exact ⟨rfl, rfl⟩
    · rw [if_neg hb, if_neg hb]
      cases alarms[b]? <;> exact ⟨rfl, rfl⟩
  | cancel b =>
    by_cases hb : b = 0
    · simp [hb, call, osCancelAlarm, Op.wakes]
    · cases hget : alarms[b]? <;> simp [hb, hget, call, osCancelAlarm, Op.wakes]
  | set b time callback | setPeriodic b start interval callback =>
    by_cases hb : b = 0
    · simp [hb, call, osSetAlarm, osSetPeriodicAlarm, arm, Op.wakes]
    · simp [hb, call, osSetAlarm, osSetPeriodicAlarm, arm, Op.wakes]
  | create b | setTag b group | setUserData b data =>
    by_cases hb : b = 0
    · simp [hb, call, osCreateAlarm, osSetAlarmTag, osSetAlarmUserData, Op.wakes]
    · simp [hb, call, osCreateAlarm, osSetAlarmTag, osSetAlarmUserData, Op.wakes]

theorem call_null (hnull : op.null = true) (s st : State) :
    (call op st).1 = (call op s).1 ∧ (call op st).2 = st := by
  cases op with
  | cancelAll group => cases hnull
  | create b | set b time callback | setPeriodic b start interval callback | cancel b
  | setTag b group | setUserData b data | getUserData b =>
    obtain rfl : b = 0 := of_decide_eq_true hnull
    simp [call, osCreateAlarm, osSetAlarm, osSetPeriodicAlarm, arm, osCancelAlarm, osSetAlarmTag,
      osSetAlarmUserData, osGetAlarmUserData]

namespace Threads

-- How the scheduler stands that is taken for one at its lock.
def Loop.Stands (stop : Bool) : Loop → Scheduler → Prop
  | .absent, sched | .starting, sched | .exited, sched =>
    sched = .off ∨ sched = .exited ∧ stop = true
  | .locking, sched | .looping, sched | .scanning _, sched | .writing _, sched => sched = .looping
  | .sleeping timeout, sched => sched = .sleeping timeout
  | .invoking due, sched => sched = .invoking due
  | .inCallback alarm due, sched => sched = .inCallback alarm due

-- A pass has come through `done` since `st`, at which it read the clock.
structure Scanned (alarms : Alarms) (clock : Clock) (st : State) (p : Pass)
    (done rest : List (OSAlarm × HostAlarm)) : Prop where
  now : st.clock.osGetTime = p.now
  later : st.clock.systemTime ≤ clock.systemTime
  entries : st.alarms.toList = done ++ rest
  rest : p.rest = rest.map Prod.fst
  alarms : alarms = done.foldl (write p.now) st.alarms
  nearest : p.nearest = done.foldl (nearer p.now) 0

def Loop.Shown (alarms : Alarms) (clock : Clock) (st : State) : Loop → Prop
  | .scanning p => ∃ done rest, Scanned alarms clock st p done rest ∧
      p.due = done.foldl (Alarm.collect p.now) []
  | .writing p => ∃ done a h rest, Scanned alarms clock st p done ((a, h) :: rest) ∧
      h.isDue p.now = true ∧ p.due = (done ++ [(a, h)]).foldl (Alarm.collect p.now) []
  | _ => st.alarms = alarms ∧ st.clock = clock

variable {τ : Type}

-- The loop of the one thread that is running, if there is one.
def System.Current (s : System τ) (l : Loop) : Prop :=
  (∃ u, s.loop u = l ∧ l.Running) ∨ l = .absent ∧ ∀ u, ¬(s.loop u).Running

-- A state in which each section and each pass so far has been one step; the pass under way has
-- not been made yet.
structure Shows (s : System τ) (st : State) : Prop where
  stop : st.stop = s.stop
  current : ∃ l, s.Current l ∧ l.Stands s.stop st.scheduler ∧ l.Shown s.alarms s.clock st

-- What the state does at a step of the threads. A call with the null alarm does nothing, at any time.
inductive Moves (st : State) : Event τ → State → Prop
  | turn {st' : State} {t : τ} {now : OSTime} {turn : Turn} :
      ClockedStep st (now, turn) st' → Moves st (.turn t now turn) st'
  | null {t : τ} {now : OSTime} {op : Op} : op.null = true →
      Moves st (.turn t now (.event (.call op (call op st).1))) st
  | nullWait {t : τ} {now : OSTime} : Moves st (.turn t now (.wait 0 (osWaitAlarmTurn st 0))) st
  | stay {e : Event τ} : (∀ t now turn, e ≠ .turn t now turn) → Moves st e st
  | statement {st' : State} {t : τ} {e : Alarm.Event} : e = .startThread ∨ e = .timeout ∨ e = .exit →
      Alarm.Step st e st' → Moves st (.statement t) st'
  | tick {st' : State} : Alarm.Step st .tick st' → Moves st .tick st'
  | setTime {st' : State} {time : OSTime} : Alarm.Step st (.setTime time) st' →
      Moves st (.setTime time) st'

def Event.Turns : Event τ → Prop
  | .turn _ _ _ => True
  | .call _ _ | .statement _ | .tick | .setTime _ => False

theorem Moves.still {st : State} {e : Event τ} (he : ¬e.Turns) : Moves st e st := by
  refine .stay fun t now turn heq => ?_
  subst heq
  exact he trivial

theorem shows_start (clock : Clock) : Shows (System.start clock : System τ) (State.initial clock) :=
  ⟨rfl, .absent, .inr ⟨rfl, fun _ => id⟩, .inl rfl, rfl, rfl⟩

variable [DecidableEq τ] {s s' : System τ} {st : State} {t u : τ} {p : Pass} {l : Loop}
  {e : Event τ} {done rest : List (OSAlarm × HostAlarm)} {a : OSAlarm} {h : HostAlarm}

omit [DecidableEq τ] in
theorem Inv.current (hi : Inv s) (hl : s.Current l) (hu : (s.loop u).Running) : s.loop u = l := by
  rcases hl with ⟨v, rfl, hv⟩ | ⟨-, hnone⟩
  · rw [hi.unique hv hu]
  · exact absurd hu (hnone u)

omit [DecidableEq τ] in
theorem Shows.running (hv : Shows s st) (hi : Inv s) (hl : s.loop u = l) (hu : l.Running) :
    l.Stands s.stop st.scheduler ∧ l.Shown s.alarms s.clock st := by
  subst hl
  obtain ⟨l, hl, hstands, hshown⟩ := hv.current
  rw [hi.current hl hu]
  exact ⟨hstands, hshown⟩

-- The thread that is running goes on.
omit [DecidableEq τ] in
theorem Shows.mk_running (hl : s.loop u = l) (hu : l.Running) (hstop : st.stop = s.stop)
    (hstands : l.Stands s.stop st.scheduler) (hshown : l.Shown s.alarms s.clock st) :
    Shows s st := ⟨hstop, l, .inl ⟨u, hl, hu⟩, hstands, hshown⟩

theorem Loop.Shown.of_not_holding {alarms : Alarms} {clock : Clock} (h : l.Shown alarms clock st)
    (hnot : ¬l.Holding) : st.alarms = alarms ∧ st.clock = clock := by
  cases l <;> first | exact h | exact absurd trivial hnot

theorem Loop.shown_of_same {alarms : Alarms} {clock : Clock} (hnot : ¬l.Holding)
    (h : st.alarms = alarms ∧ st.clock = clock) : l.Shown alarms clock st := by
  cases l <;> first | exact h | exact absurd trivial hnot

omit [DecidableEq τ] in
theorem System.Current.of_forall {P : Loop → Prop} (hl : s.Current l) (h : ∀ u, P (s.loop u))
    (habsent : P .absent) : P l := by
  rcases hl with ⟨u, rfl, -⟩ | ⟨rfl, -⟩
  · exact h u
  · exact habsent

-- While no scheduler has the lock, the state has the same alarms and the same clock.
omit [DecidableEq τ] in
theorem Shows.same (hv : Shows s st) (hnone : ∀ u, ¬(s.loop u).Holding) :
    st.alarms = s.alarms ∧ st.clock = s.clock := by
  obtain ⟨l, hl, -, hshown⟩ := hv.current
  exact hshown.of_not_holding (hl.of_forall (P := (¬·.Holding)) hnone id)

theorem Loop.Stands.wake {stop : Bool} (h : l.Stands stop st.scheduler) :
    l.wake.Stands stop st.wake.scheduler := by
  obtain ⟨alarms, clock, stop', scheduler⟩ := st
  cases l with
  | absent | starting | exited =>
    rcases h with h | ⟨h, hstop⟩ <;> cases h
    · exact .inl rfl
    · exact .inr ⟨rfl, hstop⟩
  | locking | looping | scanning | writing | sleeping | invoking | inCallback =>
    cases h
    exact rfl

omit [DecidableEq τ] in
theorem System.Current.wake (hl : s.Current l) : s.wake.Current l.wake := by
  rcases hl with ⟨u, rfl, hu⟩ | ⟨rfl, hnone⟩
  · exact .inl ⟨u, rfl, wake_running.2 hu⟩
  · exact .inr ⟨rfl, fun u h => hnone u (wake_running.1 h)⟩

-- `condvarWakeAll` by a thread that has the lock.
omit [DecidableEq τ] in
theorem Shows.wake (hv : Shows s st) (hnone : ∀ u, ¬(s.loop u).Holding) : Shows s.wake st.wake := by
  have hsame := hv.same hnone
  obtain ⟨l, hl, hstands, -⟩ := hv.current
  refine ⟨(wake_stop st).trans hv.stop, l.wake, hl.wake, hstands.wake, ?_⟩
  refine Loop.shown_of_same ?_ (by rwa [wake_alarms, wake_clock])
  rw [wake_holding]
  exact hl.of_forall (P := (¬·.Holding)) hnone id

-- What a thread writes that has the lock, and what it makes of `g_stop`.
omit [DecidableEq τ] in
theorem Shows.write (hv : Shows s st) (hnone : ∀ u, ¬(s.loop u).Holding) (alarms : Alarms) :
    Shows (s.setAlarms alarms) { st with alarms } := by
  have hsame := hv.same hnone
  obtain ⟨l, hl, hstands, -⟩ := hv.current
  have hhold := hl.of_forall (P := (¬·.Holding)) hnone id
  exact ⟨hv.stop, l, hl, hstands, Loop.shown_of_same hhold ⟨rfl, hsame.2⟩⟩

omit [DecidableEq τ] in
theorem Shows.call (op : Op) (hv : Shows s st) (hnone : ∀ u, ¬(s.loop u).Holding) :
    (Alarm.call op st).1 = (Alarm.call op s.state).1 ∧ Shows (s.call op) (Alarm.call op st).2 := by
  obtain ⟨halarms, hclock⟩ := hv.same hnone
  obtain ⟨hreply, hafter⟩ := call_congr (s := s.state) op halarms hclock
  refine ⟨hreply, ?_⟩
  have hwritten := hv.write hnone (Alarm.call op s.state).2.alarms
  rw [hafter, System.call]
  split
  next => exact hwritten.wake hnone
  next => exact hwritten

section Scan

variable {alarms : Alarms} {clock : Clock} {ks : List OSAlarm}

theorem scanned_start (hsame : st.alarms = alarms ∧ st.clock = clock) :
    Scanned alarms clock st ⟨clock.osGetTime, alarms.keys, [], 0⟩ [] alarms.toList where
  now := by rw [hsame.2]
  later := by rw [hsame.2]; exact Int64.le_refl _
  entries := by rw [hsame.1]; rfl
  rest := Std.TreeMap.map_fst_toList_eq_keys.symm
  alarms := hsame.1.symm
  nearest := rfl

-- What the loop is at has not been written to in this pass.
theorem Scanned.head (hs : Scanned alarms clock st p done ((a, h) :: rest)) :
    alarms[a]? = some h := by
  have hmem : (a, h) ∈ st.alarms.toList := by
    rw [hs.entries]
    exact List.mem_append_right _ List.mem_cons_self
  have hkeys := toList_keys st.alarms
  rw [hs.entries, List.pairwise_append] at hkeys
  rw [hs.alarms, foldl_write_getElem? fun x hx => hkeys.2.2 x hx _ List.mem_cons_self]
  exact mem_toList_iff.1 hmem

theorem Scanned.cons (hs : Scanned alarms clock st p done rest) (hrest : p.rest = a :: ks)
    (hget : alarms[a]? = some h) : ∃ rest', rest = (a, h) :: rest' ∧ ks = rest'.map Prod.fst := by
  have hmap := hs.rest
  rw [hrest] at hmap
  cases rest with
  | nil => cases hmap
  | cons entry rest =>
    obtain ⟨b, h'⟩ := entry
    obtain ⟨rfl, rfl⟩ := List.cons.inj hmap
    cases hs.head.symm.trans hget
    exact ⟨rest, rfl, rfl⟩

theorem Scanned.passOver {due : List (OSAlarm × OSAlarmCallback)}
    (hs : Scanned alarms clock st p done ((a, h) :: rest)) (hdue : h.isDue p.now = false) :
    Scanned alarms clock st ⟨p.now, rest.map Prod.fst, due, h.nearest p.nearest⟩
      (done ++ [(a, h)]) rest where
  now := hs.now
  later := hs.later
  entries := by rw [hs.entries, List.append_assoc]; rfl
  rest := rfl
  alarms := by
    rw [List.foldl_append, ← hs.alarms]
    exact (if_neg (ne_true_of_eq_false hdue)).symm
  nearest := by
    rw [List.foldl_append, ← hs.nearest]
    change _ = (h.settle p.now).nearest p.nearest
    rw [HostAlarm.settle, if_neg (ne_true_of_eq_false hdue)]

theorem Scanned.write {due : List (OSAlarm × OSAlarmCallback)}
    (hs : Scanned alarms clock st p done ((a, h) :: rest)) (hdue : h.isDue p.now = true) :
    Scanned (alarms.insert a (h.advance p.now)) clock st
      ⟨p.now, rest.map Prod.fst, due, (h.advance p.now).nearest p.nearest⟩
      (done ++ [(a, h)]) rest where
  now := hs.now
  later := hs.later
  entries := by rw [hs.entries, List.append_assoc]; rfl
  rest := rfl
  alarms := by
    rw [List.foldl_append, ← hs.alarms]
    exact (if_pos hdue).symm
  nearest := by
    rw [List.foldl_append, ← hs.nearest]
    change _ = (h.settle p.now).nearest p.nearest
    rw [HostAlarm.settle, if_pos hdue]

theorem Scanned.tick {clock' : Clock} (hs : Scanned alarms clock st p done rest)
    (hle : clock.systemTime ≤ clock'.systemTime) : Scanned alarms clock' st p done rest :=
  ⟨hs.now, Int64.le_trans hs.later hle, hs.entries, hs.rest, hs.alarms, hs.nearest⟩

-- A pass that has come to its end is the one of the state it began in.
theorem Scanned.over (hs : Scanned alarms clock st p done rest) (hrest : p.rest = [])
    (hdue : p.due = done.foldl (Alarm.collect p.now) []) :
    schedulerPass st clock =
      ⟨alarms, clock, st.stop,
        if p.due.isEmpty then
          .sleeping (if p.nearest = 0 then none
            else some (ticksToNs (p.nearest - clock.osGetTime)))
        else .invoking p.due⟩ := by
  have hnil : rest = [] := List.map_eq_nil_iff.1 (hs.rest.symm.trans hrest)
  have hdone : st.alarms.toList = done := by rw [hs.entries, hnil, List.append_nil]
  simp only [schedulerPass]
  rw [hdone, hs.now, ← hdue, ← hs.nearest, ← hs.alarms]

end Scan

theorem Shows.enter (hi : Inv s) (hv : Shows s st) (hu : (s.loop u).Entering)
    (hstop : s.stop = false) :
    ∃ st', Moves st (.statement u : Event τ) st' ∧
      Shows ((s.setLock (some u)).turnTo u .looping) st' := by
  have hl : ((s.setLock (some u)).turnTo u .looping).loop u = .looping := turnTo_loop_self
  cases hloop : s.loop u with
  | starting =>
    obtain ⟨hstands, hsame⟩ := hv.running hi hloop trivial
    have hoff : st.scheduler = .off := hstands.resolve_right fun h => by
      rw [hstop] at h
      exact absurd h.2 Bool.false_ne_true
    exact ⟨_, .statement (.inl rfl) (.startThread hoff),
      .mk_running hl trivial hv.stop rfl hsame⟩
  | locking =>
    obtain ⟨hstands, hsame⟩ := hv.running hi hloop trivial
    exact ⟨st, .still id, .mk_running hl trivial hv.stop hstands hsame⟩
  | absent | looping | scanning | writing | sleeping | invoking | inCallback | exited =>
    rw [hloop] at hu
    exact hu.elim

theorem Shows.exit (hi : Inv s) (hv : Shows s st) (hu : (s.loop u).Entering)
    (hstop : s.stop = true) :
    ∃ st', Moves st (.statement u : Event τ) st' ∧ Shows (s.turnTo u .exited) st' := by
  have hnone (v : τ) (hv : ((s.turnTo u .exited).loop v).Running) : False := by
    rcases turnTo_cases v hv with ⟨-, hq⟩ | ⟨hne, hq⟩
    · exact hq
    · exact hne (hi.unique hu.running hq)
  cases hloop : s.loop u with
  | starting =>
    obtain ⟨hstands, hsame⟩ := hv.running hi hloop trivial
    exact ⟨st, .still id, hv.stop, .absent, .inr ⟨rfl, hnone⟩, hstands, hsame⟩
  | locking =>
    obtain ⟨hstands, hsame⟩ := hv.running hi hloop trivial
    exact ⟨_, .statement (.inr (.inr rfl)) (.exit hstands (hv.stop.trans hstop)), hv.stop, .absent,
      .inr ⟨rfl, hnone⟩, .inr ⟨rfl, hstop⟩, hsame⟩
  | absent | looping | scanning | writing | sleeping | invoking | inCallback | exited =>
    rw [hloop] at hu
    exact hu.elim

omit [DecidableEq τ] in
-- Where the clock is set or runs on, a pass that has read it goes on as it was.
theorem Shows.tick (clock : Clock) (hv : Shows s st)
    (hle : s.clock.systemTime ≤ clock.systemTime) :
    Shows { s with clock } st ∨
      (st.clock = s.clock ∧ Shows { s with clock } { st with clock }) := by
  obtain ⟨hstop, l, hl, hstands, hshown⟩ := hv
  cases l with
  | scanning p =>
    obtain ⟨done, rest, hs, hdue⟩ := hshown
    exact .inl ⟨hstop, _, hl, hstands, done, rest, hs.tick hle, hdue⟩
  | writing p =>
    obtain ⟨done, a, h, rest, hs, hdue⟩ := hshown
    exact .inl ⟨hstop, _, hl, hstands, done, a, h, rest, hs.tick hle, hdue⟩
  | absent | starting | locking | looping | sleeping | invoking | inCallback | exited =>
    exact .inr ⟨hshown.2, hstop, _, hl, hstands, hshown.1, rfl⟩

-- A turn of the thread that is running.
theorem Shows.turn {l' : Loop} {sched : Scheduler} {e : Alarm.Event} (hv : Shows s st)
    (hsame : st.alarms = s.alarms ∧ st.clock = s.clock)
    (hstep : Alarm.Step st e { st with scheduler := sched }) (hrun : l'.Running)
    (hhold : ¬l'.Holding) (hstands : l'.Stands s.stop sched) :
    ∃ st', Moves st (.turn u s.now (.event e)) st' ∧ Shows (s.turnTo u l') st' := by
  refine ⟨{ st with scheduler := sched }, .turn ?_, .mk_running turnTo_loop_self hrun hv.stop
    hstands (Loop.shown_of_same hhold hsame)⟩
  rw [System.now, ← hsame.2]
  exact .event hstep

theorem Shows.body {op : Op} {p : Place} (hv : Shows s st) (hnone : ∀ u, ¬(s.loop u).Holding) :
    ∃ st', Moves st (.turn t s.now (.event (.call op (Alarm.call op s.state).1))) st' ∧
      Shows (((s.call op).setLock none).goto t p) st' := by
  obtain ⟨hreply, hcall⟩ := hv.call op hnone
  refine ⟨_, .turn ?_, hcall.stop, hcall.current⟩
  rw [System.now, ← (hv.same hnone).2, ← hreply]
  exact .event (.call st op)

omit [DecidableEq τ] in
theorem Shows.wait (hv : Shows s st) (hnone : ∀ u, ¬(s.loop u).Holding) (alarm : OSAlarm) :
    Moves st (.turn t s.now (.wait alarm (osWaitAlarmTurn s.state alarm))) st := by
  obtain ⟨halarms, hclock⟩ := hv.same hnone
  have hturn : osWaitAlarmTurn s.state alarm = osWaitAlarmTurn st alarm := by
    rw [osWaitAlarmTurn, osWaitAlarmTurn, halarms]
    rfl
  refine .turn ?_
  rw [System.now, ← hclock, hturn]
  exact .wait st alarm

theorem Shows.requestStop {p : Place} (hv : Shows s st) (hnone : ∀ u, ¬(s.loop u).Holding) :
    ∃ st', Moves st (.turn t s.now (.event .requestStop)) st' ∧
      Shows (({ s with stop := true }.wake.setLock none).goto t p) st' := by
  have hsame := hv.same hnone
  obtain ⟨l, hl, hstands, -⟩ := hv.current
  have hhold := hl.of_forall (P := (¬·.Holding)) hnone id
  have hstands' : l.Stands true st.scheduler := by
    cases l <;> first | exact hstands.imp_right (And.imp_right fun _ => rfl) | exact hstands
  have hset : Shows { s with stop := true } { st with stop := true } :=
    ⟨rfl, l, hl, hstands', Loop.shown_of_same hhold hsame⟩
  have hwake := hset.wake hnone
  refine ⟨_, .turn ?_, hwake.stop, hwake.current⟩
  rw [System.now, ← hsame.2]
  exact .event (.requestStop st)

theorem Shows.clear {p : Place} (hv : Shows s st) (hstop : s.stop = true)
    (hnone : ∀ u, ¬(s.loop u).Live) :
    ∃ st', Moves st (.turn t s.now (.event .shutdown)) st' ∧
      Shows (({ s with alarms := ∅, stop := false }.setLock none).goto t p) st' := by
  have hsame := hv.same fun u h => hnone u h.live
  obtain ⟨l, hl, hstands, -⟩ := hv.current
  have hlive := hl.of_forall (P := (¬·.Live)) hnone id
  have hidle : st.scheduler = .exited ∨ st.scheduler = .off := by
    cases l <;> first | exact absurd trivial hlive | exact hstands.symm.imp_left And.left
  have hoff : l.Stands false .off := by
    cases l <;> first | exact absurd trivial hlive | exact .inl rfl
  refine ⟨⟨∅, st.clock, false, .off⟩, .turn ?_, rfl, l, hl, hoff,
    Loop.shown_of_same (fun h => hlive h.live) ⟨rfl, hsame.2⟩⟩
  rw [System.now, ← hsame.2]
  exact .event (.shutdown hidle (hv.stop.trans hstop))

theorem Shows.created {thread : Option τ} {p : Place} (hv : Shows s st)
    (hnone : ∀ u, ¬(s.loop u).Running) :
    Shows (({ s with thread }.turnTo u .starting).goto t p) st := by
  obtain ⟨l, hl, hstands, hshown⟩ := hv.current
  rcases hl with ⟨v, rfl, hv⟩ | ⟨rfl, -⟩
  · exact absurd hv (hnone v)
  · exact .mk_running (u := u) turnTo_loop_self trivial hv.stop hstands hshown

-- The end of a pass.
theorem Shows.pass {l' : Loop} (hi : Inv s) (hv : Shows s st) (hl : s.loop u = .scanning p)
    (hrest : p.rest = []) (hrun : l'.Running) (hhold : ¬l'.Holding)
    (hstands : l'.Stands s.stop (if p.due.isEmpty then
          .sleeping (if p.nearest = 0 then none else some (ticksToNs (p.nearest - s.now)))
        else .invoking p.due)) :
    ∃ st', Moves st (.turn u p.now (.event .pass)) st' ∧
      Shows ((s.setLock none).turnTo u l') st' := by
  obtain ⟨hlooping, done, rest, hs, hdues⟩ := hv.running hi hl trivial
  have hstop : s.stop = false := hi.going u (by rw [hl]; trivial)
  have hstep : Alarm.Step st .pass (schedulerPass st s.clock) :=
    .pass hlooping (hv.stop.trans hstop) hs.later
  rw [hs.over hrest hdues] at hstep
  let st' : State := ⟨s.alarms, s.clock, st.stop,
    if p.due.isEmpty then
      .sleeping (if p.nearest = 0 then none else some (ticksToNs (p.nearest - s.now)))
    else .invoking p.due⟩
  refine ⟨st', .turn ?_, .mk_running turnTo_loop_self hrun hv.stop hstands
    (Loop.shown_of_same hhold ⟨rfl, rfl⟩)⟩
  rw [← hs.now]
  exact .event hstep

-- Each step of the threads is one of the state, or none.
theorem Shows.step (hi : Inv s) (hv : Shows s st) (ho : Orderly s e) (hs : Step s e s') :
    ∃ st', Moves st e st' ∧ Shows s' st' := by
  cases hs with
  | null hout hcall hnull =>
    refine ⟨st, ?_, hv⟩
    rw [← (call_null hnull s.state st).1]
    exact .null hnull
  | nullWait => exact ⟨st, .nullWait, hv⟩
  | begin | inited | uninited | nothing | reset | mark | lock | started | unstarted | launched
  | joined | unjoined => exact ⟨st, .still id, hv.stop, hv.current⟩
  | refused thread => exact ⟨st, .still id, hv.stop, hv.current⟩
  | @body t op ht => exact hv.body fun u => hi.no_holder (by rw [ht]; trivial)
  | @wait t alarm ht =>
    exact ⟨st, hv.wait (fun u => hi.no_holder (by rw [ht]; trivial)) alarm, hv.stop, hv.current⟩
  | stop ht => exact hv.requestStop fun u => hi.no_holder (by rw [ht]; trivial)
  | @clear t ht =>
    exact hv.clear (hi.stopped t (by rw [ht]; exact rfl)) fun u => hi.joined t u (by rw [ht]; exact rfl)
  | created ht hout habsent =>
    rw [Orderly, ht] at ho
    exact ⟨st, .still id, hv.created ho⟩
  | enter hu hlock hstop => exact hv.enter hi hu hstop
  | exit hu hlock hstop => exact hv.exit hi hu hstop
  | read hl =>
    obtain ⟨hstands, hsame⟩ := hv.running hi hl trivial
    exact ⟨st, .still id, .mk_running turnTo_loop_self trivial hv.stop hstands
      ⟨[], _, scanned_start hsame, rfl⟩⟩
  | passOver hl hrest hget hdue =>
    obtain ⟨hstands, done, rest, hs, hdues⟩ := hv.running hi hl trivial
    obtain ⟨rest, rfl, rfl⟩ := hs.cons hrest hget
    refine ⟨st, .still id, .mk_running turnTo_loop_self trivial hv.stop hstands
      ⟨_, rest, hs.passOver hdue, ?_⟩⟩
    rw [List.foldl_append, ← hdues]
    exact (if_neg (ne_true_of_eq_false hdue)).symm
  | collect hl hrest hget hdue =>
    obtain ⟨hstands, done, rest, hs, hdues⟩ := hv.running hi hl trivial
    obtain ⟨rest, rfl, -⟩ := hs.cons hrest hget
    refine ⟨st, .still id, .mk_running turnTo_loop_self trivial hv.stop hstands
      ⟨done, _, _, rest, ⟨hs.now, hs.later, hs.entries, hs.rest, hs.alarms, hs.nearest⟩, hdue, ?_⟩⟩
    rw [List.foldl_append, ← hdues]
    exact (if_pos hdue).symm
  | write hl hrest hget =>
    obtain ⟨hstands, done, a, h, rest, hs, hdue, hdues⟩ := hv.running hi hl trivial
    obtain ⟨rest', hcons, rfl⟩ := hs.cons hrest hget
    cases hcons
    exact ⟨st, .still id, .mk_running turnTo_loop_self trivial hv.stop hstands
      ⟨_, rest, hs.write hdue, hdues⟩⟩
  | invoke hl hrest hdue =>
    refine hv.pass hi hl hrest trivial id ?_
    rw [if_neg fun h => hdue (List.isEmpty_iff.1 h)]
    exact rfl
  | sleep hl hrest hdue =>
    refine hv.pass hi hl hrest trivial id ?_
    rw [if_pos (List.isEmpty_iff.2 hdue)]
    exact rfl
  | skip hl =>
    obtain ⟨hstands, hsame⟩ := hv.running hi hl trivial
    exact hv.turn hsame (.skip hstands) trivial id rfl
  | fire hl hcb =>
    obtain ⟨hstands, hsame⟩ := hv.running hi hl trivial
    exact hv.turn hsame (.fire hstands hcb) trivial id rfl
  | finish hl hout =>
    obtain ⟨hstands, hsame⟩ := hv.running hi hl trivial
    exact hv.turn hsame (.finish hstands) trivial id rfl
  | resume hl =>
    obtain ⟨hstands, hsame⟩ := hv.running hi hl trivial
    exact hv.turn hsame (.resume hstands) trivial id rfl
  | timeout hl =>
    obtain ⟨hstands, hsame⟩ := hv.running hi hl trivial
    exact ⟨_, .statement (.inr (.inl rfl)) (.timeout hstands),
      .mk_running turnTo_loop_self trivial hv.stop rfl hsame⟩
  | @tick t hle =>
    rcases hv.tick { s.clock with systemTime := t } hle with hstay | ⟨hclock, hmoved⟩
    · exact ⟨st, .still id, hstay⟩
    · rw [← hclock] at hle hmoved ⊢
      exact ⟨_, .tick (.tick hle), hmoved⟩
  | setTime time =>
    rcases hv.tick (s.clock.osSetAbsoluteSystemTime time) (Int64.le_refl _) with
      hstay | ⟨hclock, hmoved⟩
    · exact ⟨st, .still id, hstay⟩
    · rw [← hclock] at hmoved ⊢
      exact ⟨_, .setTime (.setTime st time), hmoved⟩

def Event.Is (P : Alarm.Event → Prop) : Event τ → Prop
  | .turn _ _ (.event e) => P e
  | _ => False

-- What the state may do without the threads showing it.
def Hidden : Alarm.Event → Prop
  | .startThread | .timeout | .exit | .tick | .setTime _ => True
  | .call _ _ | .pass | .skip _ | .fire _ _ | .finish _ | .resume | .requestStop | .shutdown => False

omit [DecidableEq τ] in
theorem Moves.cases {st' : State} (hm : Moves st e st') :
    (st' = st ∧ ∀ P : Alarm.Event → Prop, e.Is P →
      ∃ op, op.null = true ∧ P (.call op (Alarm.call op st).1)) ∨
    ∃ e', Alarm.Step st e' st' ∧
      ((∃ t, e = .turn t st.clock.osGetTime (.event e')) ∨ Hidden e' ∧ ∀ P, ¬e.Is P) := by
  cases hm with
  | turn hs =>
    cases hs with
    | event hs => exact .inr ⟨_, hs, .inl ⟨_, rfl⟩⟩
    | wait alarm => exact .inl ⟨rfl, fun _ h => h.elim⟩
  | null hnull => exact .inl ⟨rfl, fun _ h => ⟨_, hnull, h⟩⟩
  | nullWait => exact .inl ⟨rfl, fun _ h => h.elim⟩
  | stay hno =>
    refine .inl ⟨rfl, fun _ h => ?_⟩
    cases e with
    | turn t now turn => exact absurd rfl (hno t now turn)
    | call | statement | tick | setTime => exact h.elim
  | statement hhidden hs =>
    refine .inr ⟨_, hs, .inr ⟨?_, fun _ => id⟩⟩
    rcases hhidden with rfl | rfl | rfl <;> trivial
  | tick hs | setTime hs => exact .inr ⟨_, hs, .inr ⟨trivial, fun _ => id⟩⟩

-- What every reachable system shows.
theorem shows_run {clock : Clock} {es : List (Event τ)} (run : Run (System.start clock) es s) :
    Inv s ∧ ∃ st, Shows s st := by
  refine ⟨inv_run run, ?_⟩
  induction run with
  | nil => exact ⟨_, shows_start clock⟩
  | snoc run hs ih =>
    obtain ⟨st, hv⟩ := ih
    obtain ⟨st', -, hv'⟩ := hv.step (inv_run run) hs.1 hs.2
    exact ⟨st', hv'⟩

end Threads

end CoreinitNx.Alarm
