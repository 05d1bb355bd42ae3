import CoreinitNx.Alarm.Atomic

namespace CoreinitNx.Alarm

namespace Threads

variable {τ : Type} [DecidableEq τ] {s s' s₁ : System τ} {t u : τ} {p q : Place} {l k : Loop}
  {sec : Section} {op : Op} {now nearest : OSTime} {due : List (OSAlarm × OSAlarmCallback)}
  {entries : List (OSAlarm × HostAlarm)} {alarms : Alarms} {lock : Option τ}

def Event.Silent : Event τ → Prop
  | .turn _ _ _ | .setTime _ => False
  | .call _ _ | .statement _ | .tick => True

-- Nothing is seen of what happens in between.
def RunsTo (s s' : System τ) : Prop := ∃ es, (∀ e ∈ es, e.Silent) ∧ Run s es s'

theorem RunsTo.refl (s : System τ) : RunsTo s s := ⟨[], nofun, .nil⟩

theorem RunsTo.of_eq (h : s = s') : RunsTo s s' := h ▸ .refl s

theorem RunsTo.trans (h : RunsTo s s₁) (h' : RunsTo s₁ s') : RunsTo s s' := by
  obtain ⟨es, hes, run⟩ := h
  obtain ⟨es', hes', run'⟩ := h'
  exact ⟨es ++ es', List.forall_mem_append.2 ⟨hes, hes'⟩, run.append run'⟩

theorem RunsTo.begin (hs : Step s (.call t sec) s₁) (ho : Orderly s (.call t sec)) : RunsTo s s₁ :=
  ⟨[.call t sec], List.forall_mem_singleton.2 trivial, .single ⟨ho, hs⟩⟩

theorem RunsTo.tick (time : OSTime) (hle : s.clock.systemTime ≤ time) :
    RunsTo s { s with clock := { s.clock with systemTime := time } } :=
  ⟨[.tick], List.forall_mem_singleton.2 trivial, .single ⟨trivial, .tick hle⟩⟩

theorem RunsTo.statement (ho : Orderly s (.statement t)) (hs : Step s (.statement t) s₁) :
    RunsTo s s₁ :=
  ⟨[.statement t], List.forall_mem_singleton.2 trivial, .single ⟨ho, hs⟩⟩

-- Where what a thread does next is always in order.
def Place.Plain : Place → Prop
  | .resetting _ | .creating | .joining => False
  | .outside | .checking _ | .marking _ | .locking _ | .inside _ | .ensuring | .launched => True

omit [DecidableEq τ] in
theorem orderly_of_place (hp : s.place t = p) (hplain : p.Plain) : Orderly s (.statement t) := by
  rw [Orderly, hp]
  cases p <;> trivial

-- A statement that takes a thread from one place to the next.
theorem RunsTo.on (hp : s.place t = p) (hplain : p.Plain) (hs : Step s (.statement t) s₁)
    (h : RunsTo s₁ s') : RunsTo s s' :=
  (RunsTo.statement (orderly_of_place hp hplain) hs).trans h

theorem goto_goto : (s.goto t p).goto t q = s.goto t q := by
  rw [System.goto, System.goto, Function.update_idem]
  rfl

theorem goto_self (hp : s.place t = p) : s.goto t p = s := by
  rw [System.goto, ← hp, Function.update_eq_self]

theorem goto_setLock : (s.goto t p).setLock lock = (s.setLock lock).goto t p := rfl

omit [DecidableEq τ] in
theorem setLock_setLock {lock' : Option τ} : (s.setLock lock').setLock lock = s.setLock lock := rfl

omit [DecidableEq τ] in
theorem setLock_self (hlock : s.lock = lock) : s.setLock lock = s := by
  rw [System.setLock, ← hlock]

theorem turnTo_turnTo : (s.turnTo u k).turnTo u l = s.turnTo u l := by
  rw [System.turnTo, System.turnTo, Function.update_idem]
  rfl

theorem turnTo_setAlarms : (s.turnTo u l).setAlarms alarms = (s.setAlarms alarms).turnTo u l := rfl

theorem turnTo_setLock : (s.turnTo u l).setLock lock = (s.setLock lock).turnTo u l := rfl

omit [DecidableEq τ] in
theorem setAlarms_setLock : (s.setAlarms alarms).setLock lock = (s.setLock lock).setAlarms alarms :=
  rfl

theorem call_goto : (s.goto t p).call op = (s.call op).goto t p := by
  rw [System.call, System.call]
  split <;> rfl

omit [DecidableEq τ] in
theorem call_setLock : (s.setLock lock).call op = (s.call op).setLock lock := by
  rw [System.call, System.call]
  split <;> rfl

omit [DecidableEq τ] in
@[simp] theorem call_lock : (s.call op).lock = s.lock := by
  rw [System.call]
  split <;> rfl

omit [DecidableEq τ] in
@[simp] theorem call_started : (s.call op).started = s.started := by
  rw [System.call]
  split <;> rfl

omit [DecidableEq τ] in
@[simp] theorem call_stop : (s.call op).stop = s.stop := by
  rw [System.call]
  split <;> rfl

omit [DecidableEq τ] in
@[simp] theorem call_clock : (s.call op).clock = s.clock := by
  rw [System.call]
  split <;> rfl

-- A thread that has the lock for a call.
def System.within (s : System τ) (t : τ) (sec : Section) : System τ :=
  (s.setLock (some t)).goto t (.inside sec)

-- One that finds everything set up gets there, ...
theorem enters_checked (hp : s.place t = .checking sec) (hinited : s.inited = true)
    (hlock : s.lock = none) : RunsTo s (s.within t sec) := by
  refine .on hp trivial (.inited hp hinited) ?_
  refine .on goto_place_self trivial (.lock goto_place_self hlock) (.of_eq ?_)
  rw [goto_setLock, goto_goto]
  rfl

theorem enters (sec : Section) (ho : Orderly s (.call t sec)) (hout : s.place t = .outside)
    (hcall : (s.loop t).Callable) (hbegins : sec.Begins) (hinited : s.inited = true)
    (hlock : s.lock = none) : RunsTo s (s.within t sec) := by
  refine (RunsTo.begin (.begin hout hcall hbegins) ho).trans ?_
  have hchecked : RunsTo (s.goto t (.checking sec)) _ := enters_checked goto_place_self hinited hlock
  rwa [System.within, goto_setLock, goto_goto] at hchecked

-- ... does what it has come for, ...
theorem within_step (op : Op) : OrderlyStep (s.within t (.body op))
    (.turn t s.now (.event (.call op (Alarm.call op s.state).1)))
    (((s.call op).setLock none).goto t (if op.arms then .ensuring else .outside)) := by
  have hs := Step.body (s := s.within t (.body op)) goto_place_self
  rw [System.within, call_goto, call_setLock, goto_setLock, setLock_setLock, goto_goto] at hs
  exact ⟨trivial, hs⟩

theorem within_wait (alarm : OSAlarm) (hlock : s.lock = none) :
    OrderlyStep (s.within t (.wait alarm))
      (.turn t s.now (.wait alarm (osWaitAlarmTurn s.state alarm)))
      (s.goto t
        (if (osWaitAlarmTurn s.state alarm).isSome then .outside else .checking (.wait alarm))) := by
  have hs := Step.wait (s := s.within t (.wait alarm)) goto_place_self
  rw [System.within, goto_setLock, setLock_setLock, setLock_self hlock, goto_goto] at hs
  exact ⟨trivial, hs⟩

-- ... and leaves.
theorem leaves (hout : s.place t = .outside) (hlock : s.lock = none) (hstarted : s.started = true) :
    RunsTo (((s.call op).setLock none).goto t (if op.arms then .ensuring else .outside))
      (s.call op) := by
  have hplace : (s.call op).place t = .outside := by rw [call_place, hout]
  rw [setLock_self (call_lock.trans hlock)]
  split
  next =>
    refine .on goto_place_self trivial
      (.started goto_place_self (call_started.trans hstarted)) (.of_eq ?_)
    rw [goto_goto, goto_self hplace]
  next => exact .of_eq (goto_self hplace)

omit [DecidableEq τ] in
theorem call_loop : (s.call op).loop = if op.wakes then fun v => (s.loop v).wake else s.loop := by
  rw [System.call]
  split <;> rfl

-- Set up, with nobody in a call and no scheduler yet.
def System.ready (clock : Clock) : System τ := { System.start clock with inited := true }

def System.launch (s : System τ) (u : τ) : System τ :=
  { s with started := true, thread := some u }.turnTo u .starting

-- The first call sets the lock up ...
theorem enters_first (hout : s.place t = .outside) (hcall : (s.loop t).Callable)
    (hnull : op.null = false) (hinited : s.inited = false) (hlock : s.lock = none) :
    RunsTo s ({ s with inited := true }.within t (.body op)) := by
  have hbegin : Step s (.call t (.body op)) _ := .begin hout hcall hnull
  refine (RunsTo.begin hbegin trivial).trans ?_
  refine .on goto_place_self trivial (.uninited goto_place_self hinited (by rintro ⟨⟩)) ?_
  refine (RunsTo.statement ?_ (.reset goto_place_self)).trans ?_
  · rw [Orderly, goto_place_self]
    exact hlock
  refine .on goto_place_self trivial (.mark goto_place_self) ?_
  refine .on goto_place_self trivial (.lock goto_place_self rfl) (.of_eq ?_)
  simp only [System.goto, System.setLock, System.within, Function.update_idem]

omit [DecidableEq τ] in
theorem call_absent (hl : s.loop u = .absent) : (s.call op).loop u = .absent := by
  rw [call_loop]
  split
  next => exact congrArg Loop.wake hl
  next => exact hl

omit [DecidableEq τ] in
theorem call_running : ((s.call op).loop u).Running ↔ (s.loop u).Running := by
  rw [call_loop]
  split
  next => exact wake_running
  next => exact Iff.rfl

-- ... and, where it arms an alarm, creates the scheduler.
theorem launches (hout : s.place t = .outside) (hfree : s.place u = .outside)
    (habsent : s.loop u = .absent) (hnone : ∀ v, ¬(s.loop v).Running) (hlock : s.lock = none)
    (hstarted : s.started = false) (harms : op.arms = true) (hne : u ≠ t) :
    RunsTo (((s.call op).setLock none).goto t (if op.arms then .ensuring else .outside))
      ((s.call op).launch u) := by
  have hplace : (s.call op).place t = .outside := by rw [call_place, hout]
  rw [if_pos harms, setLock_self (call_lock.trans hlock)]
  refine .on goto_place_self trivial
    (.unstarted goto_place_self (call_started.trans hstarted)) ?_
  rw [goto_goto]
  refine (RunsTo.statement ?_ (.created (u := u) goto_place_self ?_ (call_absent habsent))).trans ?_
  · rw [Orderly, goto_place_self]
    exact fun v hv => hnone v (call_running.1 hv)
  · rw [goto_place_ne hne, call_place, hfree]
  refine .on goto_place_self trivial (.launched goto_place_self) (.of_eq ?_)
  simp only [System.goto, System.turnTo, System.launch, Function.update_idem]
  rw [Function.update_eq_self_iff.2 hplace.symm]

theorem turnTo_self (hl : s.loop u = l) : s.turnTo u l = s := by
  rw [System.turnTo, ← hl, Function.update_eq_self]

omit [DecidableEq τ] in
theorem orderly_outside (hout : s.place u = .outside) : Orderly s (.statement u) :=
  orderly_of_place hout trivial

def System.scanned (s : System τ) (u : τ) (now : OSTime) (entries : List (OSAlarm × HostAlarm))
    (due : List (OSAlarm × OSAlarmCallback)) (nearest : OSTime) : System τ :=
  (s.setAlarms (entries.foldl (write now) s.alarms)).turnTo u
    (.scanning ⟨now, [], entries.foldl (collect now) due, entries.foldl (nearer now) nearest⟩)

theorem scanned_turnTo :
    (s.turnTo u l).scanned u now entries due nearest = s.scanned u now entries due nearest := by
  rw [System.scanned, turnTo_setAlarms, turnTo_turnTo]
  rfl

theorem scanned_due {a : OSAlarm} {h : HostAlarm} (hdue : h.isDue now = true) :
    s.scanned u now ((a, h) :: entries) due nearest =
      (s.setAlarms (s.alarms.insert a (h.advance now))).scanned u now entries
        (due ++ [(a, h.callback)]) ((h.advance now).nearest nearest) := by
  have hwrite : write now s.alarms (a, h) = s.alarms.insert a (h.advance now) := if_pos hdue
  have hcollect : collect now due (a, h) = due ++ [(a, h.callback)] := if_pos hdue
  have hsettle : h.settle now = h.advance now := if_pos hdue
  rw [System.scanned, List.foldl_cons, List.foldl_cons, List.foldl_cons, hwrite, hcollect, nearer,
    hsettle]
  rfl

theorem scanned_early {a : OSAlarm} {h : HostAlarm} (hdue : h.isDue now = false) :
    s.scanned u now ((a, h) :: entries) due nearest =
      s.scanned u now entries due (h.nearest nearest) := by
  have hnot := ne_true_of_eq_false hdue
  have hwrite : write now s.alarms (a, h) = s.alarms := if_neg hnot
  have hcollect : collect now due (a, h) = due := if_neg hnot
  have hsettle : h.settle now = h := if_neg hnot
  rw [System.scanned, List.foldl_cons, List.foldl_cons, List.foldl_cons, hwrite, hcollect, nearer,
    hsettle]
  rfl

-- By itself a scheduler comes to the end of its loop over the alarms.
theorem scans (hout : s.place u = .outside)
    (hl : s.loop u = .scanning ⟨now, entries.map Prod.fst, due, nearest⟩)
    (hkeys : entries.Pairwise fun x y => x.1 ≠ y.1)
    (hget : ∀ x ∈ entries, s.alarms[x.1]? = some x.2) :
    RunsTo s (s.scanned u now entries due nearest) := by
  induction entries generalizing s due nearest with
  | nil => exact .of_eq (turnTo_self hl).symm
  | cons entry entries ih =>
    obtain ⟨a, h⟩ := entry
    obtain ⟨hhead, htail⟩ := List.pairwise_cons.1 hkeys
    have hhere := hget _ List.mem_cons_self
    have hrest (x : OSAlarm × HostAlarm) (hx : x ∈ entries) : s.alarms[x.1]? = some x.2 :=
      hget x (List.mem_cons_of_mem _ hx)
    cases hdue : h.isDue now with
    | true =>
      rw [scanned_due hdue, ← scanned_turnTo]
      refine (RunsTo.statement (orderly_outside hout) (.collect hl rfl hhere hdue)).trans ?_
      let p : Pass := ⟨now, a :: entries.map Prod.fst, due ++ [(a, h.callback)], nearest⟩
      have hwrite : Step (s.turnTo u (.writing p)) (.statement u) _ :=
        .write turnTo_loop_self rfl hhere
      refine (RunsTo.statement (orderly_outside (s := s.turnTo u _) hout) hwrite).trans ?_
      rw [turnTo_setAlarms, turnTo_turnTo]
      refine ih hout turnTo_loop_self htail fun x hx => ?_
      have hne : a ≠ x.1 := hhead x hx
      change (s.alarms.insert a (h.advance now))[x.1]? = some x.2
      rw [Std.TreeMap.getElem?_insert, if_neg, hrest x hx]
      exact fun heq => hne (Std.LawfulEqCmp.eq_of_compare heq)
    | false =>
      rw [scanned_early hdue, ← scanned_turnTo]
      refine (RunsTo.statement (orderly_outside hout) (.passOver hl rfl hhere hdue)).trans ?_
      exact ih hout turnTo_loop_self htail hrest

def Loop.of : Scheduler → Loop
  | .sleeping timeout => .sleeping timeout
  | .invoking due => .invoking due
  | .inCallback alarm due => .inCallback alarm due
  | .off | .looping | .exited => .locking

-- The system at the end of a pass of `u` that nothing falls into, and behind it.
def System.scannedAll (s : System τ) (u : τ) : System τ :=
  (s.setLock (some u)).scanned u s.now s.alarms.toList [] 0

def System.passed (s : System τ) (u : τ) : System τ :=
  (s.setAlarms (schedulerPass s.state s.clock).alarms).turnTo u
    (.of (schedulerPass s.state s.clock).scheduler)

theorem scans_all (hout : s.place u = .outside) (hl : (s.loop u).Entering) (hlock : s.lock = none)
    (hstop : s.stop = false) : RunsTo s (s.scannedAll u) := by
  refine (RunsTo.statement (orderly_outside hout) (.enter hl hlock hstop)).trans ?_
  have hread : Step ((s.setLock (some u)).turnTo u .looping) (.statement u) _ :=
    .read turnTo_loop_self
  refine (RunsTo.statement (orderly_outside (s := (s.setLock _).turnTo u _) hout) hread).trans ?_
  rw [turnTo_turnTo, System.scannedAll, ← scanned_turnTo]
  refine scans hout ?_ (toList_keys _) fun x hx => mem_toList_iff.1 hx
  rw [turnTo_loop_self, Std.TreeMap.map_fst_toList_eq_keys]
  rfl

theorem passes (hlock : s.lock = none) :
    OrderlyStep (s.scannedAll u) (.turn u s.now (.event .pass)) (s.passed u) := by
  have hs : Step (s.scannedAll u) (.turn u s.now (.event .pass))
      (((s.scannedAll u).setLock none).turnTo u
        (.of (schedulerPass s.state s.clock).scheduler)) := by
    simp only [schedulerPass]
    split
    next hdue => exact .sleep turnTo_loop_self rfl (List.isEmpty_iff.1 hdue)
    next hdue => exact .invoke turnTo_loop_self rfl fun h => hdue (List.isEmpty_iff.2 h)
  rw [System.scannedAll, System.scanned, turnTo_setLock, turnTo_turnTo, setAlarms_setLock,
    setLock_setLock, setLock_self hlock] at hs
  exact ⟨trivial, hs⟩

def Reaches (s s' : System τ) : Prop := ∃ es, Run s es s'

theorem Reaches.trans (h : Reaches s s₁) (h' : Reaches s₁ s') : Reaches s s' := by
  obtain ⟨es, run⟩ := h
  obtain ⟨es', run'⟩ := h'
  exact ⟨es ++ es', run.append run'⟩

theorem Reaches.step {e : Event τ} (h : Reaches s s₁) (hs : OrderlyStep s₁ e s') : Reaches s s' := by
  obtain ⟨es, run⟩ := h
  exact ⟨_, run.snoc hs⟩

theorem RunsTo.reaches (h : RunsTo s s') : Reaches s s' := by
  obtain ⟨es, -, run⟩ := h
  exact ⟨es, run⟩

theorem reaches_launch {clock : Clock} (hnull : op.null = false) (harms : op.arms = true)
    (hne : u ≠ t) : Reaches (System.start clock) (((System.ready clock).call op).launch u) := by
  have henters : RunsTo (System.start clock) ((System.ready clock).within t (.body op)) :=
    enters_first rfl trivial hnull rfl rfl
  have hlaunches : RunsTo _ (((System.ready clock).call op).launch u) :=
    launches (t := t) rfl rfl rfl (fun _ => id) rfl rfl harms hne
  exact (henters.reaches.step (within_step op)).trans hlaunches.reaches

theorem reaches_passed (hout : s.place u = .outside) (hl : (s.loop u).Entering)
    (hlock : s.lock = none) (hstop : s.stop = false) : Reaches s (s.passed u) :=
  (scans_all hout hl hlock hstop).reaches.step (passes hlock)

end Threads

end CoreinitNx.Alarm
