import CoreinitNx.Alarm.Alone

namespace CoreinitNx.Alarm

section Atomic

variable {s s' : State} {e : Event} {es : List Event} {a b : OSAlarm} {cb : OSAlarmCallback}
  {alarms : Alarms} {h : HostAlarm} {now : OSTime}

def Scheduler.batch : Scheduler → List (OSAlarm × OSAlarmCallback)
  | .invoking due => due
  | .inCallback _ due => due
  | _ => []

-- Collected by the pass under way, its callback not started yet.
def Pending (s : State) (a : OSAlarm) : Prop := ∃ cb, cb ≠ 0 ∧ (a, cb) ∈ s.scheduler.batch

def Arms (a : OSAlarm) : Event → Prop
  | .call (.set b _ _) _ => b = a
  | .call (.setPeriodic b _ _ _) _ => b = a
  | _ => False

def Fires (a : OSAlarm) : Event → Prop
  | .fire b _ => b = a
  | _ => False

def Cancels (s : State) (a : OSAlarm) : Event → Prop
  | .call (.cancel b) reply => b = a ∧ reply = .ret 1
  | .call (.cancelAll group) _ => ∃ h, s.alarms[a]? = some h ∧ h.group = group ∧ h.armed = true
  | _ => False

def Disarmed (alarms : Alarms) (a : OSAlarm) : Prop :=
  ∀ h, alarms[a]? = some h → h.armed = false

theorem disarmed_insert (hd : Disarmed alarms a) (hb : b = a → h.armed = false) :
    Disarmed (alarms.insert b h) a := by
  intro h' hget
  rw [Std.TreeMap.getElem?_insert] at hget
  split at hget
  next hba =>
    cases hget
    exact hb (Std.LawfulEqCmp.eq_of_compare hba)
  next => exact hd h' hget

theorem disarmed_map {f : OSAlarm → HostAlarm → HostAlarm} (hd : Disarmed alarms a)
    (hf : ∀ h, h.armed = false → (f a h).armed = false) : Disarmed (alarms.map f) a := by
  intro h' hget
  rw [Std.TreeMap.getElem?_map, Option.map_eq_some_iff] at hget
  obtain ⟨h, hold, rfl⟩ := hget
  exact hf h (hd h hold)

theorem Disarmed.at_armed (hd : Disarmed alarms a) : (alarms.at a).armed = false := by
  rw [Alarms.at]
  cases hget : alarms[a]? with
  | none => rfl
  | some h => exact hd h hget

theorem isDue_of_disarmed (hh : h.armed = false) : h.isDue now = false := by
  rw [HostAlarm.isDue, hh]
  rfl

theorem settle_armed (hh : h.armed = false) : (h.settle now).armed = false := by
  rw [HostAlarm.settle, isDue_of_disarmed hh]
  exact hh

@[simp] theorem wake_batch (s : State) : s.wake.scheduler.batch = s.scheduler.batch := by
  rw [State.wake]
  split
  next hs => rw [hs]; rfl
  next => rfl

theorem wake_scheduler_congr {t : State} (h : t.scheduler = s.scheduler) :
    t.wake.scheduler = s.wake.scheduler := by
  simp only [State.wake]
  rw [h]
  split <;> first | rfl | exact h

theorem call_scheduler (s : State) (op : Op) :
    (call op s).2.scheduler = s.scheduler ∨ (call op s).2.scheduler = s.wake.scheduler := by
  have he := call_effect op s
  generalize (call op s).2 = s' at he ⊢
  cases he with
  | unchanged | create | setTag | setUserData => exact .inl rfl
  | set | setPeriodic | cancel | cancelAll => exact .inr (wake_scheduler_congr rfl)
  | cancelUnknown => exact .inr rfl

theorem call_batch (s : State) (op : Op) :
    (call op s).2.scheduler.batch = s.scheduler.batch := by
  rcases call_scheduler s op with hsame | hwake
  · rw [hsame]
  · rw [hwake, wake_batch]

theorem call_disarmed {op : Op} {reply : Reply} (harm : ¬Arms a (.call op reply))
    (hd : Disarmed s.alarms a) : Disarmed (call op s).2.alarms a := by
  have he := call_effect op s
  generalize (call op s).2 = s' at he ⊢
  cases he with
  | unchanged => exact hd
  | create => exact disarmed_insert hd fun _ => rfl
  | set | setPeriodic =>
    rw [wake_alarms]
    exact disarmed_insert hd fun heq => absurd heq harm
  | cancel =>
    rw [wake_alarms]
    exact disarmed_insert hd fun _ => rfl
  | cancelUnknown => rwa [wake_alarms]
  | cancelAll =>
    rw [wake_alarms]
    refine disarmed_map hd fun h hh => ?_
    split
    next => rfl
    next => exact hh
  | setTag | setUserData =>
    refine disarmed_insert hd ?_
    rintro rfl
    exact hd.at_armed

theorem mem_collect {entries : List (OSAlarm × HostAlarm)}
    {due : List (OSAlarm × OSAlarmCallback)} :
    (a, cb) ∈ entries.foldl (collect now) due ↔
      (a, cb) ∈ due ∨ ∃ h, (a, h) ∈ entries ∧ h.isDue now = true ∧ h.callback = cb := by
  induction entries generalizing due with
  | nil => simp
  | cons entry entries ih =>
    rw [List.foldl_cons, ih]
    obtain ⟨b, h⟩ := entry
    rw [collect]
    split
    next hdue =>
      constructor
      · rintro (hmem | ⟨h', hmem, hrest⟩)
        · rcases List.mem_append.1 hmem with hold | hnew
          · exact .inl hold
          · obtain ⟨rfl, rfl⟩ := Prod.mk.inj (List.mem_singleton.1 hnew)
            exact .inr ⟨h, List.mem_cons_self, hdue, rfl⟩
        · exact .inr ⟨h', List.mem_cons_of_mem _ hmem, hrest⟩
      · rintro (hmem | ⟨h', hmem, hd, rfl⟩)
        · exact .inl (List.mem_append_left _ hmem)
        · rcases List.mem_cons.1 hmem with heq | hmem
          · obtain ⟨rfl, rfl⟩ := Prod.mk.inj heq
            exact .inl (List.mem_append_right _ (List.mem_singleton_self _))
          · exact .inr ⟨h', hmem, hd, rfl⟩
    next hdue =>
      constructor
      · rintro (hmem | ⟨h', hmem, hrest⟩)
        · exact .inl hmem
        · exact .inr ⟨h', List.mem_cons_of_mem _ hmem, hrest⟩
      · rintro (hmem | ⟨h', hmem, hd, rfl⟩)
        · exact .inl hmem
        · rcases List.mem_cons.1 hmem with heq | hmem
          · obtain ⟨rfl, rfl⟩ := Prod.mk.inj heq
            exact absurd hd hdue
          · exact .inr ⟨h', hmem, hd, rfl⟩

theorem schedulerPass_batch {later : Clock} (hmem : (a, cb) ∈ (schedulerPass s later).scheduler.batch) :
    ∃ h, s.alarms[a]? = some h ∧ h.isDue s.clock.osGetTime = true ∧ h.callback = cb := by
  simp only [schedulerPass] at hmem
  split at hmem
  next => cases hmem
  next =>
    rcases mem_collect.1 hmem with hnil | ⟨h, hentry, hrest⟩
    · cases hnil
    · exact ⟨h, Std.TreeMap.mem_toList_iff_getElem?_eq_some.1 hentry, hrest⟩

theorem Step.disarmed (hs : Step s e s') (harm : ¬Arms a e) (hd : Disarmed s.alarms a) :
    Disarmed s'.alarms a := by
  cases hs with
  | call op => exact call_disarmed harm hd
  | startThread | skip | fire | finish | resume | timeout | tick | setTime | exit => exact hd
  | pass =>
    intro h hget
    rw [schedulerPass_getElem?, Option.map_eq_some_iff] at hget
    obtain ⟨h, hold, rfl⟩ := hget
    exact settle_armed (hd h hold)
  | requestStop =>
    rw [wake_alarms]
    exact hd
  | shutdown =>
    intro h hget
    rw [Std.TreeMap.getElem?_emptyc] at hget
    cases hget

structure Quiet (s : State) (a : OSAlarm) : Prop where
  disarmed : Disarmed s.alarms a
  not_pending : ¬Pending s a

theorem Step.quiet (hs : Step s e s') (harm : ¬Arms a e) (hq : Quiet s a) :
    Quiet s' a ∧ ¬Fires a e := by
  obtain ⟨hd, hp⟩ := hq
  have hd' := hs.disarmed harm hd
  have hsub {t : State} (ht : t.scheduler.batch ⊆ s.scheduler.batch) : ¬Pending t a :=
    fun ⟨cb, hcb, hmem⟩ => hp ⟨cb, hcb, ht hmem⟩
  cases hs with
  | call op =>
    refine ⟨⟨hd', hsub ?_⟩, id⟩
    rw [call_batch]
    exact List.Subset.refl _
  | startThread | timeout | exit | resume | shutdown =>
    exact ⟨⟨hd', fun ⟨_, _, hmem⟩ => nomatch hmem⟩, id⟩
  | @pass later _ _ _ =>
    refine ⟨⟨hd', ?_⟩, id⟩
    rintro ⟨cb, -, hmem⟩
    obtain ⟨h, hget, hdue, -⟩ := schedulerPass_batch hmem
    rw [isDue_of_disarmed (hd h hget)] at hdue
    cases hdue
  | skip hsched =>
    refine ⟨⟨hd', hsub ?_⟩, id⟩
    rw [hsched]
    exact List.subset_cons_self _ _
  | @fire b cb due hsched hcb =>
    refine ⟨⟨hd', hsub ?_⟩, ?_⟩
    · rw [hsched]
      exact List.subset_cons_self _ _
    · rintro rfl
      refine hp ⟨cb, hcb, ?_⟩
      rw [hsched]
      exact List.mem_cons_self
  | finish hsched =>
    refine ⟨⟨hd', hsub ?_⟩, id⟩
    rw [hsched]
    exact List.Subset.refl _
  | tick | setTime => exact ⟨⟨hd', hp⟩, id⟩
  | requestStop =>
    refine ⟨⟨hd', hsub ?_⟩, id⟩
    rw [wake_batch]
    exact List.Subset.refl _

theorem Cancels.disarmed (hcancel : Cancels s a e) (hs : Step s e s') : Disarmed s'.alarms a := by
  cases hs with
  | call op =>
    cases op with
    | create _ | set _ _ _ | setPeriodic _ _ _ _ | setTag _ _ | setUserData _ _
    | getUserData _ => exact hcancel.elim
    | cancel b =>
      obtain ⟨rfl, hreply⟩ := hcancel
      simp only [call, osCancelAlarm] at hreply ⊢
      split at hreply
      next => cases hreply
      next hne =>
        rw [if_neg hne]
        split at hreply
        next h hget =>
          rw [wake_alarms]
          intro h' hget'
          rw [Std.TreeMap.getElem?_insert_self] at hget'
          cases hget'
          rfl
        next => cases hreply
    | cancelAll group =>
      obtain ⟨h, hget, hgroup, -⟩ := hcancel
      simp only [call, osCancelAlarms, wake_alarms]
      intro h' hget'
      rw [Std.TreeMap.getElem?_map, hget, Option.map_some, if_pos hgroup] at hget'
      cases hget'
      rfl
  | startThread | pass | skip | fire | finish | resume | timeout | tick | setTime | requestStop
  | exit | shutdown => exact hcancel.elim

theorem Cancels.pending (hcancel : Cancels s a e) (hs : Step s e s') :
    Pending s' a ↔ Pending s a := by
  cases hs with
  | call op =>
    simp only [Pending]
    rw [call_batch]
  | startThread | pass | skip | fire | finish | resume | timeout | tick | setTime | requestStop
  | exit | shutdown => exact hcancel.elim

theorem not_cancels_null {op : Op} (hnull : op.null = true) :
    ¬Cancels s a (.call op (call op s').1) := by
  intro hcancel
  cases op with
  | cancel b =>
    obtain rfl : b = 0 := of_decide_eq_true hnull
    cases hcancel.2
  | cancelAll group => cases hnull
  | create | set | setPeriodic | setTag | setUserData | getUserData => exact hcancel.elim

-- The call comes as far as the lock.
def Calls : Event → Prop
  | .call op _ => op.null = false
  | _ => False

theorem Cancels.calls {t t' : State} (hcancel : Cancels s a e) (hs : Step t e t') : Calls e := by
  cases hs with
  | call op =>
    by_contra hnull
    exact not_cancels_null (eq_true_of_ne_false hnull) hcancel
  | startThread | pass | skip | fire | finish | resume | timeout | tick | setTime | requestStop
  | exit | shutdown => exact hcancel.elim

theorem Cancels.congr (hcancel : Cancels s a e) (halarms : s'.alarms = s.alarms) :
    Cancels s' a e := by
  obtain ⟨alarms, _, _, _⟩ := s'
  cases halarms
  exact hcancel

end Atomic

namespace Threads

variable {τ : Type} [DecidableEq τ] {s s' s₁ : System τ} {st st' : State} {t u : τ} {l : Loop}
  {e : Event τ} {a : OSAlarm} {cb : OSAlarmCallback}

def Loop.batch : Loop → List (OSAlarm × OSAlarmCallback)
  | .invoking due => due
  | .inCallback _ due => due
  | _ => []

-- The entries for `a` in what a pass has collected.
def collected (a : OSAlarm) (l : Loop) : List (OSAlarm × OSAlarmCallback) :=
  l.batch.filter fun entry => entry.1 = a

def Pending (s : System τ) (a : OSAlarm) : Prop := ∃ u cb, cb ≠ 0 ∧ (a, cb) ∈ (s.loop u).batch

-- However the run goes on, no callback of `a` starts before a call arms `a`.
def StaysCancelled (s : System τ) (a : OSAlarm) : Prop :=
  ∀ es s', Run s es s' → (∀ e ∈ es, ¬e.Is (Arms a)) → ∀ e ∈ es, ¬e.Is (Fires a)

theorem Loop.Stands.batch {stop : Bool} {sched : Scheduler} (h : l.Stands stop sched) :
    sched.batch = l.batch := by
  cases l with
  | absent | starting | exited => rcases h with rfl | ⟨rfl, -⟩ <;> rfl
  | locking | looping | scanning | writing | sleeping | invoking | inCallback =>
    cases h
    rfl

theorem Loop.running_of_batch (h : l.batch ≠ []) : l.Running := by
  cases l <;> first | exact absurd rfl h | trivial

omit [DecidableEq τ] in
theorem Shows.pending_iff (hi : Inv s) (hv : Shows s st) : Alarm.Pending st a ↔ Pending s a := by
  obtain ⟨l, hl, hstands, -⟩ := hv.current
  rw [Alarm.Pending, hstands.batch]
  constructor
  · rintro ⟨cb, hcb, hmem⟩
    rcases hl with ⟨u, rfl, -⟩ | ⟨rfl, -⟩
    · exact ⟨u, cb, hcb, hmem⟩
    · cases hmem
  · rintro ⟨u, cb, hcb, hmem⟩
    rw [hi.current hl (Loop.running_of_batch (List.ne_nil_of_mem hmem))] at hmem
    exact ⟨cb, hcb, hmem⟩

omit [DecidableEq τ] in
theorem Moves.quiet (hm : Moves st e st') (harm : ¬e.Is (Arms a)) (hq : Quiet st a) :
    Quiet st' a ∧ ¬e.Is (Fires a) := by
  rcases hm.cases with ⟨rfl, hcall⟩ | ⟨e', hs, ⟨t, rfl⟩ | ⟨hhidden, hno⟩⟩
  · refine ⟨hq, fun h => ?_⟩
    obtain ⟨_, _, hfires⟩ := hcall _ h
    exact hfires
  · exact hs.quiet harm hq
  · refine ⟨(hs.quiet ?_ hq).1, hno _⟩
    cases e' <;> first | exact id | exact hhidden.elim

theorem staysCancelled (hi : Inv s) (hv : Shows s st) (hq : Quiet st a) : StaysCancelled s a := by
  intro es s' run harms
  refine (run.guarantee (I := fun s => Inv s ∧ ∃ st, Shows s st ∧ Quiet st a) harms
    ⟨hi, st, hv, hq⟩ ?_).2
  rintro s e s' harm ⟨hi, st, hv, hq⟩ hs
  obtain ⟨st', hm, hv'⟩ := hv.step hi hs.1 hs.2
  obtain ⟨hq', hfires⟩ := hm.quiet harm hq
  exact ⟨⟨hi.step hs.1 hs.2, st', hv', hq'⟩, hfires⟩

-- A call that comes as far as the lock finds the alarms as the state has them.
theorem calls_same (hi : Inv s) (hv : Shows s st) (hs : Step s e s') (hcall : e.Is Calls) :
    st.alarms = s.alarms := by
  cases hs with
  | null _ _ hnull => exact absurd (hnull.symm.trans hcall) nofun
  | body ht => exact (hv.same fun u => hi.no_holder (by rw [ht]; trivial)).1
  | nullWait | begin | inited | uninited | nothing | reset | mark | lock | wait | stop | clear
  | started | unstarted | created | refused | launched | joined | unjoined | enter | exit | read
  | passOver | collect | write | invoke | sleep | skip | fire | finish | resume | timeout | tick
  | setTime => exact hcall.elim

-- Nothing but the batch itself stands between a collected callback and its start.
theorem fires_of_invoking {due : List (OSAlarm × OSAlarmCallback)} (hcb : cb ≠ 0)
    (hmem : (a, cb) ∈ due) (hl : s.loop u = .invoking due) (hout : s.place u = .outside) :
    ∃ es s', Run s es s' ∧ (∀ e ∈ es, ¬e.Is (Arms a)) ∧ ∃ e ∈ es, e.Is (Fires a) := by
  induction due generalizing s with
  | nil => cases hmem
  | cons entry due ih =>
    obtain ⟨b, cb'⟩ := entry
    by_cases hhere : (a, cb) = (b, cb')
    · obtain ⟨rfl, rfl⟩ := Prod.mk.inj hhere
      have hfire : OrderlyStep s (.turn u s.now (.event (.fire a cb))) _ := ⟨trivial, .fire hl hcb⟩
      exact ⟨_, _, Transition.Run.single hfire, List.forall_mem_singleton.2 id, _,
        List.mem_singleton_self _, rfl⟩
    · obtain ⟨es, s', run, harms, e, he, hf⟩ := ih (s := s.turnTo u (.invoking due))
        ((List.mem_cons.1 hmem).resolve_left hhere) turnTo_loop_self hout
      by_cases hnull : cb' = 0
      · subst hnull
        have hskip : OrderlyStep s (.turn u s.now (.event (.skip b))) _ := ⟨trivial, .skip hl⟩
        exact ⟨_, s', run.cons hskip, List.forall_mem_cons.2 ⟨id, harms⟩, e,
          List.mem_cons_of_mem _ he, hf⟩
      · have hfire : OrderlyStep s (.turn u s.now (.event (.fire b cb'))) _ :=
          ⟨trivial, .fire hl hnull⟩
        have hfinish : OrderlyStep (s.turnTo u (.inCallback b due))
            (.turn u s.now (.event (.finish b))) _ := ⟨trivial, .finish turnTo_loop_self hout⟩
        rw [turnTo_turnTo] at hfinish
        exact ⟨_, s', (run.cons hfinish).cons hfire,
          List.forall_mem_cons.2 ⟨id, List.forall_mem_cons.2 ⟨id, harms⟩⟩, e,
          List.mem_cons_of_mem _ (List.mem_cons_of_mem _ he), hf⟩

theorem Pending.fires (hp : Pending s a) (hout : ∀ u, (s.loop u).Running → s.place u = .outside) :
    ∃ es s', Run s es s' ∧ (∀ e ∈ es, ¬e.Is (Arms a)) ∧ ∃ e ∈ es, e.Is (Fires a) := by
  obtain ⟨u, cb, hcb, hmem⟩ := hp
  have hplace := hout u (Loop.running_of_batch (List.ne_nil_of_mem hmem))
  cases hl : s.loop u with
  | absent | starting | locking | looping | scanning | writing | sleeping | exited =>
    rw [hl] at hmem
    cases hmem
  | invoking due =>
    rw [hl] at hmem
    exact fires_of_invoking hcb hmem hl hplace
  | inCallback b due =>
    rw [hl] at hmem
    have hfinish : OrderlyStep s (.turn u s.now (.event (.finish b))) _ :=
      ⟨trivial, .finish hl hplace⟩
    obtain ⟨es, s', run, harms, e, he, hf⟩ :=
      fires_of_invoking (s := s.turnTo u (.invoking due)) hcb hmem turnTo_loop_self hplace
    exact ⟨_, s', run.cons hfinish, List.forall_mem_cons.2 ⟨id, harms⟩, e,
      List.mem_cons_of_mem _ he, hf⟩

-- A callback that makes a call of its own may be held up in it for good.
theorem cancelled_alarm_never_fires_iff :
    ∀ (clock : Clock) (es : List (Event τ)) (s : System τ), Run (System.start clock) es s →
      ∀ (a : OSAlarm) (e : Event τ) (s' : System τ), e.Is (Cancels s.state a) →
        OrderlyStep s e s' →
        (¬Pending s a → StaysCancelled s' a) ∧
          ((∀ u, (s'.loop u).Running → s'.place u = .outside) →
            (StaysCancelled s' a ↔ ¬Pending s a)) := by
  intro clock es s run a e s' hcancel hstep
  obtain ⟨hi, st, hv⟩ := shows_run run
  obtain ⟨st', hm, hv'⟩ := hv.step hi hstep.1 hstep.2
  have hi' := hi.step hstep.1 hstep.2
  have hboth : Disarmed st'.alarms a ∧ (Alarm.Pending st' a ↔ Alarm.Pending st a) := by
    rcases hm.cases with ⟨-, hcall⟩ | ⟨e', hs, ⟨t, rfl⟩ | ⟨-, hno⟩⟩
    · obtain ⟨op, hnull, hbad⟩ := hcall _ hcancel
      exact absurd hbad (not_cancels_null hnull)
    · have hcalls := Cancels.calls hcancel hs
      have hcancel : Cancels st a e' :=
        Cancels.congr hcancel (calls_same hi hv hstep.2 hcalls)
      exact ⟨hcancel.disarmed hs, hcancel.pending hs⟩
    · exact absurd hcancel (hno _)
  obtain ⟨hdisarmed, hsame⟩ := hboth
  rw [← hv.pending_iff hi, ← hsame]
  have hstays (hp : ¬Alarm.Pending st' a) : StaysCancelled s' a :=
    staysCancelled hi' hv' ⟨hdisarmed, hp⟩
  refine ⟨hstays, fun hout => ⟨fun hstays' hp => ?_, hstays⟩⟩
  obtain ⟨es', s'', run', harms, e', he', hfires⟩ := ((hv'.pending_iff hi').1 hp).fires hout
  exact hstays' es' s'' run' harms e' he' hfires

-- The alarm is still 50 ticks ahead when its cancel comes.
theorem cancelled_alarm_never_fires_iff_before_due :
    ∃ (es : List (Event Bool)) (s s' : System Bool), Run (System.start ⟨0, 0⟩) es s ∧
      OrderlyStep s (.turn true 0 (.event (.call (.cancel 4) (.ret 1)))) s' ∧
      StaysCancelled s' 4 := by
  let s₁ : System Bool := ((System.ready ⟨0, 0⟩).call (.setPeriodic 4 50 10 7)).launch false
  have hboot : Reaches (System.start ⟨0, 0⟩) s₁ :=
    reaches_launch (t := true) (u := false) rfl rfl (by decide)
  have hpass : Reaches s₁ (s₁.passed false) := reaches_passed rfl trivial rfl rfl
  let s₂ := s₁.passed false
  obtain ⟨es, run⟩ := (hboot.trans hpass).trans
    (enters (s := s₂) (t := true) (.body (.cancel 4)) trivial rfl trivial rfl rfl rfl).reaches
  have hcancel := within_step (s := s₂) (t := true) (.cancel 4)
  have hreply : (call (.cancel 4) s₂.state).1 = .ret 1 := by decide +kernel
  rw [hreply] at hcancel
  have hcancels : Event.Is (Cancels (s₂.within true (.body (.cancel 4))).state 4)
      (.turn true 0 (.event (.call (.cancel 4) (.ret 1)))) := ⟨rfl, rfl⟩
  refine ⟨es, _, _, run, hcancel,
    (cancelled_alarm_never_fires_iff _ _ _ run 4 _ _ hcancels hcancel).1 ?_⟩
  rintro ⟨u, cb, -, hmem⟩
  have hbatch : ((s₂.within true (.body (.cancel 4))).loop u).batch = [] := by
    cases u <;> decide +kernel
  rw [hbatch] at hmem
  cases hmem

-- A periodic alarm is collected, cancelled while still armed, and invoked.
theorem cancelled_alarm_fires :
    ∃ (es : List (Event Bool)) (s s' s'' : System Bool) (es' : List (Event Bool)),
      Run (System.start ⟨0, 0⟩) es s ∧
      OrderlyStep s (.turn true 0 (.event (.call (.cancel 4) (.ret 1)))) s' ∧
      Run s' es' s'' ∧ (∀ e ∈ es', ¬e.Is (Arms 4)) ∧
      .turn false 0 (.event (.fire 4 7)) ∈ es' := by
  let s₁ : System Bool := ((System.ready ⟨0, 0⟩).call (.setPeriodic 4 0 10 7)).launch false
  have hboot : Reaches (System.start ⟨0, 0⟩) s₁ :=
    reaches_launch (t := true) (u := false) rfl rfl (by decide)
  have hpass : Reaches s₁ (s₁.passed false) := reaches_passed rfl trivial rfl rfl
  let s₂ := s₁.passed false
  obtain ⟨es, run⟩ := (hboot.trans hpass).trans
    (enters (s := s₂) (t := true) (.body (.cancel 4)) trivial rfl trivial rfl rfl rfl).reaches
  have hcancel := within_step (s := s₂) (t := true) (.cancel 4)
  have hreply : (call (.cancel 4) s₂.state).1 = .ret 1 := by decide +kernel
  rw [hreply] at hcancel
  have hl : (((s₂.call (.cancel 4)).setLock none).goto true .outside).loop false =
      .invoking [(4, 7)] := by decide +kernel
  have hfire : OrderlyStep _ (.turn false 0 (.event (.fire 4 7))) _ :=
    ⟨trivial, .fire hl (by decide)⟩
  exact ⟨es, _, _, _, _, run, hcancel, .single hfire, List.forall_mem_singleton.2 id,
    List.mem_singleton_self _⟩

end Threads

end CoreinitNx.Alarm
