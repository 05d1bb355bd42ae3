import CoreinitNx.Alarm.Firing

namespace CoreinitNx.Alarm

namespace Threads

variable {τ : Type} [DecidableEq τ] {s s' s₁ : System τ} {st st' : State} {t u : τ} {l : Loop}
  {e : Event τ} {es : List (Event τ)} {a : OSAlarm} {cb : OSAlarmCallback}
  {due now interval : OSTime}

-- The callbacks started for `a`, in order.
def Event.firing (a : OSAlarm) : Event τ → Option OSAlarmCallback
  | .turn _ _ (.event e) => e.firing a
  | _ => none

def firings (a : OSAlarm) (es : List (Event τ)) : List OSAlarmCallback :=
  es.filterMap (Event.firing a)

def Unresumed (es : List (Event τ)) : Prop := ∀ e ∈ es, ¬e.Is (· = .resume)

-- Whatever is called meanwhile, the pass of `u` under way starts `cb` for `a` once and nothing else
-- for `a`, and no other pass ends before its batch is through. A callback that is in no call of its
-- own can return, and then the batch can be brought to its end.
structure InvokesOnce (s : System τ) (u : τ) (a : OSAlarm) (cb : OSAlarmCallback) : Prop where
  at_most : ∀ es s', Run s es s' → Unresumed es → firings a es = [] ∨ firings a es = [cb]
  by_the_end : ∀ es s', Run s es s' → Unresumed es → s'.loop u = .invoking [] →
    firings a es = [cb]
  no_other_pass : ∀ es s', Run s es s' → Unresumed es → ∀ e ∈ es, ¬e.Is (· = .pass)
  can_end : ∀ es s', Run s es s' → Unresumed es → s'.place u = .outside →
    ∃ es' s'', Run s' es' s'' ∧ Unresumed es' ∧ s''.loop u = .invoking []

-- A step that leaves the arming of `a` to the first pass that reads `due` or later.
def Leaves (a : OSAlarm) (due : Int) (s : System τ) (e : Event τ) : Prop :=
  ¬e.Is (Supersedes s.state a) ∧ ∀ u now, e = .turn u now (.event .pass) → now.toInt < due

def Before (a : OSAlarm) (due : Int) (s : System τ) (e : Event τ) (s' : System τ) : Prop :=
  OrderlyStep s e s' ∧ Leaves a due s e

def UncollectedUntilArmed (s : System τ) (a : OSAlarm) : Prop :=
  ∀ es s' u now s'', Run s es s' → (∀ e ∈ es, ¬e.Is (Arms a)) →
    OrderlyStep s' (.turn u now (.event .pass)) s'' → collected a (s''.loop u) = []

-- What the arming of `a` for `due` promises: no pass collects it early, and the first pass in time
-- collects it, disarms it and invokes its callback, all once.
def FiresOnceFrom (s : System τ) (a : OSAlarm) (due : Int) (cb : OSAlarmCallback) : Prop :=
  ∀ es s₁ u now s₂, Transition.Run (Before a due) s es s₁ →
    OrderlyStep s₁ (.turn u now (.event .pass)) s₂ →
    (now.toInt < due → collected a (s₂.loop u) = []) ∧
    (due ≤ now.toInt →
      collected a (s₂.loop u) = [(a, cb)] ∧ Disarmed s₂.alarms a ∧
        (cb ≠ 0 → InvokesOnce s₂ u a cb) ∧ UncollectedUntilArmed s₂ a)

-- The steps of a periodic arming, with the clock values at which passes have collected `a`.
def Logged (a : OSAlarm) (interval : OSTime) (s : System τ × List OSTime) (e : Event τ)
    (s' : System τ × List OSTime) : Prop :=
  OrderlyStep s.1 e s'.1 ∧ ¬e.Is (Supersedes s.1.state a) ∧
    ((∃ u now, e = .turn u now (.event .pass) ∧ collected a (s'.1.loop u) ≠ [] ∧
        SumExact now interval ∧ s'.2 = s.2 ++ [now]) ∨
      (∀ u now, e = .turn u now (.event .pass) → collected a (s'.1.loop u) = []) ∧ s'.2 = s.2)

def FiresRepeatedlyFrom (s : System τ) (a : OSAlarm) (first : Int) (interval : OSTime)
    (cb : OSAlarmCallback) : Prop :=
  ∀ es s₁ readings, Transition.Run (Logged a interval) (s, []) es (s₁, readings) →
    Spaced first interval readings ∧
    ∀ u now s₂, OrderlyStep s₁ (.turn u now (.event .pass)) s₂ →
      (now.toInt < nextDue first interval readings → collected a (s₂.loop u) = []) ∧
      (nextDue first interval readings ≤ now.toInt →
        collected a (s₂.loop u) = [(a, cb)] ∧ (cb ≠ 0 → InvokesOnce s₂ u a cb))

omit [DecidableEq τ] in
@[simp] theorem call_thread {op : Op} : (s.call op).thread = s.thread := by
  rw [System.call]
  split <;> rfl

-- No thread is created while a scheduler runs.
theorem thread_eq (ho : Orderly s e) (hs : Step s e s') (hu : (s.loop u).Running) :
    s'.thread = s.thread := by
  cases hs with
  | created ht | refused thread ht =>
    rw [Orderly, ht] at ho
    exact absurd hu (ho u)
  | body => exact call_thread
  | null | nullWait | begin | inited | uninited | nothing | reset | mark | lock | wait | stop | clear
  | started | unstarted | launched | joined | unjoined | enter | exit | read | passOver | collect
  | write | invoke | sleep | skip | fire | finish | resume | timeout | tick | setTime => rfl

omit [DecidableEq τ] in
theorem Shows.collected_eq (hv : Shows s st) (hi : Inv s) (hu : (s.loop u).Running) :
    collected a (s.loop u) = collections a st := by
  rw [collected, collections, (hv.running hi rfl hu).1.batch]

omit [DecidableEq τ] in
theorem Moves.pass_eq (hm : Moves st (.turn u now (.event .pass) : Event τ) st') :
    now = st.clock.osGetTime ∧ ∃ later, st' = schedulerPass st later := by
  cases hm with
  | turn hs =>
    cases hs with
    | event hs => exact ⟨rfl, hs.pass_eq⟩
  | stay hno => exact absurd rfl (hno _ _ _)

-- A pass as the state makes it.
theorem Shows.passed (hi : Inv s) (hv : Shows s st)
    (hs : OrderlyStep s (.turn u now (.event .pass)) s') :
    now = st.clock.osGetTime ∧ Inv s' ∧ (s'.loop u).Running ∧
      ∃ later, Shows s' (schedulerPass st later) ∧ s'.alarms = (schedulerPass st later).alarms := by
  obtain ⟨st', hm, hv'⟩ := hv.step hi hs.1 hs.2
  obtain ⟨hnow, later, rfl⟩ := hm.pass_eq
  have hi' := hi.step hs.1 hs.2
  have hafter : (s'.loop u).Running ∧ s'.lock = none := by
    cases hs.2 with
    | invoke | sleep =>
      rw [turnTo_loop_self]
      exact ⟨trivial, rfl⟩
  have hsame := hv'.same fun v h => hi'.free hafter.2 v (.inr h)
  exact ⟨hnow, hi', hafter.1, later, hv', hsame.1.symm⟩

-- What supersedes the arming of `a` has the lock, or asks nothing of the alarms.
theorem supersedes_state (hi : Inv s) (hv : Shows s st) (hs : Step s e s')
    (hsup : e.Is (Supersedes st a)) : e.Is (Supersedes s.state a) := by
  cases e with
  | call | statement | tick | setTime => exact hsup.elim
  | turn t now turn =>
    cases turn with
    | wait => exact hsup.elim
    | event e' =>
      cases e' with
      | call op reply =>
        cases op with
        | cancelAll group =>
          obtain ⟨h, hget, hgroup⟩ := hsup
          rw [calls_same hi hv hs rfl] at hget
          exact ⟨h, hget, hgroup⟩
        | create | set | setPeriodic | cancel | setTag | setUserData | getUserData => exact hsup
      | startThread | pass | skip | fire | finish | resume | timeout | tick | setTime | requestStop
      | exit | shutdown => exact hsup

omit [DecidableEq τ] in
theorem Moves.keeps (hm : Moves st e st') (hsup : ¬e.Is (Supersedes st a))
    (hearly : ∀ u now, e = .turn u now (.event .pass) → ¬due ≤ now)
    (ha : ArmedFor st.alarms a due interval cb) : ArmedFor st'.alarms a due interval cb := by
  rcases hm.cases with ⟨rfl, -⟩ | ⟨e', hs, ⟨t, rfl⟩ | ⟨hhidden, -⟩⟩
  · exact ha
  · refine hs.keeps hsup ?_ ha
    rintro rfl
    exact hearly _ _ rfl
  · refine hs.keeps ?_ ?_ ha
    · cases e' <;> first | exact id | exact hhidden.elim
    · rintro rfl
      exact hhidden.elim

-- What holds of a system holds of a state that it shows.
def Seen (I : State → Prop) (s : System τ) : Prop := Inv s ∧ ∃ st, Shows s st ∧ I st

theorem Seen.keeps (hs : OrderlyStep s e s') (hsup : ¬e.Is (Supersedes s.state a))
    (hearly : ∀ u now, e = .turn u now (.event .pass) → ¬due ≤ now)
    (h : Seen (fun st => ArmedFor st.alarms a due interval cb) s) :
    Seen (fun st => ArmedFor st.alarms a due interval cb) s' := by
  obtain ⟨hi, st, hv, ha⟩ := h
  obtain ⟨st', hm, hv'⟩ := hv.step hi hs.1 hs.2
  have hsup' : ¬e.Is (Supersedes st a) := fun h => hsup (supersedes_state hi hv hs.2 h)
  exact ⟨hi.step hs.1 hs.2, st', hv', hm.keeps hsup' hearly ha⟩

theorem Seen.before (h : Seen (fun st => ArmedFor st.alarms a due interval cb) s)
    (run : Transition.Run (Before a due.toInt) s es s') :
    Seen (fun st => ArmedFor st.alarms a due interval cb) s' := by
  induction run with
  | nil => exact h
  | snoc _ hs ih =>
    obtain ⟨hstep, hsup, hearly⟩ := hs
    refine Seen.keeps hstep hsup (fun u now he hdue => ?_) ih
    exact absurd (Int64.le_iff_toInt_le.1 hdue) (Int.not_le.2 (hearly u now he))

omit [DecidableEq τ] in
theorem Moves.disarmed (hm : Moves st e st') (harm : ¬e.Is (Arms a)) (hd : Disarmed st.alarms a) :
    Disarmed st'.alarms a := by
  rcases hm.cases with ⟨rfl, -⟩ | ⟨e', hs, ⟨t, rfl⟩ | ⟨hhidden, -⟩⟩
  · exact hd
  · exact hs.disarmed harm hd
  · refine hs.disarmed ?_ hd
    cases e' <;> first | exact id | exact hhidden.elim

theorem Seen.uncollected (h : Seen (fun st => Disarmed st.alarms a) s) :
    UncollectedUntilArmed s a := by
  intro es s' u now s'' run harms hpass
  have h' : Seen (fun st => Disarmed st.alarms a) s' := by
    refine run.invariant_of harms h ?_
    rintro s e s' harm ⟨hi, st, hv, hd⟩ hs
    obtain ⟨st', hm, hv'⟩ := hv.step hi hs.1 hs.2
    exact ⟨hi.step hs.1 hs.2, st', hv', hm.disarmed harm hd⟩
  obtain ⟨hi, st, hv, hd⟩ := h'
  obtain ⟨-, hi', hrun, later, hv', -⟩ := hv.passed hi hpass
  rw [hv'.collected_eq hi' hrun]
  exact hd.collections

-- The scheduler is in the middle of a batch.
def Busy (u : τ) (a : OSAlarm) (owes : List OSAlarmCallback) (s : System τ) : Prop :=
  (s.loop u).Running ∧ Seen (fun st => Invoking st ∧ owed a st = owes) s

omit [DecidableEq τ] in
theorem firings_singleton (e : Event τ) : firings a [e] = (e.firing a).toList := by
  rw [firings, List.filterMap_cons]
  cases e.firing a <;> rfl

omit [DecidableEq τ] in
theorem firings_of_not (h : ¬e.Is fun e => e.firing a ≠ none) : firings a [e] = [] := by
  rw [firings_singleton]
  cases e with
  | call | statement | tick | setTime => rfl
  | turn t now turn =>
    cases turn with
    | wait => rfl
    | event e => rw [Event.firing, by_contra h, Option.toList_none]

omit [DecidableEq τ] in
theorem Moves.owed (hm : Moves st e st') (hinv : Invoking st) (hresume : ¬e.Is (· = .resume)) :
    Invoking st' ∧ ¬e.Is (· = .pass) ∧
      Alarm.owed a st = firings a [e] ++ Alarm.owed a st' := by
  rcases hm.cases with ⟨rfl, hcall⟩ | ⟨e', hs, ⟨t, rfl⟩ | ⟨hhidden, hno⟩⟩
  · refine ⟨hinv, fun h => ?_, ?_⟩
    · obtain ⟨_, _, ⟨⟩⟩ := hcall _ h
    · rw [firings_of_not fun h => ?_, List.nil_append]
      obtain ⟨_, _, hfires⟩ := hcall _ h
      exact hfires rfl
  · rw [firings_singleton]
    exact hs.owed hinv hresume
  · have hresume' : e' ≠ .resume := by
      rintro rfl
      exact hhidden
    obtain ⟨hinv', -, howed⟩ := hs.owed (a := a) hinv hresume'
    refine ⟨hinv', hno _, ?_⟩
    rw [howed, firings_of_not (hno _)]
    cases e' <;> first | rfl | exact hhidden.elim

omit [DecidableEq τ] in
-- The loop that is in the middle of a batch is the one that was.
theorem Shows.busy (hv : Shows s st) (hi : Inv s) (hinv : Invoking st) (hthread : s.thread = some u) :
    (s.loop u).Running := by
  obtain ⟨l, hl, hstands, -⟩ := hv.current
  rcases hl with ⟨v, rfl, hrun⟩ | ⟨rfl, -⟩
  · obtain rfl : v = u := Option.some.inj ((hi.single v hrun).symm.trans hthread)
    exact hrun
  · rw [Invoking] at hinv
    rcases hstands with hoff | ⟨hexited, -⟩
    · rw [hoff] at hinv
      exact hinv.elim
    · rw [hexited] at hinv
      exact hinv.elim

theorem Busy.step {owes : List OSAlarmCallback} (h : Busy u a owes s) (hs : OrderlyStep s e s')
    (hresume : ¬e.Is (· = .resume)) :
    ∃ owes', Busy u a owes' s' ∧ ¬e.Is (· = .pass) ∧ owes = firings a [e] ++ owes' := by
  obtain ⟨hrun, hi, st, hv, hinv, howed⟩ := h
  obtain ⟨st', hm, hv'⟩ := hv.step hi hs.1 hs.2
  have hi' := hi.step hs.1 hs.2
  obtain ⟨hinv', hpass, howed'⟩ := hm.owed (a := a) hinv hresume
  have hthread : s'.thread = some u := (thread_eq hs.1 hs.2 hrun).trans (hi.single u hrun)
  refine ⟨owed a st', ⟨hv'.busy hi' hinv' hthread, hi', st', hv', hinv', rfl⟩, hpass, ?_⟩
  rw [← howed, howed']

omit [DecidableEq τ] in
theorem firings_append (es es' : List (Event τ)) :
    firings a (es ++ es') = firings a es ++ firings a es' := List.filterMap_append

theorem Busy.run {owes : List OSAlarmCallback} (h : Busy u a owes s) (run : Run s es s')
    (hresume : Unresumed es) :
    ∃ owes', Busy u a owes' s' ∧ (∀ e ∈ es, ¬e.Is (· = .pass)) ∧ owes = firings a es ++ owes' := by
  induction run with
  | nil => exact ⟨owes, h, nofun, rfl⟩
  | @snoc es m s' e _ hs ih =>
    obtain ⟨mid, hmid, hpass, hrun⟩ := ih fun e he => hresume e (List.mem_append_left _ he)
    obtain ⟨last, hlast, hpass', hstep⟩ :=
      hmid.step hs (hresume e (List.mem_append_right _ List.mem_cons_self))
    refine ⟨last, hlast, ?_, ?_⟩
    · exact List.forall_mem_append.2 ⟨hpass, List.forall_mem_singleton.2 hpass'⟩
    · rw [hrun, hstep, firings_append, List.append_assoc]

omit [DecidableEq τ] in
theorem Unresumed.cons (h : Unresumed es) (he : ¬e.Is (· = .resume)) : Unresumed (e :: es) :=
  List.forall_mem_cons.2 ⟨he, h⟩

-- The scheduler alone brings the rest of the batch to its end.
theorem invoking_ends {batch : List (OSAlarm × OSAlarmCallback)} (hl : s.loop u = .invoking batch)
    (hout : s.place u = .outside) :
    ∃ es s', Run s es s' ∧ Unresumed es ∧ s'.loop u = .invoking [] := by
  induction batch generalizing s with
  | nil => exact ⟨[], s, .nil, nofun, hl⟩
  | cons entry batch ih =>
    obtain ⟨b, cb⟩ := entry
    obtain ⟨es, s', run, hresume, hend⟩ :=
      ih (s := s.turnTo u (.invoking batch)) turnTo_loop_self hout
    by_cases hnull : cb = 0
    · subst hnull
      have hskip : OrderlyStep s (.turn u s.now (.event (.skip b))) _ := ⟨trivial, .skip hl⟩
      exact ⟨_, s', run.cons hskip, hresume.cons (by rintro ⟨⟩), hend⟩
    · have hfire : OrderlyStep s (.turn u s.now (.event (.fire b cb))) _ :=
        ⟨trivial, .fire hl hnull⟩
      have hfinish : OrderlyStep (s.turnTo u (.inCallback b batch))
          (.turn u s.now (.event (.finish b))) _ := ⟨trivial, .finish turnTo_loop_self hout⟩
      rw [turnTo_turnTo] at hfinish
      exact ⟨_, s', (run.cons hfinish).cons hfire,
        (hresume.cons (by rintro ⟨⟩)).cons (by rintro ⟨⟩), hend⟩

theorem Busy.ends {owes : List OSAlarmCallback} (h : Busy u a owes s) (hout : s.place u = .outside) :
    ∃ es s', Run s es s' ∧ Unresumed es ∧ s'.loop u = .invoking [] := by
  obtain ⟨hrun, hi, st, hv, hinv, -⟩ := h
  have hstands := (hv.running hi rfl hrun).1
  rw [Invoking] at hinv
  cases hl : s.loop u with
  | absent | exited =>
    rw [hl] at hrun
    exact hrun.elim
  | starting =>
    rw [hl] at hstands
    rcases hstands with hoff | ⟨hexited, -⟩
    · rw [hoff] at hinv
      exact hinv.elim
    · rw [hexited] at hinv
      exact hinv.elim
  | locking | looping | scanning | writing | sleeping =>
    rw [hl] at hstands
    rw [Loop.Stands] at hstands
    rw [hstands] at hinv
    exact hinv.elim
  | invoking batch => exact invoking_ends hl hout
  | inCallback b batch =>
    have hfinish : OrderlyStep s (.turn u s.now (.event (.finish b))) _ :=
      ⟨trivial, .finish hl hout⟩
    obtain ⟨es, s', run, hresume, hend⟩ :=
      invoking_ends (s := s.turnTo u (.invoking batch)) turnTo_loop_self hout
    exact ⟨_, s', run.cons hfinish, hresume.cons (by rintro ⟨⟩), hend⟩

theorem Busy.invokesOnce (h : Busy u a [cb] s) : InvokesOnce s u a cb where
  at_most := by
    intro es s' run hresume
    obtain ⟨owes, -, -, hrun⟩ := h.run run hresume
    rcases List.append_eq_singleton_iff.1 hrun.symm with ⟨hnone, -⟩ | ⟨hone, -⟩
    · exact .inl hnone
    · exact .inr hone
  by_the_end := by
    intro es s' run hresume hend
    obtain ⟨owes, ⟨hrunning, hi, st, hv, -, howed⟩, -, hrun⟩ := h.run run hresume
    have hdone : owes = [] := by
      rw [← howed, owed, ← hv.collected_eq hi hrunning, hend]
      rfl
    rw [hdone, List.append_nil] at hrun
    exact hrun.symm
  no_other_pass := by
    intro es s' run hresume
    obtain ⟨_, -, hpass, -⟩ := h.run run hresume
    exact hpass
  can_end := by
    intro es s' run hresume hout
    obtain ⟨_, h', -, -⟩ := h.run run hresume
    exact h'.ends hout

theorem invokesOnce (hi : Inv s) (hv : Shows s st) (hrun : (s.loop u).Running) (hcb : cb ≠ 0)
    (hcol : collections a st = [(a, cb)]) : InvokesOnce s u a cb := by
  obtain ⟨hinv, howed⟩ := owed_of_collections hcb hcol
  exact Busy.invokesOnce ⟨hrun, hi, st, hv, hinv, howed⟩

theorem Seen.firesOnce (h : Seen (fun st => ArmedFor st.alarms a due 0 cb) s) :
    FiresOnceFrom s a due.toInt cb := by
  intro es s₁ u now s₂ run hpass
  obtain ⟨hi, st, hv, ha⟩ := h.before run
  obtain ⟨rfl, hi', hrun, later, hv', halarms⟩ := hv.passed hi hpass
  rw [hv'.collected_eq hi' hrun, halarms]
  refine ⟨fun hearly => ha.collections_early ?_, fun hdue => ?_⟩
  · exact fun hle => absurd (Int64.le_iff_toInt_le.1 hle) (Int.not_le.2 hearly)
  · have hle := Int64.le_iff_toInt_le.2 hdue
    have hcol : collections a (schedulerPass st later) = [(a, cb)] := ha.collections_due hle
    have hdis : Disarmed (schedulerPass st later).alarms a := schedulerPass_disarmed ha hle
    exact ⟨hcol, hdis, fun hcb => invokesOnce hi' hv' hrun hcb hcol,
      Seen.uncollected ⟨hi', _, hv', hdis⟩⟩

-- What a pass makes of an alarm that it finds armed.
theorem Seen.passed (h : Seen (fun st => ArmedFor st.alarms a due interval cb) s)
    (hs : OrderlyStep s (.turn u now (.event .pass)) s') :
    (¬due ≤ now → collected a (s'.loop u) = []) ∧
    (due ≤ now →
      collected a (s'.loop u) = [(a, cb)] ∧ (cb ≠ 0 → InvokesOnce s' u a cb) ∧
        (interval > 0 → Seen (fun st => ArmedFor st.alarms a (now + interval) interval cb) s')) := by
  obtain ⟨hi, st, hv, ha⟩ := h
  obtain ⟨rfl, hi', hrun, later, hv', -⟩ := hv.passed hi hs
  rw [hv'.collected_eq hi' hrun]
  refine ⟨ha.collections_early, fun hle => ?_⟩
  have hcol : collections a (schedulerPass st later) = [(a, cb)] := ha.collections_due hle
  exact ⟨hcol, fun hcb => invokesOnce hi' hv' hrun hcb hcol,
    fun hpos => ⟨hi', _, hv', schedulerPass_armed_again ha hle hpos⟩⟩

-- What a periodic arming keeps up: its readings so far, and its due time from the last of them.
def Repeating (a : OSAlarm) (first : Int) (interval : OSTime) (cb : OSAlarmCallback)
    (s : System τ × List OSTime) : Prop :=
  Spaced first interval s.2 ∧
    ∃ due : OSTime, due.toInt = nextDue first interval s.2 ∧
      Seen (fun st => ArmedFor st.alarms a due interval cb) s.1

theorem Logged.repeating {first : Int} {s s' : System τ × List OSTime} (hpos : interval > 0)
    (hs : Logged a interval s e s') (h : Repeating a first interval cb s) :
    Repeating a first interval cb s' := by
  obtain ⟨hstep, hsup, hlog⟩ := hs
  obtain ⟨hspaced, due, hdue, hseen⟩ := h
  rcases hlog with ⟨u, now, rfl, hcol, hexact, hreadings⟩ | ⟨hnone, hreadings⟩
  · obtain ⟨hearly, hpass⟩ := hseen.passed hstep
    have hle : due ≤ now := by_contra fun hnot => hcol (hearly hnot)
    rw [Repeating, hreadings]
    refine ⟨hspaced.snoc ?_, _, ?_, (hpass hle).2.2 hpos⟩
    · rw [← hdue]
      exact Int64.le_iff_toInt_le.1 hle
    · rw [nextDue_snoc]
      exact hexact
  · rw [Repeating, hreadings]
    refine ⟨hspaced, due, hdue, hseen.keeps hstep hsup ?_⟩
    rintro u now rfl hle
    have hcol := ((hseen.passed hstep).2 hle).1
    rw [hnone u now rfl] at hcol
    cases hcol

theorem Seen.firesRepeatedly (hpos : interval > 0)
    (h : Seen (fun st => ArmedFor st.alarms a due interval cb) s) :
    FiresRepeatedlyFrom s a due.toInt interval cb := by
  intro es s₁ readings run
  have hrep : Repeating a due.toInt interval cb (s₁, readings) :=
    run.invariant_of (fun _ _ => trivial) ⟨Spaced.nil _ _, due, rfl, h⟩
      fun _ _ _ (_ : True) h hs => hs.repeating hpos h
  obtain ⟨hspaced, due', hdue, hseen⟩ := hrep
  refine ⟨hspaced, fun u now s₂ hpass => ?_⟩
  rw [← hdue]
  obtain ⟨hearly, hlate⟩ := hseen.passed hpass
  refine ⟨fun hlt => hearly fun hle => ?_, fun hle => ?_⟩
  · exact absurd (Int64.le_iff_toInt_le.1 hle) (Int.not_le.2 hlt)
  · obtain ⟨hcol, honce, -⟩ := hlate (Int64.le_iff_toInt_le.2 hle)
    exact ⟨hcol, honce⟩

-- A call that arms `a`, as the state makes it.
theorem Seen.arms {op : Op} {time : OSTime} (hi : Inv s) (hv : Shows s st)
    (hs : OrderlyStep s (.turn t now (.event (.call op (.ret 1)))) s')
    (hnull : op.null = decide (a = 0)) (hop : ∀ st, call op st = arm st a time interval cb) :
    Seen (fun st => ArmedFor st.alarms a (now + time) interval cb) s' := by
  obtain ⟨st', hm, hv'⟩ := hv.step hi hs.1 hs.2
  refine ⟨hi.step hs.1 hs.2, st', hv', ?_⟩
  rcases hm.cases with ⟨-, hcall⟩ | ⟨e', hstep, ⟨v, he⟩ | ⟨-, hno⟩⟩
  · obtain ⟨op', hnull', heq⟩ := hcall (.call op (.ret 1) = ·) rfl
    obtain ⟨rfl, hreply⟩ := Alarm.Event.call.inj heq
    rw [hop] at hreply
    exact absurd (of_decide_eq_true (hnull.symm.trans hnull')) (ne_zero_of_arm hreply.symm)
  · obtain ⟨-, rfl, hturn⟩ := Event.turn.inj he
    obtain rfl := Turn.event.inj hturn
    exact step_arms hstep (hop st)
  · exact absurd rfl (hno (.call op (.ret 1) = ·))

theorem alarm_fires_once_per_arming :
    ∀ (clock : Clock) (es : List (Event τ)) (s : System τ), Run (System.start clock) es s →
      ∀ (t : τ) (now : OSTime) (a : OSAlarm) (cb : OSAlarmCallback) (s' : System τ),
        (∀ duration : OSTime, SumExact now duration →
          OrderlyStep s (.turn t now (.event (.call (.set a duration cb) (.ret 1)))) s' →
          FiresOnceFrom s' a (now.toInt + duration.toInt) cb) ∧
        ∀ start interval : OSTime, 0 < interval → SumExact now start →
          OrderlyStep s (.turn t now (.event (.call (.setPeriodic a start interval cb) (.ret 1)))) s' →
          FiresRepeatedlyFrom s' a (now.toInt + start.toInt) interval cb := by
  intro clock es s run t now a cb s'
  obtain ⟨hi, st, hv⟩ := shows_run run
  constructor
  · intro duration hexact hs
    rw [← hexact]
    exact (Seen.arms hi hv hs rfl fun _ => rfl).firesOnce
  · intro start interval hpos hexact hs
    rw [← hexact]
    exact (Seen.arms hi hv hs rfl fun _ => rfl).firesRepeatedly hpos

omit [DecidableEq τ] in
theorem Event.Silent.not_is (he : e.Silent) (P : Alarm.Event → Prop) : ¬e.Is P := by
  cases e <;> first | exact id | exact he.elim

theorem RunsTo.before (a : OSAlarm) (due : Int) (h : RunsTo s s') :
    ∃ es, Transition.Run (Before a due) s es s' := by
  obtain ⟨es, hes, run⟩ := h
  refine ⟨es, ?_⟩
  induction run with
  | nil => exact .nil
  | @snoc es m s' e _ hs ih =>
    have he : e.Silent := hes e (List.mem_append_right _ List.mem_cons_self)
    refine (ih fun x hx => hes x (List.mem_append_left _ hx)).snoc ⟨hs, he.not_is _, ?_⟩
    rintro u now rfl
    exact he.elim

theorem RunsTo.logged (a : OSAlarm) (interval : OSTime) (readings : List OSTime)
    (h : RunsTo s s') :
    ∃ es, Transition.Run (Logged a interval) (s, readings) es (s', readings) := by
  obtain ⟨es, hes, run⟩ := h
  refine ⟨es, ?_⟩
  induction run with
  | nil => exact .nil
  | @snoc es m s' e _ hs ih =>
    have he : e.Silent := hes e (List.mem_append_right _ List.mem_cons_self)
    refine (ih fun x hx => hes x (List.mem_append_left _ hx)).snoc ⟨hs, he.not_is _, .inr ⟨?_, rfl⟩⟩
    rintro u now rfl
    exact he.elim

-- The first call of the program arms an alarm; the scheduler it starts gets its turn at 60 ticks.
def System.sixty (op : Op) : System Bool :=
  { ((System.ready ⟨0, 0⟩).call op).launch false with clock := ⟨0, 60⟩ }

theorem sixty_ticks_later (op : Op) (hnull : op.null = false) (harms : op.arms = true) :
    ∃ s s' s₁ : System Bool, RunsTo (System.start ⟨0, 0⟩) s ∧
      OrderlyStep s
        (.turn true 0 (.event (.call op (call op (System.ready ⟨0, 0⟩ : System Bool).state).1))) s' ∧
      RunsTo s' s₁ ∧
        OrderlyStep s₁ (.turn false 60 (.event .pass)) ((System.sixty op).passed false) := by
  have hclock : (((System.ready ⟨0, 0⟩ : System Bool).call op).launch false).clock = ⟨0, 0⟩ :=
    call_clock
  have htick := RunsTo.tick (s := ((System.ready ⟨0, 0⟩).call op).launch false) 60
    (by rw [hclock]; decide)
  rw [hclock] at htick
  have hfirst : RunsTo (System.start ⟨0, 0⟩ : System Bool)
      ((System.ready ⟨0, 0⟩).within true (.body op)) :=
    enters_first rfl trivial hnull rfl rfl
  have hlaunch : RunsTo _ (((System.ready ⟨0, 0⟩).call op).launch false) :=
    launches (t := true) rfl rfl rfl (fun _ => id) rfl rfl harms (by decide)
  have hscan : RunsTo (System.sixty op) ((System.sixty op).scannedAll false) :=
    scans_all (congrFun call_place false) (by rw [System.sixty]; exact trivial) call_lock call_stop
  exact ⟨_, _, _, hfirst, within_step op, (hlaunch.trans htick).trans hscan, passes call_lock⟩

theorem alarm_fires_once_per_arming_in_time :
    (∃ (es : List (Event Bool)) (s s' : System Bool), Run (System.start ⟨0, 0⟩) es s ∧
      OrderlyStep s (.turn false 60 (.event .pass)) s' ∧
      collected 4 (s'.loop false) = [(4, 7)] ∧ InvokesOnce s' false 4 7) ∧
    ∃ (es : List (Event Bool)) (s s' : System Bool), Run (System.start ⟨0, 0⟩) es s ∧
      OrderlyStep s (.turn false 60 (.event .pass)) s' ∧
      collected 4 (s'.loop false) = [(4, 7)] ∧ InvokesOnce s' false 4 7 := by
  constructor
  · obtain ⟨s, s', s₁, hfirst, hset, hrun, hpass⟩ :=
      sixty_ticks_later (.set 4 50 7) rfl rfl
    obtain ⟨es, run⟩ := (hfirst.reaches.step hset).trans hrun.reaches
    obtain ⟨es₀, run₀⟩ := hfirst.reaches
    have hfires := (alarm_fires_once_per_arming _ _ _ run₀ true 0 4 7 s').1 50
      (by unfold SumExact; decide) hset
    obtain ⟨es', hbefore⟩ := hrun.before 4 50
    obtain ⟨hcol, -, honce, -⟩ := (hfires _ _ _ _ _ hbefore hpass).2 (by decide)
    exact ⟨es, s₁, _, run, hpass, hcol, honce (by decide)⟩
  · obtain ⟨s, s', s₁, hfirst, hset, hrun, hpass⟩ :=
      sixty_ticks_later (.setPeriodic 4 50 10 7) rfl rfl
    obtain ⟨es, run⟩ := (hfirst.reaches.step hset).trans hrun.reaches
    obtain ⟨es₀, run₀⟩ := hfirst.reaches
    have hfires := (alarm_fires_once_per_arming _ _ _ run₀ true 0 4 7 s').2 50 10 (by decide)
      (by unfold SumExact; decide) hset
    obtain ⟨es', hlogged⟩ := hrun.logged 4 10 []
    obtain ⟨hcol, honce⟩ := ((hfires _ _ _ hlogged).2 _ _ _ hpass).2 (by decide)
    exact ⟨es, s₁, _, run, hpass, hcol, honce (by decide)⟩

-- Thread 0 has found the lock not set up. Thread 1 has set it up meanwhile, armed alarm 4 and
-- started the scheduler; its pass has collected the alarm and not yet disarmed it.
def System.overlapping : System Nat :=
  let paused := (System.start ⟨0, 0⟩).goto 0 (.resetting (.body (.set 4 50 7)))
  ((({ paused with inited := true }.call (.set 4 0 7)).launch 2).setLock (some 2)).turnTo 2
    (.writing ⟨0, [4], [(4, 7)], 0⟩)

theorem reaches_overlapping : Reaches (System.start ⟨0, 0⟩) System.overlapping := by
  let paused : System Nat :=
    (System.start ⟨0, 0⟩).goto 0 (.resetting (.body (.set 4 50 7)))
  let launched := ({ paused with inited := true }.call (.set 4 0 7)).launch 2
  let reading := (launched.setLock (some 2)).turnTo 2 .looping
  let scanning := (launched.setLock (some 2)).turnTo 2 (.scanning ⟨0, [4], [], 0⟩)
  have hpaused : RunsTo (System.start ⟨0, 0⟩) paused := by
    have hbegin : Step (System.start ⟨0, 0⟩ : System Nat) (.call 0 (.body (.set 4 50 7))) _ :=
      .begin rfl trivial rfl
    refine (RunsTo.begin hbegin trivial).trans ?_
    refine .on goto_place_self trivial (.uninited goto_place_self rfl (by rintro ⟨⟩)) (.of_eq ?_)
    exact goto_goto
  have henters : RunsTo paused ({ paused with inited := true }.within 1 (.body (.set 4 0 7))) :=
    enters_first rfl trivial rfl rfl rfl
  have hlaunches : RunsTo _ launched :=
    launches (t := 1) rfl rfl rfl (fun _ => id) rfl rfl rfl (by decide)
  have henter : Step launched (.statement 2) reading := .enter trivial rfl rfl
  have hread : Step reading (.statement 2) scanning := by
    have hs := Step.read (s := reading) (u := 2) turnTo_loop_self
    rwa [turnTo_turnTo] at hs
  have hcollect : Step scanning (.statement 2) System.overlapping := by
    have hs := Step.collect (s := scanning) (u := 2) (h := ⟨0, 0, 7, 0, 0, true⟩)
      turnTo_loop_self rfl (by decide +kernel) rfl
    rwa [turnTo_turnTo] at hs
  have hset := hpaused.reaches.trans (henters.reaches.step (within_step _))
  exact (((hset.trans hlaunches.reaches).step ⟨orderly_outside rfl, henter⟩).step
    ⟨orderly_outside rfl, hread⟩).step ⟨orderly_outside rfl, hcollect⟩

-- `ensureInit` takes the lock from the pass, and the pass disarms what has been armed since.
theorem arming_is_lost :
    ∃ (es es' : List (Event Nat)) (s s' s₁ s₂ : System Nat),
      Transition.Run Step (System.start ⟨0, 0⟩) es s ∧
      OrderlyStep s (.turn 0 0 (.event (.call (.set 4 50 7) (.ret 1)))) s' ∧
      Transition.Run (Before 4 50) s' es' s₁ ∧
      OrderlyStep s₁ (.turn 2 60 (.event .pass)) s₂ ∧ collected 4 (s₂.loop 2) = [] := by
  obtain ⟨es, run⟩ := reaches_overlapping
  let sec : Section := .body (.set 4 50 7)
  let marking := (System.overlapping.setLock none).goto 0 (.marking sec)
  let locking := (System.overlapping.setLock none).goto 0 (.locking sec)
  have hreset : Step System.overlapping (.statement 0) marking := .reset rfl
  have hmark : Step marking (.statement 0) locking := by
    have hp : marking.place 0 = .marking sec := goto_place_self
    have hs := Step.mark hp
    rwa [show { marking with inited := true } = marking from rfl, goto_goto] at hs
  have hlock : Step locking (.statement 0) (System.overlapping.within 0 (.body (.set 4 50 7))) := by
    have hs := Step.lock (s := locking) (t := 0) goto_place_self rfl
    rwa [goto_setLock, goto_goto] at hs
  have hset := within_step (s := System.overlapping) (t := 0) (.set 4 50 7)
  let armed := ((System.overlapping.call (.set 4 50 7)).setLock none).goto 0 .ensuring
  let disarmed := armed.setAlarms (armed.alarms.insert 4 ⟨50, 0, 7, 0, 0, false⟩)
  let written := disarmed.turnTo 2 (.scanning ⟨0, [], [(4, 7)], 0⟩)
  have hget : armed.alarms[(4 : OSAlarm)]? = some ⟨50, 0, 7, 0, 0, true⟩ := by decide +kernel
  have hwrite : OrderlyStep armed (.statement 2) written := by
    refine ⟨orderly_outside rfl, ?_⟩
    exact .write (p := ⟨0, [4], [(4, 7)], 0⟩) rfl rfl hget
  have hpass : OrderlyStep written (.turn 2 0 (.event .pass))
      (disarmed.turnTo 2 (.invoking [(4, 7)])) := by
    have hs := Step.invoke (s := written) (u := 2) turnTo_loop_self rfl nofun
    rw [turnTo_setLock, turnTo_turnTo] at hs
    exact ⟨trivial, hs⟩
  have hfire : OrderlyStep (disarmed.turnTo 2 (.invoking [(4, 7)])) (.turn 2 0 (.event (.fire 4 7)))
      (disarmed.turnTo 2 (.inCallback 4 [])) := by
    have hs := Step.fire (s := disarmed.turnTo 2 (.invoking [(4, 7)])) (u := 2) turnTo_loop_self
      (by decide)
    rw [turnTo_turnTo] at hs
    exact ⟨trivial, hs⟩
  have hfinish : OrderlyStep (disarmed.turnTo 2 (.inCallback 4 [])) (.turn 2 0 (.event (.finish 4)))
      (disarmed.turnTo 2 (.invoking [])) := by
    have hs := Step.finish (s := disarmed.turnTo 2 (.inCallback 4 [])) (u := 2) turnTo_loop_self rfl
    rw [turnTo_turnTo] at hs
    exact ⟨trivial, hs⟩
  have hresume : OrderlyStep (disarmed.turnTo 2 (.invoking [])) (.turn 2 0 (.event .resume))
      (disarmed.turnTo 2 .locking) := by
    have hs := Step.resume (s := disarmed.turnTo 2 (.invoking [])) (u := 2) turnTo_loop_self
    rw [turnTo_turnTo] at hs
    exact ⟨trivial, hs⟩
  let later := { disarmed.turnTo 2 .locking with clock := ⟨0, 60⟩ }
  have htick : OrderlyStep (disarmed.turnTo 2 .locking) .tick later := ⟨trivial, .tick (by decide)⟩
  have hlast : OrderlyStep (later.scannedAll 2) (.turn 2 60 (.event .pass)) (later.passed 2) :=
    passes rfl
  obtain ⟨es', run'⟩ := (scans_all (s := later) (u := 2) rfl trivial rfl rfl).before 4 50
  have hbatch : Transition.Run (Before 4 50) armed _ later :=
    (((((Transition.Run.single ⟨hwrite, id, nofun⟩).snoc ⟨hpass, id, by rintro u now ⟨⟩; decide⟩).snoc
      ⟨hfire, id, nofun⟩).snoc ⟨hfinish, id, nofun⟩).snoc ⟨hresume, id, nofun⟩).snoc
      ⟨htick, id, nofun⟩
  refine ⟨_, _, _, armed, _, _,
    (((run.mono fun _ _ _ hs => hs.2).snoc hreset).snoc hmark).snoc hlock, ?_, hbatch.append run',
    hlast, ?_⟩
  · exact hset
  · decide +kernel

end Threads

end CoreinitNx.Alarm
