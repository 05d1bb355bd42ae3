import CoreinitNx.Library.Critical
import CoreinitNx.Event.Basic

namespace CoreinitNx.Event

open Monitor

-- Where a thread is between `mutexLock` and `mutexUnlock`.
inductive Line where
  | setSignalled (value : Int32) (mode : OSEventMode)
  | setMode (mode : OSEventMode)
  | signal
  | signalTest
  | signalOne
  | signalEvery
  | allSignal
  | allWake
  | allTest
  | allReset
  | waitTest
  | timedTest (deadline : UInt64)
  | timedTick (deadline : UInt64)
  | consumeTest (reply : Reply)
  | consume (reply : Reply)
  | reset
  | leave (reply : Reply)
deriving DecidableEq, Repr

def enter : Op → Line
  | .init value mode => .setSignalled value mode
  | .signal => .signal
  | .signalAll => .allSignal
  | .wait => .waitTest
  | .reset => .reset
  | .waitTimeout _ deadline => .timedTest deadline

-- The clock is read and the sleep begun in one statement: nothing else tells the two apart.
def statement (s : World) : Line → Act World CondVar Reply Line
  | .setSignalled value mode => .access (s.setSignalled (value != 0)) (.setMode mode)
  | .setMode mode =>
    .access { s with event := { s.event with autoReset := mode == .auto } } (.leave .void)
  | .signal => .access (s.setSignalled true) .signalTest
  | .signalTest => .access s (if s.event.autoReset then .signalOne else .signalEvery)
  | .signalOne => .wake (.one .cond) (.leave .void)
  | .signalEvery => .wake (.all .cond) (.leave .void)
  | .allSignal => .access (s.setSignalled true) .allWake
  | .allWake => .wake (.all .cond) .allTest
  | .allTest => .access s (if s.event.autoReset then .allReset else .leave .void)
  | .allReset => .access (s.setSignalled false) (.leave .void)
  | .waitTest => if s.event.signalled then .access s (.consumeTest .void) else .wait .cond
  | .timedTest deadline =>
    .access s (if s.event.signalled then .consumeTest (.ret 1) else .timedTick deadline)
  | .timedTick deadline =>
    if s.systemTick ≥ deadline then .access s (.leave (.ret 0)) else .wait .cond
  | .consumeTest reply => .access s (if s.event.autoReset then .consume reply else .leave reply)
  | .consume reply => .access (s.setSignalled false) (.leave reply)
  | .reset => .access (s.setSignalled false) (.leave .void)
  | .leave reply => .unlock reply

def code : Code World Op CondVar Reply Line where
  early _ := none
  enter := enter
  act l s := some (statement s l)
  starts := program.starts
  timed := program.timed
  env := program.env
  carry s found := { found with systemTick := s.systemTick }

def Waits (op : Op) (reply : Reply) : Prop :=
  op = .wait ∧ reply = .void ∨
    ∃ timeout deadline, op = .waitTimeout timeout deadline ∧ reply = .ret 1

-- What is true of a thread that found `s₀` and has come to a line.
def At (op : Op) (s₀ s : World) (w : Option (Wake CondVar)) : Line → Prop
  | .setSignalled value mode => op = .init value mode ∧ s = s₀ ∧ w = none
  | .setMode mode => ∃ value, op = .init value mode ∧ s = s₀.setSignalled (value != 0) ∧ w = none
  | .signal => op = .signal ∧ s = s₀ ∧ w = none
  | .signalTest => op = .signal ∧ s = s₀.setSignalled true ∧ w = none
  | .signalOne =>
    op = .signal ∧ s = s₀.setSignalled true ∧ w = none ∧ s₀.event.autoReset = true
  | .signalEvery =>
    op = .signal ∧ s = s₀.setSignalled true ∧ w = none ∧ ¬s₀.event.autoReset = true
  | .allSignal => op = .signalAll ∧ s = s₀ ∧ w = none
  | .allWake => op = .signalAll ∧ s = s₀.setSignalled true ∧ w = none
  | .allTest => op = .signalAll ∧ s = s₀.setSignalled true ∧ w = some (.all .cond)
  | .allReset => op = .signalAll ∧ s = s₀.setSignalled true ∧ w = some (.all .cond) ∧
    s₀.event.autoReset = true
  | .waitTest => op = .wait ∧ s = s₀ ∧ w = none
  | .timedTest deadline => (∃ timeout, op = .waitTimeout timeout deadline) ∧ s = s₀ ∧ w = none
  | .timedTick deadline =>
    (∃ timeout, op = .waitTimeout timeout deadline) ∧ s = s₀ ∧ w = none ∧
      ¬s₀.event.signalled = true
  | .consumeTest reply => Waits op reply ∧ s = s₀ ∧ w = none ∧ s₀.event.signalled = true
  | .consume reply =>
    Waits op reply ∧ s = s₀ ∧ w = none ∧ s₀.event.signalled = true ∧ s₀.event.autoReset = true
  | .reset => op = .reset ∧ s = s₀ ∧ w = none
  | .leave reply => program.body op s₀ = .done reply s w

variable {op : Op} {s₀ s s' : World} {w : Option (Wake CondVar)} {l l' : Line} {reply : Reply}

theorem at_enter (op : Op) (s : World) : At op s s none (enter op) := by
  cases op with
  | init value mode => exact ⟨rfl, rfl, rfl⟩
  | signal | signalAll | wait | reset => exact ⟨rfl, rfl, rfl⟩
  | waitTimeout timeout deadline => exact ⟨⟨timeout, rfl⟩, rfl, rfl⟩

-- A wait that finds the event signalled leaves it as `consume` does.
theorem Waits.body (h : Waits op reply) (hs : s.event.signalled = true) :
    program.body op s = .done reply s.consume none := by
  rcases h with ⟨rfl, rfl⟩ | ⟨timeout, deadline, rfl, rfl⟩
  · exact if_pos hs
  · exact if_pos hs

theorem At.access (h : At op s₀ s w l) (hact : statement s l = .access s' l') :
    At op s₀ s' w l' := by
  cases l with
  | setSignalled value mode =>
    obtain ⟨rfl, rfl, rfl⟩ := h
    cases hact
    exact ⟨value, rfl, rfl, rfl⟩
  | setMode mode =>
    obtain ⟨value, rfl, rfl, rfl⟩ := h
    cases hact
    rfl
  | signal =>
    obtain ⟨rfl, rfl, rfl⟩ := h
    cases hact
    exact ⟨rfl, rfl, rfl⟩
  | signalTest =>
    obtain ⟨rfl, rfl, rfl⟩ := h
    cases hact
    rw [setSignalled_autoReset]
    split
    next hauto => exact ⟨rfl, rfl, rfl, hauto⟩
    next hmanual => exact ⟨rfl, rfl, rfl, hmanual⟩
  | signalOne | signalEvery | allWake | leave => cases hact
  | allSignal =>
    obtain ⟨rfl, rfl, rfl⟩ := h
    cases hact
    exact ⟨rfl, rfl, rfl⟩
  | allTest =>
    obtain ⟨rfl, rfl, rfl⟩ := h
    cases hact
    rw [setSignalled_autoReset]
    split
    next hauto => exact ⟨rfl, rfl, rfl, hauto⟩
    next hmanual =>
      change osSignalEventAll s₀ = _
      rw [osSignalEventAll, setSignalled_autoReset, if_neg hmanual]
  | allReset =>
    obtain ⟨rfl, rfl, rfl, hauto⟩ := h
    cases hact
    change osSignalEventAll s₀ = _
    rw [osSignalEventAll, setSignalled_autoReset, if_pos hauto]
  | waitTest =>
    obtain ⟨rfl, rfl, rfl⟩ := h
    rw [statement] at hact
    split at hact
    next hsignalled =>
      cases hact
      exact ⟨.inl ⟨rfl, rfl⟩, rfl, rfl, hsignalled⟩
    next => cases hact
  | timedTest deadline =>
    obtain ⟨⟨timeout, rfl⟩, rfl, rfl⟩ := h
    cases hact
    split
    next hsignalled => exact ⟨.inr ⟨timeout, deadline, rfl, rfl⟩, rfl, rfl, hsignalled⟩
    next hnot => exact ⟨⟨timeout, rfl⟩, rfl, rfl, hnot⟩
  | timedTick deadline =>
    obtain ⟨⟨timeout, rfl⟩, rfl, rfl, hnot⟩ := h
    rw [statement] at hact
    split at hact
    next hover =>
      cases hact
      change osWaitEventWithTimeout s deadline = _
      rw [osWaitEventWithTimeout, if_neg hnot, if_pos hover]
    next => cases hact
  | consumeTest reply =>
    obtain ⟨hwaits, rfl, rfl, hsignalled⟩ := h
    cases hact
    split
    next hauto => exact ⟨hwaits, rfl, rfl, hsignalled, hauto⟩
    next hmanual =>
      change program.body op s = _
      rw [hwaits.body hsignalled, World.consume, if_neg hmanual]
  | consume reply =>
    obtain ⟨hwaits, rfl, rfl, hsignalled, hauto⟩ := h
    cases hact
    change program.body op s = _
    rw [hwaits.body hsignalled, World.consume, if_pos hauto]
  | reset =>
    obtain ⟨rfl, rfl, rfl⟩ := h
    cases hact
    rfl

theorem statement_unlock (h : statement s l = .unlock reply) : l = .leave reply := by
  cases l with
  | leave r =>
    cases h
    rfl
  | waitTest | timedTick =>
    rw [statement] at h
    split at h <;> cases h
  | _ => cases h

theorem At.wake {w' : Wake CondVar} (h : At op s₀ s w l) (hact : statement s l = .wake w' l') :
    w = none ∧ At op s₀ s (some w') l' := by
  cases l with
  | signalOne =>
    obtain ⟨rfl, rfl, rfl, hauto⟩ := h
    cases hact
    refine ⟨rfl, ?_⟩
    change osSignalEvent s₀ = _
    rw [osSignalEvent, if_pos hauto]
  | signalEvery =>
    obtain ⟨rfl, rfl, rfl, hmanual⟩ := h
    cases hact
    refine ⟨rfl, ?_⟩
    change osSignalEvent s₀ = _
    rw [osSignalEvent, if_neg hmanual]
  | allWake =>
    obtain ⟨rfl, rfl, rfl⟩ := h
    cases hact
    exact ⟨rfl, rfl, rfl, rfl⟩
  | waitTest | timedTick =>
    rw [statement] at hact
    split at hact <;> cases hact
  | _ => cases hact

theorem At.wait {cv : CondVar} (h : At op s₀ s w l) (hact : statement s l = .wait cv) :
    s = s₀ ∧ w = none ∧ program.body op s₀ = .sleep cv := by
  cases l with
  | waitTest =>
    obtain ⟨rfl, rfl, rfl⟩ := h
    rw [statement] at hact
    split at hact
    next => cases hact
    next hnot =>
      cases hact
      exact ⟨rfl, rfl, if_neg hnot⟩
  | timedTick deadline =>
    obtain ⟨⟨timeout, rfl⟩, rfl, rfl, hnot⟩ := h
    rw [statement] at hact
    split at hact
    next => cases hact
    next hearly =>
      cases hact
      refine ⟨rfl, rfl, ?_⟩
      change osWaitEventWithTimeout s deadline = _
      rw [osWaitEventWithTimeout, if_neg hnot, if_neg hearly]
  | _ => cases hact

def World.at (s : World) (systemTick : UInt64) : World := { s with systemTick }

-- What a body has done does not depend on the clock, which only goes on.
theorem body_later (h : program.body op s₀ = .done reply s w) :
    s.systemTick = s₀.systemTick ∧ ∀ tick, s₀.systemTick ≤ tick →
      program.body op (s₀.at tick) = .done reply (s.at tick) w := by
  have hconsume (s : World) : s.consume.systemTick = s.systemTick ∧
      ∀ tick, (s.at tick).consume = s.consume.at tick := by
    rw [World.consume]
    split
    next hauto => exact ⟨rfl, fun tick => if_pos hauto⟩
    next hmanual => exact ⟨rfl, fun tick => if_neg hmanual⟩
  cases op with
  | init value mode =>
    cases h
    exact ⟨rfl, fun _ _ => rfl⟩
  | signal =>
    cases h
    exact ⟨rfl, fun _ _ => rfl⟩
  | signalAll =>
    change osSignalEventAll s₀ = _ at h
    rw [osSignalEventAll] at h
    split at h
    next hauto =>
      cases h
      exact ⟨rfl, fun tick _ => congrArg (Outcome.done _ · _) (if_pos hauto)⟩
    next hmanual =>
      cases h
      exact ⟨rfl, fun tick _ => congrArg (Outcome.done _ · _) (if_neg hmanual)⟩
  | wait =>
    change osWaitEvent s₀ = _ at h
    rw [osWaitEvent] at h
    split at h
    next hsignalled =>
      cases h
      refine ⟨(hconsume s₀).1, fun tick _ => ?_⟩
      rw [← (hconsume s₀).2]
      exact if_pos hsignalled
    next => cases h
  | reset =>
    cases h
    exact ⟨rfl, fun _ _ => rfl⟩
  | waitTimeout timeout deadline =>
    change osWaitEventWithTimeout s₀ deadline = _ at h
    rw [osWaitEventWithTimeout] at h
    split at h
    next hsignalled =>
      cases h
      refine ⟨(hconsume s₀).1, fun tick _ => ?_⟩
      rw [← (hconsume s₀).2]
      exact if_pos hsignalled
    next hnot =>
      split at h
      next hover =>
        cases h
        refine ⟨rfl, fun tick hle => ?_⟩
        have hnot' : ¬(s₀.at tick).event.signalled = true := hnot
        have hover' : (s₀.at tick).systemTick ≥ deadline := UInt64.le_trans hover hle
        change osWaitEventWithTimeout (s₀.at tick) deadline = _
        rw [osWaitEventWithTimeout, if_neg hnot', if_pos hover']
      next => cases h

theorem At.tick (h : At op s₀ s w l) : s.systemTick = s₀.systemTick := by
  cases l with
  | leave reply => exact (body_later h).1
  | setMode mode =>
    obtain ⟨value, -, rfl, -⟩ := h
    rfl
  | setSignalled | signal | signalTest | signalOne | signalEvery | allSignal | allWake | allTest
  | allReset | waitTest | timedTest | timedTick | consumeTest | consume | reset =>
    obtain ⟨-, rfl, -⟩ := h
    rfl

theorem At.later (h : At op s₀ s w l) (tick : UInt64) (hle : s₀.systemTick ≤ tick) :
    At op (s₀.at tick) (s.at tick) w l := by
  cases l with
  | leave reply => exact (body_later h).2 tick hle
  | setMode mode =>
    obtain ⟨value, hop, rfl, hw⟩ := h
    exact ⟨value, hop, rfl, hw⟩
  | setSignalled | signal | signalTest | signalOne | signalEvery | allSignal | allWake | allTest
  | allReset | waitTest | timedTest | timedTick | consumeTest | consume | reset =>
    obtain ⟨hop, rfl, hrest⟩ := h
    exact ⟨hop, rfl, hrest⟩

theorem eq_at (h : program.env s s') : s' = s.at s'.systemTick := by
  rw [World.at, ← h.1]

theorem reaches_at (h : Reaches code op s₀ l s w) : At op s₀ s w l := by
  induction h with
  | enter s => exact at_enter op s
  | statement _ hact ih => exact ih.access (Option.some.inj hact)
  | wake _ hact ih => exact (ih.wake (Option.some.inj hact)).2
  | @environment l s₀ s s' w _ henv ih =>
    rw [eq_at henv]
    exact ih.later s'.systemTick (ih.tick ▸ henv.2)

theorem code_implements : Implements code program where
  starts _ _ := id
  starts_inside {op s₀ l s w op'} h hstart := by
    cases op' with
    | waitTimeout timeout deadline =>
      change deadline = deadlineAt s₀.systemTick timeout
      rw [← (reaches_at h).tick]
      exact hstart
    | _ => trivial
  timed _ := id
  env _ _ := id
  env_inside h henv := ⟨rfl, (reaches_at h).tick ▸ henv.2⟩
  early _ _ := nofun
  unlock _ h hact := by
    cases statement_unlock (Option.some.inj hact)
    exact reaches_at h
  wait _ h hact := (reaches_at h).wait (Option.some.inj hact)
  wake _ h hact := ((reaches_at h).wake (Option.some.inj hact)).1
  fault _ _ := nofun

variable {τ : Type} [DecidableEq τ] {es : List (FineEvent τ Op CondVar Reply)}
  {c : Fine τ World Op CondVar Line}

-- However the statements of the calls interleave, and the clock with them, their answers and the
-- order they come in are those of calls that do under the lock all they do in one step.
theorem event_is_atomic
    (run : Transition.Run (FineStep code) ⟨s₀, fun _ => .idle, none⟩ es c) :
    ∃ (es' : List (Monitor.Event τ Op CondVar Reply)) (d : Config τ World Op CondVar),
      Run program ⟨s₀, fun _ => .idle⟩ es' d ∧
      es'.filterMap Event.seen = es.filterMap FineEvent.seen ∧
      (c.inside = none → d = ⟨c.shared, c.status⟩) := by
  obtain ⟨-, es', hrun, hseen⟩ := code_implements.run run rfl
  exact ⟨es', c.view, hrun, hseen, c.view_free⟩

-- A timed wait finds its time over, and a signal is called before it has said so.
theorem event_is_atomic_over :
    ∃ (es' : List (Monitor.Event Bool Op CondVar Reply)) (d : Config Bool World Op CondVar),
      Run program ⟨⟨⟨false, true⟩, 0⟩, fun _ => .idle⟩ es' d ∧
      es'.filterMap Event.seen = [.call true (.waitTimeout 100 30), .call false .signal,
        .returned true (.waitTimeout 100 30) (.ret 0)] ∧
      d.shared = ⟨⟨false, true⟩, 40⟩ := by
  have hstart : (30 : UInt64) = deadlineAt 0 100 := by decide +kernel
  have h0 : Transition.Run (FineStep code)
      ⟨⟨⟨false, true⟩, 0⟩, fun _ : Bool => .idle, none⟩ [] _ := .nil
  have h1 := h0.snoc (e := .call true (.waitTimeout 100 30)) (.call rfl hstart)
  have h2 := h1.snoc (e := .acquire true (.waitTimeout 100 30)) (.acquire rfl (.inl rfl) rfl)
  have h3 := h2.snoc (.statement rfl rfl)
  have h4 := h3.snoc (.slept rfl rfl)
  have h5 := h4.snoc (.environment (s := ⟨⟨false, true⟩, 40⟩) ⟨rfl, by decide⟩)
  have h6 := h5.snoc (e := .timedOut true) (.timedOut rfl trivial)
  have h7 := h6.snoc (e := .acquire true (.waitTimeout 100 30))
    (.acquire rfl (.inr ⟨.cond, rfl⟩) rfl)
  have h8 := h7.snoc (.statement rfl rfl)
  have h9 := h8.snoc (.statement rfl rfl)
  have h10 := h9.snoc (e := .call false .signal) (.call rfl trivial)
  have h11 := h10.snoc (.returned rfl rfl)
  obtain ⟨es', d, hrun, hseen, hfree⟩ := event_is_atomic h11
  exact ⟨es', d, hrun, hseen, congrArg Config.shared (hfree rfl)⟩

end CoreinitNx.Event
