import CoreinitNx.Event.Basic

namespace CoreinitNx.Event

open Monitor

variable {τ : Type} [DecidableEq τ] {es : List (Monitor.Event τ Op CondVar Reply)}
  {c d : Config τ World Op CondVar} {t u : τ} {op : Op} {s s' : World} {r : Reply}
  {w : Option (Wake CondVar)}

def WaitsOrSignals : Op → Prop
  | .signal | .signalAll | .wait | .waitTimeout _ _ => True
  | .init _ _ | .reset => False

def success : Op → Reply
  | .waitTimeout _ _ => .ret 1
  | _ => .void

-- A wait still in time: one that would go back to sleep if it ran and found no signal.
def InTime (s : World) : Op → Prop
  | .wait => True
  | .waitTimeout _ deadline => s.systemTick < deadline
  | _ => False

def Blocked (c : Config τ World Op CondVar) (u : τ) (op : Op) : Prop :=
  (c.status u).Waiting op .cond ∧ InTime c.shared op

-- Whatever waits and signals come in between, the next run of `u` ends its wait.
def LeavesNext (c : Config τ World Op CondVar) (u : τ) (op : Op) : Prop :=
  ∀ es d e d', Run program c es d → OnlyCalls WaitsOrSignals es → (∀ x ∈ es, ¬x.RunBy u) →
    Step program d e d' → e.RunBy u → e = .returned u op (success op)

theorem body_wait (h : InTime s op) (hs : s.event.signalled = false) :
    program.body op s = .sleep .cond := by
  cases op with
  | init _ _ | signal | signalAll | reset => exact h.elim
  | wait =>
    change osWaitEvent s = _
    rw [osWaitEvent, hs]
    rfl
  | waitTimeout timeout deadline =>
    change osWaitEventWithTimeout s deadline = _
    rw [osWaitEventWithTimeout, hs, if_neg Bool.false_ne_true, if_neg (UInt64.not_le.2 h)]

theorem body_signalled (h : InTime s op) (hs : s'.event.signalled = true) :
    program.body op s' = .done (success op) s'.consume none := by
  cases op with
  | init _ _ | signal | signalAll | reset => exact h.elim
  | wait => exact if_pos hs
  | waitTimeout timeout deadline => exact if_pos hs

theorem signalAll_shared (h : program.body .signalAll s = .done r s' w) :
    s'.event.autoReset = s.event.autoReset ∧ s'.event.signalled = !s.event.autoReset ∧
      s'.systemTick = s.systemTick ∧ w = some (.all .cond) := by
  change osSignalEventAll s = _ at h
  cases hauto : s.event.autoReset with
  | true =>
    simp only [osSignalEventAll, setSignalled_autoReset, hauto, if_true] at h
    cases h
    exact ⟨hauto, rfl, rfl, rfl⟩
  | false =>
    simp only [osSignalEventAll, setSignalled_autoReset, hauto, Bool.false_eq_true, if_false] at h
    cases h
    exact ⟨hauto, rfl, rfl, rfl⟩

def ManualSignalled (s : World) : Prop := s.event.autoReset = false ∧ s.event.signalled = true

theorem manualSignalled_body (hop : WaitsOrSignals op) (hs : ManualSignalled s)
    (h : program.body op s = .done r s' w) : ManualSignalled s' := by
  obtain ⟨hmanual, hsig⟩ := hs
  cases op with
  | init _ _ | reset => exact hop.elim
  | signal =>
    cases h
    exact ⟨hmanual, rfl⟩
  | signalAll =>
    obtain ⟨hauto, hset, -, -⟩ := signalAll_shared h
    rw [hmanual] at hauto hset
    exact ⟨hauto, hset⟩
  | wait =>
    change osWaitEvent s = _ at h
    rw [osWaitEvent, if_pos hsig, consume_of_manual hmanual] at h
    cases h
    exact ⟨hmanual, hsig⟩
  | waitTimeout timeout deadline =>
    change osWaitEventWithTimeout s deadline = _ at h
    rw [osWaitEventWithTimeout, if_pos hsig, consume_of_manual hmanual] at h
    cases h
    exact ⟨hmanual, hsig⟩

theorem InTime.congr (h : InTime s op) (htick : s'.systemTick = s.systemTick) : InTime s' op := by
  cases op with
  | init _ _ | signal | signalAll | reset => exact h.elim
  | wait => trivial
  | waitTimeout timeout deadline =>
    change s'.systemTick < deadline
    rw [htick]
    exact h

omit [DecidableEq τ] in
theorem Blocked.ne_signaller (hb : Blocked c u op) (ht : (c.status t).Ready .signalAll) :
    u ≠ t := by
  rintro rfl
  obtain ⟨rfl, -⟩ := ht.eq_of_waiting hb.1
  exact hb.2

theorem leavesNext_of_manual (hd : ManualSignalled d.shared)
    (hruns : ∀ t, (d.status t).Runs WaitsOrSignals) (hu : (d.status u).Waiting op .cond)
    (hop : InTime s op) : LeavesNext d u op := by
  intro es d₁ e d₂ run hcalls hnot hstep hrunby
  have hsig : ManualSignalled d₁.shared :=
    run.shared_invariant hcalls hruns hd (fun _ _ _ _ _ hok hs hb => manualSignalled_body hok hs hb)
      fun s s' hs he => by
        obtain ⟨hevent, -⟩ := he
        rw [ManualSignalled]
        rwa [hevent]
  have hwait := run.waiting hnot hu
  have hbody := body_signalled hop hsig.2
  cases hstep with
  | call | timedOut | environment => exact hrunby.elim
  | @returned t op' r s' w st hready hdone _ =>
    obtain rfl : t = u := hrunby
    obtain ⟨rfl, -⟩ := hready.eq_of_waiting hwait
    rw [hbody] at hdone
    cases hdone
    rfl
  | @slept t op' cv hready hsleep =>
    obtain rfl : t = u := hrunby
    obtain ⟨rfl, -⟩ := hready.eq_of_waiting hwait
    rw [hbody] at hsleep
    cases hsleep

theorem signal_all_releases_iff {s₀ : World}
    (run : Run program ⟨s₀, fun _ => .idle⟩ es c) (hcalls : OnlyCalls WaitsOrSignals es)
    (hstep : Step program c (.returned t .signalAll r) d) :
    ((∀ u op, Blocked c u op → LeavesNext d u op) ∧
        (d.shared.event.autoReset = true → d.shared.event.signalled = false)) ↔
      (c.shared.event.autoReset = false ∨ ∀ u op, ¬Blocked c u op) := by
  have hruns := hstep.runs (fun _ _ h => by cases h) (run.runs hcalls fun _ => trivial)
  have hwaits {u op} (hb : Blocked c u op) (hne : u ≠ t) : (d.status u).Waiting op .cond :=
    hstep.waiting (fun h => hne h.symm) hb.1
  cases hstep with
  | @returned _ _ _ s w st hready hbody hwakes =>
    obtain ⟨hauto, hsig, htick, rfl⟩ := signalAll_shared hbody
    constructor
    · rintro ⟨hleaves, -⟩
      by_cases hmanual : c.shared.event.autoReset = false
      · exact .inl hmanual
      -- On an auto-reset event the woken thread finds the signal gone and sleeps again.
      · refine .inr fun u op hb => ?_
        have hne := hb.ne_signaller hready
        have hclear : s.event.signalled = false := by
          rw [hsig, eq_true_of_ne_false hmanual]
          rfl
        have hwoken : st u = .woken op .cond := by
          refine hwakes.all_waiting ?_
          rw [Function.update_of_ne hne]
          exact hb.1
        have hsleep : Step program ⟨s, st⟩ (.slept u op .cond) _ :=
          .slept (.inr ⟨_, hwoken⟩) (body_wait (hb.2.congr htick) hclear)
        have hleft := hleaves u op hb [] _ _ _ .nil (fun _ _ h => by cases h) (fun _ h => by cases h)
          hsleep rfl
        cases hleft
    · intro hcond
      refine ⟨fun u op hb => ?_, fun h => ?_⟩
      · rcases hcond with hmanual | hnone
        · refine leavesNext_of_manual ⟨hauto.trans hmanual, ?_⟩ hruns
            (hwaits hb (hb.ne_signaller hready)) hb.2
          change s.event.signalled = true
          rw [hsig, hmanual]
          rfl
        · exact absurd hb (hnone u op)
      · change s.event.signalled = false
        change s.event.autoReset = true at h
        rw [hsig, ← hauto, h]
        rfl

-- Thread `true` sleeps in `OSWaitEvent` when thread `false` signals.
theorem exists_sleeper_and_signaller (auto : Bool) :
    ∃ (es : List (Monitor.Event Bool Op CondVar Reply)) (c : Config Bool World Op CondVar),
      Run program ⟨⟨⟨false, auto⟩, 0⟩, fun _ => .idle⟩ es c ∧ OnlyCalls WaitsOrSignals es ∧
        c.shared = ⟨⟨false, auto⟩, 0⟩ ∧ c.status true = .asleep .wait .cond ∧
        c.status false = .entering .signalAll := by
  have h0 : Run program ⟨⟨⟨false, auto⟩, 0⟩, fun _ : Bool => .idle⟩ [] _ := .nil
  have h1 := h0.snoc (e := .call true .wait) (.call rfl (by trivial))
  have h2 := h1.snoc (e := .slept true .wait .cond) (.slept (.inl rfl) rfl)
  have h3 := h2.snoc (e := .call false .signalAll) (.call rfl (by trivial))
  refine ⟨_, _, h3, fun t op h => ?_, rfl, rfl, rfl⟩
  simp only [List.nil_append, List.cons_append, List.mem_cons, List.not_mem_nil, or_false] at h
  rcases h with h | h | h <;> cases h <;> trivial

theorem signal_all_releases_iff_manual :
    ∃ (es : List (Monitor.Event Bool Op CondVar Reply)) (c d : Config Bool World Op CondVar),
      Run program ⟨⟨⟨false, false⟩, 0⟩, fun _ => .idle⟩ es c ∧
        Step program c (.returned false .signalAll .void) d ∧
        Blocked c true .wait ∧ LeavesNext d true .wait := by
  obtain ⟨es, c, run, hcalls, hshared, hsleeper, hsignaller⟩ := exists_sleeper_and_signaller false
  have hbody : program.body .signalAll c.shared =
      .done .void ⟨⟨true, false⟩, 0⟩ (some (.all .cond)) := by
    rw [hshared]
    rfl
  have hstep : Step program c (.returned false .signalAll .void) _ :=
    .returned (.inl hsignaller) hbody (.all _ CondVar.cond)
  have hblocked : Blocked c true .wait := ⟨.inl hsleeper, trivial⟩
  have hmanual : c.shared.event.autoReset = false := by rw [hshared]
  have hreleased := (signal_all_releases_iff run hcalls hstep).2 (.inl hmanual)
  exact ⟨es, c, _, run, hstep, hblocked, hreleased.1 true .wait hblocked⟩

theorem signal_all_strands_sleeper :
    ∃ (es : List (Monitor.Event Bool Op CondVar Reply)) (c d : Config Bool World Op CondVar),
      Run program ⟨⟨⟨false, true⟩, 0⟩, fun _ => .idle⟩ es c ∧ OnlyCalls WaitsOrSignals es ∧
        Step program c (.returned false .signalAll .void) d ∧
        Blocked c true .wait ∧ ¬LeavesNext d true .wait := by
  obtain ⟨es, c, run, hcalls, hshared, hsleeper, hsignaller⟩ := exists_sleeper_and_signaller true
  have hbody : program.body .signalAll c.shared =
      .done .void ⟨⟨false, true⟩, 0⟩ (some (.all .cond)) := by
    rw [hshared]
    rfl
  have hstep : Step program c (.returned false .signalAll .void) _ :=
    .returned (.inl hsignaller) hbody (.all _ CondVar.cond)
  let st : Bool → Status Op CondVar :=
    fun u => (Function.update c.status false .idle u).wakeAll .cond
  have hwoken : st true = .woken .wait .cond := by
    change (Function.update c.status false .idle true).wakeAll .cond = _
    rw [Function.update_of_ne (by decide), hsleeper]
    rfl
  have hsleep : Step program ⟨⟨⟨false, true⟩, 0⟩, st⟩ (.slept true .wait .cond) _ :=
    .slept (.inr ⟨.cond, hwoken⟩) rfl
  refine ⟨es, c, _, run, hcalls, hstep, ⟨.inl hsleeper, trivial⟩, fun hleaves => ?_⟩
  have hleft := hleaves [] _ _ _ .nil (fun _ _ h => by cases h) (fun _ h => by cases h) hsleep rfl
  cases hleft

end CoreinitNx.Event
