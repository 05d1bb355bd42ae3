import CoreinitNx.Event.AutoReset
import Mathlib.Data.Fin.VecNotation
import Mathlib.Tactic.FinCases
import Mathlib.Data.Fin.VecNotation

namespace CoreinitNx.Event

open Monitor

variable {τ : Type} [DecidableEq τ] {es : List (Monitor.Event τ Op CondVar Reply)}
  {e : Monitor.Event τ Op CondVar Reply} {t u : τ} {op : Op} {r : Reply}

-- A configuration with the threads that a signal has let through and that have not run since.
structure Tracked (τ : Type) where
  config : Config τ World Op CondVar
  released : Set τ

namespace Tracked

def auto (x : Tracked τ) : Prop := x.config.shared.event.autoReset = true

def Blocked (x : Tracked τ) (u : τ) : Prop := (x.config.status u).Waiting .wait .cond

def Unreleased (x : Tracked τ) (u : τ) : Prop := x.Blocked u ∧ u ∉ x.released

def Awake (x : Tracked τ) (u : τ) : Prop := x.config.status u = .woken .wait .cond

end Tracked

-- Whom a signal releases. An auto-reset event takes a waiter that is awake after it, if one is.
inductive Releases (x : Tracked τ) (st : τ → Status Op CondVar) : Set τ → Prop
  | one {u : τ} : x.auto → x.Unreleased u →
      ((∃ v, x.Unreleased v ∧ st v = .woken .wait .cond) → st u = .woken .wait .cond) →
      Releases x st (insert u x.released)
  | nobody : x.auto → (∀ u, ¬x.Unreleased u) → Releases x st x.released
  | all : ¬x.auto → Releases x st (x.released ∪ {u | x.Blocked u})

inductive TrackedStep : Tracked τ → Monitor.Event τ Op CondVar Reply → Tracked τ → Prop
  | signal {x : Tracked τ} {d : Config τ World Op CondVar} {R : Set τ} {t : τ} {r : Reply} :
      Step program x.config (.returned t .signal r) d → Releases x d.status R →
      TrackedStep x (.returned t .signal r) ⟨d, R⟩
  | other {x : Tracked τ} {d : Config τ World Op CondVar}
      {e : Monitor.Event τ Op CondVar Reply} :
      Step program x.config e d → isSignal e = false →
      TrackedStep x e ⟨d, {u ∈ x.released | ¬e.RunBy u}⟩

-- A released thread is awake until it runs, and when it runs its wait returns.
structure Honours (x : Tracked τ) (e : Monitor.Event τ Op CondVar Reply) (y : Tracked τ) :
    Prop where
  returns : ∀ u ∈ x.released, e.RunBy u → e = .returned u .wait .void
  awake : ∀ u ∈ y.released, y.Awake u

def HonouredStep (x : Tracked τ) (e : Monitor.Event τ Op CondVar Reply) (y : Tracked τ) : Prop :=
  TrackedStep x e y ∧ Honours x e y

-- What a body may be, when the signal that released a thread is still in the event.
def Tracked.Allows (x : Tracked τ) (t : τ) : Op → Prop
  | .init value mode =>
    x.released.Nonempty → value ≠ 0 ∧ (mode = .auto → x.released.Subsingleton)
  | .reset => x.released = ∅
  | .signalAll => x.auto → x.released = ∅
  | .wait | .waitTimeout _ _ => x.auto → x.released = ∅ ∨ t ∈ x.released
  | .signal => x.auto → (∃ u, x.Unreleased u) → x.released = ∅ ∧
      ((∃ u, x.Unreleased u ∧ x.Awake u) ∨
        ∀ u op, x.config.status u = .asleep op .cond → op = .wait)

def Undisturbed (x : Tracked τ) : Monitor.Event τ Op CondVar Reply → Prop
  | .returned t op _ => x.Allows t op
  | .call _ _ | .slept _ _ _ | .timedOut _ | .environment => True

structure Pending (x : Tracked τ) : Prop where
  awake : ∀ u ∈ x.released, x.Awake u
  signalled : x.released.Nonempty → x.config.shared.event.signalled = true
  single : x.auto → x.released.Subsingleton

variable {x y : Tracked τ} {c d : Config τ World Op CondVar} {s s' : World}
  {w : Option (Wake CondVar)}

theorem Pending.returns (hx : Pending x) (hs : Step program x.config e d) (hu : u ∈ x.released)
    (hrun : e.RunBy u) : e = .returned u .wait .void := by
  have hwait : (x.config.status u).Waiting .wait .cond := .inr (hx.awake u hu)
  have htime : InTime x.config.shared .wait := trivial
  have hbody := body_signalled htime (hx.signalled ⟨u, hu⟩)
  cases hs with
  | call | timedOut | environment => exact hrun.elim
  | @returned t op r s w st hready hdone _ =>
    obtain rfl : t = u := hrun
    obtain ⟨rfl, -⟩ := hready.eq_of_waiting hwait
    rw [hbody] at hdone
    cases hdone
    rfl
  | @slept t op cv hready hsleep =>
    obtain rfl : t = u := hrun
    obtain ⟨rfl, -⟩ := hready.eq_of_waiting hwait
    rw [hbody] at hsleep
    cases hsleep

omit [DecidableEq τ] in
-- What a body leaves of the event, for those released before it that it does not belong to.
theorem Pending.body (hx : Pending x) (hop : op ≠ .signal) (hallow : x.Allows t op)
    (h : program.body op x.config.shared = .done r s' w) {u : τ} (hu : u ∈ x.released)
    (hut : u ≠ t) : s'.event.signalled = true ∧
      (s'.event.autoReset = true → x.released.Subsingleton) := by
  have hsig := hx.signalled ⟨u, hu⟩
  cases op with
  | signal => exact absurd rfl hop
  | init value mode =>
    obtain ⟨hvalue, hmode⟩ := hallow ⟨u, hu⟩
    cases h
    refine ⟨bne_iff_ne.2 hvalue, fun hauto => hmode ?_⟩
    exact eq_of_beq hauto
  | reset =>
    have hnone : x.released = ∅ := hallow
    rw [hnone] at hu
    exact hu.elim
  | signalAll =>
    obtain ⟨hauto, hset, -, -⟩ := signalAll_shared h
    have hmanual : x.config.shared.event.autoReset ≠ true := by
      intro hauto
      have hnone : x.released = ∅ := hallow hauto
      rw [hnone] at hu
      exact hu.elim
    rw [eq_false_of_ne_true hmanual] at hauto hset
    refine ⟨hset, fun h => ?_⟩
    rw [hauto] at h
    cases h
  | wait | waitTimeout _ _ =>
    have hmanual : ¬x.auto := by
      intro hauto
      rcases hallow hauto with hnone | ht
      · rw [hnone] at hu
        exact hu.elim
      · exact hut (hx.single hauto hu ht)
    rcases wait_returns rfl h with ⟨-, -, rfl, -⟩ | ⟨-, hclear, -⟩
    · rw [consume_of_manual (eq_false_of_ne_true hmanual)]
      exact ⟨hsig, fun hauto => absurd hauto hmanual⟩
    · rw [hsig] at hclear
      cases hclear

theorem Pending.other (hx : Pending x) (hs : Step program x.config e d) (hnot : isSignal e = false)
    (hund : Undisturbed x e) : Pending ⟨d, {u ∈ x.released | ¬e.RunBy u}⟩ := by
  have hawake : ∀ u ∈ {u ∈ x.released | ¬e.RunBy u}, d.status u = .woken .wait .cond :=
    fun u hu => hs.woken hu.2 (hx.awake u hu.1)
  have hsub : {u ∈ x.released | ¬e.RunBy u} ⊆ x.released := fun u hu => hu.1
  cases hs with
  | call | slept | timedOut =>
    exact ⟨hawake, fun h => hx.signalled (h.mono hsub), fun h => (hx.single h).anti hsub⟩
  | environment henv =>
    obtain ⟨hevent, -⟩ := henv
    refine ⟨hawake, fun h => ?_, fun h => (hx.single ?_).anti hsub⟩
    · exact hevent ▸ hx.signalled (h.mono hsub)
    · change x.config.shared.event.autoReset = true
      rw [← hevent]
      exact h
  | @returned t op r s w st hready hbody hwakes =>
    have hop : op ≠ .signal := by
      rintro rfl
      cases hnot
    have hkept {u : τ} (hu : u ∈ {u ∈ x.released | ¬t = u}) :=
      hx.body hop hund hbody hu.1 fun h => hu.2 h.symm
    refine ⟨hawake, fun ⟨u, hu⟩ => (hkept hu).1, fun h u hu v hv => ?_⟩
    exact (hkept hu).2 h hu.1 hv.1

omit [DecidableEq τ] in
theorem Tracked.Blocked.ne_signaller (hb : x.Blocked u)
    (ht : (x.config.status t).Ready .signal) : ¬t = u := by
  rintro rfl
  cases (ht.eq_of_waiting hb).1

theorem exists_awake {st : τ → Status Op CondVar} (ht : (x.config.status t).Ready .signal)
    (hwakes : Wakes (some (.one .cond)) (Function.update x.config.status t .idle) st)
    (hnone : x.released = ∅) (hu : x.Unreleased u)
    (honly : ∀ u op, x.config.status u = .asleep op .cond → op = .wait) :
    ∃ v, x.Unreleased v ∧ st v = .woken .wait .cond := by
  cases hwakes with
  | @one _ v op _ hv =>
    have hne : v ≠ t := by
      rintro rfl
      rw [Function.update_self] at hv
      cases hv
    rw [Function.update_of_ne hne] at hv
    obtain rfl := honly v op hv
    refine ⟨v, ⟨.inl hv, ?_⟩, Function.update_self ..⟩
    rw [hnone]
    exact id
  | nobody hnobody =>
    have hne : u ≠ t := fun h => hu.1.ne_signaller ht h.symm
    refine ⟨u, hu, ?_⟩
    rw [Function.update_of_ne hne]
    rcases hu.1 with hasleep | hwoken
    · refine absurd ?_ (hnobody u)
      rw [Function.update_of_ne hne, hasleep]
      rfl
    · exact hwoken

theorem Pending.signal {R : Set τ} (hx : Pending x)
    (hs : Step program x.config (.returned t .signal r) d) (hrel : Releases x d.status R)
    (hallow : x.Allows t .signal) : Pending ⟨d, R⟩ := by
  have hblocked {u : τ} (hu : u ∈ x.released) : x.Blocked u := .inr (hx.awake u hu)
  have hs' := hs
  cases hs with
  | @returned _ _ _ s w st hready hbody hwakes =>
    have hstays {u : τ} (hu : x.Awake u) : st u = .woken .wait .cond :=
      hs'.woken (fun h => Tracked.Blocked.ne_signaller (.inr hu) hready h) hu
    cases hbody
    cases hrel with
    | nobody hauto hnone =>
      exact ⟨fun u hu => hstays (hx.awake u hu), fun _ => rfl, fun _ => hx.single hauto⟩
    | all hmanual =>
      refine ⟨fun u hu => ?_, fun _ => rfl, fun hauto => absurd hauto hmanual⟩
      have hu' : x.Blocked u := hu.elim hblocked id
      rw [eq_false_of_ne_true hmanual] at hwakes
      refine hwakes.all_waiting ?_
      rw [Function.update_of_ne fun h => hu'.ne_signaller hready h.symm]
      exact hu'
    | @one u hauto hu hpref =>
      obtain ⟨hnone, hcan⟩ := hallow hauto ⟨u, hu⟩
      have hone : insert u x.released = {u} := by rw [hnone, insert_empty_eq]
      rw [hone]
      have hawake : ∃ v, x.Unreleased v ∧ st v = .woken .wait .cond := by
        rcases hcan with ⟨v, hv, hvawake⟩ | honly
        · exact ⟨v, hv, hstays hvawake⟩
        · rw [hauto] at hwakes
          exact exists_awake hready hwakes hnone hu honly
      refine ⟨fun v hv => ?_, fun _ => rfl, fun _ => Set.subsingleton_singleton⟩
      obtain rfl : v = u := hv
      exact hpref hawake

theorem Pending.step (hx : Pending x) (hs : TrackedStep x e y) (hund : Undisturbed x e) :
    Pending y ∧ Honours x e y := by
  cases hs with
  | signal hs hrel =>
    have hy := hx.signal hs hrel hund
    exact ⟨hy, fun u hu => hx.returns hs hu, hy.awake⟩
  | other hs hnot =>
    have hy := hx.other hs hnot hund
    exact ⟨hy, fun u hu => hx.returns hs hu, hy.awake⟩

omit [DecidableEq τ] in
theorem exists_released (x : Tracked τ) (st : τ → Status Op CondVar) : ∃ R, Releases x st R := by
  by_cases hauto : x.auto
  · by_cases hawake : ∃ v, x.Unreleased v ∧ st v = .woken .wait .cond
    · obtain ⟨v, hv, hst⟩ := hawake
      exact ⟨_, .one hauto hv fun _ => hst⟩
    · by_cases hany : ∃ v, x.Unreleased v
      · obtain ⟨v, hv⟩ := hany
        exact ⟨_, .one hauto hv fun h => absurd h hawake⟩
      · exact ⟨_, .nobody hauto fun v hv => hany ⟨v, hv⟩⟩
  · exact ⟨_, .all hauto⟩

-- Every run of the event can be followed with a record of whom its signals release.
theorem exists_tracked {s₀ : Config τ World Op CondVar} (run : Run program s₀ es c) :
    ∃ R, Transition.Run TrackedStep ⟨s₀, ∅⟩ es ⟨c, R⟩ := by
  induction run with
  | nil => exact ⟨∅, .nil⟩
  | @snoc es c d e _ hs ih =>
    obtain ⟨R, run⟩ := ih
    by_cases hsignal : isSignal e = true
    · cases e with
      | call | slept | timedOut | environment => cases hsignal
      | returned t op r =>
        cases op with
        | signal =>
          obtain ⟨R', hrel⟩ := exists_released ⟨c, R⟩ d.status
          exact ⟨R', run.snoc (.signal hs hrel)⟩
        | init | signalAll | wait | reset | waitTimeout => cases hsignal
    · exact ⟨_, run.snoc (.other hs (eq_false_of_ne_true hsignal))⟩

theorem pending_run {s₀ : World}
    (run : Transition.Run (fun x e y => TrackedStep x e y ∧ Undisturbed x e)
      ⟨⟨s₀, fun _ => .idle⟩, ∅⟩ es y) :
    Transition.Run HonouredStep ⟨⟨s₀, fun _ => .idle⟩, ∅⟩ es y ∧ Pending y := by
  induction run with
  | nil =>
    exact ⟨.nil, fun _ h => h.elim, fun ⟨_, h⟩ => h.elim, fun _ => Set.subsingleton_empty⟩
  | snoc _ hs ih =>
    obtain ⟨hrun, hpending⟩ := ih
    obtain ⟨hpending', hhonours⟩ := hpending.step hs.1 hs.2
    exact ⟨hrun.snoc ⟨hs.1, hhonours⟩, hpending'⟩

theorem signals_let_waiters_through {s₀ : World} (run : Run program ⟨s₀, fun _ => .idle⟩ es c) :
    (∃ R, Transition.Run TrackedStep ⟨⟨s₀, fun _ => .idle⟩, ∅⟩ es ⟨c, R⟩) ∧
      ∀ R, Transition.Run (fun x e y => TrackedStep x e y ∧ Undisturbed x e)
          ⟨⟨s₀, fun _ => .idle⟩, ∅⟩ es ⟨c, R⟩ →
        Transition.Run HonouredStep ⟨⟨s₀, fun _ => .idle⟩, ∅⟩ es ⟨c, R⟩ :=
  ⟨exists_tracked run, fun _ h => (pending_run h).1⟩

def NewEvent (auto : Bool) : Tracked (Fin 3) := ⟨⟨⟨⟨false, auto⟩, 0⟩, fun _ => .idle⟩, ∅⟩

-- Threads 0 and 1 sleep in `OSWaitEvent`, and 2 has called `OSSignalEvent`.
structure TwoSleepers (auto : Bool) (x : Tracked (Fin 3)) : Prop where
  shared : x.config.shared = ⟨⟨false, auto⟩, 0⟩
  status : x.config.status = ![.asleep .wait .cond, .asleep .wait .cond, .entering .signal]
  released : x.released = ∅

theorem exists_two_sleepers (auto : Bool) :
    ∃ (es : List (Monitor.Event (Fin 3) Op CondVar Reply)) (x : Tracked (Fin 3)),
      Transition.Run (fun x e y => TrackedStep x e y ∧ Undisturbed x e) (NewEvent auto) es x ∧
        TwoSleepers auto x := by
  have h0 : Transition.Run (fun x e y => TrackedStep x e y ∧ Undisturbed x e) (NewEvent auto) []
    (NewEvent auto) := .nil
  have h1 := h0.snoc (e := .call 0 .wait) ⟨.other (.call rfl (by trivial)) rfl, by trivial⟩
  have h2 := h1.snoc (e := .slept 0 .wait .cond) ⟨.other (.slept (.inl rfl) rfl) rfl, by trivial⟩
  have h3 := h2.snoc (e := .call 1 .wait) ⟨.other (.call rfl (by trivial)) rfl, by trivial⟩
  have h4 := h3.snoc (e := .slept 1 .wait .cond) ⟨.other (.slept (.inl rfl) rfl) rfl, by trivial⟩
  have h5 := h4.snoc (e := .call 2 .signal) ⟨.other (.call rfl (by trivial)) rfl, by trivial⟩
  refine ⟨_, _, h5, rfl, ?_, ?_⟩
  · funext u
    fin_cases u <;> rfl
  · simp only [NewEvent, Set.sep_empty]

theorem run_of_tracked {x y : Tracked τ} (h : Transition.Run TrackedStep x es y) :
    Run program x.config es y.config := by
  induction h with
  | nil => exact .nil
  | snoc _ hs ih =>
    cases hs with
    | signal hs _ => exact ih.snoc hs
    | other hs _ => exact ih.snoc hs

theorem tracked_of_undisturbed {x y : Tracked τ}
    (h : Transition.Run (fun x e y => TrackedStep x e y ∧ Undisturbed x e) x es y) :
    Transition.Run TrackedStep x es y := h.mono fun _ _ _ hs => hs.1

theorem signals_let_waiters_through_two_sleepers :
    ∃ (es : List (Monitor.Event (Fin 3) Op CondVar Reply)) (x : Tracked (Fin 3)),
      Transition.Run HonouredStep (NewEvent true) es x ∧ 0 ∈ x.released := by
  obtain ⟨es, ⟨⟨shared, status⟩, released⟩, run, hshared, hstatus, hreleased⟩ :=
    exists_two_sleepers true
  cases hshared
  cases hstatus
  cases hreleased
  have hsignal := run.snoc (e := .returned 2 .signal .void)
    ⟨.signal (.returned (.inl rfl) rfl (by exact .one (u := 0) rfl))
      (by exact .one (u := 0) rfl ⟨.inl rfl, id⟩ fun _ => rfl), by
      refine fun _ _ => ⟨rfl, .inr fun u op h => ?_⟩
      fin_cases u <;> cases h <;> rfl⟩
  have hplain := run_of_tracked (tracked_of_undisturbed hsignal)
  exact ⟨_, _, (signals_let_waiters_through hplain).2 _ hsignal, .inl rfl⟩

def Loses (auto : Bool) : Prop :=
  ∃ (es : List (Monitor.Event (Fin 3) Op CondVar Reply)) (e : Monitor.Event (Fin 3) Op CondVar Reply)
    (x y : Tracked (Fin 3)), Transition.Run TrackedStep (NewEvent auto) es x ∧ TrackedStep x e y ∧
      ¬Honours x e y

-- The second of two signals in a row sets a flag that is already set.
theorem auto_loses_second_signal : Loses true := by
  obtain ⟨es, ⟨⟨shared, status⟩, released⟩, run, hshared, hstatus, hreleased⟩ :=
    exists_two_sleepers true
  cases hshared
  cases hstatus
  cases hreleased
  have h0 := tracked_of_undisturbed run
  have h1 := h0.snoc (e := .returned 2 .signal .void)
    (.signal (.returned (.inl rfl) rfl (by exact .one (u := 0) rfl))
      (by exact .one (u := 0) rfl ⟨.inl rfl, id⟩ fun _ => rfl))
  have h2 := h1.snoc (e := .call 2 .signal) (.other (.call rfl (by trivial)) rfl)
  have h3 := h2.snoc (e := .returned 2 .signal .void)
    (.signal (.returned (.inl rfl) rfl (by exact .one (u := 1) rfl))
      (by exact .one (u := 1) rfl ⟨.inl rfl, fun h => h.1.elim (by decide) id⟩ fun _ => rfl))
  have h4 := h3.snoc (e := .returned 0 .wait .void)
    (.other (.returned (.inr ⟨.cond, rfl⟩) rfl (.none _)) rfl)
  refine ⟨_, .slept 1 .wait .cond, _, _, h4, .other (.slept (.inr ⟨.cond, rfl⟩) rfl) rfl, fun h => ?_⟩
  have hlet := h.returns 1 ⟨.inl rfl, (by decide : (0 : Fin 3) ≠ 1)⟩ rfl
  cases hlet

theorem manual_loses_to_reset : Loses false := by
  obtain ⟨es, ⟨⟨shared, status⟩, released⟩, run, hshared, hstatus, hreleased⟩ :=
    exists_two_sleepers false
  cases hshared
  cases hstatus
  cases hreleased
  have h0 := tracked_of_undisturbed run
  have h1 := h0.snoc (e := .returned 2 .signal .void)
    (.signal (.returned (.inl rfl) rfl (by exact .all _ _)) (by exact .all Bool.false_ne_true))
  have h2 := h1.snoc (e := .call 2 .reset) (.other (.call rfl (by trivial)) rfl)
  have h3 := h2.snoc (e := .returned 2 .reset .void)
    (.other (.returned (.inl rfl) rfl (.none _)) rfl)
  refine ⟨_, .slept 1 .wait .cond, _, _, h3, .other (.slept (.inr ⟨.cond, rfl⟩) rfl) rfl, fun h => ?_⟩
  have hlet := h.returns 1 ⟨⟨.inr (.inl rfl), id⟩, (by decide : (2 : Fin 3) ≠ 1)⟩ rfl
  cases hlet

theorem signals_lost : Loses true ∧ Loses false := ⟨auto_loses_second_signal, manual_loses_to_reset⟩

end CoreinitNx.Event
