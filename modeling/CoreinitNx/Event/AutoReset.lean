import CoreinitNx.Event.SignalAll
import CoreinitNx.Library.Wakeups

namespace CoreinitNx.Event

open Monitor

variable {τ : Type} [DecidableEq τ] {es : List (Monitor.Event τ Op CondVar Reply)}
  {e : Monitor.Event τ Op CondVar Reply} {start c d : Config τ World Op CondVar} {t : τ} {op : Op}
  {s s' : World} {r : Reply} {w : Option (Wake CondVar)}

def SignalsResetsWaits : Op → Prop
  | .signal | .reset | .wait | .waitTimeout _ _ => True
  | .init _ _ | .signalAll => False

def isWait : Op → Bool
  | .wait | .waitTimeout _ _ => true
  | .init _ _ | .signal | .signalAll | .reset => false

def isPass : Monitor.Event τ Op CondVar Reply → Bool
  | .returned _ op r => isWait op && r == success op
  | _ => false

def isSignal : Monitor.Event τ Op CondVar Reply → Bool
  | .returned _ .signal _ => true
  | _ => false

-- What a body other than a signal leaves of the one pass that a set event is worth.
structure Spends (s : World) (op : Op) (r : Reply) (s' : World) : Prop where
  auto : s'.event.autoReset = true
  bound : (if isWait op && r == success op then 1 else 0) + s'.event.signalled.toNat ≤
    s.event.signalled.toNat + (if op = .signal then 1 else 0)

theorem consume_of_auto (h : s.event.autoReset = true) : s.consume = s.setSignalled false := by
  rw [World.consume, if_pos h]

theorem wait_returns (hop : isWait op = true) (h : program.body op s = .done r s' w) :
    (r = success op ∧ s.event.signalled = true ∧ s' = s.consume ∧ w = none) ∨
      (r ≠ success op ∧ s.event.signalled = false ∧ s' = s ∧ w = none) := by
  cases op with
  | init _ _ | signal | signalAll | reset => cases hop
  | wait =>
    change osWaitEvent s = _ at h
    rw [osWaitEvent] at h
    split at h
    next hsig =>
      cases h
      exact .inl ⟨rfl, hsig, rfl, rfl⟩
    next => cases h
  | waitTimeout timeout deadline =>
    change osWaitEventWithTimeout s deadline = _ at h
    rw [osWaitEventWithTimeout] at h
    split at h
    next hsig =>
      cases h
      exact .inl ⟨rfl, hsig, rfl, rfl⟩
    next hsig =>
      split at h
      next =>
        cases h
        exact .inr ⟨(by rintro ⟨⟩), eq_false_of_ne_true hsig, rfl, rfl⟩
      next => cases h

theorem sleep_unsignalled {cv : CondVar} (h : program.body op s = .sleep cv) :
    s.event.signalled = false := by
  cases op with
  | init _ _ | signal | signalAll | reset => cases h
  | wait =>
    change osWaitEvent s = _ at h
    rw [osWaitEvent] at h
    split at h
    next => cases h
    next hsig => exact eq_false_of_ne_true hsig
  | waitTimeout timeout deadline =>
    change osWaitEventWithTimeout s deadline = _ at h
    rw [osWaitEventWithTimeout] at h
    split at h
    next => cases h
    next hsig => exact eq_false_of_ne_true hsig

theorem body_spends (hop : SignalsResetsWaits op) (hauto : s.event.autoReset = true)
    (h : program.body op s = .done r s' w) : Spends s op r s' := by
  cases op with
  | init _ _ | signalAll => exact hop.elim
  | signal =>
    cases h
    exact ⟨hauto, by simp [isWait, World.setSignalled]⟩
  | reset =>
    cases h
    exact ⟨hauto, by simp [isWait, World.setSignalled]⟩
  | wait | waitTimeout _ _ =>
    rcases wait_returns rfl h with ⟨rfl, hsig, rfl, -⟩ | ⟨hr, hsig, rfl, -⟩
    · rw [consume_of_auto hauto]
      exact ⟨hauto, by simp [isWait, hsig, World.setSignalled]⟩
    · exact ⟨hauto, by simp [isWait, hsig, hr]⟩

theorem step_passes (hs : Step program c e d) (hauto : c.shared.event.autoReset = true)
    (hruns : ∀ t, (c.status t).Runs SignalsResetsWaits) :
    d.shared.event.autoReset = true ∧
      [e].countP isPass + d.shared.event.signalled.toNat ≤
        c.shared.event.signalled.toNat + [e].countP isSignal := by
  cases hs with
  | call | slept | timedOut => exact ⟨hauto, by simp [isPass, isSignal]⟩
  | environment henv =>
    obtain ⟨hevent, -⟩ := henv
    refine ⟨hevent ▸ hauto, ?_⟩
    simp [isPass, isSignal, hevent]
  | @returned t op r s w st hready hbody hwakes =>
    have hspend := body_spends (hready.runs (hruns t)) hauto hbody
    refine ⟨hspend.auto, ?_⟩
    have hsignal : isSignal (.returned t op r : Monitor.Event τ Op CondVar Reply) =
        decide (op = .signal) := by
      cases op <;> rfl
    simpa [List.countP_cons, isPass, hsignal] using hspend.bound

theorem run_passes (run : Run program start es c) (hcalls : OnlyCalls SignalsResetsWaits es)
    (hruns : ∀ t, (start.status t).Runs SignalsResetsWaits)
    (hauto : start.shared.event.autoReset = true) :
    c.shared.event.autoReset = true ∧
      es.countP isPass + c.shared.event.signalled.toNat ≤
        start.shared.event.signalled.toNat + es.countP isSignal := by
  induction run with
  | nil => exact ⟨hauto, by simp⟩
  | @snoc es c d e run hs ih =>
    have hbefore : OnlyCalls SignalsResetsWaits es := fun t op he =>
      hcalls t op (List.mem_append_left _ he)
    obtain ⟨hauto', hcount⟩ := ih hbefore
    obtain ⟨hauto'', hstep⟩ := step_passes hs hauto' (Run.runs run hbefore hruns)
    refine ⟨hauto'', ?_⟩
    rw [List.countP_append, List.countP_append]
    omega

-- Whoever sleeps through a set event has someone awake to look at it.
def Attended (c : Config τ World Op CondVar) : Prop :=
  c.shared.event.signalled = true → SomeoneAsleep .cond c.status →
    ∃ u, (c.status u).WokenOn .cond

omit [DecidableEq τ] in
theorem attended_of_woken {op : Op} {cv : CondVar} {u : τ} (hu : c.status u = .woken op cv) :
    Attended c := fun _ _ => ⟨u, Status.wokenOn_iff.2 ⟨op, hu⟩⟩

theorem Attended.update {s : Status Op CondVar} (h : Attended c) (hidle : c.status t = .idle)
    (hs : ¬s.AsleepOn .cond) : Attended { c with status := Function.update c.status t s } := by
  intro hsig hsleep
  obtain ⟨u, hu⟩ := h hsig (hsleep.of_update hs)
  refine ⟨u, ?_⟩
  have hne : u ≠ t := by
    rintro rfl
    rw [hidle] at hu
    exact hu
  change (Function.update c.status t s u).WokenOn .cond
  rwa [Function.update_of_ne hne]

theorem wakes_one_woken {st st' : τ → Status Op CondVar} (h : Wakes (some (.one .cond)) st st')
    (hsleep : SomeoneAsleep .cond st') : ∃ u, (st' u).WokenOn .cond := by
  cases h with
  | @one _ u op _ hu =>
    refine ⟨u, ?_⟩
    rw [Function.update_self]
    rfl
  | nobody hnone =>
    obtain ⟨u, hu⟩ := hsleep
    exact absurd hu (hnone u)

theorem step_attended (hs : Step program c e d) (hauto : c.shared.event.autoReset = true)
    (hruns : ∀ t, (c.status t).Runs SignalsResetsWaits) (hc : Attended c) : Attended d := by
  cases hs with
  | call hidle _ => exact hc.update hidle id
  | @slept t op cv _ hbody =>
    intro hsig
    exact absurd hsig (ne_true_of_eq_false (sleep_unsignalled hbody))
  | @timedOut t op cv _ _ => exact attended_of_woken (Function.update_self t _ _)
  | environment henv =>
    obtain ⟨hevent, -⟩ := henv
    intro hsig
    refine hc ?_
    rwa [← hevent]
  | @returned t op r s w st hready hbody hwakes =>
    have hop := hready.runs (hruns t)
    intro hsig hsleep
    cases op with
    | init _ _ | signalAll => exact hop.elim
    | reset =>
      cases hbody
      cases hsig
    | signal =>
      cases hbody
      rw [hauto, if_pos rfl] at hwakes
      exact wakes_one_woken hwakes hsleep
    | wait | waitTimeout _ _ =>
      rcases wait_returns rfl hbody with ⟨-, -, rfl, -⟩ | ⟨-, hclear, rfl, -⟩
      · rw [consume_of_auto hauto] at hsig
        cases hsig
      · exact absurd hsig (ne_true_of_eq_false hclear)

theorem run_attended (run : Run program start es c) (hcalls : OnlyCalls SignalsResetsWaits es)
    (hruns : ∀ t, (start.status t).Runs SignalsResetsWaits)
    (hauto : start.shared.event.autoReset = true) (h0 : Attended start) : Attended c := by
  induction run with
  | nil => exact h0
  | @snoc es c d e run hs ih =>
    have hbefore : OnlyCalls SignalsResetsWaits es := fun t op he =>
      hcalls t op (List.mem_append_left _ he)
    have hauto' := (run_passes run hbefore hruns hauto).1
    exact step_attended hs hauto' (Run.runs run hbefore hruns) (ih hbefore)

omit [DecidableEq τ] in
theorem not_isSignal_of_isPass (h : isPass e = true) : isSignal e = false := by
  cases e with
  | call | slept | timedOut | environment => cases h
  | returned t op r => cases op <;> first | rfl | cases h

theorem pass_takes_signal (hs : Step program c e d) (hauto : c.shared.event.autoReset = true)
    (hruns : ∀ t, (c.status t).Runs SignalsResetsWaits) (he : isPass e = true) :
    1 + d.shared.event.signalled.toNat ≤ c.shared.event.signalled.toNat := by
  have hcount := (step_passes hs hauto hruns).2
  rw [List.countP_singleton, List.countP_singleton, if_pos he, not_isSignal_of_isPass he] at hcount
  simpa using hcount

theorem signal_between {before between after : List (Monitor.Event τ Op CondVar Reply)}
    {e e' : Monitor.Event τ Op CondVar Reply}
    (run : Run program start (before ++ e :: between ++ e' :: after) c)
    (hcalls : OnlyCalls SignalsResetsWaits (before ++ e :: between ++ e' :: after))
    (hruns : ∀ t, (start.status t).Runs SignalsResetsWaits)
    (hauto : start.shared.event.autoReset = true) (he : isPass e = true) (he' : isPass e' = true) :
    ∃ x ∈ between, isSignal x = true := by
  rw [List.append_assoc, List.cons_append] at run hcalls
  obtain ⟨c₁, run₁, rest⟩ := run.of_append
  obtain ⟨c₂, hstep, rest⟩ := rest.of_cons
  obtain ⟨c₃, run₃, rest⟩ := rest.of_append
  obtain ⟨c₄, hstep', -⟩ := rest.of_cons
  have hbefore : OnlyCalls SignalsResetsWaits before := fun t op hmem => hcalls t op (by simp [hmem])
  have hruns₁ := Run.runs run₁ hbefore hruns
  have hauto₁ := (run_passes run₁ hbefore hruns hauto).1
  have hauto₂ := (step_passes hstep hauto₁ hruns₁).1
  have hfirst := pass_takes_signal hstep hauto₁ hruns₁ he
  have hruns₂ := hstep.runs (fun t op h => hcalls t op (by simp [h])) hruns₁
  have hbetween : OnlyCalls SignalsResetsWaits between := fun t op hmem =>
    hcalls t op (by simp [hmem])
  obtain ⟨hauto₃, hmid⟩ := run_passes run₃ hbetween hruns₂ hauto₂
  have hlast := pass_takes_signal hstep' hauto₃ (Run.runs run₃ hbetween hruns₂) he'
  have hle : c₁.shared.event.signalled.toNat ≤ 1 := Bool.toNat_le _
  refine List.countP_pos_iff.1 ?_
  omega

theorem auto_reset_one_pass_per_signal {s s₀ : World} {value : Int32}
    (hinit : program.body (.init value .auto) s = .done r s₀ w)
    (run : Run program ⟨s₀, fun _ => .idle⟩ es c) (hcalls : OnlyCalls SignalsResetsWaits es) :
    es.countP isPass ≤ (if value ≠ 0 then 1 else 0) + es.countP isSignal ∧
      (∀ before e between e' after, es = before ++ e :: between ++ e' :: after →
        isPass e = true → isPass e' = true → ∃ x ∈ between, isSignal x = true) ∧
      (∀ t timeout deadline d,
        Step program c (.returned t (.waitTimeout timeout deadline) (.ret 0)) d →
          d = { c with status := Function.update c.status t .idle }) ∧
      (c.shared.event.signalled = true → (∃ u, (c.status u).AsleepOn .cond) →
        ∃ u, (c.status u).WokenOn .cond) := by
  cases hinit
  have hruns : ∀ t : τ, ((fun _ => .idle : τ → Status Op CondVar) t).Runs SignalsResetsWaits :=
    fun _ => trivial
  refine ⟨?_, ?_, ?_, ?_⟩
  · have hcount := (run_passes run hcalls hruns rfl).2
    have hstart : (value != 0).toNat = if value ≠ 0 then 1 else 0 := by
      by_cases hv : value = 0 <;> simp [hv]
    simp only [hstart] at hcount
    omega
  · rintro before e between e' after rfl he he'
    exact signal_between run hcalls hruns rfl he he'
  · intro t timeout deadline d hstep
    cases hstep with
    | returned hready hbody hwakes =>
      rcases wait_returns rfl hbody with ⟨hr, -⟩ | ⟨-, -, rfl, rfl⟩
      · cases hr
      · cases hwakes
        rfl
  · refine run_attended run hcalls hruns rfl ?_
    rintro - ⟨u, hu⟩
    exact hu.elim

-- Thread `true` sleeps, thread `false` signals once, and `true` gets through.
theorem auto_reset_one_pass_per_signal_hand_off :
    ∃ (es : List (Monitor.Event Bool Op CondVar Reply)) (c : Config Bool World Op CondVar),
      Run program ⟨⟨⟨false, true⟩, 0⟩, fun _ => .idle⟩ es c ∧ es.countP isPass = 1 ∧
        es.countP isPass ≤ 0 + es.countP isSignal := by
  have h0 : Run program ⟨⟨⟨false, true⟩, 0⟩, fun _ : Bool => .idle⟩ [] _ := .nil
  have h1 := h0.snoc (e := .call true .wait) (.call rfl (by trivial))
  have h2 := h1.snoc (e := .slept true .wait .cond) (.slept (.inl rfl) rfl)
  have h3 := h2.snoc (e := .call false .signal) (.call rfl (by trivial))
  have h4 := h3.snoc (e := .returned false .signal .void)
    (.returned (.inl rfl) rfl (.one (u := true) rfl))
  have h5 := h4.snoc (e := .returned true .wait .void) (.returned (.inr ⟨.cond, rfl⟩) rfl (.none _))
  have hinit : program.body (.init 0 .auto) ⟨⟨false, false⟩, 0⟩ = .done .void _ none := rfl
  refine ⟨_, _, h5, rfl, (auto_reset_one_pass_per_signal hinit h5 fun t op h => ?_).1⟩
  simp only [List.nil_append, List.cons_append, List.mem_cons, List.not_mem_nil, or_false] at h
  rcases h with h | h | h | h | h <;> cases h <;> trivial

end CoreinitNx.Event
