import CoreinitNx.Event.AutoReset

namespace CoreinitNx.Event

open Monitor

def KeepsMode : Op → Prop
  | .init _ _ => False
  | .signal | .signalAll | .wait | .reset | .waitTimeout _ _ => True

variable {τ : Type}

-- The gate that the finished signals and resets leave, whatever the waits did.
def turn (gate : Bool) : Monitor.Event τ Op CondVar Reply → Bool
  | .returned _ .signal _ | .returned _ .signalAll _ => true
  | .returned _ .reset _ => false
  | _ => gate

def gateAfter (gate : Bool) (es : List (Monitor.Event τ Op CondVar Reply)) : Bool :=
  es.foldl turn gate

theorem gateAfter_concat (gate : Bool) (es : List (Monitor.Event τ Op CondVar Reply))
    (e : Monitor.Event τ Op CondVar Reply) :
    gateAfter gate (es ++ [e]) = turn (gateAfter gate es) e := by
  rw [gateAfter, List.foldl_append]
  rfl

variable [DecidableEq τ] {es : List (Monitor.Event τ Op CondVar Reply)}
  {e : Monitor.Event τ Op CondVar Reply} {start c d : Config τ World Op CondVar} {t : τ} {op : Op}
  {s s' : World} {r : Reply} {w : Option (Wake CondVar)}

-- In manual mode: a signal opens the gate and wakes everybody, and no wait touches it.
structure Gate (c : Config τ World Op CondVar) : Prop where
  manual : c.shared.event.autoReset = false
  runs : ∀ t, (c.status t).Runs KeepsMode
  nobody : c.shared.event.signalled = true → ∀ u, ¬(c.status u).AsleepOn .cond

theorem not_asleepOn_update {st : τ → Status Op CondVar} {x : Status Op CondVar}
    (hst : ∀ u, ¬(st u).AsleepOn .cond) (hx : ¬x.AsleepOn .cond) (u : τ) :
    ¬(Function.update st t x u).AsleepOn .cond :=
  forall_update (K := fun st => ¬st.AsleepOn CondVar.cond) hst hx u

theorem Gate.signalled (h : Gate c) (ht : (c.status t).Ready op)
    (hb : program.body op c.shared = .done r s w) (st : τ → Status Op CondVar)
    (hw : Wakes w (Function.update c.status t .idle) st) :
    s.event.autoReset = false ∧
      s.event.signalled = turn c.shared.event.signalled (.returned t op r) ∧
      (s.event.signalled = true → ∀ u, ¬(st u).AsleepOn .cond) := by
  have hmode := h.manual
  have hidle (hsig : c.shared.event.signalled = true) (u : τ) :
      ¬(Function.update c.status t .idle u).AsleepOn .cond :=
    not_asleepOn_update (h.nobody hsig) id u
  cases op with
  | init value mode => exact (ht.runs (h.runs t)).elim
  | signal =>
    cases hb
    rw [hmode] at hw
    refine ⟨hmode, rfl, fun _ u => ?_⟩
    cases hw with
    | all => exact Status.not_asleepOn_wakeAll _ _
  | signalAll =>
    change osSignalEventAll _ = _ at hb
    rw [osSignalEventAll] at hb
    simp only [setSignalled_autoReset, hmode] at hb
    cases hb
    refine ⟨hmode, rfl, fun _ u => ?_⟩
    cases hw with
    | all => exact Status.not_asleepOn_wakeAll _ _
  | reset =>
    cases hb
    exact ⟨hmode, rfl, (by rintro ⟨⟩)⟩
  | wait | waitTimeout _ _ =>
    rcases wait_returns rfl hb with ⟨-, hsig, rfl, rfl⟩ | ⟨-, hsig, rfl, rfl⟩
    · rw [consume_of_manual hmode]
      cases hw
      exact ⟨hmode, rfl, hidle⟩
    · cases hw
      exact ⟨hmode, rfl, hidle⟩

theorem Step.gate (hs : Step program c e d) (h : Gate c)
    (hcall : ∀ t op, e = .call t op → KeepsMode op) :
    Gate d ∧ d.shared.event.signalled = turn c.shared.event.signalled e := by
  have hruns := hs.runs hcall h.runs
  cases hs with
  | @call t op hidle _ =>
    exact ⟨⟨h.manual, hruns, fun hsig => not_asleepOn_update (h.nobody hsig) id⟩, rfl⟩
  | @returned t op r s w st hready hb hw =>
    obtain ⟨h1, h2, h3⟩ := h.signalled hready hb st hw
    exact ⟨⟨h1, hruns, h3⟩, h2⟩
  | @slept t op cv hready hb =>
    have hsig := sleep_unsignalled hb
    exact ⟨⟨h.manual, hruns, fun hs => absurd (hsig.symm.trans hs) Bool.false_ne_true⟩, rfl⟩
  | @timedOut t op cv hasleep _ =>
    exact ⟨⟨h.manual, hruns, fun hsig => not_asleepOn_update (h.nobody hsig) id⟩, rfl⟩
  | environment henv =>
    obtain ⟨hevent, -⟩ := henv
    refine ⟨⟨?_, hruns, ?_⟩, ?_⟩
    · rw [hevent]
      exact h.manual
    · rw [hevent]
      exact h.nobody
    · rw [hevent]
      rfl

theorem Run.gate (run : Run program start es c) (hcalls : OnlyCalls KeepsMode es)
    (h : Gate start) :
    Gate c ∧ c.shared.event.signalled = gateAfter start.shared.event.signalled es := by
  induction run with
  | nil => exact ⟨h, rfl⟩
  | @snoc es c d e _ hs ih =>
    obtain ⟨hc, hsig⟩ := ih fun t op hmem => hcalls t op (List.mem_append_left _ hmem)
    obtain ⟨hd, hturn⟩ := Step.gate hs hc fun t op he => hcalls t op (by simp [he])
    exact ⟨hd, by rw [hturn, hsig, gateAfter_concat]⟩

theorem pass_through_open_gate (hs : Step program c e d) (he : isPass e = true) :
    c.shared.event.signalled = true := by
  cases hs with
  | call | slept | timedOut | environment => cases he
  | @returned t op r s w st hready hb hw =>
    obtain ⟨hop, hr⟩ := Bool.and_eq_true_iff.1 he
    rcases wait_returns hop hb with ⟨-, hsig, -⟩ | ⟨hfail, -⟩
    · exact hsig
    · exact absurd (beq_iff_eq.1 hr) hfail

theorem give_up_at_closed_gate {timeout : OSTime} {deadline : UInt64}
    (hs : Step program c (.returned t (.waitTimeout timeout deadline) (.ret 0)) d) :
    c.shared.event.signalled = false := by
  cases hs with
  | returned _ hb _ =>
    change osWaitEventWithTimeout c.shared deadline = _ at hb
    rw [osWaitEventWithTimeout] at hb
    split at hb
    next => cases hb
    next hsig =>
      split at hb
      next => exact eq_false_of_ne_true hsig
      next => cases hb

structure ManualGate (opened : Bool) (es : List (Monitor.Event τ Op CondVar Reply))
    (c : Config τ World Op CondVar) : Prop where
  signalled_iff : c.shared.event.signalled = gateAfter opened es
  nobody_asleep : gateAfter opened es = true → ∀ u, ¬(c.status u).AsleepOn .cond
  passes : ∀ pre e post, es = pre ++ e :: post → isPass e = true → gateAfter opened pre = true
  gives_up : ∀ pre t timeout deadline post,
    es = pre ++ .returned t (.waitTimeout timeout deadline) (.ret 0) :: post →
      gateAfter opened pre = false

-- An event in manual mode is a gate: the last signal or reset alone says whether it is open, waits
-- pass it only while it is open, and while it is open nobody is left asleep.
theorem manual_reset_is_gate {s₀ : World} {value : Int32}
    (hinit : program.body (.init value .manual) s = .done r s₀ w)
    (run : Run program ⟨s₀, fun _ => .idle⟩ es c) (hcalls : OnlyCalls KeepsMode es) :
    ManualGate (value != 0) es c := by
  cases hinit
  have hstart : Gate (τ := τ) ⟨{ s with event := ⟨value != 0, false⟩ }, fun _ => .idle⟩ :=
    ⟨rfl, fun _ => trivial, fun _ _ hf => hf⟩
  obtain ⟨hgate, hsig⟩ := Run.gate run hcalls hstart
  have cut {pre post : List (Monitor.Event τ Op CondVar Reply)} {e : Monitor.Event τ Op CondVar Reply}
      (hes : es = pre ++ e :: post) :
      ∃ c d, Step program c e d ∧ c.shared.event.signalled = gateAfter (value != 0) pre := by
    subst hes
    obtain ⟨c, hpre, hpost⟩ := run.of_append
    obtain ⟨d, hs, -⟩ := hpost.of_cons
    have hbefore : OnlyCalls KeepsMode pre := fun t op hmem =>
      hcalls t op (List.mem_append_left _ hmem)
    exact ⟨c, d, hs, (Run.gate hpre hbefore hstart).2⟩
  constructor
  case signalled_iff => exact hsig
  case nobody_asleep => exact fun ho => hgate.nobody (hsig.trans ho)
  case passes =>
    intro pre e post hes he
    obtain ⟨c, d, hs, hc⟩ := cut hes
    exact hc ▸ pass_through_open_gate hs he
  case gives_up =>
    intro pre t timeout deadline post hes
    obtain ⟨c, d, hs, hc⟩ := cut hes
    exact hc ▸ give_up_at_closed_gate hs

-- Two threads sleep at the gate, and one signal lets both through.
theorem manual_reset_is_gate_two_pass :
    ∃ (es : List (Monitor.Event (Fin 3) Op CondVar Reply)) (c : Config (Fin 3) World Op CondVar),
      Run program ⟨⟨⟨false, false⟩, 0⟩, fun _ => .idle⟩ es c ∧ es.countP isPass = 2 ∧
        es.countP isSignal = 1 ∧ ManualGate false es c := by
  have h0 : Run program ⟨⟨⟨false, false⟩, 0⟩, fun _ : Fin 3 => .idle⟩ [] _ := .nil
  have h1 := h0.snoc (e := .call 0 .wait) (.call rfl (by trivial))
  have h2 := h1.snoc (e := .slept 0 .wait .cond) (.slept (.inl rfl) rfl)
  have h3 := h2.snoc (e := .call 1 .wait) (.call rfl (by trivial))
  have h4 := h3.snoc (e := .slept 1 .wait .cond) (.slept (.inl rfl) rfl)
  have h5 := h4.snoc (e := .call 2 .signal) (.call rfl (by trivial))
  have h6 := h5.snoc (e := .returned 2 .signal .void) (.returned (.inl rfl) rfl (.all _ .cond))
  have h7 := h6.snoc (e := .returned 0 .wait .void) (.returned (.inr ⟨.cond, rfl⟩) rfl (.none _))
  have h8 := h7.snoc (e := .returned 1 .wait .void) (.returned (.inr ⟨.cond, rfl⟩) rfl (.none _))
  have hinit : program.body (.init 0 .manual) ⟨⟨false, true⟩, 0⟩ = .done .void _ none := rfl
  refine ⟨_, _, h8, rfl, rfl, manual_reset_is_gate hinit h8 fun t op h => ?_⟩
  simp only [List.nil_append, List.cons_append, List.mem_cons, List.not_mem_nil, or_false] at h
  rcases h with h | h | h | h | h | h | h | h <;> cases h <;> trivial

end CoreinitNx.Event
