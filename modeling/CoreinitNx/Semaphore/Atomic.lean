import CoreinitNx.Library.Critical
import CoreinitNx.Semaphore.Basic

namespace CoreinitNx.Semaphore

open Monitor

-- Where a thread is between `mutexLock` and `mutexUnlock`, with its local `previous`.
inductive Line where
  | setCount (count : Int32)
  | readCount
  | signalRead
  | signalWrite (previous : Int32)
  | wakeAll (previous : Int32)
  | waitTest
  | waitRead
  | waitWrite (previous : Int32)
  | tryRead
  | tryTest (previous : Int32)
  | tryWrite (previous : Int32)
  | leave (reply : Reply)
deriving DecidableEq, Repr

def enter : Op → Line
  | .init count => .setCount count
  | .getCount => .readCount
  | .signal => .signalRead
  | .wait => .waitTest
  | .tryWait => .tryRead

def statement (s : HostSemaphore) : Line → Option (Act HostSemaphore CondVar Reply Line)
  | .setCount count => some (.access ⟨count⟩ (.leave .void))
  | .readCount => some (.access s (.leave (.ret s.count)))
  | .signalRead => some (.access s (.signalWrite s.count))
  | .signalWrite previous =>
    if previous = Int32.maxValue then none else some (.access ⟨previous + 1⟩ (.wakeAll previous))
  | .wakeAll previous => some (.wake (.all .cond) (.leave (.ret previous)))
  | .waitTest => if s.count ≤ 0 then some (.wait .cond) else some (.access s .waitRead)
  | .waitRead => some (.access s (.waitWrite s.count))
  | .waitWrite previous => some (.access ⟨previous - 1⟩ (.leave (.ret previous)))
  | .tryRead => some (.access s (.tryTest s.count))
  | .tryTest previous =>
    if s.count > 0 then some (.access s (.tryWrite previous))
    else some (.access s (.leave (.ret previous)))
  | .tryWrite previous => some (.access ⟨s.count - 1⟩ (.leave (.ret previous)))
  | .leave reply => some (.unlock reply)

def code : Code HostSemaphore Op CondVar Reply Line where
  early _ := none
  enter := enter
  act l s := statement s l
  starts _ _ := True
  timed _ := False
  env _ _ := False
  carry _ found := found

-- What is true of a thread that found `s₀` and has come to a line.
def At (op : Op) (s₀ : HostSemaphore) (s : HostSemaphore) (w : Option (Wake CondVar)) : Line → Prop
  | .setCount count => op = .init count ∧ s = s₀ ∧ w = none
  | .readCount => op = .getCount ∧ s = s₀ ∧ w = none
  | .signalRead => op = .signal ∧ s = s₀ ∧ w = none
  | .signalWrite previous => op = .signal ∧ s = s₀ ∧ w = none ∧ previous = s₀.count
  | .wakeAll previous =>
    op = .signal ∧ s₀.count ≠ Int32.maxValue ∧ s = ⟨s₀.count + 1⟩ ∧ w = none ∧ previous = s₀.count
  | .waitTest => op = .wait ∧ s = s₀ ∧ w = none
  | .waitRead => op = .wait ∧ s = s₀ ∧ w = none ∧ ¬s₀.count ≤ 0
  | .waitWrite previous => op = .wait ∧ s = s₀ ∧ w = none ∧ ¬s₀.count ≤ 0 ∧ previous = s₀.count
  | .tryRead => op = .tryWait ∧ s = s₀ ∧ w = none
  | .tryTest previous => op = .tryWait ∧ s = s₀ ∧ w = none ∧ previous = s₀.count
  | .tryWrite previous =>
    op = .tryWait ∧ s = s₀ ∧ w = none ∧ s₀.count > 0 ∧ previous = s₀.count
  | .leave reply => program.body op s₀ = .done reply s w

variable {op : Op} {s₀ s : HostSemaphore} {w : Option (Wake CondVar)} {l : Line}

theorem at_enter (op : Op) (s : HostSemaphore) : At op s s none (enter op) := by
  cases op with
  | init count => exact ⟨rfl, rfl, rfl⟩
  | getCount | signal | wait | tryWait => exact ⟨rfl, rfl, rfl⟩

theorem At.access {s' : HostSemaphore} {l' : Line} (h : At op s₀ s w l)
    (hact : statement s l = some (.access s' l')) : At op s₀ s' w l' := by
  cases l with
  | setCount count =>
    obtain ⟨rfl, rfl, rfl⟩ := h
    cases hact
    rfl
  | readCount =>
    obtain ⟨rfl, rfl, rfl⟩ := h
    cases hact
    rfl
  | signalRead =>
    obtain ⟨rfl, rfl, rfl⟩ := h
    cases hact
    exact ⟨rfl, rfl, rfl, rfl⟩
  | signalWrite previous =>
    obtain ⟨rfl, rfl, rfl, rfl⟩ := h
    rw [statement] at hact
    split at hact
    next => cases hact
    next hmax =>
      cases hact
      exact ⟨rfl, hmax, rfl, rfl, rfl⟩
  | wakeAll previous => cases hact
  | waitTest =>
    obtain ⟨rfl, rfl, rfl⟩ := h
    rw [statement] at hact
    split at hact
    next => cases hact
    next hpos =>
      cases hact
      exact ⟨rfl, rfl, rfl, hpos⟩
  | waitRead =>
    obtain ⟨rfl, rfl, rfl, hpos⟩ := h
    cases hact
    exact ⟨rfl, rfl, rfl, hpos, rfl⟩
  | waitWrite previous =>
    obtain ⟨rfl, rfl, rfl, hpos, rfl⟩ := h
    cases hact
    exact if_neg hpos
  | tryRead =>
    obtain ⟨rfl, rfl, rfl⟩ := h
    cases hact
    exact ⟨rfl, rfl, rfl, rfl⟩
  | tryTest previous =>
    obtain ⟨rfl, rfl, rfl, rfl⟩ := h
    rw [statement] at hact
    split at hact
    next hpos =>
      cases hact
      exact ⟨rfl, rfl, rfl, hpos, rfl⟩
    next hzero =>
      cases hact
      change osTryWaitSemaphore s = _
      rw [osTryWaitSemaphore, if_neg hzero]
  | tryWrite previous =>
    obtain ⟨rfl, rfl, rfl, hpos, rfl⟩ := h
    cases hact
    change osTryWaitSemaphore s = _
    rw [osTryWaitSemaphore, if_pos hpos]
  | leave reply => cases hact

theorem At.wake {w' : Wake CondVar} {l' : Line} (h : At op s₀ s w l)
    (hact : statement s l = some (.wake w' l')) : w = none ∧ At op s₀ s (some w') l' := by
  cases l with
  | wakeAll previous =>
    obtain ⟨rfl, hmax, rfl, rfl, rfl⟩ := h
    cases hact
    exact ⟨rfl, if_neg hmax⟩
  | signalWrite | waitTest | tryTest =>
    rw [statement] at hact
    split at hact <;> cases hact
  | _ => cases hact

theorem reaches_at (h : Reaches code op s₀ l s w) : At op s₀ s w l := by
  induction h with
  | enter s => exact at_enter op s
  | statement _ hact ih => exact ih.access hact
  | wake _ hact ih => exact (ih.wake hact).2
  | environment _ henv => exact henv.elim

theorem At.unlock {r : Reply} (h : At op s₀ s w l) (hact : statement s l = some (.unlock r)) :
    program.body op s₀ = .done r s w := by
  cases l with
  | leave reply =>
    cases hact
    exact h
  | signalWrite | waitTest | tryTest =>
    rw [statement] at hact
    split at hact <;> cases hact
  | _ => cases hact

theorem At.wait {cv : CondVar} (h : At op s₀ s w l) (hact : statement s l = some (.wait cv)) :
    s = s₀ ∧ w = none ∧ program.body op s₀ = .sleep cv := by
  cases l with
  | waitTest =>
    obtain ⟨rfl, rfl, rfl⟩ := h
    rw [statement] at hact
    split at hact
    next hle =>
      cases hact
      exact ⟨rfl, rfl, if_pos hle⟩
    next => cases hact
  | signalWrite | tryTest =>
    rw [statement] at hact
    split at hact <;> cases hact
  | _ => cases hact

theorem At.fault (h : At op s₀ s w l) (hact : statement s l = none) :
    program.body op s₀ = .fault := by
  cases l with
  | signalWrite previous =>
    obtain ⟨rfl, rfl, rfl, rfl⟩ := h
    rw [statement] at hact
    split at hact
    next hmax => exact if_pos hmax
    next => cases hact
  | waitTest | tryTest =>
    rw [statement] at hact
    split at hact <;> cases hact
  | _ => cases hact

theorem code_implements : Implements code program where
  starts _ _ := id
  starts_inside _ _ := trivial
  timed _ := id
  env _ _ := id
  env_inside _ := False.elim
  early _ _ := nofun
  unlock _ h hact := (reaches_at h).unlock hact
  wait _ h hact := (reaches_at h).wait hact
  wake _ h hact := ((reaches_at h).wake hact).1
  fault _ h hact := (reaches_at h).fault hact

variable {τ : Type} [DecidableEq τ] {es : List (FineEvent τ Op CondVar Reply)}
  {c : Fine τ HostSemaphore Op CondVar Line}

-- However the statements of the calls interleave, their answers and the order they come in are
-- those of a counter whose calls are one step each, and its count is the one under the lock.
theorem semaphore_is_atomic
    (run : Transition.Run (FineStep code) ⟨s₀, fun _ => .idle, none⟩ es c) :
    ∃ counter : HostSemaphore,
      Transition.Run (ObjectStep program) ⟨s₀, fun _ => none⟩ (es.filterMap FineEvent.seen)
        ⟨counter, fun t => (c.status t).pending⟩ ∧
      (c.inside = none → counter = c.shared) := by
  obtain ⟨hinv, es', hrun, hseen⟩ := code_implements.run run rfl
  refine ⟨c.view.shared, ?_, fun hfree => ?_⟩
  · rw [← hseen, ← hinv.object]
    exact Program.run_object (fun _ _ => id) hrun
  · rw [c.view_free hfree]

-- A try comes between the two halves of `count++`, and takes what the waiter is woken up for.
theorem semaphore_is_atomic_halfway :
    ∃ (counter : HostSemaphore) (pending : Fin 3 → Option Op),
      Transition.Run (ObjectStep program) ⟨⟨0⟩, fun _ => none⟩
        [.call 0 .wait, .call 1 .signal, .call 2 .tryWait, .returned 1 .signal (.ret 0),
          .returned 2 .tryWait (.ret 1)] ⟨counter, pending⟩ ∧ counter = ⟨0⟩ := by
  have h0 : Transition.Run (FineStep code) ⟨⟨0⟩, fun _ : Fin 3 => .idle, none⟩ [] _ := .nil
  have h1 := h0.snoc (e := .call 0 .wait) (.call rfl trivial)
  have h2 := h1.snoc (e := .acquire 0 .wait) (.acquire rfl (.inl rfl) rfl)
  have h3 := h2.snoc (.slept rfl rfl)
  have h4 := h3.snoc (e := .call 1 .signal) (.call rfl trivial)
  have h5 := h4.snoc (e := .acquire 1 .signal) (.acquire rfl (.inl rfl) rfl)
  have h6 := h5.snoc (.statement rfl rfl)
  have h7 := h6.snoc (e := .call 2 .tryWait) (.call rfl trivial)
  have h8 := h7.snoc (.statement rfl rfl)
  have h9 := h8.snoc (.wake rfl rfl (.all _ _))
  have h10 := h9.snoc (.returned rfl rfl)
  have h11 := h10.snoc (e := .acquire 2 .tryWait) (.acquire rfl (.inl rfl) rfl)
  have h12 := h11.snoc (.statement rfl rfl)
  have h13 := h12.snoc (.statement rfl rfl)
  have h14 := h13.snoc (.statement rfl rfl)
  have h15 := h14.snoc (.returned rfl rfl)
  obtain ⟨counter, hrun, hcount⟩ := semaphore_is_atomic h15
  exact ⟨counter, _, hrun, hcount rfl⟩

end CoreinitNx.Semaphore
