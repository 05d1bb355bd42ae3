import CoreinitNx.Mutex.Initialise

namespace CoreinitNx.Mutex

variable {τ κ : Type} [DecidableEq τ]

-- What a whole call does to the mutex when no other thread runs meanwhile.
def HostMutex.lockBy (h : HostMutex τ) (t : τ) : Option (HostMutex τ) :=
  if h.lock = some t then some { h with count := h.count + 1 }
  else if h.lock = none then some ⟨some t, 1⟩
  else none

def HostMutex.tryLockBy (h : HostMutex τ) (t : τ) : Int32 × HostMutex τ :=
  if h.lock = some t then (1, { h with count := h.count + 1 })
  else if h.lock = none then (1, ⟨some t, 1⟩)
  else (0, h)

def HostMutex.unlockBy (h : HostMutex τ) (t : τ) : HostMutex τ :=
  if h.lock = some t then
    if h.count - 1 = 0 then ⟨none, h.count - 1⟩ else { h with count := h.count - 1 }
  else h

variable [DecidableEq κ] {s s' s'' : State τ κ} {t u : τ} {op : Op κ} {reply : Option Reply}

-- The steps of `t` alone, from its call to the one that returns.
inductive Alone (t : τ) : State τ κ → Reply → State τ κ → Prop
  | last {s s' : State τ κ} {r : Reply} : advance s t = some (some r, s') → Alone t s r s'
  | more {s s' s'' : State τ κ} {r : Reply} : advance s t = some (none, s') → Alone t s' r s'' →
      Alone t s r s''

def EndsWith (t : τ) (s : State τ κ) (r : Reply) (host : HostMutex τ) : Prop :=
  ∃ s', Alone t s r s' ∧ s'.host = host

theorem Alone.run {r : Reply} (h : Alone t s r s') :
    ∃ n, Transition.Run Step s (List.replicate n (.run t none) ++ [.run t (some r)]) s' := by
  induction h with
  | last h => exact ⟨0, .single (.run h)⟩
  | more h _ ih =>
    obtain ⟨n, run⟩ := ih
    exact ⟨n + 1, run.cons (.run h)⟩

variable {r : Reply} {host : HostMutex τ}

theorem EndsWith.last (hs : advance s t = some (some r, s')) (hhost : s'.host = host) :
    EndsWith t s r host := ⟨s', .last hs, hhost⟩

theorem EndsWith.more (hs : advance s t = some (none, s')) (h : EndsWith t s' r host) :
    EndsWith t s r host := by
  obtain ⟨s'', halone, hhost⟩ := h
  exact ⟨s'', .more hs halone, hhost⟩

theorem storing_ends {count : UInt32} (hpc : s.pc t = .storing op count) :
    EndsWith t s (success op) { s.host with count } := by
  have hstep : advance s t = some (some (success op),
      ((s.setCount count).setDepth t (s.depth t + 1)).goto t .idle) := by simp only [advance, hpc]
  exact .last hstep rfl

theorem incrementing_ends (hpc : s.pc t = .incrementing op) :
    EndsWith t s (success op) { s.host with count := s.host.count + 1 } := by
  have hstep : advance s t = some (none, s.goto t (.storing op (s.host.count + 1))) := by
    simp only [advance, hpc]
  exact .more hstep (storing_ends (State.goto_pc_self _ _ _))

theorem acquired_ends (hpc : s.pc t = .acquired op) :
    EndsWith t s (success op) { s.host with count := 1 } := by
  have hstep : advance s t = some (some (success op), (s.setCount 1).goto t .idle) := by
    simp only [advance, hpc]
  exact .last hstep rfl

theorem acquiring_ends (hpc : s.pc t = .acquiring) (hfree : s.host.lock = none) :
    EndsWith t s .void ⟨some t, 1⟩ := by
  have hstep : advance s t = some (none,
      ((s.setLock (some t)).setDepth t (s.depth t + 1)).goto t (.acquired .lock)) := by
    simp only [advance, hpc, hfree, if_true]
  exact .more hstep (acquired_ends (State.goto_pc_self _ _ _))

theorem trying_ends (hpc : s.pc t = .trying) (hfree : s.host.lock = none) :
    EndsWith t s (.ret 1) ⟨some t, 1⟩ := by
  have hstep : advance s t = some (none,
      ((s.setLock (some t)).setDepth t (s.depth t + 1)).goto t (.acquired .tryLock)) := by
    simp only [advance, hpc, hfree, if_true]
  exact .more hstep (acquired_ends (State.goto_pc_self _ _ _))

theorem trying_fails (hpc : s.pc t = .trying) (htaken : s.host.lock ≠ none) :
    EndsWith t s (.ret 0) s.host := by
  have hstep : advance s t = some (some (.ret 0), s.goto t .idle) := by
    simp only [advance, hpc, htaken, if_false]
  exact .last hstep rfl

theorem releasing_ends (hpc : s.pc t = .releasing) :
    EndsWith t s .void { s.host with lock := none } := by
  have hstep : advance s t = some (some .void,
      ((s.setLock none).setDepth t (s.depth t - 1)).goto t .idle) := by simp only [advance, hpc]
  exact .last hstep rfl

theorem storingLess_ends {count : UInt32} (hpc : s.pc t = .storingLess count) :
    EndsWith t s .void
      (if count = 0 then ⟨none, count⟩ else { s.host with count }) := by
  split
  next hzero =>
    have hstep : advance s t = some (none, (s.setCount count).goto t .releasing) := by
      simp only [advance, hpc, hzero, if_true]
    exact .more hstep (releasing_ends (State.goto_pc_self _ _ _))
  next hne =>
    have hstep : advance s t = some (some .void,
        ((s.setCount count).setDepth t (s.depth t - 1)).goto t .idle) := by
      simp only [advance, hpc, hne, if_false]
    exact .last hstep rfl

theorem decrementing_ends (hpc : s.pc t = .decrementing) :
    EndsWith t s .void (if s.host.count - 1 = 0 then ⟨none, s.host.count - 1⟩
      else { s.host with count := s.host.count - 1 }) := by
  have hstep : advance s t = some (none, s.goto t (.storingLess (s.host.count - 1))) := by
    simp only [advance, hpc]
  exact .more hstep (storingLess_ends (State.goto_pc_self _ _ _))

theorem lock_ends (hpc : s.pc t = .entering .lock) (h : s.host.lockBy t = some host) :
    EndsWith t s .void host := by
  rw [HostMutex.lockBy] at h
  split at h
  next hown =>
    cases h
    have hstep : advance s t = some (none, s.goto t (.incrementing .lock)) := by
      simp only [advance, hpc, enter, osLockMutex, hown, if_true]
    exact .more hstep (incrementing_ends (State.goto_pc_self _ _ _))
  next hother =>
    split at h
    next hfree =>
      cases h
      have hstep : advance s t = some (none, s.goto t .acquiring) := by
        simp only [advance, hpc, enter, osLockMutex, hother, if_false]
      exact .more hstep (acquiring_ends (State.goto_pc_self _ _ _) hfree)
    next => cases h

theorem tryLock_ends (hpc : s.pc t = .entering .tryLock) :
    EndsWith t s (.ret (s.host.tryLockBy t).1) (s.host.tryLockBy t).2 := by
  rw [HostMutex.tryLockBy]
  split
  next hown =>
    have hstep : advance s t = some (none, s.goto t (.incrementing .tryLock)) := by
      simp only [advance, hpc, enter, osTryLockMutex, hown, if_true]
    exact .more hstep (incrementing_ends (State.goto_pc_self _ _ _))
  next hother =>
    have hstep : advance s t = some (none, s.goto t .trying) := by
      simp only [advance, hpc, enter, osTryLockMutex, hother, if_false]
    split
    next hfree => exact .more hstep (trying_ends (State.goto_pc_self _ _ _) hfree)
    next htaken => exact .more hstep (trying_fails (State.goto_pc_self _ _ _) htaken)

theorem unlock_ends (hpc : s.pc t = .entering .unlock) :
    EndsWith t s .void (s.host.unlockBy t) := by
  rw [HostMutex.unlockBy]
  split
  next hown =>
    have hstep : advance s t = some (none, s.goto t .decrementing) := by
      simp only [advance, hpc, enter, osUnlockMutex, hown, if_true]
    exact .more hstep (decrementing_ends (State.goto_pc_self _ _ _))
  next hother =>
    have hstep : advance s t = some (some .void, s.goto t .idle) := by
      simp only [advance, hpc, enter, osUnlockMutex, hother, if_false]
    exact .last hstep rfl

theorem advance_returns {r : Reply} (h : advance s t = some (some r, s')) : s'.pc t = .idle := by
  have hstep := advance_cases h
  generalize s.pc t = pc at hstep
  cases hstep with
  | signal c => exact Function.update_self t _ fun u => (s.pc u).wake c
  | _ => exact State.goto_pc_self _ _ _

theorem Alone.idle (h : Alone t s r s') : s'.pc t = .idle := by
  induction h with
  | last h => exact advance_returns h
  | more _ _ ih => exact ih

-- Called with no other thread running, each call has the effect given above.
theorem call_ends (hidle : s.pc t = .idle) (hallowed : Allowed s t op)
    (h : EndsWith t (s.goto t (.entering op)) r host) :
    ∃ n s', Transition.Run Step s
        (.call t op :: (List.replicate n (.run t none) ++ [.run t (some r)])) s' ∧
      s'.host = host ∧ s'.pc t = .idle := by
  obtain ⟨s', halone, hhost⟩ := h
  obtain ⟨n, run⟩ := halone.run
  exact ⟨n, s', run.cons (.call hidle hallowed), hhost, halone.idle⟩

end CoreinitNx.Mutex
