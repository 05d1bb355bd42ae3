import CoreinitNx.Mutex.Answered

namespace CoreinitNx.Mutex

variable {τ κ : Type} {s s' s'' : State τ κ} {t u : τ} {pc : Pc κ} {cond : κ}
  {reply : Option Reply} {e : Event τ κ} {es : List (Event τ κ)}

-- Inside `OSWaitCond`, from the release of the lock until it is taken again.
def Pc.parked : Pc κ → Bool
  | .asleep _ _ | .woken _ _ => true
  | _ => false

def State.held (s : State τ κ) (t : τ) : Nat := if (s.pc t).parked then 0 else s.depth t

-- The thread is about to write the count, or has and is about to give the lock up.
def Pc.updating : Pc κ → Bool
  | .acquired _ | .releasing | .releasingToWait _ _ | .restoring _ _ => true
  | _ => false

def Pc.Waits (cond : κ) : Pc κ → Prop
  | .entering (.wait c) => c = cond
  | .clearing c _ | .releasingToWait c _ | .asleep c _ | .woken c _ | .restoring c _ => c = cond
  | _ => False

theorem Sound.holds_iff (h : Sound s t) :
    s.host.lock = some t ↔ 0 < s.depth t ∧ (s.pc t).parked = false := by
  rw [Sound] at h
  cases hpc : s.pc t with
  | idle =>
    rw [hpc] at h
    exact h.1.trans (and_iff_left rfl).symm
  | entering op =>
    rw [hpc] at h
    cases op with
    | wait c => exact iff_of_true h.1 ⟨h.2.1, rfl⟩
    | lock | tryLock | unlock | signal _ => exact h.1.trans (and_iff_left rfl).symm
  | incrementing _ | decrementing =>
    rw [hpc] at h
    exact iff_of_true h.1 ⟨h.2.1, rfl⟩
  | storing _ _ | storingLess _ | clearing _ _ | releasingToWait _ _ | restoring _ _ =>
    rw [hpc] at h
    exact iff_of_true h.1 ⟨h.2.1, rfl⟩
  | acquiring | trying =>
    rw [hpc] at h
    exact iff_of_false h.1 fun hpos => absurd hpos.1 (by rw [h.2]; exact Nat.lt_irrefl 0)
  | acquired _ | releasing =>
    rw [hpc] at h
    exact iff_of_true h.1 ⟨by rw [h.2]; exact Nat.one_pos, rfl⟩
  | asleep _ _ | woken _ _ =>
    rw [hpc] at h
    exact iff_of_false h.1 fun hpos => Bool.noConfusion hpos.2

theorem Sound.holds_iff_held (h : Sound s t) : s.host.lock = some t ↔ 0 < s.held t := by
  rw [h.holds_iff]
  rw [State.held]
  cases (s.pc t).parked with
  | true => exact iff_of_false (fun hp => Bool.noConfusion hp.2) (Nat.lt_irrefl 0)
  | false => exact and_iff_left rfl

theorem Sound.count_eq (h : Sound s t) (hown : s.host.lock = some t)
    (hpc : (s.pc t).updating = false) : s.host.count.toNat = s.depth t := by
  rw [Sound] at h
  cases hp : s.pc t with
  | idle =>
    rw [hp] at h
    exact h.2 hown
  | entering op =>
    rw [hp] at h
    cases op with
    | wait c => exact h.2.2
    | lock | tryLock | unlock | signal _ => exact h.2 hown
  | incrementing _ | decrementing =>
    rw [hp] at h
    exact h.2.2
  | storing _ _ | storingLess _ | clearing _ _ =>
    rw [hp] at h
    exact h.2.2.1
  | acquiring | trying | asleep _ _ | woken _ _ =>
    rw [hp] at h
    exact absurd hown h.1
  | acquired _ | releasing | releasingToWait _ _ | restoring _ _ =>
    rw [hp] at hpc
    cases hpc

variable [DecidableEq τ] [DecidableEq κ]

theorem Pc.Waits.wake (h : pc.Waits cond) (c : κ) : (pc.wake c).Waits cond := by
  rcases pc.wake_cases c with heq | ⟨saved, rfl, heq⟩
  · rw [heq]
    exact h
  · rw [heq]
    exact h

-- A step of a waiting thread keeps its depth, and ends the wait only with the lock and the count.
theorem advance_waits (hw : (s.pc t).Waits cond) (h : advance s t = some (reply, s')) :
    s'.depth t = s.depth t ∧
      (reply = none ∧ (s'.pc t).Waits cond ∨ ∃ saved, s.pc t = .restoring cond saved) := by
  have hpc {s₁ : State τ κ} (pc : Pc κ) (hpc : pc.Waits cond) :
      ((s₁.goto t pc).pc t).Waits cond := by
    rw [State.goto_pc_self]
    exact hpc
  have hstep := advance_cases h
  generalize s.pc t = pc at hw hstep ⊢
  cases hstep with
  | wait | clearing | releasingToWait | woken => exact ⟨rfl, .inl ⟨rfl, hpc _ hw⟩⟩
  | restoring c saved =>
    obtain rfl : c = cond := hw
    exact ⟨rfl, .inr ⟨saved, rfl⟩⟩
  | lockOwned | lockOther | tryOwned | tryOther | unlockOwned | unlockOther | signal | incrementing
  | storing | acquiring | trying | tryingFails | acquired | decrementing | storingZero
  | storingLess | releasing => exact hw.elim

structure WaitingAt (s : State τ κ) (t : τ) (cond : κ) (depth : Nat) : Prop where
  sound : ∀ u, Sound s u
  waits : (s.pc t).Waits cond
  depth : s.depth t = depth

theorem BoundedStep.waitingAt {n : Nat} (h : BoundedStep s e s') (hw : WaitingAt s t cond n)
    (hreply : ∀ r, e ≠ .run t (some r)) : WaitingAt s' t cond n := by
  obtain ⟨hsound, hwaits, hdepth⟩ := hw
  refine ⟨h.sound hsound, ?_, ?_⟩ <;> obtain ⟨hstep, -⟩ := h
  · cases hstep with
    | @call u op hidle _ =>
      have htu : t ≠ u := by
        rintro rfl
        rw [hidle] at hwaits
        exact hwaits
      rw [State.goto_pc_ne _ _ _ htu]
      exact hwaits
    | @run _ u reply hrun =>
      by_cases htu : t = u
      · subst htu
        rcases (advance_waits hwaits hrun).2 with ⟨-, hnext⟩ | ⟨saved, hp⟩
        · exact hnext
        · simp only [advance, hp] at hrun
          cases hrun
          exact absurd rfl (hreply .void)
      · rcases (advance_other hrun htu).2 with hsame | ⟨c, hwake⟩
        · rw [hsame]
          exact hwaits
        · rw [hwake]
          exact hwaits.wake c
  · cases hstep with
    | call => exact hdepth
    | @run _ u reply hrun =>
      by_cases htu : t = u
      · subst htu
        rw [(advance_waits hwaits hrun).1, hdepth]
      · rw [(advance_other hrun htu).1, hdepth]

omit [DecidableEq κ] in
theorem waitingAt_call (hs : ∀ u, Sound s u) (hidle : s.pc t = .idle)
    (hown : s.host.lock = some t) :
    1 ≤ s.depth t ∧ WaitingAt (s.goto t (.entering (.wait cond))) t cond (s.depth t) := by
  have hcall := hs t
  rw [Sound] at hcall
  rw [hidle] at hcall
  refine ⟨hcall.1.1 hown, sound_move hs (hcall.entering fun _ _ => hown), ?_, rfl⟩
  rw [State.goto_pc_self]
  rfl

-- The step that ends the wait leaves the lock with the waiter, at the depth it had.
theorem WaitingAt.returns {n : Nat} {r : Reply} (hw : WaitingAt s t cond n)
    (hlast : BoundedStep s (.run t (some r)) s') :
    s'.host.lock = some t ∧ s'.depth t = n ∧ s'.host.count.toNat = n := by
  obtain ⟨hstep, -⟩ := hlast
  cases hstep with
  | run hrun =>
    obtain ⟨hdepth, ⟨hnone, -⟩ | ⟨saved, hp⟩⟩ := advance_waits hw.waits hrun
    · cases hnone
    · have hat := hw.sound t
      rw [Sound] at hat
      rw [hp] at hat
      simp only [advance, hp] at hrun
      cases hrun
      exact ⟨hat.1, hdepth.trans hw.depth, hat.2.2.trans hw.depth⟩

-- A call of `OSWaitCond` by the holder, whatever the others do until it returns.
def WaitRestores (es : List (Event τ κ)) (s : State τ κ) (t : τ) (cond : κ) : Prop :=
  ∀ es' s' s'' r, Run (s.goto t (.entering (.wait cond))) es' s' →
    (∀ r, .run t (some r) ∉ es') → BoundedStep s' (.run t (some r)) s'' →
      1 ≤ locks es s t ∧ s''.host.lock = some t ∧
        locks (es ++ .call t (.wait cond) :: (es' ++ [.run t (some r)])) s'' t = locks es s t ∧
        s''.host.count.toNat = locks es s t

theorem waitRestores (run : Run State.initial es s) (hidle : s.pc t = .idle)
    (hown : s.host.lock = some t) : WaitRestores es s t cond := by
  intro es' s' s'' r run' hno hlast
  obtain ⟨hpos, hstart⟩ : 1 ≤ s.depth t ∧
      WaitingAt (s.goto t (.entering (.wait cond))) t cond (s.depth t) :=
    waitingAt_call (Run.sound run) hidle hown
  have hothers : ∀ e ∈ es', ∀ r, e ≠ Event.run t (some r) := fun e he r hr => hno r (hr ▸ he)
  have hwait : WaitingAt s' t cond (s.depth t) :=
    Transition.Run.invariant_of (I := fun s' => WaitingAt s' t cond (s.depth t)) run' hothers
      hstart fun _ _ _ he hw hstep => hstep.waitingAt hw he
  obtain ⟨hlock, hdepth, hcount⟩ := hwait.returns hlast
  have hcall : BoundedStep s (.call t (.wait cond)) (s.goto t (.entering (.wait cond))) :=
    ⟨.call hidle hown, fun u => show s.depth u < 2 ^ 32 from Run.bounded run u⟩
  have hall := Transition.Run.append run ((run'.snoc hlast).cons hcall)
  rw [← Run.depth_eq run, ← Run.depth_eq hall]
  exact ⟨hpos, hlock, hdepth, hcount⟩

-- A thread inside `OSWaitCond`, without the lock, has none of its locks for now.
def heldLocks (es : List (Event τ κ)) (s : State τ κ) (t : τ) : Nat :=
  if (s.pc t).parked then 0 else locks es s t

structure RecursiveMutex (es : List (Event τ κ)) (s : State τ κ) : Prop where
  holds_iff : ∀ t, s.host.lock = some t ↔ 0 < locks es s t ∧ (s.pc t).parked = false
  one_holder : ∀ t u, 0 < heldLocks es s t → 0 < heldLocks es s u → t = u
  count_eq : ∀ t, s.host.lock = some t → (s.pc t).updating = false →
    s.host.count.toNat = locks es s t
  unlock_other : ∀ t, s.pc t = .entering .unlock → s.host.lock ≠ some t →
    advance s t = some (some .void, s.goto t .idle)
  tryLock_other : ∀ t u, u ≠ t → 0 < heldLocks es s u →
    (s.pc t = .entering .tryLock → advance s t = some (none, s.goto t .trying)) ∧
      (s.pc t = .trying → advance s t = some (some (.ret 0), s.goto t .idle))
  wait_restores : ∀ t cond, s.pc t = .idle → s.host.lock = some t → WaitRestores es s t cond

theorem recursive_mutex (run : Run State.initial es s) : RecursiveMutex es s := by
  have hs := Run.sound run
  have hlocks (t : τ) : s.depth t = locks es s t := Run.depth_eq run t
  have hheld {t : τ} (ht : 0 < heldLocks es s t) : s.host.lock = some t := by
    rw [heldLocks, ← hlocks] at ht
    exact (hs t).holds_iff_held.2 ht
  constructor
  case holds_iff =>
    intro t
    rw [← hlocks]
    exact (hs t).holds_iff
  case one_holder =>
    intro t u ht hu
    have hlock := hheld ht
    rw [hheld hu] at hlock
    exact (Option.some.inj hlock).symm
  case count_eq =>
    intro t
    rw [← hlocks]
    exact (hs t).count_eq
  case unlock_other =>
    intro t hpc hown
    simp only [advance, hpc, enter, osUnlockMutex, if_neg hown]
  case tryLock_other =>
    intro t u hut hu
    have hlock := hheld hu
    have hown : s.host.lock ≠ some t := by
      rw [hlock]
      exact fun h => hut (Option.some.inj h)
    have htaken : s.host.lock ≠ none := by
      rw [hlock]
      exact Option.some_ne_none u
    constructor
    · intro hpc
      simp only [advance, hpc, enter, osTryLockMutex, if_neg hown]
    · intro hpc
      simp only [advance, hpc, if_neg htaken]
  case wait_restores => exact fun t cond => waitRestores run

-- Thread `true` locks, waits and sleeps with its depth kept; the mutex is free for the other.
theorem recursive_mutex_asleep :
    ∃ (es : List (Event Bool Unit)) (s : State Bool Unit), Run State.initial es s ∧
      RecursiveMutex es s ∧ s.pc true = .asleep () 1 ∧ locks es s true = 1 ∧
      heldLocks es s true = 0 ∧ s.host.lock = none := by
  have h0 : Run (State.initial : State Bool Unit) [] _ := .nil
  have h1 := h0.snoc (e := .call true .lock) ⟨.call rfl (by trivial), by decide⟩
  have h2 := h1.snoc (e := .run true none) ⟨.run rfl, by decide⟩
  have h3 := h2.snoc (e := .run true none) ⟨.run rfl, by decide⟩
  have h4 := h3.snoc (e := .run true (some .void)) ⟨.run rfl, by decide⟩
  have h5 := h4.snoc (e := .call true (.wait ())) ⟨.call rfl (by rfl), by decide⟩
  have h6 := h5.snoc (e := .run true none) ⟨.run rfl, by decide⟩
  have h7 := h6.snoc (e := .run true none) ⟨.run rfl, by decide⟩
  have h8 := h7.snoc (e := .run true none) ⟨.run rfl, by decide⟩
  exact ⟨_, _, h8, recursive_mutex h8, rfl, rfl, rfl, rfl⟩

end CoreinitNx.Mutex
