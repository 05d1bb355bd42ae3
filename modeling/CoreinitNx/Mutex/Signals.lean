import CoreinitNx.Mutex.Recursive

namespace CoreinitNx.Mutex

variable {τ κ : Type} {s s' s'' : State τ κ} {t u v : τ} {pc : Pc κ} {cond : κ}
  {reply : Option Reply} {e : Event τ κ} {es es' : List (Event τ κ)}

-- In `OSWaitCond`, and past the release of the mutex.
def Pc.Parted (cond : κ) : Pc κ → Prop
  | .asleep c _ | .woken c _ | .restoring c _ => c = cond
  | _ => False

-- In `OSWaitCond`, and past the sleep.
def Pc.Awake (cond : κ) : Pc κ → Prop
  | .woken c _ | .restoring c _ => c = cond
  | _ => False

theorem Pc.Awake.parted (h : pc.Awake cond) : pc.Parted cond := by
  cases pc with
  | woken | restoring => exact h
  | _ => exact h.elim

theorem Pc.Parted.not_idle (h : (s.pc t).Parted cond) : s.pc t ≠ .idle := by
  intro hidle
  rw [hidle] at h
  exact h

-- A thread that waits while another holds the mutex has given it up.
theorem parted_of_waits (hs : Sound s t) (hw : (s.pc t).Waits cond)
    (hown : s.host.lock ≠ some t) : (s.pc t).Parted cond := by
  rw [Sound] at hs
  cases hpc : s.pc t with
  | entering op =>
    rw [hpc] at hs hw
    cases op with
    | wait c => exact absurd hs.1 hown
    | lock | tryLock | unlock | signal => exact hw.elim
  | clearing | releasingToWait =>
    rw [hpc] at hs
    exact absurd hs.1 hown
  | asleep | woken | restoring =>
    rw [hpc] at hw
    exact hw
  | idle | incrementing | storing | acquiring | trying | acquired | decrementing | storingLess
  | releasing =>
    rw [hpc] at hw
    exact hw.elim

variable [DecidableEq κ]

theorem Pc.Parted.wake (h : pc.Parted cond) (c : κ) : (pc.wake c).Parted cond := by
  rcases pc.wake_cases c with heq | ⟨saved, rfl, heq⟩
  · rwa [heq]
  · rw [heq]
    exact h

theorem Pc.Awake.wake (h : pc.Awake cond) (c : κ) : (pc.wake c).Awake cond := by
  cases pc with
  | woken | restoring => exact h
  | _ => exact h.elim

theorem Pc.Parted.awake (h : pc.Parted cond) : (pc.wake cond).Awake cond := by
  cases pc with
  | asleep c saved =>
    obtain rfl : c = cond := h
    rw [Pc.wake, if_pos rfl]
    rfl
  | woken | restoring => exact h
  | _ => exact h.elim

variable [DecidableEq τ]

-- A thread that has parted comes out of its sleep at a signal, and back with its answer only.
theorem BoundedStep.parted (h : BoundedStep s e s') (hp : (s.pc t).Parted cond)
    (hreply : ∀ r, e ≠ .run t (some r)) :
    (s'.pc t).Parted cond ∧ ((s.pc t).Awake cond → (s'.pc t).Awake cond) := by
  cases h.1 with
  | @call u op hidle _ =>
    have htu : t ≠ u := by
      rintro rfl
      exact hp.not_idle hidle
    rw [State.goto_pc_ne _ _ _ htu]
    exact ⟨hp, id⟩
  | @run _ u reply hrun =>
    by_cases htu : t = u
    · subst htu
      cases hpc : s.pc t with
      | woken c saved =>
        rw [hpc] at hp
        simp only [advance, hpc] at hrun
        split at hrun
        next =>
          cases hrun
          rw [State.goto_pc_self]
          exact ⟨hp, fun _ => hp⟩
        next => cases hrun
      | restoring c saved =>
        simp only [advance, hpc] at hrun
        cases hrun
        exact absurd rfl (hreply .void)
      | asleep c saved =>
        simp only [advance, hpc] at hrun
        cases hrun
      | idle | entering | incrementing | storing | acquiring | trying | acquired | decrementing
      | storingLess | releasing | clearing | releasingToWait =>
        rw [hpc] at hp
        exact hp.elim
    · rcases (advance_other hrun htu).2 with hsame | ⟨c, hwake⟩
      · rw [hsame]
        exact ⟨hp, id⟩
      · rw [hwake]
        exact ⟨hp.wake c, fun ha => ha.wake c⟩

theorem Run.parted (run : Run s es s') (hp : (s.pc t).Parted cond)
    (hno : ∀ r, .run t (some r) ∉ es) :
    (s'.pc t).Parted cond ∧ ((s.pc t).Awake cond → (s'.pc t).Awake cond) := by
  have hothers : ∀ e ∈ es, ∀ r, e ≠ Event.run t (some r) := fun e he r hr => hno r (hr ▸ he)
  refine Transition.Run.invariant_of
    (I := fun s' => (s'.pc t).Parted cond ∧ ((s.pc t).Awake cond → (s'.pc t).Awake cond))
    run hothers ⟨hp, id⟩ fun s₁ e s₂ he hi hstep => ?_
  obtain ⟨hp', hawake⟩ := hstep.parted hi.1 he
  exact ⟨hp', fun ha => hawake (hi.2 ha)⟩

-- The next step of a thread that is awake waits for the mutex at most.
theorem awake_can_run (hs : Sound s t) (ha : (s.pc t).Awake cond)
    (hfree : s.host.lock = none ∨ s.host.lock = some t) :
    ∃ reply s', advance s t = some (reply, s') := by
  rw [Sound] at hs
  cases hpc : s.pc t with
  | woken c saved =>
    rw [hpc] at hs
    have hnone : s.host.lock = none := hfree.resolve_right hs.1
    simp only [advance, hpc, hnone, if_true]
    exact ⟨_, _, rfl⟩
  | restoring c saved =>
    simp only [advance, hpc]
    exact ⟨_, _, rfl⟩
  | idle | entering | incrementing | storing | acquiring | trying | acquired | decrementing
  | storingLess | releasing | clearing | releasingToWait | asleep =>
    rw [hpc] at ha
    exact ha.elim

theorem signal_wakes (hpc : s.pc v = .entering (.signal cond)) (hp : (s.pc t).Parted cond)
    (h : advance s v = some (reply, s')) : (s'.pc t).Awake cond := by
  have htv : t ≠ v := by
    rintro rfl
    rw [hpc] at hp
    exact hp
  simp only [advance, hpc, enter, osSignalCond] at h
  cases h
  change (Function.update (fun u => (s.pc u).wake cond) v .idle t).Awake cond
  rw [Function.update_of_ne htv]
  exact hp.awake

-- Once another thread has been in, no signal passes a waiting thread by.
theorem signals_are_not_lost (run : Run State.initial es s) (hw : (s.pc t).Waits cond)
    (hown : s.host.lock = some u) (hu : u ≠ t) (run' : Run s es' s')
    (hno : ∀ r, .run t (some r) ∉ es') (hpc : s'.pc v = .entering (.signal cond))
    (hsignal : BoundedStep s' (.run v reply) s'') :
    ∀ later final, Run s'' later final → (∀ r, .run t (some r) ∉ later) →
      (final.pc t).Awake cond ∧
      (final.host.lock = none ∨ final.host.lock = some t →
        ∃ reply next, advance final t = some (reply, next)) := by
  intro later final run'' hno'
  have hother : s.host.lock ≠ some t := by
    rw [hown]
    exact fun h => hu (Option.some.inj h)
  have hparted := (run'.parted (parted_of_waits (run.sound t) hw hother) hno).1
  have hawake : (s''.pc t).Awake cond := by
    cases hsignal.1 with
    | run h => exact signal_wakes hpc hparted h
  have hfinal := (run''.parted hawake.parted hno').2 hawake
  have hall : Run State.initial _ final := ((run.append run').snoc hsignal).append run''
  exact ⟨hfinal, awake_can_run (hall.sound t) hfinal⟩

-- Thread `true` sleeps, the other gets in and signals, and lets go.
theorem signals_are_not_lost_taken :
    ∃ (es : List (Event Bool Unit)) (s : State Bool Unit), Run State.initial es s ∧
      s.host.lock = none ∧ (s.pc true).Awake () ∧
      ∃ reply next, advance s true = some (reply, next) := by
  have h0 : Run (State.initial : State Bool Unit) [] _ := .nil
  have h1 := h0.snoc (e := .call true .lock) ⟨.call rfl (by trivial), by decide⟩
  have h2 := h1.snoc (e := .run true none) ⟨.run rfl, by decide⟩
  have h3 := h2.snoc (e := .run true none) ⟨.run rfl, by decide⟩
  have h4 := h3.snoc (e := .run true (some .void)) ⟨.run rfl, by decide⟩
  have h5 := h4.snoc (e := .call true (.wait ())) ⟨.call rfl (by rfl), by decide⟩
  have h6 := h5.snoc (e := .run true none) ⟨.run rfl, by decide⟩
  have h7 := h6.snoc (e := .run true none) ⟨.run rfl, by decide⟩
  have h8 := h7.snoc (e := .run true none) ⟨.run rfl, by decide⟩
  have h9 := h8.snoc (e := .call false .lock) ⟨.call rfl (by trivial), by decide⟩
  have h10 := h9.snoc (e := .run false none) ⟨.run rfl, by decide⟩
  have h11 := h10.snoc (e := .run false none) ⟨.run rfl, by decide⟩
  have h12 := h11.snoc (e := .run false (some .void)) ⟨.run rfl, by decide⟩
  have here {es : List (Event Bool Unit)} {s : State Bool Unit} (_ : Run State.initial es s) :
      Run s [] s := .nil
  have g1 := (here h12).snoc (e := .call false (.signal ())) ⟨.call rfl (by trivial), by decide⟩
  have h13 := (Transition.Run.append h12 g1).snoc (e := .run false (some .void))
    ⟨.run rfl, by decide⟩
  have k1 := (here h13).snoc (e := .call false .unlock) ⟨.call rfl (by trivial), by decide⟩
  have k2 := k1.snoc (e := .run false none) ⟨.run rfl, by decide⟩
  have k3 := k2.snoc (e := .run false none) ⟨.run rfl, by decide⟩
  have k4 := k3.snoc (e := .run false none) ⟨.run rfl, by decide⟩
  have k5 := k4.snoc (e := .run false (some .void)) ⟨.run rfl, by decide⟩
  have awake := signals_are_not_lost (t := true) (u := false) (v := false) h12
    (rfl : () = ()) rfl (by decide) g1 (by simp) rfl ⟨.run rfl, by decide⟩ _ _ k5 (by simp)
  exact ⟨_, _, Transition.Run.append h13 k5, rfl, awake.1, awake.2 (.inl rfl)⟩

end CoreinitNx.Mutex
