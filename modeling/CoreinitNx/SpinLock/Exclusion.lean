import CoreinitNx.HandleTable.Interleaved
import CoreinitNx.SpinLock

namespace CoreinitNx.SpinLock

open HandleTable.Interleaved

-- `lock` is libnx's mutex, here by the thread that owns it.
structure HostSpinLock (τ : Type) where
  lock : Option τ

instance (τ : Type) : HostObject (HostSpinLock τ) := ⟨⟨none⟩⟩

-- `start` is the host tick that a timed attempt reads first.
inductive Call where
  | init
  | acquire
  | tryAcquire
  | tryAcquireTimeout (timeout : OSTime) (start : UInt64)
  | release
deriving DecidableEq, Repr

-- A timed attempt that found the mutex taken returns 0 when `tick` is late, or sleeps.
inductive Out where
  | void
  | ret (code : Int32)
  | late (tick : UInt64)
  | slept (tick : UInt64)
deriving DecidableEq, Repr

def Call.attempts : Call → Bool
  | .acquire | .tryAcquire | .tryAcquireTimeout _ _ => true
  | .init | .release => false

def Call.onNull : Call → Out
  | .init => .void
  | .acquire | .tryAcquire | .tryAcquireTimeout _ _ | .release => .ret 0

def rejected (l : OSSpinLock) (call : Call) : Option Out :=
  if l = 0 then some call.onNull else none

-- What unlocking does to a mutex of another thread is open.
inductive Does {τ : Type} (t : τ) : Call → HostSpinLock τ → Out → HostSpinLock τ → Prop
  | init (h : HostSpinLock τ) : Does t .init h .void h
  | taken {call : Call} {h : HostSpinLock τ} : call.attempts = true → h.lock = none →
      Does t call h (.ret 1) ⟨some t⟩
  | failed {h : HostSpinLock τ} {u : τ} : h.lock = some u → Does t .tryAcquire h (.ret 0) h
  | late {h : HostSpinLock τ} {u : τ} {timeout : OSTime} {start tick : UInt64} :
      h.lock = some u → tick ≥ deadlineAt start timeout →
      Does t (.tryAcquireTimeout timeout start) h (.late tick) h
  | slept {h : HostSpinLock τ} {u : τ} {timeout : OSTime} {start tick : UInt64} :
      h.lock = some u → ¬tick ≥ deadlineAt start timeout →
      Does t (.tryAcquireTimeout timeout start) h (.slept tick) h
  | released {h : HostSpinLock τ} : h.lock = some t → Does t .release h (.ret 1) ⟨none⟩
  | releasedUnheld {h h' : HostSpinLock τ} : h.lock ≠ some t → Does t .release h (.ret 1) h'

def Out.again : Out → Bool
  | .slept _ => true
  | _ => false

def calls (τ : Type) : Calls τ (HostSpinLock τ) Call Out := ⟨rejected, Does, Out.again⟩

abbrev Outcome (τ : Type) := τ × OSSpinLock × Call × Out

def Outcome.Took {τ : Type} (o : Outcome τ) (t : τ) (l : OSSpinLock) : Prop :=
  o.1 = t ∧ o.2.1 = l ∧ o.2.2.1.attempts = true ∧ o.2.2.2 = .ret 1

def Outcome.Freed {τ : Type} (o : Outcome τ) (t : τ) (l : OSSpinLock) : Prop :=
  o.1 = t ∧ o.2.1 = l ∧ o.2.2.1 = .release ∧ o.2.2.2 = .ret 1

-- Each time round, a timed attempt does what one turn of the polling loop does.
theorem Does.retry_cons {τ : Type} {t : τ} {timeout : OSTime} {start : UInt64} {out : Out}
    {h h' : HostSpinLock τ} (hd : Does t (.tryAcquireTimeout timeout start) h out h') :
    ∃ poll, (poll.taken = true ↔ h.lock = none) ∧ ∀ polls,
      retry (deadlineAt start timeout) (poll :: polls) =
        match out with
        | .slept _ => retry (deadlineAt start timeout) polls
        | .ret code => some code
        | .late _ | .void => some 0 := by
  cases hd with
  | taken _ hfree => exact ⟨⟨true, 0⟩, by simp [hfree], fun _ => rfl⟩
  | @late _ _ _ _ tick hheld hlate =>
    refine ⟨⟨false, tick⟩, by simp [hheld], fun polls => ?_⟩
    rw [retry, if_neg Bool.false_ne_true, if_pos hlate]
  | @slept _ _ _ _ tick hheld hearly =>
    refine ⟨⟨false, tick⟩, by simp [hheld], fun polls => ?_⟩
    rw [retry, if_neg Bool.false_ne_true, if_neg hearly]

variable {τ : Type} [DecidableEq τ]

instance (o : Outcome τ) (t : τ) (l : OSSpinLock) : Decidable (o.Took t l) :=
  inferInstanceAs (Decidable (_ ∧ _))

instance (o : Outcome τ) (t : τ) (l : OSSpinLock) : Decidable (o.Freed t l) :=
  inferInstanceAs (Decidable (_ ∧ _))

def takes (os : List (Outcome τ)) (t : τ) (l : OSSpinLock) : Nat := os.countP (·.Took t l)

def frees (os : List (Outcome τ)) (t : τ) (l : OSSpinLock) : Nat := os.countP (·.Freed t l)

-- By the answers it got: the thread has taken the lock once more than it gave it back.
def Holding (os : List (Outcome τ)) (t : τ) (l : OSSpinLock) : Prop :=
  takes os t l = frees os t l + 1

-- A thread gives back only what it holds.
def Proper (os : List (Outcome τ)) : Prop :=
  ∀ pre o post t l, os = pre ++ o :: post → o.Freed t l → Holding pre t l

variable {os pre : List (Outcome τ)} {o : Outcome τ} {t u : τ} {l : OSSpinLock}
  {objects objects' : OSSpinLock → HostSpinLock τ}

theorem takes_concat : takes (os ++ [o]) t l = takes os t l + if o.Took t l then 1 else 0 := by
  rw [takes, takes, List.countP_append, List.countP_singleton]
  simp only [decide_eq_true_eq]

theorem frees_concat : frees (os ++ [o]) t l = frees os t l + if o.Freed t l then 1 else 0 := by
  rw [frees, frees, List.countP_append, List.countP_singleton]
  simp only [decide_eq_true_eq]

theorem Proper.of_append {post : List (Outcome τ)} (h : Proper (pre ++ post)) : Proper pre := by
  rintro before o after t l rfl hf
  exact h before o (after ++ post) t l (by simp) hf

theorem Proper.nil : Proper ([] : List (Outcome τ)) := fun _ _ _ _ _ h _ => by simp at h

theorem Proper.concat (h : Proper os) (ho : ∀ t l, o.Freed t l → Holding os t l) :
    Proper (os ++ [o]) := by
  intro pre o' post t l hcut hf
  rcases List.eq_nil_or_concat post with rfl | ⟨post, last, rfl⟩
  · obtain ⟨rfl, heq⟩ := List.append_inj' hcut rfl
    cases heq
    exact ho t l hf
  · have hcut' : os ++ [o] = (pre ++ o' :: post) ++ [last] := by
      rw [hcut, List.append_assoc, List.cons_append, List.concat_eq_append]
    obtain ⟨rfl, -⟩ := List.append_inj' hcut' rfl
    exact h pre o' post t l rfl hf

-- What the mutexes say is what the threads were told.
structure Agrees (objects : OSSpinLock → HostSpinLock τ) (os : List (Outcome τ)) : Prop where
  owner : ∀ t l, (objects l).lock = some t → Holding os t l
  others : ∀ t l, (objects l).lock ≠ some t → takes os t l = frees os t l

theorem Agrees.holding_iff (h : Agrees objects os) (t : τ) (l : OSSpinLock) :
    Holding os t l ↔ (objects l).lock = some t := by
  refine ⟨fun hh => ?_, h.owner t l⟩
  by_contra hne
  rw [Holding, h.others t l hne] at hh
  exact absurd hh (Nat.ne_of_lt (Nat.lt_succ_self _))

-- An answer that neither takes nor frees leaves the counts alone.
theorem Agrees.neutral (h : Agrees objects os) (htook : ∀ t l, ¬o.Took t l)
    (hfreed : ∀ t l, ¬o.Freed t l) : Agrees objects (os ++ [o]) := by
  constructor
  · intro t l hl
    rw [Holding, takes_concat, frees_concat, if_neg (htook t l), if_neg (hfreed t l)]
    exact h.owner t l hl
  · intro t l hl
    rw [takes_concat, frees_concat, if_neg (htook t l), if_neg (hfreed t l)]
    exact h.others t l hl

-- An answer to `t` about `l` changes no count of another thread or of another lock.
theorem Agrees.update (h : Agrees objects os) (ht : o.1 = t) (hl : o.2.1 = l)
    {host : HostSpinLock τ} (hothers : ∀ u, u ≠ t → host.lock ≠ some u ∧ (objects l).lock ≠ some u)
    (howner : host.lock = some t → Holding (os ++ [o]) t l)
    (hfree : host.lock ≠ some t → takes (os ++ [o]) t l = frees (os ++ [o]) t l) :
    Agrees (Function.update objects l host) (os ++ [o]) := by
  have elsewhere (u : τ) (k : OSSpinLock) (hne : ¬(u = t ∧ k = l)) :
      takes (os ++ [o]) u k = takes os u k ∧ frees (os ++ [o]) u k = frees os u k := by
    have htook : ¬o.Took u k := fun hk => hne ⟨hk.1.symm.trans ht, hk.2.1.symm.trans hl⟩
    have hfreed : ¬o.Freed u k := fun hk => hne ⟨hk.1.symm.trans ht, hk.2.1.symm.trans hl⟩
    rw [takes_concat, frees_concat, if_neg htook, if_neg hfreed]
    exact ⟨rfl, rfl⟩
  constructor
  · intro u k hk
    by_cases hkl : k = l
    · rw [hkl, Function.update_self] at hk
      have hu : u = t := by
        by_contra hne
        exact (hothers u hne).1 hk
      rw [hu, hkl]
      exact howner (hu ▸ hk)
    · rw [Function.update_of_ne hkl] at hk
      obtain ⟨h1, h2⟩ := elsewhere u k fun he => hkl he.2
      rw [Holding, h1, h2]
      exact h.owner u k hk
  · intro u k hk
    by_cases hkl : k = l
    · rw [hkl, Function.update_self] at hk
      by_cases hu : u = t
      · rw [hu] at hk ⊢
        rw [hkl]
        exact hfree hk
      · obtain ⟨h1, h2⟩ := elsewhere u k fun he => hu he.1
        rw [h1, h2, hkl]
        exact h.others u l (hothers u hu).2
    · rw [Function.update_of_ne hkl] at hk
      obtain ⟨h1, h2⟩ := elsewhere u k fun he => hkl he.2
      rw [h1, h2]
      exact h.others u k hk

theorem ret_ne_of_rejected {call : Call} {out : Out} (h : rejected l call = some out) :
    out ≠ .ret 1 := by
  rw [rejected] at h
  split at h
  next => cases call <;> cases h <;> simp [Call.onNull]
  next => cases h

theorem Agrees.unchanged (h : Agrees objects os) (hout : o.2.2.2 ≠ .ret 1) :
    Agrees objects (os ++ [o]) :=
  h.neutral (fun _ _ hk => hout hk.2.2.2) fun _ _ hk => hout hk.2.2.2

theorem Agrees.step (h : Agrees objects os) (hp : Proper (os ++ [o]))
    (hs : Atomic (calls τ) objects o objects') : Agrees objects' (os ++ [o]) := by
  cases hs with
  | rejected hearly => exact h.unchanged (ret_ne_of_rejected hearly)
  | @done t l call out host hdoes =>
    generalize hobj : objects l = before at hdoes
    cases hdoes with
    | init | failed _ | late _ _ | slept _ _ =>
      rw [← hobj, Function.update_eq_self]
      exact h.unchanged (by simp)
    | taken hattempts hfree =>
      have hnone (u : τ) : (objects l).lock ≠ some u := by
        rw [hobj, hfree]
        exact (Option.some_ne_none u).symm
      have htook : Outcome.Took (t, l, call, .ret 1) t l := ⟨rfl, rfl, hattempts, rfl⟩
      have hfreed : ¬Outcome.Freed (t, l, call, .ret 1) t l := by
        rintro ⟨-, -, hrelease, -⟩
        rw [show call = .release from hrelease] at hattempts
        cases hattempts
      refine h.update (t := t) (l := l) rfl rfl (fun u hu => ⟨?_, hnone u⟩) (fun _ => ?_)
        fun hk => absurd rfl hk
      · exact fun he => hu (Option.some.inj he).symm
      · rw [Holding, takes_concat, frees_concat, if_pos htook, if_neg hfreed,
          h.others t l (hnone t), Nat.add_zero]
    | released howner =>
      have htook : ¬Outcome.Took (t, l, .release, .ret 1) t l := by
        rintro ⟨-, -, hattempts, -⟩
        cases hattempts
      have hfreed : Outcome.Freed (t, l, .release, .ret 1) t l := ⟨rfl, rfl, rfl, rfl⟩
      have hheld := h.owner t l (hobj ▸ howner)
      refine h.update (t := t) (l := l) rfl rfl (fun u hu => ⟨(Option.some_ne_none u).symm, ?_⟩)
        (fun hk => absurd hk.symm (Option.some_ne_none t)) fun _ => ?_
      · rw [hobj, howner]
        exact fun he => hu (Option.some.inj he).symm
      · rw [takes_concat, frees_concat, if_neg htook, if_pos hfreed, Nat.add_zero]
        exact hheld
    | releasedUnheld hnot =>
      have hheld : Holding os t l := hp os (t, l, .release, .ret 1) [] t l rfl ⟨rfl, rfl, rfl, rfl⟩
      rw [h.holding_iff, hobj] at hheld
      exact absurd hheld hnot

theorem Agrees.run (h : Transition.Run (Atomic (calls τ)) (fun _ => HostObject.init) os objects)
    (hp : Proper os) : Agrees objects os := by
  induction h with
  | nil => exact ⟨nofun, fun _ _ _ => rfl⟩
  | snoc _ hs ih => exact (ih hp.of_append).step hp hs

-- An attempt succeeds if and only if nobody holds the lock when it is made.
theorem Agrees.attempt {call : Call} {out : Out} (h : Agrees objects os) (hl : l ≠ 0)
    (ha : call.attempts = true) (hs : Atomic (calls τ) objects (t, l, call, out) objects') :
    out = .ret 1 ↔ ∀ u, ¬Holding os u l := by
  have held {u : τ} (hu : (objects l).lock = some u) (hout : out ≠ .ret 1) :
      out = .ret 1 ↔ ∀ u, ¬Holding os u l :=
    ⟨fun he => absurd he hout, fun hnone => absurd (h.owner u l hu) (hnone u)⟩
  cases hs with
  | rejected hearly =>
    rw [show (calls τ).early l call = none from if_neg hl] at hearly
    cases hearly
  | done hdoes =>
    cases hdoes with
    | init | released _ | releasedUnheld _ => cases ha
    | failed hu | late hu _ | slept hu _ => exact held hu (by simp)
    | taken _ hfree =>
      refine ⟨fun _ u hu => ?_, fun _ => rfl⟩
      rw [h.holding_iff, hfree] at hu
      cases hu

omit [DecidableEq τ] in
theorem deadline_le_of_late {timeout : OSTime} {start tick : UInt64}
    (hs : Atomic (calls τ) objects (t, l, .tryAcquireTimeout timeout start, .late tick) objects') :
    deadlineAt start timeout ≤ tick := by
  cases hs with
  | rejected hearly =>
    change rejected l _ = _ at hearly
    rw [rejected] at hearly
    split at hearly <;> cases hearly
  | done hdoes =>
    cases hdoes with
    | late _ hle => exact hle

structure Exclusive (os : List (Outcome τ)) : Prop where
  one_holder : ∀ t u l, Holding os t l → Holding os u l → t = u
  balanced : ∀ t l, takes os t l = frees os t l ∨ Holding os t l
  attempts : ∀ pre t l call out post, os = pre ++ (t, l, call, out) :: post → l ≠ 0 →
    call.attempts = true → (out = .ret 1 ↔ ∀ u, ¬Holding pre u l)
  timed : ∀ t l timeout start tick, (t, l, .tryAcquireTimeout timeout start, .late tick) ∈ os →
    deadlineAt start timeout ≤ tick

theorem spin_lock_exclusion {es : List (Event τ Call Out)} {s : Table τ (HostSpinLock τ) Call}
    (run : Run (calls τ) es s) (proper : Proper (es.filterMap Event.outcome)) :
    Exclusive (es.filterMap Event.outcome) := by
  have hatomic := run.atomic
  generalize es.filterMap Event.outcome = os at hatomic proper ⊢
  have hagrees := Agrees.run hatomic proper
  constructor
  case one_holder =>
    intro t u l ht hu
    rw [hagrees.holding_iff] at ht hu
    exact Option.some.inj (ht.symm.trans hu)
  case balanced =>
    intro t l
    by_cases hlock : (s.view l).lock = some t
    · exact .inr (hagrees.owner t l hlock)
    · exact .inl (hagrees.others t l hlock)
  case attempts =>
    rintro pre t l call out post rfl hl ha
    obtain ⟨mid, hpre, hpost⟩ := hatomic.of_append
    obtain ⟨next, hs, -⟩ := hpost.of_cons
    exact (Agrees.run hpre proper.of_append).attempt hl ha hs
  case timed =>
    intro t l timeout start tick hmem
    obtain ⟨pre, post, rfl⟩ := List.append_of_mem hmem
    obtain ⟨mid, -, hpost⟩ := hatomic.of_append
    obtain ⟨next, hs, -⟩ := hpost.of_cons
    exact deadline_le_of_late hs

-- Thread `true` has the lock at address 8 while `false` tries, and gives it back.
theorem spin_lock_exclusion_contended :
    ∃ (es : List (Event Bool Call Out)) (s : Table Bool (HostSpinLock Bool) Call),
      Run (calls Bool) es s ∧
      es.filterMap Event.outcome = [(true, 8, .acquire, .ret 1), (false, 8, .tryAcquire, .ret 0),
        (true, 8, .release, .ret 1)] ∧ Exclusive (es.filterMap Event.outcome) := by
  have acquired : (calls Bool).does true .acquire ⟨none⟩ (.ret 1) ⟨some true⟩ := .taken rfl rfl
  have failed : (calls Bool).does false .tryAcquire ⟨some true⟩ (.ret 0) ⟨some true⟩ := .failed rfl
  have released : (calls Bool).does true .release ⟨some true⟩ (.ret 1) ⟨none⟩ := .released rfl
  have h0 : Run (calls Bool) [] _ := .nil
  have h1 := h0.snoc (e := .called true 8 .acquire) (.called rfl rfl)
  have h2 := h1.snoc (e := .called false 8 .tryAcquire) (.called rfl rfl)
  have h3 := h2.snoc (e := .locked true) (.locked rfl rfl)
  have h4 := h3.snoc (e := .allocated true) (.allocated (p := 3) (r := ⟨some false⟩) rfl rfl rfl)
  have h5 := h4.snoc (e := .initialised true) (.initialised rfl)
  have h6 := h5.snoc (e := .emplaced true) (.emplaced rfl)
  have h7 := h6.snoc (e := .got true 8 3) (.got rfl)
  have h8 := h7.snoc (e := .locked false) (.locked rfl rfl)
  have h9 := h8.snoc (e := .done true 8 .acquire (.ret 1)) (.done rfl rfl acquired)
  have h10 := h9.snoc (e := .found false) (.found rfl rfl)
  have h11 := h10.snoc (e := .got false 8 3) (.got rfl)
  have h12 := h11.snoc (e := .done false 8 .tryAcquire (.ret 0)) (.done rfl rfl failed)
  have h13 := h12.snoc (e := .called true 8 .release) (.called rfl rfl)
  have h14 := h13.snoc (e := .locked true) (.locked rfl rfl)
  have h15 := h14.snoc (e := .found true) (.found rfl rfl)
  have h16 := h15.snoc (e := .got true 8 3) (.got rfl)
  have h17 := h16.snoc (e := .done true 8 .release (.ret 1)) (.done rfl rfl released)
  refine ⟨_, _, h17, rfl, spin_lock_exclusion h17 ?_⟩
  have p1 := Proper.nil.concat (o := (true, 8, .acquire, .ret 1)) fun _ _ h => nomatch h.2.2.1
  have p2 := p1.concat (o := (false, 8, .tryAcquire, .ret 0)) fun _ _ h => nomatch h.2.2.1
  refine p2.concat (o := (true, 8, .release, .ret 1)) ?_
  rintro t l ⟨rfl, rfl, -, -⟩
  rfl

end CoreinitNx.SpinLock
