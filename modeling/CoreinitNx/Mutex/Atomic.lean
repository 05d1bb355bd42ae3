import CoreinitNx.Mutex.Ownership
import CoreinitNx.Library.Simulation

namespace CoreinitNx.Mutex

-- Where a thread is with a call that takes effect in one step, a wait in two.
inductive Phase (κ : Type) where
  | idle
  | called (op : Op κ)
  | asleep (cond : κ) (depth : Nat)
  | woken (depth : Nat)
  | done (reply : Reply)
deriving DecidableEq, Repr

-- The mutex as the game sees it: who holds it, and how often.
structure Monitor (τ κ : Type) where
  held : Option (τ × Nat)
  phase : τ → Phase κ

inductive Act (τ κ : Type) where
  | call (t : τ) (op : Op κ)
  | effect (t : τ)
  | answer (t : τ) (reply : Reply)
deriving DecidableEq, Repr

inductive Seen (τ κ : Type) where
  | call (t : τ) (op : Op κ)
  | answer (t : τ) (reply : Reply)
deriving DecidableEq, Repr

variable {τ κ : Type}

def Act.seen : Act τ κ → Option (Seen τ κ)
  | .call t op => some (.call t op)
  | .effect _ => none
  | .answer t reply => some (.answer t reply)

def Event.seen : Event τ κ → Option (Seen τ κ)
  | .call t op => some (.call t op)
  | .run _ none => none
  | .run t (some reply) => some (.answer t reply)

namespace Monitor

def initial : Monitor τ κ := ⟨none, fun _ => .idle⟩

variable [DecidableEq τ]

def goto (m : Monitor τ κ) (t : τ) (phase : Phase κ) : Monitor τ κ :=
  { m with phase := Function.update m.phase t phase }

def relocked (m : Monitor τ κ) (t : τ) : Option (τ × Nat) :=
  match m.held with
  | none => some (t, 1)
  | some (u, n) => if u = t then some (t, n + 1) else none

def unlocked (m : Monitor τ κ) (t : τ) : Option (τ × Nat) :=
  match m.held with
  | none => none
  | some (u, n) => if u = t then if n = 1 then none else some (t, n - 1) else some (u, n)

variable [DecidableEq κ]

def woken (cond : κ) : Phase κ → Phase κ
  | .asleep c depth => if c = cond then .woken depth else .asleep c depth
  | phase => phase

-- `none` where the thread has to wait.
def effect (m : Monitor τ κ) (t : τ) : Option (Monitor τ κ) :=
  match m.phase t with
  | .called .lock =>
    (m.relocked t).map fun held => { m with held := some held }.goto t (.done .void)
  | .called .tryLock =>
    match m.relocked t with
    | some held => some ({ m with held := some held }.goto t (.done (.ret 1)))
    | none => some (m.goto t (.done (.ret 0)))
  | .called .unlock => some ({ m with held := m.unlocked t }.goto t (.done .void))
  | .called (.wait cond) =>
    match m.held with
    | some (u, n) => if u = t then some ({ m with held := none }.goto t (.asleep cond n)) else none
    | none => none
  | .called (.signal cond) =>
    some ({ m with phase := fun u => woken cond (m.phase u) }.goto t (.done .void))
  | .woken n =>
    match m.held with
    | none => some ({ m with held := some (t, n) }.goto t (.done .void))
    | some _ => none
  | .idle | .asleep _ _ | .done _ => none

def Allowed (m : Monitor τ κ) (t : τ) : Op κ → Prop
  | .wait _ => ∃ n, m.held = some (t, n)
  | _ => True

inductive Step : Monitor τ κ → Act τ κ → Monitor τ κ → Prop
  | call {m : Monitor τ κ} {t : τ} {op : Op κ} : m.phase t = .idle → m.Allowed t op →
      Step m (.call t op) (m.goto t (.called op))
  | effect {m m' : Monitor τ κ} {t : τ} : m.effect t = some m' → Step m (.effect t) m'
  | answer {m : Monitor τ κ} {t : τ} {reply : Reply} : m.phase t = .done reply →
      Step m (.answer t reply) (m.goto t .idle)

abbrev Run : Monitor τ κ → List (Act τ κ) → Monitor τ κ → Prop := Transition.Run Step

end Monitor

-- Only a try-lock answers a success.
def Op.taking : Op κ → Op κ
  | .tryLock => .tryLock
  | _ => .lock

def Pc.phase : Pc κ → Phase κ
  | .idle => .idle
  | .entering op => .called op
  | .incrementing op | .storing op _ => .called op.taking
  | .acquiring => .called .lock
  | .trying => .called .tryLock
  | .acquired op => .done (success op)
  | .decrementing | .storingLess _ | .releasing => .called .unlock
  | .clearing cond _ | .releasingToWait cond _ => .called (.wait cond)
  | .asleep cond saved => .asleep cond saved.toNat
  | .woken _ saved => .woken saved.toNat
  | .restoring _ _ => .done .void

def State.view (s : State τ κ) : Monitor τ κ :=
  ⟨s.host.lock.map fun t => (t, s.depth t), fun t => (s.pc t).phase⟩

variable {s s' s₁ : State τ κ} {t u : τ} {pc pc' : Pc κ} {op : Op κ} {reply : Option Reply} {r : Reply}
  {phase phase' : Phase κ} {m m' : Monitor τ κ} {n : Nat} {e : Event τ κ} {es : List (Event τ κ)}

theorem view_held_of_free (hfree : s.host.lock = none) : s.view.held = none := by
  rw [State.view, hfree]
  rfl

theorem view_held_of_owned (hown : s.host.lock = some t) : s.view.held = some (t, s.depth t) := by
  rw [State.view, hown]
  rfl

-- What the game sees of a lock that another thread holds.
theorem view_held_of_other (hother : s.host.lock ≠ some t) :
    s.view.held = none ∨ ∃ u n, u ≠ t ∧ s.view.held = some (u, n) := by
  cases hlock : s.host.lock with
  | none => exact .inl (view_held_of_free hlock)
  | some u =>
    rw [hlock] at hother
    exact .inr ⟨u, _, fun hu => hother (congrArg some hu), view_held_of_owned hlock⟩

theorem view_phase (hpc : s.pc t = pc) : s.view.phase t = pc.phase := congrArg Pc.phase hpc

variable [DecidableEq τ]

namespace Monitor

theorem goto_phase (m : Monitor τ κ) (t : τ) (phase : Phase κ) : (m.goto t phase).phase t = phase :=
  Function.update_self _ _ _

theorem goto_goto (m : Monitor τ κ) (t : τ) (phase phase' : Phase κ) :
    (m.goto t phase).goto t phase' = m.goto t phase' := by
  simp only [goto, Function.update_idem]

theorem goto_same (h : m.phase t = phase) : m.goto t phase = m := by
  rw [goto, ← h, Function.update_eq_self]

variable [DecidableEq κ]

theorem effect_taking {held : τ × Nat} (hphase : m.phase t = .called op.taking)
    (hheld : m.relocked t = some held) :
    m.effect t = some ({ m with held := some held }.goto t (.done (success op))) := by
  have hlock (hlock : m.phase t = .called .lock) :
      m.effect t = some ({ m with held := some held }.goto t (.done .void)) := by
    rw [effect, hlock]
    simp only [hheld, Option.map_some]
  cases op with
  | tryLock =>
    rw [effect, hphase]
    simp only [Op.taking, hheld, success]
  | lock | unlock | wait | signal => exact hlock hphase

theorem effect_unlock (hphase : m.phase t = .called .unlock) :
    m.effect t = some ({ m with held := m.unlocked t }.goto t (.done .void)) := by
  rw [effect, hphase]

theorem effect_signal {c : κ} (hphase : m.phase t = .called (.signal c)) :
    m.effect t =
      some ({ m with phase := fun u => woken c (m.phase u) }.goto t (.done .void)) := by
  rw [effect, hphase]

theorem effect_wait {c : κ} (hphase : m.phase t = .called (.wait c))
    (hheld : m.held = some (t, n)) :
    m.effect t = some ({ m with held := none }.goto t (.asleep c n)) := by
  rw [effect, hphase]
  simp only [hheld, if_true]

theorem effect_woken (hphase : m.phase t = .woken n) (hheld : m.held = none) :
    m.effect t = some ({ m with held := some (t, n) }.goto t (.done .void)) := by
  rw [effect, hphase]
  simp only [hheld]

theorem effect_tryLock_fails (hphase : m.phase t = .called .tryLock)
    (hheld : m.relocked t = none) : m.effect t = some (m.goto t (.done (.ret 0))) := by
  rw [effect, hphase]
  simp only [hheld]

omit [DecidableEq κ]

theorem relocked_free (hheld : m.held = none) : m.relocked t = some (t, 1) := by
  rw [relocked, hheld]

theorem relocked_owned (hheld : m.held = some (t, n)) : m.relocked t = some (t, n + 1) := by
  rw [relocked, hheld]
  exact if_pos rfl

theorem relocked_other (hheld : m.held = some (u, n)) (hu : u ≠ t) : m.relocked t = none := by
  rw [relocked, hheld]
  exact if_neg hu

theorem unlocked_owned (hheld : m.held = some (t, n)) :
    m.unlocked t = if n = 1 then none else some (t, n - 1) := by
  rw [unlocked, hheld]
  exact if_pos rfl

theorem unlocked_other (hheld : m.held = none ∨ ∃ u n, u ≠ t ∧ m.held = some (u, n)) :
    m.unlocked t = m.held := by
  rw [unlocked]
  rcases hheld with hnone | ⟨u, n, hu, hheld⟩
  · rw [hnone]
  · rw [hheld]
    exact if_neg hu

variable [DecidableEq κ]

theorem Run.takes (heffect : m.effect t = some m') :
    ∃ es, Run m es m' ∧ es.filterMap Act.seen = ([] : List (Seen τ κ)) :=
  ⟨[.effect t], .single (.effect heffect), rfl⟩

theorem Run.answers (hdone : m.phase t = .done r) :
    ∃ es, Run m es (m.goto t .idle) ∧ es.filterMap Act.seen = [.answer t r] :=
  ⟨[.answer t r], .single (.answer hdone), rfl⟩

theorem Run.takesAndAnswers (heffect : m.effect t = some (m'.goto t (.done r))) :
    ∃ es, Run m es (m'.goto t .idle) ∧ es.filterMap Act.seen = [.answer t r] := by
  have hanswer : Step (m'.goto t (.done r)) (.answer t r) (m'.goto t .idle) := by
    have h := Step.answer (goto_phase m' t (.done r))
    rwa [goto_goto] at h
  exact ⟨[.effect t] ++ [.answer t r], (Transition.Run.single (.effect heffect)).snoc hanswer, rfl⟩

end Monitor

theorem view_goto {held : Option (τ × Nat)} (hpc : s₁.pc = s.pc) (hheld : s₁.view.held = held) :
    (s₁.goto t pc).view = { s.view with held }.goto t pc.phase := by
  have hphase : (fun u => ((s₁.goto t pc).pc u).phase) =
      Function.update s.view.phase t pc.phase := by
    funext u
    by_cases hu : u = t
    · subst hu
      rw [State.goto_pc_self, Function.update_self]
    · rw [State.goto_pc_ne _ _ _ hu, Function.update_of_ne hu, hpc]
      rfl
  rw [State.view, hphase, ← hheld]
  rfl

theorem view_stays (hpc : s₁.pc = s.pc) (hheld : s₁.view.held = s.view.held)
    (hphase : pc.phase = (s.pc t).phase) : (s₁.goto t pc).view = s.view := by
  rw [view_goto hpc hheld]
  exact Monitor.goto_same hphase.symm

theorem view_held_setDepth (hown : s.host.lock = some t) (n : Nat) :
    (s.setDepth t n).view.held = some (t, n) := by
  have hheld : (s.setDepth t n).view.held = some (t, (s.setDepth t n).depth t) :=
    view_held_of_owned hown
  rwa [State.setDepth_self] at hheld

variable [DecidableEq κ]

omit [DecidableEq τ] in
theorem phase_wake (pc : Pc κ) (c : κ) : (pc.wake c).phase = Monitor.woken c pc.phase := by
  cases pc with
  | asleep d saved =>
    rw [Pc.wake, Pc.phase, Monitor.woken]
    exact apply_ite Pc.phase _ _ _
  | _ => rfl

theorem view_signal (c : κ) :
    ({ s with pc := Function.update (fun u => (s.pc u).wake c) t .idle } : State τ κ).view =
      { s.view with phase := fun u => ((s.pc u).wake c).phase }.goto t .idle := by
  have hphase : (fun u => (Function.update (fun u => (s.pc u).wake c) t .idle u).phase) =
      Function.update (fun u => ((s.pc u).wake c).phase) t .idle := by
    funext u
    by_cases hu : u = t
    · subst hu
      rw [Function.update_self, Function.update_self]
      rfl
    · rw [Function.update_of_ne hu, Function.update_of_ne hu]
  rw [State.view, hphase]
  rfl

-- The count is only the owner's to write, so that no step shows it to another thread.
theorem advance_moves (hs : Sound s t) (h : advance s t = some (reply, s')) :
    ∃ es, Monitor.Run s.view es s'.view ∧
      es.filterMap Act.seen = ((Event.run t reply : Event τ κ).seen).toList := by
  have hstep := advance_cases h
  rw [Sound] at hs
  generalize hpc : s.pc t = pc at hs hstep
  have hat : s.view.phase t = pc.phase := view_phase hpc
  have hstays {s₁ : State τ κ} {pc' : Pc κ} (hsame : s₁.pc = s.pc)
      (hheld : s₁.view.held = s.view.held) (hphase : pc'.phase = pc.phase) :
      ∃ es, Monitor.Run s.view es (s₁.goto t pc').view ∧
        es.filterMap Act.seen = ([] : List (Seen τ κ)) := by
    rw [view_stays hsame hheld (hphase.trans hat.symm)]
    exact ⟨[], .nil, rfl⟩
  have hgoes {s₁ : State τ κ} {pc' : Pc κ} {held : Option (τ × Nat)} {seen : List (Seen τ κ)}
      (hsame : s₁.pc = s.pc) (hheld : s₁.view.held = held)
      (hrun : ∃ es, Monitor.Run s.view es ({ s.view with held }.goto t pc'.phase) ∧
        es.filterMap Act.seen = seen) :
      ∃ es, Monitor.Run s.view es (s₁.goto t pc').view ∧ es.filterMap Act.seen = seen := by
    rw [view_goto hsame hheld]
    exact hrun
  cases hstep with
  | lockOwned | tryOwned | lockOther | tryOther | unlockOwned | wait | incrementing | decrementing
  | clearing | storingZero => exact hstays rfl rfl rfl
  | unlockOther hother =>
    have heffect := Monitor.effect_unlock hat
    rw [Monitor.unlocked_other (view_held_of_other hother)] at heffect
    exact hgoes rfl rfl (Monitor.Run.takesAndAnswers heffect)
  | signal c =>
    have hwoken : (fun u => Monitor.woken c (s.view.phase u)) = fun u => ((s.pc u).wake c).phase :=
      funext fun u => (phase_wake _ _).symm
    have heffect := Monitor.effect_signal hat
    rw [hwoken] at heffect
    rw [view_signal]
    exact Monitor.Run.takesAndAnswers heffect
  | storing op n =>
    have hheld := view_held_of_owned hs.1
    have heffect := Monitor.effect_taking hat (Monitor.relocked_owned hheld)
    exact hgoes rfl (view_held_setDepth hs.1 _) (Monitor.Run.takesAndAnswers heffect)
  | acquiring hfree =>
    have hheld := view_held_of_free hfree
    have hlock : s.view.phase t = .called (Op.lock : Op κ).taking := hat
    have heffect := Monitor.effect_taking hlock (Monitor.relocked_free hheld)
    rw [hs.2]
    exact hgoes rfl (view_held_setDepth rfl _) (Monitor.Run.takes heffect)
  | trying hfree =>
    have hheld := view_held_of_free hfree
    have htry : s.view.phase t = .called (Op.tryLock : Op κ).taking := hat
    have heffect := Monitor.effect_taking htry (Monitor.relocked_free hheld)
    rw [hs.2]
    exact hgoes rfl (view_held_setDepth rfl _) (Monitor.Run.takes heffect)
  | tryingFails htaken =>
    rcases view_held_of_other hs.1 with hnone | ⟨u, n, hu, hheld⟩
    · rw [State.view, Option.map_eq_none_iff] at hnone
      exact absurd hnone htaken
    · have heffect := Monitor.effect_tryLock_fails hat (Monitor.relocked_other hheld hu)
      exact hgoes rfl rfl (Monitor.Run.takesAndAnswers heffect)
  | acquired op => exact hgoes rfl rfl (Monitor.Run.answers hat)
  | @storingLess n hne =>
    obtain ⟨hown, hpos, hcount, rfl⟩ := hs
    have hless := count_pred_toNat hcount hpos
    have hmore : s.depth t ≠ 1 := by
      intro hone
      rw [hone] at hless
      exact hne (UInt32.toNat_inj.1 hless)
    have heffect := Monitor.effect_unlock hat
    rw [Monitor.unlocked_owned (view_held_of_owned hown), if_neg hmore] at heffect
    exact hgoes rfl (view_held_setDepth hown _) (Monitor.Run.takesAndAnswers heffect)
  | releasing =>
    have heffect := Monitor.effect_unlock hat
    rw [Monitor.unlocked_owned (view_held_of_owned hs.1), if_pos hs.2] at heffect
    exact hgoes rfl (view_held_of_free rfl) (Monitor.Run.takesAndAnswers heffect)
  | releasingToWait c saved =>
    obtain ⟨hown, -, hsaved⟩ := hs
    have heffect := Monitor.effect_wait hat (view_held_of_owned hown)
    rw [← hsaved] at heffect
    exact hgoes rfl (view_held_of_free rfl) (Monitor.Run.takes heffect)
  | woken c saved hfree =>
    obtain ⟨-, -, hsaved⟩ := hs
    have heffect := Monitor.effect_woken hat (view_held_of_free hfree)
    rw [hsaved] at heffect
    exact hgoes rfl (view_held_of_owned rfl) (Monitor.Run.takes heffect)
  | restoring c saved => exact hgoes rfl rfl (Monitor.Run.answers hat)

theorem call_moves (hidle : s.pc t = .idle) (hallowed : Allowed s t op) :
    Monitor.Step s.view (.call t op) (s.goto t (.entering op)).view := by
  have hview : (s.goto t (.entering op)).view = s.view.goto t (.called op) := view_goto rfl rfl
  rw [hview]
  refine .call (view_phase hidle) ?_
  cases op with
  | wait c => exact ⟨_, view_held_of_owned hallowed⟩
  | lock | tryLock | unlock | signal => trivial

theorem refines_monitor :
    Transition.Refines (BoundedStep (τ := τ) (κ := κ)) Monitor.Step State.view Event.seen Act.seen
      (fun s => ∀ u, Sound s u) where
  keeps hs hstep := hstep.sound hs
  moves hs hstep := by
    cases hstep.1 with
    | @call t op hidle hallowed =>
      exact ⟨[.call t op], .single (call_moves hidle hallowed), rfl⟩
    | @run _ t reply hrun => exact advance_moves (hs t) hrun

theorem mutex_is_atomic (run : Run State.initial es s) :
    ∃ acts, Monitor.Run Monitor.initial acts s.view ∧
      acts.filterMap Act.seen = es.filterMap Event.seen :=
  (refines_monitor.run (fun _ => sound_initial) run).2

-- Two threads lock at once; the one that gets in waits, and the other wakes it.
theorem mutex_is_atomic_contended :
    ∃ (es : List (Event Bool Unit)) (s : State Bool Unit) (acts : List (Act Bool Unit)),
      Run State.initial es s ∧ Monitor.Run Monitor.initial acts s.view ∧
      acts.filterMap Act.seen = es.filterMap Event.seen ∧
      es.filterMap Event.seen =
        [.call true .lock, .call false .lock, .answer true .void, .call true (.wait ()),
          .answer false .void, .call false (.signal ()), .answer false .void] ∧
      s.view.held = some (false, 1) ∧ s.view.phase true = .woken 1 := by
  have h0 : Run (State.initial : State Bool Unit) [] _ := .nil
  have h1 := h0.snoc (e := .call true .lock) ⟨.call rfl (by trivial), by decide⟩
  have h2 := h1.snoc (e := .call false .lock) ⟨.call rfl (by trivial), by decide⟩
  have h3 := h2.snoc (e := .run true none) ⟨.run rfl, by decide⟩
  have h4 := h3.snoc (e := .run false none) ⟨.run rfl, by decide⟩
  have h5 := h4.snoc (e := .run true none) ⟨.run rfl, by decide⟩
  have h6 := h5.snoc (e := .run true (some .void)) ⟨.run rfl, by decide⟩
  have h7 := h6.snoc (e := .call true (.wait ())) ⟨.call rfl (by rfl), by decide⟩
  have h8 := h7.snoc (e := .run true none) ⟨.run rfl, by decide⟩
  have h9 := h8.snoc (e := .run true none) ⟨.run rfl, by decide⟩
  have h10 := h9.snoc (e := .run true none) ⟨.run rfl, by decide⟩
  have h11 := h10.snoc (e := .run false none) ⟨.run rfl, by decide⟩
  have h12 := h11.snoc (e := .run false (some .void)) ⟨.run rfl, by decide⟩
  have h13 := h12.snoc (e := .call false (.signal ())) ⟨.call rfl (by trivial), by decide⟩
  have h14 := h13.snoc (e := .run false (some .void)) ⟨.run rfl, by decide⟩
  obtain ⟨acts, hacts, hseen⟩ := mutex_is_atomic h14
  exact ⟨_, _, acts, h14, hacts, hseen, rfl, rfl, rfl⟩

end CoreinitNx.Mutex
