import Mathlib
import CoreinitNx.HandleTable
import CoreinitNx.Library.Transition

namespace CoreinitNx.Mutex

-- `lock` is the kernel's mutex, here by the thread that owns it.
structure HostMutex (τ : Type) where
  lock : Option τ
  count : UInt32

instance (τ : Type) : HostObject (HostMutex τ) := ⟨⟨none, 0⟩⟩

inductive Op (κ : Type) where
  | lock
  | tryLock
  | unlock
  | wait (cond : κ)
  | signal (cond : κ)
deriving DecidableEq, Repr

inductive Reply where
  | void
  | ret (code : Int32)
deriving DecidableEq, Repr

-- Where a thread is in a call; `count` is read and written in steps of their own.
inductive Pc (κ : Type) where
  | idle
  | entering (op : Op κ)
  | incrementing (op : Op κ)
  | storing (op : Op κ) (count : UInt32)
  | acquiring
  | trying
  | acquired (op : Op κ)
  | decrementing
  | storingLess (count : UInt32)
  | releasing
  | clearing (cond : κ) (saved : UInt32)
  | releasingToWait (cond : κ) (saved : UInt32)
  | asleep (cond : κ) (saved : UInt32)
  | woken (cond : κ) (saved : UInt32)
  | restoring (cond : κ) (saved : UInt32)
deriving DecidableEq, Repr

-- `depth` is not the program's: a thread's successful locks less its effective unlocks.
structure State (τ κ : Type) where
  host : HostMutex τ
  pc : τ → Pc κ
  depth : τ → Nat

variable {τ κ : Type}

def State.initial : State τ κ := ⟨HostObject.init, fun _ => .idle, fun _ => 0⟩

namespace State

def setCount (s : State τ κ) (count : UInt32) : State τ κ :=
  { s with host := { s.host with count } }

def setLock (s : State τ κ) (lock : Option τ) : State τ κ :=
  { s with host := { s.host with lock } }

variable [DecidableEq τ]

def goto (s : State τ κ) (t : τ) (pc : Pc κ) : State τ κ :=
  { s with pc := Function.update s.pc t pc }

def setDepth (s : State τ κ) (t : τ) (depth : Nat) : State τ κ :=
  { s with depth := Function.update s.depth t depth }

theorem goto_pc_self (s : State τ κ) (t : τ) (pc : Pc κ) : (s.goto t pc).pc t = pc :=
  Function.update_self _ _ _

theorem goto_pc_ne (s : State τ κ) (t : τ) {u : τ} (pc : Pc κ) (h : u ≠ t) :
    (s.goto t pc).pc u = s.pc u := Function.update_of_ne h _ _

theorem setDepth_self (s : State τ κ) (t : τ) (n : Nat) : (s.setDepth t n).depth t = n :=
  Function.update_self _ _ _

theorem setDepth_ne (s : State τ κ) (t : τ) {u : τ} (n : Nat) (h : u ≠ t) :
    (s.setDepth t n).depth u = s.depth u := Function.update_of_ne h _ _

end State

variable [DecidableEq κ]

-- `condvarWakeAll`
def Pc.wake (cond : κ) : Pc κ → Pc κ
  | .asleep c saved => if c = cond then .woken c saved else .asleep c saved
  | pc => pc

theorem Pc.wake_cases (pc : Pc κ) (cond : κ) :
    pc.wake cond = pc ∨ ∃ saved, pc = .asleep cond saved ∧ pc.wake cond = .woken cond saved := by
  cases pc with
  | asleep c saved =>
    rw [Pc.wake]
    split
    next hc => exact .inr ⟨saved, by rw [hc], by rw [hc]⟩
    next => exact .inl rfl
  | idle | entering _ | incrementing _ | storing _ _ | acquiring | trying | acquired _
  | decrementing | storingLess _ | releasing | clearing _ _ | releasingToWait _ _ | woken _ _
  | restoring _ _ => exact .inl rfl

def success : Op κ → Reply
  | .tryLock => .ret 1
  | _ => .void

variable [DecidableEq τ]

abbrev Advance (τ κ : Type) := Option (Option Reply × State τ κ)

def osLockMutex (s : State τ κ) (t : τ) : Advance τ κ :=
  if s.host.lock = some t then some (none, s.goto t (.incrementing .lock))
  else some (none, s.goto t .acquiring)

def osTryLockMutex (s : State τ κ) (t : τ) : Advance τ κ :=
  if s.host.lock = some t then some (none, s.goto t (.incrementing .tryLock))
  else some (none, s.goto t .trying)

def osUnlockMutex (s : State τ κ) (t : τ) : Advance τ κ :=
  if s.host.lock = some t then some (none, s.goto t .decrementing)
  else some (some .void, s.goto t .idle)

def osWaitCond (s : State τ κ) (t : τ) (cond : κ) : Advance τ κ :=
  some (none, s.goto t (.clearing cond s.host.count))

def osSignalCond (s : State τ κ) (t : τ) (cond : κ) : Advance τ κ :=
  some (some .void, { s with pc := Function.update (fun u => (s.pc u).wake cond) t .idle })

def enter (s : State τ κ) (t : τ) : Op κ → Advance τ κ
  | .lock => osLockMutex s t
  | .tryLock => osTryLockMutex s t
  | .unlock => osUnlockMutex s t
  | .wait cond => osWaitCond s t cond
  | .signal cond => osSignalCond s t cond

-- The next step of `t` in its call, with the reply if it returns; none while it is blocked.
def advance (s : State τ κ) (t : τ) : Advance τ κ :=
  match s.pc t with
  | .idle => none
  | .entering op => enter s t op
  | .incrementing op => some (none, s.goto t (.storing op (s.host.count + 1)))
  | .storing op count =>
    some (some (success op), ((s.setCount count).setDepth t (s.depth t + 1)).goto t .idle)
  | .acquiring =>
    if s.host.lock = none then
      some (none, ((s.setLock (some t)).setDepth t (s.depth t + 1)).goto t (.acquired .lock))
    else none
  | .trying =>
    if s.host.lock = none then
      some (none, ((s.setLock (some t)).setDepth t (s.depth t + 1)).goto t (.acquired .tryLock))
    else some (some (.ret 0), s.goto t .idle)
  | .acquired op => some (some (success op), (s.setCount 1).goto t .idle)
  | .decrementing => some (none, s.goto t (.storingLess (s.host.count - 1)))
  | .storingLess count =>
    if count = 0 then some (none, (s.setCount count).goto t .releasing)
    else some (some .void, ((s.setCount count).setDepth t (s.depth t - 1)).goto t .idle)
  | .releasing =>
    some (some .void, ((s.setLock none).setDepth t (s.depth t - 1)).goto t .idle)
  | .clearing cond saved => some (none, (s.setCount 0).goto t (.releasingToWait cond saved))
  -- `condvarWait` gives the lock up and sleeps in one step, and comes back with the lock.
  | .releasingToWait cond saved => some (none, (s.setLock none).goto t (.asleep cond saved))
  | .asleep _ _ => none
  | .woken cond saved =>
    if s.host.lock = none then some (none, (s.setLock (some t)).goto t (.restoring cond saved))
    else none
  | .restoring _ saved => some (some .void, (s.setCount saved).goto t .idle)

-- What each step asks, answers and leaves, by where its thread stands.
inductive Advances (s : State τ κ) (t : τ) : Pc κ → Option Reply → State τ κ → Prop
  | lockOwned : s.host.lock = some t →
      Advances s t (.entering .lock) none (s.goto t (.incrementing .lock))
  | lockOther : s.host.lock ≠ some t → Advances s t (.entering .lock) none (s.goto t .acquiring)
  | tryOwned : s.host.lock = some t →
      Advances s t (.entering .tryLock) none (s.goto t (.incrementing .tryLock))
  | tryOther : s.host.lock ≠ some t → Advances s t (.entering .tryLock) none (s.goto t .trying)
  | unlockOwned : s.host.lock = some t →
      Advances s t (.entering .unlock) none (s.goto t .decrementing)
  | unlockOther : s.host.lock ≠ some t →
      Advances s t (.entering .unlock) (some .void) (s.goto t .idle)
  | wait (cond : κ) :
      Advances s t (.entering (.wait cond)) none (s.goto t (.clearing cond s.host.count))
  | signal (cond : κ) : Advances s t (.entering (.signal cond)) (some .void)
      { s with pc := Function.update (fun u => (s.pc u).wake cond) t .idle }
  | incrementing (op : Op κ) :
      Advances s t (.incrementing op) none (s.goto t (.storing op (s.host.count + 1)))
  | storing (op : Op κ) (count : UInt32) : Advances s t (.storing op count) (some (success op))
      (((s.setCount count).setDepth t (s.depth t + 1)).goto t .idle)
  | acquiring : s.host.lock = none → Advances s t .acquiring none
      (((s.setLock (some t)).setDepth t (s.depth t + 1)).goto t (.acquired .lock))
  | trying : s.host.lock = none → Advances s t .trying none
      (((s.setLock (some t)).setDepth t (s.depth t + 1)).goto t (.acquired .tryLock))
  | tryingFails : s.host.lock ≠ none → Advances s t .trying (some (.ret 0)) (s.goto t .idle)
  | acquired (op : Op κ) :
      Advances s t (.acquired op) (some (success op)) ((s.setCount 1).goto t .idle)
  | decrementing : Advances s t .decrementing none (s.goto t (.storingLess (s.host.count - 1)))
  | storingZero : Advances s t (.storingLess 0) none ((s.setCount 0).goto t .releasing)
  | storingLess {count : UInt32} : count ≠ 0 → Advances s t (.storingLess count) (some .void)
      (((s.setCount count).setDepth t (s.depth t - 1)).goto t .idle)
  | releasing : Advances s t .releasing (some .void)
      (((s.setLock none).setDepth t (s.depth t - 1)).goto t .idle)
  | clearing (cond : κ) (saved : UInt32) : Advances s t (.clearing cond saved) none
      ((s.setCount 0).goto t (.releasingToWait cond saved))
  | releasingToWait (cond : κ) (saved : UInt32) : Advances s t (.releasingToWait cond saved) none
      ((s.setLock none).goto t (.asleep cond saved))
  | woken (cond : κ) (saved : UInt32) : s.host.lock = none → Advances s t (.woken cond saved) none
      ((s.setLock (some t)).goto t (.restoring cond saved))
  | restoring (cond : κ) (saved : UInt32) :
      Advances s t (.restoring cond saved) (some .void) ((s.setCount saved).goto t .idle)

theorem enter_cases {s s' : State τ κ} {t : τ} {op : Op κ} {reply : Option Reply}
    (h : enter s t op = some (reply, s')) : Advances s t (.entering op) reply s' := by
  cases op with
  | lock =>
    rw [enter, osLockMutex] at h
    split at h <;> cases h
    next hown => exact .lockOwned hown
    next hother => exact .lockOther hother
  | tryLock =>
    rw [enter, osTryLockMutex] at h
    split at h <;> cases h
    next hown => exact .tryOwned hown
    next hother => exact .tryOther hother
  | unlock =>
    rw [enter, osUnlockMutex] at h
    split at h <;> cases h
    next hown => exact .unlockOwned hown
    next hother => exact .unlockOther hother
  | wait cond =>
    cases h
    exact .wait cond
  | signal cond =>
    cases h
    exact .signal cond

theorem advance_cases {s s' : State τ κ} {t : τ} {reply : Option Reply}
    (h : advance s t = some (reply, s')) : Advances s t (s.pc t) reply s' := by
  rw [advance] at h
  cases hpc : s.pc t with rw [hpc] at h
  | idle | asleep _ _ => cases h
  | entering op => exact enter_cases h
  | incrementing op =>
    cases h
    exact .incrementing op
  | storing op count =>
    cases h
    exact .storing op count
  | acquiring =>
    dsimp only at h
    split at h <;> cases h
    next hfree => exact .acquiring hfree
  | trying =>
    dsimp only at h
    split at h <;> cases h
    next hfree => exact .trying hfree
    next htaken => exact .tryingFails htaken
  | acquired op =>
    cases h
    exact .acquired op
  | decrementing =>
    cases h
    exact .decrementing
  | storingLess count =>
    dsimp only at h
    split at h <;> cases h
    next hzero =>
      subst hzero
      exact .storingZero
    next hne => exact .storingLess hne
  | releasing =>
    cases h
    exact .releasing
  | clearing cond saved =>
    cases h
    exact .clearing cond saved
  | releasingToWait cond saved =>
    cases h
    exact .releasingToWait cond saved
  | woken cond saved =>
    dsimp only at h
    split at h <;> cases h
    next hfree => exact .woken cond saved hfree
  | restoring cond saved =>
    cases h
    exact .restoring cond saved

inductive Event (τ κ : Type) where
  | call (t : τ) (op : Op κ)
  | run (t : τ) (reply : Option Reply)
deriving DecidableEq, Repr

-- `OSWaitCond` is for the holder.
def Allowed (s : State τ κ) (t : τ) : Op κ → Prop
  | .wait _ => s.host.lock = some t
  | _ => True

inductive Step : State τ κ → Event τ κ → State τ κ → Prop
  | call {s : State τ κ} {t : τ} {op : Op κ} : s.pc t = .idle → Allowed s t op →
      Step s (.call t op) (s.goto t (.entering op))
  | run {s s' : State τ κ} {t : τ} {reply : Option Reply} : advance s t = some (reply, s') →
      Step s (.run t reply) s'

-- The count is a `uint32`: in these runs no depth reaches 2^32.
def BoundedStep (s : State τ κ) (e : Event τ κ) (s' : State τ κ) : Prop :=
  Step s e s' ∧ ∀ t, s'.depth t < 2 ^ 32

abbrev Run : State τ κ → List (Event τ κ) → State τ κ → Prop := Transition.Run BoundedStep

end CoreinitNx.Mutex
