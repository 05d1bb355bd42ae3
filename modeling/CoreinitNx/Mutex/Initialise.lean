import CoreinitNx.Mutex.Basic

namespace CoreinitNx.Mutex

variable {τ κ : Type}

def osInitMutex (mutexes : HandleTable (HostMutex τ)) (mutex : UInt64) :
    HandleTable (HostMutex τ) := (mutexes.get mutex).2

-- The points of a call at which its thread owns the lock.
def Pc.Holds : Pc κ → Prop
  | .entering (.wait _) | .incrementing _ | .storing _ _ | .acquired _ | .decrementing
  | .storingLess _ | .releasing | .clearing _ _ | .releasingToWait _ _ | .restoring _ _ => True
  | .idle | .entering _ | .acquiring | .trying | .asleep _ _ | .woken _ _ => False

-- The points between the store of a zero count and the release of the lock.
def Pc.Cleared : Pc κ → Prop
  | .releasing | .releasingToWait _ _ => True
  | _ => False

structure Tidy (s : State τ κ) : Prop where
  owner : ∀ t, (s.pc t).Holds → s.host.lock = some t
  cleared : ∀ t, (s.pc t).Cleared → s.host.count = 0
  free : s.host.lock = none → s.host.count = 0

variable {s s' s₁ : State τ κ} {t u : τ} {pc : Pc κ} {op : Op κ} {reply : Option Reply}
  {e : Event τ κ} {es : List (Event τ κ)}

theorem Pc.Cleared.holds (h : pc.Cleared) : pc.Holds := by
  cases pc with
  | releasing | releasingToWait _ _ => trivial
  | idle | entering _ | incrementing _ | storing _ _ | acquiring | trying | acquired _
  | decrementing | storingLess _ | clearing _ _ | asleep _ _ | woken _ _ | restoring _ _ =>
    exact h.elim

theorem tidy_initial : Tidy (State.initial : State τ κ) :=
  ⟨fun _ h => h.elim, fun _ h => h.elim, fun _ => rfl⟩

variable [DecidableEq τ]

-- A thread changes the count only while it owns the lock.
theorem Tidy.goto (hs : Tidy s) (hpc : s₁.pc = s.pc)
    (hlock : ∀ u, u ≠ t → s.host.lock = some u → s₁.host.lock = some u)
    (hcount : s.host.lock ≠ some t → s₁.host.count = s.host.count)
    (hself : pc.Holds → s₁.host.lock = some t) (hcleared : pc.Cleared → s₁.host.count = 0)
    (hfree : s₁.host.lock = none → s₁.host.count = 0) : Tidy (s₁.goto t pc) := by
  refine ⟨fun u hu => ?_, fun u hu => ?_, hfree⟩
  · by_cases hut : u = t
    · subst hut
      rw [State.goto_pc_self] at hu
      exact hself hu
    · rw [State.goto_pc_ne _ _ _ hut, hpc] at hu
      exact hlock u hut (hs.owner u hu)
  · by_cases hut : u = t
    · subst hut
      rw [State.goto_pc_self] at hu
      exact hcleared hu
    · rw [State.goto_pc_ne _ _ _ hut, hpc] at hu
      have hown := hs.owner u hu.holds
      refine (hcount fun ht => hut ?_).trans (hs.cleared u hu)
      rw [hown] at ht
      exact Option.some.inj ht

theorem Tidy.move (hs : Tidy s) (hself : pc.Holds → s.host.lock = some t)
    (hcleared : pc.Cleared → s.host.count = 0) : Tidy (s.goto t pc) :=
  hs.goto rfl (fun _ _ h => h) (fun _ => rfl) hself hcleared hs.free

theorem Tidy.store {count : UInt32} (hs : Tidy s) (hown : s.host.lock = some t)
    (hcleared : pc.Cleared → count = 0) : Tidy ((s.setCount count).goto t pc) := by
  refine hs.goto rfl (fun _ _ h => h) (fun hno => absurd hown hno) (fun _ => hown) hcleared ?_
  intro hnone
  rw [show (s.setCount count).host.lock = s.host.lock from rfl, hown] at hnone
  cases hnone

theorem Tidy.take (hs : Tidy s) (hfree : s.host.lock = none) (hcleared : ¬pc.Cleared) :
    Tidy ((s.setLock (some t)).goto t pc) := by
  refine hs.goto rfl (fun u _ h => ?_) (fun _ => rfl) (fun _ => rfl) (fun h => absurd h hcleared)
    fun h => nomatch h
  rw [hfree] at h
  cases h

theorem Tidy.give (hs : Tidy s) (hown : s.host.lock = some t) (hzero : s.host.count = 0)
    (hself : ¬pc.Holds) : Tidy ((s.setLock none).goto t pc) := by
  refine hs.goto rfl (fun u hu h => ?_) (fun hno => absurd hown hno) (fun h => absurd h hself)
    (fun h => absurd h.holds hself) fun _ => hzero
  rw [hown] at h
  exact absurd (Option.some.inj h).symm hu

theorem Tidy.setDepth {n : Nat} (hs : Tidy s) : Tidy (s.setDepth t n) :=
  ⟨hs.owner, hs.cleared, hs.free⟩

variable [DecidableEq κ]

omit [DecidableEq τ] in
theorem Pc.holds_wake (c : κ) : (pc.wake c).Holds ↔ pc.Holds := by
  rcases pc.wake_cases c with heq | ⟨saved, rfl, heq⟩
  · rw [heq]
  · rw [heq]
    exact Iff.rfl

omit [DecidableEq τ] in
theorem Pc.cleared_wake (c : κ) : (pc.wake c).Cleared ↔ pc.Cleared := by
  rcases pc.wake_cases c with heq | ⟨saved, rfl, heq⟩
  · rw [heq]
  · rw [heq]
    exact Iff.rfl

theorem Tidy.signal (hs : Tidy s) (c : κ) :
    Tidy { s with pc := Function.update (fun u => (s.pc u).wake c) t .idle } := by
  have hwoken : Tidy { s with pc := fun u => (s.pc u).wake c } :=
    ⟨fun u hu => hs.owner u ((Pc.holds_wake c).1 hu),
      fun u hu => hs.cleared u ((Pc.cleared_wake c).1 hu), hs.free⟩
  exact hwoken.move False.elim False.elim

theorem advance_tidy (hs : Tidy s) (h : advance s t = some (reply, s')) : Tidy s' := by
  have hown : (s.pc t).Holds → s.host.lock = some t := hs.owner t
  have hzero : (s.pc t).Cleared → s.host.count = 0 := hs.cleared t
  have hstep := advance_cases h
  generalize s.pc t = pc at hown hzero hstep
  cases hstep with
  | lockOwned hlock | tryOwned hlock | unlockOwned hlock =>
    exact hs.move (fun _ => hlock) False.elim
  | lockOther | tryOther | unlockOther | tryingFails => exact hs.move False.elim False.elim
  | wait | incrementing | decrementing => exact hs.move hown False.elim
  | signal c => exact hs.signal c
  | storing | storingLess => exact hs.setDepth.store (hown trivial) False.elim
  | acquiring hfree | trying hfree => exact hs.setDepth.take hfree id
  | acquired | restoring => exact hs.store (hown trivial) False.elim
  | storingZero | clearing => exact hs.store (hown trivial) fun _ => rfl
  | releasing => exact hs.setDepth.give (hown trivial) (hzero trivial) id
  | releasingToWait => exact hs.give (hown trivial) (hzero trivial) id
  | woken c saved hfree => exact hs.take hfree id

theorem Step.tidy (h : Step s e s') (hs : Tidy s) : Tidy s' := by
  cases h with
  | @call t op hidle hallowed =>
    refine hs.move (fun h => ?_) False.elim
    cases op with
    | wait c => exact hallowed
    | lock | tryLock | unlock | signal _ => exact h.elim
  | run hrun => exact advance_tidy hs hrun

end CoreinitNx.Mutex
