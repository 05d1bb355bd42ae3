import CoreinitNx.Thread.Runs
import CoreinitNx.Library.Slots

namespace CoreinitNx.Thread

-- What a thread is to call: the callbacks that the record of its `OSThread` names when they fall
-- due, and `none` for one that has not fallen due yet.
structure Owed where
  cleanup : Option (Option Callback)
  deallocator : Option (Option Callback)
deriving DecidableEq, Repr

def Owed.nothing : Owed := ⟨none, none⟩

-- The cleanup callback comes before the deallocator.
def Owed.callbacks (o : Owed) : List Callback := o.cleanup.join.toList ++ o.deallocator.join.toList

-- The thread leaves the function it is in. Out of its entry function the cleanup callback falls
-- due, and with it the deallocator if there is no cleanup callback, or if the thread is made to exit.
def Owed.leave (o : Owed) (h : HostThread) (exits : Bool) : Owed :=
  match o.cleanup with
  | none =>
    ⟨some h.cleanupCall,
      if exits ∨ h.cleanupCall = none then some h.deallocatorCall else none⟩
  | some cleanup => ⟨some cleanup, some (o.deallocator.getD h.deallocatorCall)⟩

-- The record of the thread's `OSThread`.
def State.record (s : State) (i : Nat) : HostThread :=
  match s.kernel[i]? with
  | some k => s.threads.view k.guest
  | none => HostObject.init

-- Whether an event makes a thread leave the function it is in, and whether by an exit.
def Event.leaves (s : State) (i : Nat) : Event → Option Bool
  | .entryReturned j _ | .cleanupReturned j => if j = i then some false else none
  | .exitThread j _ => if j = i then some true else none
  | .testCancel j => if j = i ∧ (s.record i).honoursCancel then some true else none
  | _ => none

def Owed.after (o : Owed) (s : State) (i : Nat) (e : Event) : Owed :=
  match e.leaves s i with
  | some exits => o.leave (s.record i) exits
  | none => o

-- A state, and what its threads are to call.
structure Owing where
  state : State
  owed : Nat → Owed

def Owing.initial (mainThread : OSThread) : Owing := ⟨State.initial mainThread, fun _ => .nothing⟩

structure OwingStep (w : Owing) (e : Event) (w' : Owing) : Prop where
  step : Step w.state e w'.state
  owed : ∀ i, w'.owed i = (w.owed i).after w.state i e

abbrev OwingRun := Transition.Run OwingStep

def Owing.next (w : Owing) (e : Event) (s : State) : Owing :=
  ⟨s, fun i => (w.owed i).after w.state i e⟩

variable {s s' : State} {w w' : Owing} {e : Event} {es : List Event} {h : HostThread}
  {k k' : KernelThread} {o o' : Owed} {i id : Nat}

def KernelThread.Ended (k : KernelThread) (o : Owed) : Prop :=
  k.life = .exited → k.called = o.callbacks

-- Up to its end a thread has called what was due, and nothing is due before its turn.
def KernelThread.OnTrack (k : KernelThread) (o : Owed) : Prop :=
  match k.life with
  | .ready | .started | .entry => k.called = [] ∧ o = .nothing
  | .cleanup => ∃ callback, k.called = [callback] ∧ o = ⟨some (some callback), none⟩
  | .deallocator => k.called = o.callbacks ∧ ∃ cleanup deallocator, o = ⟨some cleanup, some deallocator⟩
  | .exited => True

-- Leaving the function it is in, the thread skips no callback.
def KernelThread.LeavesNothing (k : KernelThread) (h : HostThread) : Prop :=
  match k.life with
  | .entry => h.cleanup = 0 ∧ h.deallocator = 0
  | .cleanup => h.deallocator = 0
  | _ => True

theorem cleanupCall_eq_none : h.cleanupCall = none ↔ h.cleanup = 0 := by
  simp [HostThread.cleanupCall]

theorem deallocatorCall_eq_none : h.deallocatorCall = none ↔ h.deallocator = 0 := by
  simp [HostThread.deallocatorCall]

theorem toList_eq_nil {α : Type} {o : Option α} : o.toList = [] ↔ o = none := by
  cases o <;> simp

theorem exit_ended_iff (value : Option Int32) (hk : k.OnTrack o) (hin : k.life.inGuest) :
    ({ k.exit with value } : KernelThread).Ended (o.leave h true) ↔ k.LeavesNothing h := by
  have hended : ({ k.exit with value } : KernelThread).Ended (o.leave h true) ↔
      k.called = (o.leave h true).callbacks := forall_prop_of_true rfl
  rw [hended]
  cases hlife : k.life with
  | entry =>
    simp only [KernelThread.OnTrack, hlife] at hk
    obtain ⟨hcalled, rfl⟩ := hk
    simp only [KernelThread.LeavesNothing, hlife, hcalled, Owed.leave, Owed.nothing,
      Owed.callbacks, true_or, if_true, Option.join_some, List.nil_eq, List.append_eq_nil_iff,
      toList_eq_nil, cleanupCall_eq_none, deallocatorCall_eq_none]
  | cleanup =>
    simp only [KernelThread.OnTrack, hlife] at hk
    obtain ⟨callback, hcalled, rfl⟩ := hk
    simp only [KernelThread.LeavesNothing, hlife, hcalled, Owed.leave, Owed.callbacks,
      Option.getD_none, Option.join_some, Option.toList_some, List.self_eq_append_right,
      toList_eq_nil, deallocatorCall_eq_none]
  | deallocator =>
    simp only [KernelThread.OnTrack, hlife] at hk
    obtain ⟨hcalled, cleanup, deallocator, rfl⟩ := hk
    simp only [KernelThread.LeavesNothing, hlife, hcalled, Owed.leave, Option.getD_some]
  | ready => rw [hlife] at hin; exact hin.elim
  | started => rw [hlife] at hin; exact hin.elim
  | exited => rw [hlife] at hin; exact hin.elim

theorem onTrack_of_exited (hlife : k.life = .exited) : k.OnTrack o := by
  simp only [KernelThread.OnTrack, hlife]

theorem ended_of_life (hlife : k.life ≠ .exited) : k.Ended o := fun h => absurd h hlife

-- The last step of `trampoline` calls the deallocator in force, and no other.
theorem deallocate_sound (cleanup : Option Callback) (hcalled : k.called = cleanup.toList) :
    (k.deallocate h).OnTrack ⟨some cleanup, some h.deallocatorCall⟩ ∧
      (k.deallocate h).Ended ⟨some cleanup, some h.deallocatorCall⟩ := by
  rw [KernelThread.deallocate]
  split
  next callback hcall =>
    have hdone : k.called ++ [callback] =
        (⟨some cleanup, some h.deallocatorCall⟩ : Owed).callbacks := by
      rw [hcalled, hcall]
      rfl
    exact ⟨⟨hdone, _, _, rfl⟩, ended_of_life (by rintro ⟨⟩)⟩
  next hnone =>
    refine ⟨trivial, fun _ => ?_⟩
    rw [Owed.callbacks, hnone]
    exact hcalled.trans (List.append_nil _).symm

theorem returned_sound (value : Int32) (hk : k.OnTrack o) (hlife : k.life = .entry) :
    (k.returned h value).OnTrack (o.leave h false) ∧
      (k.returned h value).Ended (o.leave h false) := by
  simp only [KernelThread.OnTrack, hlife] at hk
  obtain ⟨hcalled, rfl⟩ := hk
  simp only [KernelThread.returned]
  cases hcall : h.cleanupCall with
  | some callback =>
    simp only [Owed.leave, Owed.nothing, hcall, hcalled, reduceCtorEq, or_false,
      Bool.false_eq_true, if_false]
    exact ⟨⟨callback, rfl, rfl⟩, ended_of_life (by rintro ⟨⟩)⟩
  | none =>
    simp only [Owed.leave, Owed.nothing, hcall, or_true, if_true]
    exact deallocate_sound none hcalled

-- What holds of the threads, with one of them changed.
theorem forall_set_iff {Q : Nat → KernelThread → Prop} {l : List KernelThread}
    (hk : l[id]? = some k) : (∀ i x, (l.set id k')[i]? = some x → Q i x) ↔
      (∀ i x, i ≠ id → l[i]? = some x → Q i x) ∧ Q id k' := by
  obtain ⟨hi, -⟩ := List.getElem?_eq_some_iff.1 hk
  constructor
  · intro hall
    refine ⟨fun i x hne hx => hall i x ?_, hall id k' (List.getElem?_set_self hi)⟩
    rwa [List.getElem?_set_ne (Ne.symm hne)]
  · rintro ⟨hall, hself⟩ i x hx
    by_cases hne : i = id
    · subst hne
      rw [List.getElem?_set_self hi] at hx
      cases hx
      exact hself
    · rw [List.getElem?_set_ne (Ne.symm hne)] at hx
      exact hall i x hne hx

theorem forall_split_iff {Q : Nat → KernelThread → Prop} {l : List KernelThread}
    (hk : l[id]? = some k) : (∀ i x, l[i]? = some x → Q i x) ↔
      (∀ i x, i ≠ id → l[i]? = some x → Q i x) ∧ Q id k := by
  have hsame : l.set id k = l := by
    obtain ⟨hi, rfl⟩ := List.getElem?_eq_some_iff.1 hk
    exact List.set_getElem_self hi
  rw [← forall_set_iff hk, hsame]

theorem forall_concat_iff {Q : Nat → KernelThread → Prop} {l : List KernelThread} :
    (∀ i x, (l ++ [k])[i]? = some x → Q i x) ↔
      (∀ i x, l[i]? = some x → Q i x) ∧ Q l.length k := by
  constructor
  · intro hall
    exact ⟨fun i x hx => hall i x (Slots.concat_eq_some_iff.2 (.inl hx)),
      hall _ _ (Slots.concat_eq_some_iff.2 (.inr ⟨rfl, rfl⟩))⟩
  · rintro ⟨hall, hlast⟩ i x hx
    rcases Slots.concat_eq_some_iff.1 hx with hold | ⟨rfl, rfl⟩
    · exact hall i x hold
    · exact hlast

structure Tracked (w : Owing) : Prop where
  onTrack : ∀ i (k : KernelThread), w.state.kernel[i]? = some k → k.OnTrack (w.owed i)
  unborn : ∀ i, w.state.kernel.length ≤ i → w.owed i = .nothing

-- Every thread that has ended has called what it was to call, in order and each once.
def AllCalled (w : Owing) : Prop :=
  ∀ i (k : KernelThread), w.state.kernel[i]? = some k → k.Ended (w.owed i)

-- A thread that ends by `OSExitThread`, or by an `OSTestThreadCancel` that honours a request, does
-- so when no callback is in force that it has not called.
def ExitsClean (s : State) : Event → Prop
  | .exitThread id _ =>
    ∀ k, s.kernel[id]? = some k → k.LeavesNothing (s.threads.view k.guest)
  | .testCancel id =>
    ∀ k, s.kernel[id]? = some k → (s.threads.view k.guest).honoursCancel →
      k.LeavesNothing (s.threads.view k.guest)
  | _ => True

-- What a step does to the callbacks: nothing, or one thread moves on.
theorem step_of_kernel (hkernel : w'.state.kernel = w.state.kernel)
    (howed : ∀ i, w'.owed i = w.owed i) (ht : Tracked w) :
    Tracked w' ∧ (AllCalled w' ↔ AllCalled w) := by
  refine ⟨⟨fun i k hk => ?_, fun i hk => ?_⟩, by simp only [AllCalled, hkernel, howed]⟩
  · rw [howed]
    exact ht.onTrack i k (hkernel ▸ hk)
  · rw [howed]
    exact ht.unborn i (hkernel ▸ hk)

theorem step_of_move (hk : w.state.kernel[id]? = some k) (hlive : k.life ≠ .exited)
    (hkernel : w'.state.kernel = w.state.kernel.set id k')
    (howed : ∀ i, i ≠ id → w'.owed i = w.owed i) (hself : k'.OnTrack (w'.owed id))
    (ht : Tracked w) : Tracked w' ∧ (AllCalled w' ↔ AllCalled w ∧ k'.Ended (w'.owed id)) := by
  have hothers {Q : KernelThread → Owed → Prop} :
      (∀ i x, i ≠ id → w.state.kernel[i]? = some x → Q x (w'.owed i)) ↔
        ∀ i x, i ≠ id → w.state.kernel[i]? = some x → Q x (w.owed i) := by
    refine forall₃_congr fun i x hne => ?_
    rw [howed i hne]
  refine ⟨⟨?_, fun i hnone => ?_⟩, ?_⟩
  · rw [hkernel, forall_set_iff hk, hothers]
    exact ⟨fun i x _ hx => ht.onTrack i x hx, hself⟩
  · rw [hkernel, List.length_set] at hnone
    obtain ⟨hlt, -⟩ := List.getElem?_eq_some_iff.1 hk
    rw [howed i (Nat.ne_of_gt (Nat.lt_of_lt_of_le hlt hnone))]
    exact ht.unborn i hnone
  · rw [AllCalled, AllCalled, hkernel, forall_set_iff hk, forall_split_iff hk,
      hothers (Q := KernelThread.Ended), and_iff_left (ended_of_life hlive)]

theorem call_callbacks {current : Option OSThread} {op : Op}
    (hstate : w'.state = (call current op w.state).2) (howed : ∀ i, w'.owed i = w.owed i)
    (ht : Tracked w) : Tracked w' ∧ (AllCalled w' ↔ AllCalled w) := by
  rcases op_cases op with ⟨thread, args, answers, rfl⟩ | ⟨thread, willing, rfl⟩ | hedit
  · cases hcpu : createdCpu args.attributes answers with
    | some cpu =>
      have hkernel : w'.state.kernel =
          w.state.kernel ++ [newKernelThread thread args answers.processPrio cpu] := by
        simp only [hstate, call, osCreateThread_some hcpu, Prod.map, id_eq]
      have hfresh : (newKernelThread thread args answers.processPrio cpu).OnTrack
          (w.owed w.state.kernel.length) := ⟨rfl, ht.unborn _ (Nat.le_refl _)⟩
      have hready : (newKernelThread thread args answers.processPrio cpu).life ≠ .exited := by
        rintro ⟨⟩
      simp only [AllCalled, hkernel, howed, forall_concat_iff]
      refine ⟨⟨?_, fun i hle => ?_⟩, and_iff_left (ended_of_life hready)⟩
      · simp only [hkernel, howed, forall_concat_iff]
        exact ⟨ht.onTrack, hfresh⟩
      · rw [hkernel, List.length_append] at hle
        rw [howed]
        exact ht.unborn i (Nat.le_trans (Nat.le_add_right _ _) hle)
    | none =>
      refine step_of_kernel ?_ howed ht
      simp only [hstate, call, osCreateThread_none hcpu, Prod.map, id_eq]
  · obtain ⟨count, started, kernel, heq, hsame | ⟨i, k, -, hk, hready, hstart⟩⟩ :=
      osResumeThread_spec w.state thread willing
    · refine step_of_kernel ?_ howed ht
      simp only [hstate, call, heq, Prod.map, id_eq, hsame]
    · have htrack := ht.onTrack i k hk
      simp only [KernelThread.OnTrack, hready] at htrack
      have hkernel : w'.state.kernel = w.state.kernel.set i { k with life := .started } := by
        simp only [hstate, call, heq, Prod.map, id_eq, hstart]
      have hlive : k.life ≠ .exited := by
        rw [hready]
        rintro ⟨⟩
      rw [← howed i] at htrack
      have hmove := step_of_move hk hlive hkernel (fun i _ => howed i) htrack ht
      rwa [and_iff_left (ended_of_life (by rintro ⟨⟩))] at hmove
  · refine step_of_kernel ?_ howed ht
    rw [hstate, hedit]
    cases op.edit current w.state.mainThread <;> rfl

theorem forall_kernel_iff {P : KernelThread → Prop} (hk : s.kernel[id]? = some k) :
    (∀ k', s.kernel[id]? = some k' → P k') ↔ P k := by
  simp only [hk, Option.some.injEq, forall_eq']

theorem joinStarts_kernel {thread : OSThread} : (joinStarts s thread).2.kernel = s.kernel := by
  rw [joinStarts]
  dsimp only
  split <;> rfl

theorem record_eq (hk : s.kernel[i]? = some k) : s.record i = s.threads.view k.guest := by
  rw [State.record, hk]

theorem after_of_leaves {exits : Bool} (h : e.leaves s i = some exits) :
    o.after s i e = o.leave (s.record i) exits := by
  rw [Owed.after, h]

theorem after_of_stays (h : e.leaves s i = none) : o.after s i e = o := by
  rw [Owed.after, h]

-- The result is not one of the things that a thread owes.
theorem leave_setExitResult {exits : Bool} {thread : OSThread} {value : Int32} :
    o.leave ((setExitResult s thread value).threads.view thread) exits =
      o.leave (s.threads.view thread) exits := by
  rw [setExitResult_view, if_pos rfl]
  rfl

-- A thread leaves the function it is in; the others stay where they are.
theorem step_of_leave {exits : Bool} (hs : OwingStep w e w')
    (hk : w.state.kernel[id]? = some k) (hlive : k.life ≠ .exited)
    (hkernel : w'.state.kernel = w.state.kernel.set id k')
    (hleaves : e.leaves w.state id = some exits)
    (hothers : ∀ i, i ≠ id → e.leaves w.state i = none)
    (hself : k'.OnTrack ((w.owed id).leave (w.state.threads.view k.guest) exits))
    (ht : Tracked w) :
    Tracked w' ∧ (AllCalled w' ↔ AllCalled w ∧
      k'.Ended ((w.owed id).leave (w.state.threads.view k.guest) exits)) := by
  have howed : w'.owed id = (w.owed id).leave (w.state.threads.view k.guest) exits := by
    rw [hs.owed, after_of_leaves hleaves, record_eq hk]
  rw [← howed] at hself ⊢
  exact step_of_move hk hlive hkernel
    (fun i hne => (hs.owed i).trans (after_of_stays (hothers i hne))) hself ht

theorem live_of_inGuest (hin : k.life.inGuest) : k.life ≠ .exited := by
  intro hlife
  rw [hlife] at hin
  exact hin

theorem OwingStep.callbacks (hs : OwingStep w e w') (ht : Tracked w) :
    Tracked w' ∧ (AllCalled w' ↔ AllCalled w ∧ ExitsClean w.state e) := by
  have hquiet (h : Tracked w' ∧ (AllCalled w' ↔ AllCalled w)) :
      Tracked w' ∧ (AllCalled w' ↔ AllCalled w ∧ True) := by rwa [and_true]
  have hlive {k : KernelThread} {life : Life} (h : k.life = life) (hne : life ≠ .exited) :
      k.life ≠ .exited := fun heq => hne (h.symm.trans heq)
  have hstays (h : ∀ i, e.leaves w.state i = none) (i : Nat) : w'.owed i = w.owed i :=
    (hs.owed i).trans (after_of_stays (h i))
  obtain ⟨s', owed'⟩ := w'
  have hstep : Step w.state e s' := hs.step
  cases hstep with
  | call => exact hquiet (call_callbacks rfl (hstays fun _ => rfl) ht)
  | joinStarts => exact hquiet (step_of_kernel joinStarts_kernel (hstays fun _ => rfl) ht)
  | joinFails | joinSucceeds => exact hquiet (step_of_kernel rfl (hstays fun _ => rfl) ht)
  | @enter id k hk hlife =>
    have htrack := ht.onTrack id k hk
    simp only [KernelThread.OnTrack, hlife] at htrack
    rw [← hstays (fun _ => rfl) id] at htrack
    have hentered : ({ k with life := .entry } : KernelThread).OnTrack (owed' id) := htrack
    have hmove := step_of_move hk (hlive hlife (by rintro ⟨⟩)) rfl
      (fun i _ => hstays (fun _ => rfl) i) hentered ht
    rw [and_iff_left (ended_of_life (by rintro ⟨⟩))] at hmove
    exact hquiet hmove
  | @deallocatorReturned id k hk hlife =>
    have htrack := ht.onTrack id k hk
    simp only [KernelThread.OnTrack, hlife] at htrack
    rw [← hstays (fun _ => rfl) id] at htrack
    have hended : ({ k with life := .exited } : KernelThread).OnTrack (owed' id) := trivial
    have hmove := step_of_move hk (hlive hlife (by rintro ⟨⟩)) rfl
      (fun i _ => hstays (fun _ => rfl) i) hended ht
    have hdone : ({ k with life := .exited } : KernelThread).Ended (owed' id) := fun _ => htrack.1
    rw [and_iff_left hdone] at hmove
    exact hquiet hmove
  | @entryReturned id k value hk hlife =>
    have hsound := returned_sound (h := (setExitResult w.state k.guest value).threads.view k.guest)
      value (ht.onTrack id k hk) hlife
    rw [leave_setExitResult] at hsound
    have hmove := step_of_leave hs hk (hlive hlife (by rintro ⟨⟩)) rfl (if_pos rfl)
      (fun i hne => if_neg (Ne.symm hne)) hsound.1 ht
    rw [and_iff_left hsound.2] at hmove
    exact hquiet hmove
  | @cleanupReturned id k hk hlife =>
    have htrack := ht.onTrack id k hk
    simp only [KernelThread.OnTrack, hlife] at htrack
    obtain ⟨callback, hcalled, howed⟩ := htrack
    have hsound := deallocate_sound (some callback) (h := w.state.threads.view k.guest) hcalled
    have hleave : (w.owed id).leave (w.state.threads.view k.guest) false =
        ⟨some (some callback), some (w.state.threads.view k.guest).deallocatorCall⟩ := by
      rw [howed]
      rfl
    rw [← hleave] at hsound
    have hmove := step_of_leave hs hk (hlive hlife (by rintro ⟨⟩)) rfl (if_pos rfl)
      (fun i hne => if_neg (Ne.symm hne)) hsound.1 ht
    rw [and_iff_left hsound.2] at hmove
    exact hquiet hmove
  | @exitThread id k result hk hin =>
    have hclean : ExitsClean w.state (.exitThread id result) ↔
        k.LeavesNothing (w.state.threads.view k.guest) := forall_kernel_iff hk
    rw [hclean, ← exit_ended_iff (some result) (ht.onTrack id k hk) hin]
    exact step_of_leave hs hk (live_of_inGuest hin) rfl (if_pos rfl)
      (fun i hne => if_neg (Ne.symm hne)) (onTrack_of_exited rfl) ht
  | @testCancel id k hk hin =>
    by_cases hhonour : (w.state.threads.view k.guest).honoursCancel
    · have hkernel : (osTestThreadCancel w.state id k).kernel = w.state.kernel.set id k.exit :=
        congrArg State.kernel (if_pos hhonour)
      have hclean : ExitsClean w.state (.testCancel id) ↔
          k.LeavesNothing (w.state.threads.view k.guest) :=
        (forall_kernel_iff hk).trans (forall_prop_of_true hhonour)
      rw [hclean, ← exit_ended_iff k.value (ht.onTrack id k hk) hin]
      exact step_of_leave hs hk (live_of_inGuest hin) hkernel
        (if_pos ⟨rfl, by rwa [record_eq hk]⟩) (fun i hne => if_neg fun h => hne h.1.symm)
        (onTrack_of_exited rfl) ht
    · have hsame : osTestThreadCancel w.state id k = w.state := if_neg hhonour
      have hclean : ExitsClean w.state (.testCancel id) :=
        (forall_kernel_iff hk).2 fun h => absurd h hhonour
      have hnone (i : Nat) : (Event.testCancel id).leaves w.state i = none := by
        refine if_neg ?_
        rintro ⟨rfl, hcancel⟩
        rw [record_eq hk] at hcancel
        exact hhonour hcancel
      rw [iff_true_intro hclean]
      exact hquiet (step_of_kernel (congrArg State.kernel hsame) (hstays hnone) ht)

theorem Step.owing (hs : Step w.state e s) : OwingStep w e (w.next e s) := ⟨hs, fun _ => rfl⟩

section Runs

variable {mainThread : OSThread}

abbrev CleanRun := Transition.Run fun w e w' => OwingStep w e w' ∧ ExitsClean w.state e

theorem CleanRun.move (run : CleanRun (.initial mainThread) es w) (hs : Step w.state e s)
    (hclean : ExitsClean w.state e) : CleanRun (.initial mainThread) (es ++ [e]) (w.next e s) :=
  run.snoc ⟨hs.owing, hclean⟩

theorem owingRun_of_cleanRun (run : CleanRun (.initial mainThread) es w) :
    OwingRun (.initial mainThread) es w := run.mono fun _ _ _ hs => hs.1

theorem OwingRun.run (run : OwingRun (.initial mainThread) es w) :
    Run (State.initial mainThread) es w.state := by
  induction run with
  | nil => exact .nil
  | snoc _ hs ih => exact ih.snoc hs.step

-- Keeping the account takes nothing from a run.
theorem exists_owingRun (run : Run (State.initial mainThread) es s) :
    ∃ owed, OwingRun (.initial mainThread) es ⟨s, owed⟩ := by
  induction run with
  | nil => exact ⟨_, .nil⟩
  | snoc _ hs ih =>
    obtain ⟨owed, run⟩ := ih
    exact ⟨_, run.snoc hs.owing⟩

theorem tracked_of_run (run : OwingRun (.initial mainThread) es w) : Tracked w := by
  induction run with
  | nil => exact ⟨fun _ _ hk => (by cases hk), fun _ _ => rfl⟩
  | snoc _ hs ih => exact (hs.callbacks ih).1

-- Every thread that has ended called all its callbacks, if and only if each exit along the run was
-- clean.
theorem cleanRun_iff (run : OwingRun (.initial mainThread) es w) :
    CleanRun (.initial mainThread) es w ↔ AllCalled w := by
  constructor
  · intro clean
    clear run
    induction clean with
    | nil => exact fun _ _ hk => by cases hk
    | snoc clean hs ih =>
      exact ((hs.1.callbacks (tracked_of_run (owingRun_of_cleanRun clean))).2).2 ⟨ih, hs.2⟩
  · intro hall
    induction run with
    | nil => exact .nil
    | snoc run hs ih =>
      obtain ⟨hall, hclean⟩ := ((hs.callbacks (tracked_of_run run)).2).1 hall
      exact (ih hall).snoc ⟨hs, hclean⟩

end Runs

end CoreinitNx.Thread
