import CoreinitNx.Thread.Endings

namespace CoreinitNx.Thread

open HandleTable Slots

variable {s s' : State} {e : Event} {es : List Event} {thread t : OSThread} {h : HostThread}
  {k k' : KernelThread} {i : Nat}

-- The thread most recently created on an `OSThread`.
def State.latest (s : State) (thread : OSThread) : Option KernelThread :=
  (s.threads.view thread).handle.bind (s.kernel[·]?)

-- The flags of a record, where its thread was created and not joined, say whether the thread has
-- been started.
structure Flagged (s : State) : Prop extends Named s where
  started : ∀ thread i k, (s.threads.view thread).handle = some i → s.kernel[i]? = some k →
    (s.threads.view thread).created = true →
    ((s.threads.view thread).started = true ↔ k.life ≠ .ready)

theorem flagged_initial {mainThread : OSThread} (hmain : mainThread ≠ 0) :
    Flagged (State.initial mainThread) where
  main := hmain
  guest _ _ hhandle := nomatch hhandle
  handle _ _ hhandle := nomatch hhandle
  started _ _ _ hhandle := nomatch hhandle

theorem flagged_of_records (hf : Flagged s) (hmain : s'.mainThread = s.mainThread)
    (hkernel : s'.kernel = s.kernel)
    (hhandle : ∀ t, (s'.threads.view t).handle = (s.threads.view t).handle)
    (hguest : ∀ t i, (s.threads.view t).handle = some i →
      (s'.threads.view t).guest = (s.threads.view t).guest)
    (hflags : ∀ t i, (s.threads.view t).handle = some i →
      (s'.threads.view t).created = true → (s.threads.view t).created = true ∧
        (s'.threads.view t).started = (s.threads.view t).started) : Flagged s' where
  toNamed := named_of_records hf.toNamed hmain hkernel hhandle hguest
  started t i k heq hk hcreated := by
    rw [hhandle] at heq
    rw [hkernel] at hk
    obtain ⟨hold, hstarted⟩ := hflags t i heq hcreated
    rw [hstarted]
    exact hf.started t i k heq hk hold

-- A thread that has been started moves on.
theorem flagged_setKernel (hf : Flagged s) (hk : s.kernel[i]? = some k) (hguest : k'.guest = k.guest)
    (hlife : k.life ≠ .ready) (hlife' : k'.life ≠ .ready) : Flagged (s.setKernel i k') where
  toNamed := named_setKernel hf.toNamed hk hguest
  started t j k₀ heq hk₀ hcreated := by
    rw [kernel_setKernel hk] at hk₀
    split at hk₀
    next hj =>
      subst hj
      cases hk₀
      rw [setKernel_threads, hf.started t i k heq hk hcreated]
      exact iff_of_true hlife hlife'
    next => exact hf.started t j k₀ heq hk₀ hcreated

theorem flagged_setExitResult {value : Int32} (hf : Flagged s) :
    Flagged (setExitResult s thread value) := by
  have hcreated (t : OSThread) : ((setExitResult s thread value).threads.view t).created =
      (s.threads.view t).created := view_store_keeps (·.created) rfl
  exact flagged_of_records hf rfl rfl (fun _ => view_store_keeps (·.handle) rfl)
    (fun _ _ _ => view_store_keeps (·.guest) rfl)
    (fun t _ _ h => ⟨(hcreated t).symm.trans h, view_store_keeps (·.started) rfl⟩)

theorem flagged_create {args : CreateArgs} {answers : CreateAnswers} (hf : Flagged s) :
    Flagged (osCreateThread s thread args answers).2 := by
  refine ⟨named_create hf.toNamed, fun t i k hhandle hk hcreated => ?_⟩
  cases hcpu : createdCpu args.attributes answers with
  | none =>
    rw [osCreateThread_none hcpu] at hhandle hk hcreated ⊢
    rw [view_store] at hhandle hcreated ⊢
    split at hcreated
    next => cases hcreated
    next hne =>
      rw [if_neg hne] at hhandle ⊢
      exact hf.started t i k hhandle hk hcreated
  | some cpu =>
    rw [osCreateThread_some hcpu] at hhandle hk hcreated ⊢
    rw [view_store] at hhandle hcreated ⊢
    split
    next heq =>
      rw [if_pos heq] at hhandle
      cases hhandle
      rw [List.getElem?_concat_length] at hk
      cases hk
      exact iff_of_false nofun (fun hready => hready rfl)
    next hne =>
      rw [if_neg hne] at hhandle hcreated
      obtain ⟨k₀, hk₀, -⟩ := hf.handle t i hhandle
      obtain ⟨hi, -⟩ := List.getElem?_eq_some_iff.1 hk₀
      rw [List.getElem?_append_left hi] at hk
      exact hf.started t i k hhandle hk hcreated

theorem flagged_resume {willing : Bool} (hf : Flagged s) :
    Flagged (osResumeThread s thread willing).2 := by
  obtain ⟨-, ⟨heq, -⟩ | ⟨i, k, -, hstart, heq⟩⟩ := osResumeThread_cases s thread willing
  · rw [heq]
    let counted : State :=
      { s with
        threads := s.threads.store thread
          { s.threads.view thread with suspendCount := (s.threads.view thread).lowered } }
    have hcreated (t : OSThread) : (counted.threads.view t).created = (s.threads.view t).created :=
      view_store_keeps (·.created) rfl
    exact flagged_of_records hf rfl rfl (fun _ => view_store_keeps (·.handle) rfl)
      (fun _ _ _ => view_store_keeps (·.guest) rfl)
      (fun t _ _ h => ⟨(hcreated t).symm.trans h, view_store_keeps (·.started) rfl⟩)
  · rw [heq]
    have hguest := hf.guest_of_handle hstart.handle hstart.kernel
    let written : State :=
      { s with
        threads := s.threads.store thread
          { s.threads.view thread with
            suspendCount := (s.threads.view thread).lowered
            started := true } }
    have hhandle (t : OSThread) : (written.threads.view t).handle = (s.threads.view t).handle :=
      view_store_keeps (·.handle) rfl
    have hkernel : written.kernel[i]? = some k := hstart.kernel
    have hwritten : Named written :=
      named_of_records hf.toNamed rfl rfl hhandle fun _ _ _ => view_store_keeps (·.guest) rfl
    change Flagged (written.setKernel i { k with life := .started })
    refine ⟨named_setKernel hwritten hkernel rfl, fun t j k₀ hi hk₀ hcreated => ?_⟩
    rw [setKernel_threads] at hi hcreated ⊢
    rw [hhandle] at hi
    rw [kernel_setKernel hkernel] at hk₀
    by_cases ht : t = thread
    · subst ht
      rw [hstart.handle] at hi
      cases hi
      rw [if_pos rfl] at hk₀
      cases hk₀
      have hstarted : (written.threads.view t).started = true := by
        rw [view_store_same]
      exact iff_of_true hstarted nofun
    · have hview : written.threads.view t = s.threads.view t := view_store_ne _ _ ht
      rw [hview] at hcreated ⊢
      have hj : i ≠ j := by
        rintro rfl
        exact ht ((hf.guest_of_handle hi hstart.kernel).symm.trans hguest)
      rw [if_neg hj] at hk₀
      exact hf.started t j k₀ hi hk₀ hcreated

theorem flagged_edit {current : Option OSThread} {op : Op} (hf : Flagged s) :
    Flagged (s.edit (op.edit current s.mainThread)) := by
  cases hedit : op.edit current s.mainThread with
  | none => exact hf
  | some edit =>
    obtain ⟨thread, f⟩ := edit
    have hbond := edit_bond (h := s.threads.view thread) hf.main hedit
    have hsame (t : OSThread) (i : Nat) (hi : (s.threads.view t).handle = some i) :
        ((s.edit (some (thread, f))).threads.view t).guest = (s.threads.view t).guest ∧
        ((s.edit (some (thread, f))).threads.view t).created = (s.threads.view t).created ∧
        ((s.edit (some (thread, f))).threads.view t).started = (s.threads.view t).started := by
      simp only [State.edit, view_store]
      split
      next heq =>
        subst heq
        obtain ⟨hguest, hcreated, hstarted, -⟩ := hbond.2 (hf.guest t i hi)
        exact ⟨hguest, hcreated, hstarted⟩
      next => exact ⟨rfl, rfl, rfl⟩
    refine flagged_of_records hf rfl rfl (fun _ => view_store_keeps (·.handle) hbond.1)
      (fun t i hi => (hsame t i hi).1) (fun t i hi hcreated => ?_)
    obtain ⟨-, hcreated', hstarted⟩ := hsame t i hi
    exact ⟨hcreated' ▸ hcreated, hstarted⟩

def Life.Begun (life : Life) : Prop := life ≠ .ready ∧ life ≠ .started

theorem begun_of_inGuest (hin : k.life.inGuest) : k.life.Begun := by
  constructor <;> intro heq <;> rw [heq] at hin <;> exact hin

theorem deallocate_begun : (k.deallocate h).life.Begun := by
  rw [KernelThread.deallocate]
  split <;> exact ⟨(by rintro ⟨⟩), (by rintro ⟨⟩)⟩

theorem returned_begun {value : Int32} : (k.returned h value).life.Begun := by
  simp only [KernelThread.returned]
  split
  next => exact ⟨(by rintro ⟨⟩), (by rintro ⟨⟩)⟩
  next => exact deallocate_begun

theorem Step.flagged (hs : Step s e s') (hf : Flagged s) : Flagged s' := by
  have hmoved {k : KernelThread} {life : Life} (h : k.life = life) (hne : life ≠ .ready) :
      k.life ≠ .ready := fun heq => hne (h.symm.trans heq)
  cases hs with
  | @call caller op =>
    rcases op_cases op with ⟨thread, args, answers, rfl⟩ | ⟨thread, willing, rfl⟩ | hedit
    · exact flagged_create hf
    · exact flagged_resume hf
    · rw [hedit]
      exact flagged_edit hf
  | enter hk hlife => exact flagged_setKernel hf hk rfl (hmoved hlife nofun) nofun
  | entryReturned hk hlife =>
    exact flagged_setKernel (flagged_setExitResult hf) hk returned_data.1 (hmoved hlife nofun)
      returned_begun.1
  | cleanupReturned hk hlife =>
    exact flagged_setKernel hf hk deallocate_data.1 (hmoved hlife nofun) deallocate_begun.1
  | deallocatorReturned hk hlife => exact flagged_setKernel hf hk rfl (hmoved hlife nofun) nofun
  | exitThread hk hin =>
    exact flagged_setKernel (flagged_setExitResult hf) hk rfl (begun_of_inGuest hin).1 (by rintro ⟨⟩)
  | testCancel hk hin =>
    rw [osTestThreadCancel]
    split
    next => exact flagged_setKernel hf hk rfl (begun_of_inGuest hin).1 (by rintro ⟨⟩)
    next => exact hf
  | @joinStarts thread =>
    have hview (t : OSThread) : (Thread.joinStarts s thread).2.threads.view t = s.threads.view t :=
      joinStarts_view
    have hmain : (Thread.joinStarts s thread).2.mainThread = s.mainThread := by
      rw [Thread.joinStarts]
      dsimp only
      split <;> rfl
    refine flagged_of_records hf hmain joinStarts_kernel (fun t => by rw [hview])
      (fun t i _ => by rw [hview]) (fun t i _ hcreated => ?_)
    rw [hview] at hcreated ⊢
    exact ⟨hcreated, rfl⟩
  | joinFails =>
    exact flagged_of_records hf rfl rfl (fun _ => rfl) (fun _ _ _ => rfl)
      (fun _ _ _ hcreated => ⟨hcreated, rfl⟩)
  | joinSucceeds =>
    refine flagged_of_records hf rfl rfl (fun _ => view_store_keeps (·.handle) rfl)
      (fun _ _ _ => view_store_keeps (·.guest) rfl) (fun t i _ hcreated => ?_)
    simp only [Thread.joinSucceeds, view_store] at hcreated ⊢
    split at hcreated
    next => cases hcreated
    next hne =>
      rw [if_neg hne]
      exact ⟨hcreated, rfl⟩

end CoreinitNx.Thread
