import CoreinitNx.Thread.Runs

namespace CoreinitNx.Thread

open HandleTable

variable {s s' : State} {e : Event} {es : List Event} {thread t : OSThread} {args : CreateArgs}
  {answers : CreateAnswers} {h : HostThread}

-- The state in which the address has never been used.
def State.forget (s : State) (thread : OSThread) : State :=
  { s with threads := s.threads.erase thread }

theorem erase_store (table : HandleTable HostThread) (thread : OSThread) (h : HostThread) :
    (table.erase thread).store thread h = table.store thread h := by
  simp only [store, erase, Function.update_idem]

theorem view_erase (table : HandleTable HostThread) (thread : OSThread) :
    (table.erase thread).view thread = HostObject.init := by
  simp [view, erase]

theorem store_inj {table : HandleTable HostThread} {h h' : HostThread}
    (heq : table.store thread h = table.store thread h') : h = h' := by
  have hview := congrArg (fun table => view table thread) heq
  simpa using hview

theorem createdCpu_of_success (h : (osCreateThread s thread args answers).1 = 1) :
    ∃ cpu, createdCpu args.attributes answers = some cpu := by
  cases hcpu : createdCpu args.attributes answers with
  | some cpu => exact ⟨cpu, rfl⟩
  | none =>
    rw [osCreateThread_none hcpu] at h
    cases h

-- A creation keeps of the old record what it does not set.
theorem recordOf_eq_iff {id : Nat} :
    recordOf h thread args id = recordOf HostObject.init thread args id ↔
      h.cancelRequested = false ∧ h.cancelEnabled = true := by
  simp [recordOf, prepare, HostObject.init]

def Cancelled (thread : OSThread) (es : List Event) : Prop :=
  thread ≠ 0 ∧ ∃ caller reply, .call caller (.cancel thread) reply ∈ es

theorem edit_cancelRequested {current : Option OSThread} {mainThread : OSThread} {op : Op}
    {f : HostThread → HostThread} (hedit : op.edit current mainThread = some (thread, f)) :
    (f h).cancelRequested = true ↔ h.cancelRequested = true ∨ thread ≠ 0 ∧ op = .cancel thread := by
  cases op with
  | create _ _ _ | resume _ _ => cases hedit
  | suspend _ | setCleanupCallback _ _ | setDeallocator _ _ | getPriority _ | setPriority _ _
  | getAffinity _ | setAffinity _ _ | getName _ | setName _ _ | isTerminated _ =>
    obtain ⟨rfl, rfl⟩ := Prod.mk.inj (Option.some.inj hedit)
    simp
  | cancel t =>
    simp only [Op.edit] at hedit
    split at hedit
    next => cases hedit
    next hne =>
      obtain ⟨rfl, rfl⟩ := Prod.mk.inj (Option.some.inj hedit)
      simp [hne]
  | detach t =>
    simp only [Op.edit] at hedit
    split at hedit
    next => cases hedit
    next =>
      obtain ⟨rfl, rfl⟩ := Prod.mk.inj (Option.some.inj hedit)
      simp
  | setCancelState state =>
    cases current with
    | none => cases hedit
    | some t =>
      obtain ⟨rfl, rfl⟩ := Prod.mk.inj (Option.some.inj hedit)
      simp
  | getCurrent =>
    cases current with
    | some t => cases hedit
    | none =>
      obtain ⟨rfl, rfl⟩ := Prod.mk.inj (Option.some.inj hedit)
      dsimp only
      split <;> simp

theorem edit_cancel {current : Option OSThread} {mainThread : OSThread} (ht : t ≠ 0) :
    (Op.cancel t).edit current mainThread =
      some (t, fun h => { h with cancelRequested := true }) := by
  rw [Op.edit, if_neg ht]

theorem call_cancelRequested {current : Option OSThread} {op : Op} :
    ((call current op s).2.threads.view t).cancelRequested = true ↔
      (s.threads.view t).cancelRequested = true ∨ t ≠ 0 ∧ op = .cancel t := by
  have hkept {op : Op} (hop : op ≠ .cancel t)
      (hkeep : ((call current op s).2.threads.view t).cancelRequested =
        (s.threads.view t).cancelRequested) :
      ((call current op s).2.threads.view t).cancelRequested = true ↔
        (s.threads.view t).cancelRequested = true ∨ t ≠ 0 ∧ op = .cancel t := by
    rw [hkeep]
    exact (or_iff_left fun hcancel => hop hcancel.2).symm
  rcases op_cases op with ⟨thread, args, answers, rfl⟩ | ⟨thread, willing, rfl⟩ | hcall
  · refine hkept (by rintro ⟨⟩) ?_
    cases hcpu : createdCpu args.attributes answers with
    | some cpu =>
      simp only [call, osCreateThread_some hcpu, Prod.map, id]
      exact view_store_keeps (·.cancelRequested) rfl
    | none =>
      simp only [call, osCreateThread_none hcpu, Prod.map, id]
      exact view_store_keeps (·.cancelRequested) rfl
  · refine hkept (by rintro ⟨⟩) ?_
    obtain ⟨count, started, kernel, heq, -⟩ := osResumeThread_spec s thread willing
    simp only [call, Prod.map, id, heq]
    exact view_store_keeps (·.cancelRequested) rfl
  rw [hcall]
  cases hedit : op.edit current s.mainThread with
  | none =>
    refine (or_iff_left ?_).symm
    rintro ⟨hzero, rfl⟩
    rw [edit_cancel hzero] at hedit
    cases hedit
  | some edit =>
    obtain ⟨thread, f⟩ := edit
    simp only [State.edit, view_store]
    split
    next heq =>
      subst heq
      exact edit_cancelRequested hedit
    next hne =>
      refine (or_iff_left ?_).symm
      rintro ⟨hzero, rfl⟩
      rw [edit_cancel hzero] at hedit
      exact hne (Prod.mk.inj (Option.some.inj hedit)).1

theorem setExitResult_cancelRequested {value : Int32} :
    ((setExitResult s thread value).threads.view t).cancelRequested =
      (s.threads.view t).cancelRequested := view_store_keeps (·.cancelRequested) rfl

theorem not_cancelled_of_not_call (hcall : ∀ caller op reply, e ≠ .call caller op reply) :
    ¬Cancelled t [e] := by
  rintro ⟨-, caller, reply, hmem⟩
  exact hcall _ _ _ (List.mem_singleton.1 hmem).symm

theorem Step.cancelRequested_of_not_call (hs : Step s e s')
    (hcall : ∀ caller op reply, e ≠ .call caller op reply) :
    (s'.threads.view t).cancelRequested = (s.threads.view t).cancelRequested := by
  cases hs with
  | call => exact absurd rfl (hcall _ _ _)
  | enter | cleanupReturned | deallocatorReturned | joinFails => rfl
  | entryReturned | exitThread => exact setExitResult_cancelRequested
  | testCancel => rw [osTestThreadCancel_threads]
  | joinStarts => rw [joinStarts_view]
  | joinSucceeds => exact view_store_keeps (·.cancelRequested) rfl

theorem Step.cancelRequested (hs : Step s e s') :
    (s'.threads.view t).cancelRequested = true ↔
      (s.threads.view t).cancelRequested = true ∨ Cancelled t [e] := by
  by_cases hcall : ∃ caller op reply, e = .call caller op reply
  · obtain ⟨caller, op, reply, rfl⟩ := hcall
    cases hs
    rw [call_cancelRequested]
    refine or_congr_right (and_congr_right fun _ => ?_)
    constructor
    · rintro rfl
      exact ⟨_, _, List.mem_singleton_self _⟩
    · rintro ⟨_, _, hmem⟩
      exact (Event.call.inj (List.mem_singleton.1 hmem)).2.1.symm
  · have hcall' : ∀ caller op reply, e ≠ .call caller op reply :=
      fun caller op reply heq => hcall ⟨caller, op, reply, heq⟩
    rw [or_iff_left (not_cancelled_of_not_call hcall'), hs.cancelRequested_of_not_call hcall']

theorem cancelRequested_iff {mainThread : OSThread} (run : Run (State.initial mainThread) es s) :
    (s.threads.view t).cancelRequested = true ↔ Cancelled t es := by
  induction run with
  | nil =>
    refine iff_of_false (fun h => nomatch h) ?_
    rintro ⟨-, _, _, hmem⟩
    cases hmem
  | snoc _ hs ih =>
    rw [hs.cancelRequested, ih, Cancelled, Cancelled, Cancelled, ← and_or_left]
    simp only [List.mem_append, exists_or]

-- The record after a creation is the one of a first creation if and only if nobody has ever asked
-- for a cancellation at the address and cancellation is enabled.
theorem recreation_fresh_iff (mainThread : OSThread) (es : List Event) (s : State)
    (run : Run (State.initial mainThread) es s) (thread : OSThread) (args : CreateArgs)
    (answers : CreateAnswers) (hsuccess : (osCreateThread s thread args answers).1 = 1) :
    osCreateThread s thread args answers =
        osCreateThread (s.forget thread) thread args answers ↔
      ¬Cancelled thread es ∧ (s.threads.view thread).cancelEnabled = true := by
  obtain ⟨cpu, hcpu⟩ := createdCpu_of_success hsuccess
  rw [osCreateThread_some hcpu, osCreateThread_some hcpu, ← cancelRequested_iff run,
    Bool.not_eq_true]
  simp only [State.forget, view_erase, erase_store]
  constructor
  · intro heq
    have hstate := (Prod.mk.inj heq).2
    exact recordOf_eq_iff.1 (store_inj (State.mk.inj hstate).1)
  · intro hold
    rw [recordOf_eq_iff.2 hold]

-- A thread is named, runs, returns 7 and is joined; then its record is created again.
theorem recreation_fresh_iff_joined :
    ∃ (es : List Event) (s : State), Run (State.initial 1) es s ∧
      .call none (.setName 4 9) .void ∈ es ∧ .entryReturned 0 7 ∈ es ∧ .joinSucceeds 4 0 7 ∈ es ∧
      osCreateThread s 4 ⟨16, 0, 0, 0, 0, 16, affinityAny⟩ ⟨44, true, true⟩ =
        osCreateThread (s.forget 4) 4 ⟨16, 0, 0, 0, 0, 16, affinityAny⟩ ⟨44, true, true⟩ := by
  let args : CreateArgs := ⟨16, 0, 0, 0, 0, 16, affinityAny⟩
  let answers : CreateAnswers := ⟨44, true, true⟩
  let k : KernelThread := newKernelThread 4 args 44 (-2)
  let s₁ : State := (call none (.create 4 args answers) (State.initial 1)).2
  let s₂ : State := (call none (.setName 4 9) s₁).2
  let s₃ : State := (call none (.resume 4 true) s₂).2
  let s₄ : State := s₃.setKernel 0 { k with life := .entry }
  let s₅ : State := entryReturned s₄ 0 { k with life := .entry } 7
  let s₆ : State := (joinStarts s₅ 4).2
  let s₇ : State := (joinSucceeds s₆ 4 0).2
  have h₁ : Step (State.initial 1) (.call none (.create 4 args answers) _) s₁ := .call trivial
  have h₂ : Step s₁ (.call none (.setName 4 9) .void) s₂ := .call trivial
  have h₃ : Step s₂ (.call none (.resume 4 true) _) s₃ := .call trivial
  have h₄ : Step s₃ (.enter 0 _ _ _) s₄ :=
    .enter (k := { k with life := .started }) (by decide +kernel) rfl
  have h₅ : Step s₄ (.entryReturned 0 7) s₅ := .entryReturned (by decide +kernel) rfl
  have h₆ : Step s₅ (.joinStarts 4) s₆ := .joinStarts
  have hresult : (joinSucceeds s₆ 4 0).1 = 7 := by decide +kernel
  have h₇ : Step s₆ (.joinSucceeds 4 0 7) s₇ :=
    hresult ▸ .joinSucceeds (k := { k with life := .exited, value := some 7 }) (by decide +kernel)
      (by decide +kernel) rfl
  have run : Run (State.initial 1) _ s₇ :=
    ((((((Transition.Run.single h₁).snoc h₂).snoc h₃).snoc h₄).snoc h₅).snoc h₆).snoc h₇
  refine ⟨_, s₇, run, by simp, by simp, by simp, ?_⟩
  refine (recreation_fresh_iff 1 _ s₇ run 4 args answers (by decide +kernel)).2 ⟨?_, ?_⟩
  · rintro ⟨-, caller, reply, hmem⟩
    simp at hmem
  · decide +kernel

-- A thread that is created anew, after one that was cancelled and joined, is stopped by its first
-- `OSTestThreadCancel`. The same events at an address that was never used leave it running.
theorem cancel_request_outlives_join :
    ∃ (es later : List Event) (args : CreateArgs) (answers : CreateAnswers) (s used fresh : State),
      Run (State.initial 1) es s ∧
      (osCreateThread s 4 args answers).1 = 1 ∧
      osCreateThread s 4 args answers ≠ osCreateThread (s.forget 4) 4 args answers ∧
      Run (osCreateThread s 4 args answers).2 later used ∧
      Run (osCreateThread (s.forget 4) 4 args answers).2 later fresh ∧
      used.kernel.map (·.life) = [.exited, .exited] ∧
      fresh.kernel.map (·.life) = [.exited, .entry] := by
  let args : CreateArgs := ⟨16, 0, 0, 0, 0, 16, affinityAny⟩
  let answers : CreateAnswers := ⟨44, true, true⟩
  let resumed (s : State) : State := (call none (.resume 4 true) s).2
  let entered (id : Nat) (s : State) : State :=
    s.setKernel id { newKernelThread 4 args 44 (-2) with life := .entry }
  let tested (id : Nat) (s : State) : State :=
    osTestThreadCancel s id { newKernelThread 4 args 44 (-2) with life := .entry }
  let s₁ : State := (call none (.create 4 args answers) (State.initial 1)).2
  let s₂ : State := resumed s₁
  let s₃ : State := entered 0 s₂
  let s₄ : State := (call none (.cancel 4) s₃).2
  let s₅ : State := tested 0 s₄
  let s₆ : State := (joinStarts s₅ 4).2
  let s₇ : State := (joinSucceeds s₆ 4 0).2
  let used : State := (osCreateThread s₇ 4 args answers).2
  let fresh : State := (osCreateThread (s₇.forget 4) 4 args answers).2
  have h₁ : Step (State.initial 1) (.call none (.create 4 args answers) _) s₁ := .call trivial
  have h₂ : Step s₁ (.call none (.resume 4 true) _) s₂ := .call trivial
  have h₃ : Step s₂ (.enter 0 _ _ _) s₃ :=
    .enter (k := { newKernelThread 4 args 44 (-2) with life := .started }) (by decide +kernel) rfl
  have h₄ : Step s₃ (.call none (.cancel 4) _) s₄ := .call trivial
  have h₅ : Step s₄ (.testCancel 0) s₅ := .testCancel (by decide +kernel) trivial
  have h₆ : Step s₅ (.joinStarts 4) s₆ := .joinStarts
  have h₇ : Step s₆ (.joinSucceeds 4 0 _) s₇ :=
    .joinSucceeds
      (k := { newKernelThread 4 args 44 (-2) with life := .exited, value := none })
      (by decide +kernel) (by decide +kernel) rfl
  let started : KernelThread := { newKernelThread 4 args 44 (-2) with life := .started }
  have resume (s : State) (hreply : (call none (.resume 4 true) s).1 = .ret 1) :
      Step s (.call none (.resume 4 true) (.ret 1)) (resumed s) :=
    hreply ▸ .call trivial
  have enter (s : State) (hk : s.kernel[1]? = some started)
      (hentry : (s.threads.view 4).entry = 16) (hargc : (s.threads.view 4).argc = 0)
      (hargv : (s.threads.view 4).argv = 0) : Step s (.enter 1 16 0 0) (entered 1 s) :=
    hentry ▸ hargc ▸ hargv ▸ .enter hk rfl
  have test (s : State) (hk : s.kernel[1]? = some { started with life := .entry }) :
      Step s (.testCancel 1) (tested 1 s) := .testCancel hk trivial
  have again (s : State) (hreply : (call none (.resume 4 true) s).1 = .ret 1)
      (hk : (resumed s).kernel[1]? = some started)
      (hentry : ((resumed s).threads.view 4).entry = 16)
      (hargc : ((resumed s).threads.view 4).argc = 0)
      (hargv : ((resumed s).threads.view 4).argv = 0)
      (hin : (entered 1 (resumed s)).kernel[1]? = some { started with life := .entry }) :
      Run s ([.call none (.resume 4 true) (.ret 1)] ++ [.enter 1 16 0 0] ++ [.testCancel 1])
        (tested 1 (entered 1 (resumed s))) :=
    ((Transition.Run.single (resume s hreply)).snoc (enter _ hk hentry hargc hargv)).snoc
      (test _ hin)
  refine ⟨_, _, args, answers, s₇, tested 1 (entered 1 (resumed used)),
    tested 1 (entered 1 (resumed fresh)),
    ((((((Transition.Run.single h₁).snoc h₂).snoc h₃).snoc h₄).snoc h₅).snoc h₆).snoc h₇,
    by decide +kernel, ?_,
    again used (by decide +kernel) (by decide +kernel) (by decide +kernel) (by decide +kernel)
      (by decide +kernel) (by decide +kernel),
    again fresh (by decide +kernel) (by decide +kernel) (by decide +kernel) (by decide +kernel)
      (by decide +kernel) (by decide +kernel),
    by decide +kernel, by decide +kernel⟩
  intro heq
  have hview := congrArg (fun r => (r.2.threads.view 4).cancelRequested) heq
  exact absurd hview (by decide +kernel)

end CoreinitNx.Thread
