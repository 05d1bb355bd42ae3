import CoreinitNx.Thread.Callbacks
import CoreinitNx.Library.Slots

namespace CoreinitNx.Thread

open HandleTable Slots

variable {s s' : State} {e : Event} {es : List Event} {thread t : OSThread} {h : HostThread}
  {k k' : KernelThread} {i : Nat}

def KernelThread.Idle (k : KernelThread) : Prop := k.life = .ready ∨ k.life = .exited

-- No thread of the record at the address runs or is joined.
def Unused (s : State) (thread : OSThread) : Prop :=
  (∀ k ∈ s.kernel, k.guest = thread → k.Idle) ∧ ∀ i, (thread, i) ∉ s.joins

theorem unused_initial (mainThread thread : OSThread) :
    Unused (State.initial mainThread) thread :=
  ⟨fun _ hk => absurd hk List.not_mem_nil, fun _ hj => absurd hj List.not_mem_nil⟩

def RecreatesClean (s : State) : Event → Prop
  | .call _ (.create thread _ _) _ => Unused s thread
  | _ => True

-- The record at an address and the kernel threads made for it belong together: of these only the
-- one that `handle` numbers can be running or be joined.
structure Bound (s : State) : Prop where
  main : s.mainThread ≠ 0
  guest : ∀ thread i, (s.threads.view thread).handle = some i →
    (s.threads.view thread).guest = thread
  handle : ∀ thread i, (s.threads.view thread).handle = some i →
    ∃ k, s.kernel[i]? = some k ∧ k.guest = thread
  alone : ∀ i k, s.kernel[i]? = some k → k.Idle ∨ (s.threads.view k.guest).handle = some i
  joined : ∀ thread i, (thread, i) ∈ s.joins → (s.threads.view thread).handle = some i

-- A join that may still succeed will find what the thread returned or exited with.
def Delivers (s : State) : Prop :=
  ∀ thread i k value, (s.threads.view thread).handle = some i →
    (s.threads.view thread).created = true ∨ (thread, i) ∈ s.joins → s.kernel[i]? = some k →
    k.value = some value → (s.threads.view thread).exitResult = value

-- The part of it that every run keeps.
structure Named (s : State) : Prop where
  main : s.mainThread ≠ 0
  guest : ∀ thread i, (s.threads.view thread).handle = some i →
    (s.threads.view thread).guest = thread
  handle : ∀ thread i, (s.threads.view thread).handle = some i →
    ∃ k, s.kernel[i]? = some k ∧ k.guest = thread

theorem Bound.named (hb : Bound s) : Named s := ⟨hb.main, hb.guest, hb.handle⟩

theorem Named.bound (hn : Named s)
    (halone : ∀ i k, s.kernel[i]? = some k → k.Idle ∨ (s.threads.view k.guest).handle = some i)
    (hjoined : ∀ thread i, (thread, i) ∈ s.joins → (s.threads.view thread).handle = some i) :
    Bound s := ⟨hn.main, hn.guest, hn.handle, halone, hjoined⟩

theorem bound_initial {mainThread : OSThread} (hmain : mainThread ≠ 0) :
    Bound (State.initial mainThread) where
  main := hmain
  guest _ _ hhandle := nomatch hhandle
  handle _ _ hhandle := nomatch hhandle
  alone _ _ hk := nomatch hk
  joined _ _ hmem := nomatch hmem

theorem delivers_initial {mainThread : OSThread} : Delivers (State.initial mainThread) :=
  fun _ _ _ _ hhandle => nomatch hhandle

theorem Named.guest_of_handle (hn : Named s) (hhandle : (s.threads.view thread).handle = some i)
    (hk : s.kernel[i]? = some k) : k.guest = thread := by
  obtain ⟨k₀, hk₀, hguest⟩ := hn.handle thread i hhandle
  rw [hk] at hk₀
  cases hk₀
  exact hguest

theorem named_of_records (hn : Named s) (hmain : s'.mainThread = s.mainThread)
    (hkernel : s'.kernel = s.kernel)
    (hhandle : ∀ t, (s'.threads.view t).handle = (s.threads.view t).handle)
    (hguest : ∀ t i, (s.threads.view t).handle = some i →
      (s'.threads.view t).guest = (s.threads.view t).guest) : Named s' where
  main := hmain ▸ hn.main
  guest t i heq := by
    rw [hhandle] at heq
    rw [hguest t i heq, hn.guest t i heq]
  handle t i heq := by
    rw [hhandle] at heq
    rw [hkernel]
    exact hn.handle t i heq

theorem kernel_setKernel (hk : s.kernel[i]? = some k) (j : Nat) :
    (s.setKernel i k').kernel[j]? = if i = j then some k' else s.kernel[j]? := list_set hk j

theorem named_setKernel (hn : Named s) (hk : s.kernel[i]? = some k) (hguest : k'.guest = k.guest) :
    Named (s.setKernel i k') where
  main := hn.main
  guest := hn.guest
  handle t j heq := by
    rw [kernel_setKernel hk]
    split
    next hj =>
      subst hj
      exact ⟨k', rfl, hguest.trans (hn.guest_of_handle heq hk)⟩
    next => exact hn.handle t j heq

theorem named_create {args : CreateArgs} {answers : CreateAnswers} (hn : Named s) :
    Named (osCreateThread s thread args answers).2 := by
  cases hcpu : createdCpu args.attributes answers with
  | none =>
    rw [osCreateThread_none hcpu]
    refine named_of_records hn rfl rfl (fun _ => view_store_keeps (·.handle) rfl)
      (fun t i hhandle => ?_)
    rw [view_store]
    split
    next heq =>
      rw [hn.guest t i hhandle, heq]
      rfl
    next => rfl
  | some cpu =>
    rw [osCreateThread_some hcpu]
    refine ⟨hn.main, fun t i hhandle => ?_, fun t i hhandle => ?_⟩
    · rw [view_store] at hhandle ⊢
      split
      next heq =>
        rw [heq]
        rfl
      next hne =>
        rw [if_neg hne] at hhandle
        exact hn.guest t i hhandle
    · rw [view_store] at hhandle
      split at hhandle
      next heq =>
        cases hhandle
        exact ⟨_, List.getElem?_concat_length, heq.symm⟩
      next =>
        obtain ⟨k, hk, hguest⟩ := hn.handle t i hhandle
        obtain ⟨hi, -⟩ := List.getElem?_eq_some_iff.1 hk
        exact ⟨k, (List.getElem?_append_left hi).trans hk, hguest⟩

theorem bound_of_records (hb : Bound s) (hmain : s'.mainThread = s.mainThread)
    (hkernel : s'.kernel = s.kernel)
    (hhandle : ∀ t, (s'.threads.view t).handle = (s.threads.view t).handle)
    (hguest : ∀ t i, (s.threads.view t).handle = some i →
      (s'.threads.view t).guest = (s.threads.view t).guest)
    (hjoined : ∀ t i, (t, i) ∈ s'.joins → (s.threads.view t).handle = some i) : Bound s' := by
  refine (named_of_records hb.named hmain hkernel hhandle hguest).bound (fun i k hk => ?_)
    (fun t i hmem => ?_)
  · rw [hhandle]
    rw [hkernel] at hk
    exact hb.alone i k hk
  · rw [hhandle]
    exact hjoined t i hmem

theorem delivers_of_records (hd : Delivers s) (hkernel : s'.kernel = s.kernel)
    (hhandle : ∀ t, (s'.threads.view t).handle = (s.threads.view t).handle)
    (hopen : ∀ t i, (s.threads.view t).handle = some i →
      (s'.threads.view t).created = true ∨ (t, i) ∈ s'.joins →
      ((s.threads.view t).created = true ∨ (t, i) ∈ s.joins) ∧
        (s'.threads.view t).exitResult = (s.threads.view t).exitResult) : Delivers s' := by
  intro t i k value heq hopen' hk hvalue
  rw [hhandle] at heq
  rw [hkernel] at hk
  obtain ⟨hold, hresult⟩ := hopen t i heq hopen'
  rw [hresult]
  exact hd t i k value heq hold hk hvalue

theorem bound_setKernel (hb : Bound s) (hk : s.kernel[i]? = some k) (hguest : k'.guest = k.guest)
    (halone : k'.Idle ∨ (s.threads.view k.guest).handle = some i) : Bound (s.setKernel i k') := by
  refine (named_setKernel hb.named hk hguest).bound (fun j k₀ hk₀ => ?_) hb.joined
  rw [kernel_setKernel hk] at hk₀
  split at hk₀
  next hj =>
    subst hj
    cases hk₀
    rwa [hguest]
  next => exact hb.alone j k₀ hk₀

theorem delivers_setKernel (hd : Delivers s) (hk : s.kernel[i]? = some k)
    (hvalue : k'.value = k.value) : Delivers (s.setKernel i k') := by
  intro t j k₀ value heq hopen hk₀ hvalue₀
  rw [kernel_setKernel hk] at hk₀
  split at hk₀
  next hj =>
    subst hj
    cases hk₀
    rw [hvalue] at hvalue₀
    exact hd t i k value heq hopen hk hvalue₀
  next => exact hd t j k₀ value heq hopen hk₀ hvalue₀

theorem bound_setExitResult {value : Int32} (hb : Bound s) :
    Bound (setExitResult s thread value) :=
  bound_of_records hb rfl rfl (fun _ => view_store_keeps (·.handle) rfl)
    (fun _ _ _ => view_store_keeps (·.guest) rfl) hb.joined

theorem delivers_result {value : Int32} (hb : Bound s) (hd : Delivers s)
    (hk : s.kernel[i]? = some k) (halone : (s.threads.view k.guest).handle = some i)
    (hvalue : k'.value = some value) :
    Delivers ((setExitResult s k.guest value).setKernel i k') := by
  intro t j k₀ value₀ heq hopen hk₀ hvalue₀
  rw [setKernel_threads, setExitResult_view] at heq hopen ⊢
  have hk' : (setExitResult s k.guest value).kernel[i]? = some k := hk
  rw [kernel_setKernel hk'] at hk₀
  by_cases ht : t = k.guest
  · subst ht
    simp only [if_true] at heq ⊢
    rw [halone] at heq
    cases heq
    rw [if_pos rfl] at hk₀
    cases hk₀
    exact Option.some.inj (hvalue.symm.trans hvalue₀)
  · rw [if_neg ht] at heq hopen ⊢
    have hj : i ≠ j := by
      rintro rfl
      exact ht (hb.named.guest_of_handle heq hk).symm
    rw [if_neg hj] at hk₀
    exact hd t j k₀ value₀ heq hopen hk₀ hvalue₀

theorem bound_create {args : CreateArgs} {answers : CreateAnswers} (hb : Bound s)
    (hunused : Unused s thread) : Bound (osCreateThread s thread args answers).2 := by
  have hn : Named (osCreateThread s thread args answers).2 := named_create hb.named
  cases hcpu : createdCpu args.attributes answers with
  | none =>
    have hhandle (t : OSThread) :
        ((osCreateThread s thread args answers).2.threads.view t).handle =
          (s.threads.view t).handle := by
      rw [osCreateThread_none hcpu]
      exact view_store_keeps (·.handle) rfl
    have hrest : (osCreateThread s thread args answers).2.kernel = s.kernel ∧
        (osCreateThread s thread args answers).2.joins = s.joins := by
      rw [osCreateThread_none hcpu]
      exact ⟨rfl, rfl⟩
    refine hn.bound (fun i k hk => ?_) (fun t i hmem => ?_)
    · rw [hhandle]
      exact hb.alone i k (hrest.1 ▸ hk)
    · rw [hhandle]
      exact hb.joined t i (hrest.2 ▸ hmem)
  | some cpu =>
    rw [osCreateThread_some hcpu] at hn ⊢
    refine hn.bound (fun i k hk => ?_) (fun t i hmem => ?_)
    · rcases concat_eq_some_iff.1 hk with hold | ⟨-, rfl⟩
      · by_cases hguest : k.guest = thread
        · exact .inl (hunused.1 k (List.mem_of_getElem? hold) hguest)
        · rw [view_store, if_neg hguest]
          exact hb.alone i k hold
      · exact .inl (.inl rfl)
    · have hne : t ≠ thread := fun heq => hunused.2 i (heq ▸ hmem)
      rw [view_store, if_neg hne]
      exact hb.joined t i hmem

theorem delivers_create {args : CreateArgs} {answers : CreateAnswers} (hb : Bound s)
    (hd : Delivers s) (hunused : Unused s thread) :
    Delivers (osCreateThread s thread args answers).2 := by
  cases hcpu : createdCpu args.attributes answers with
  | none =>
    rw [osCreateThread_none hcpu]
    intro t i k value hhandle hopen hk hvalue
    rw [view_store] at hhandle hopen ⊢
    split
    next heq =>
      rw [if_pos heq, heq] at hopen
      exact hopen.elim nofun fun hmem => absurd hmem (hunused.2 i)
    next hne =>
      rw [if_neg hne] at hhandle hopen
      exact hd t i k value hhandle hopen hk hvalue
  | some cpu =>
    rw [osCreateThread_some hcpu]
    intro t i k value hhandle hopen hk hvalue
    rw [view_store] at hhandle hopen ⊢
    split
    next heq =>
      rw [if_pos heq] at hhandle
      cases hhandle
      rw [List.getElem?_concat_length] at hk
      cases hk
      cases hvalue
    next hne =>
      rw [if_neg hne] at hhandle hopen
      obtain ⟨k₀, hk₀, -⟩ := hb.handle t i hhandle
      obtain ⟨hi, -⟩ := List.getElem?_eq_some_iff.1 hk₀
      rw [List.getElem?_append_left hi] at hk
      exact hd t i k value hhandle hopen hk hvalue

-- The other calls leave alone what joins depend on. `OSGetCurrentThread` may fill in the record of
-- the main thread, but only where no thread was created for it.
theorem edit_bond {current : Option OSThread} {mainThread : OSThread} {op : Op}
    {f : HostThread → HostThread} (hmain : mainThread ≠ 0)
    (hedit : op.edit current mainThread = some (thread, f)) :
    (f h).handle = h.handle ∧ (h.guest = thread →
      (f h).guest = h.guest ∧ (f h).created = h.created ∧ (f h).started = h.started ∧
        (f h).exitResult = h.exitResult) := by
  cases op with
  | create _ _ _ | resume _ _ => cases hedit
  | suspend _ | setCleanupCallback _ _ | setDeallocator _ _ | getPriority _ | setPriority _ _
  | getAffinity _ | setAffinity _ _ | getName _ | setName _ _ | isTerminated _ =>
    obtain ⟨rfl, rfl⟩ := Prod.mk.inj (Option.some.inj hedit)
    exact ⟨rfl, fun _ => ⟨rfl, rfl, rfl, rfl⟩⟩
  | cancel _ | detach _ =>
    simp only [Op.edit] at hedit
    split at hedit
    next => cases hedit
    next =>
      obtain ⟨rfl, rfl⟩ := Prod.mk.inj (Option.some.inj hedit)
      exact ⟨rfl, fun _ => ⟨rfl, rfl, rfl, rfl⟩⟩
  | setCancelState state =>
    cases current with
    | none => cases hedit
    | some t =>
      obtain ⟨rfl, rfl⟩ := Prod.mk.inj (Option.some.inj hedit)
      exact ⟨rfl, fun _ => ⟨rfl, rfl, rfl, rfl⟩⟩
  | getCurrent =>
    cases current with
    | some t => cases hedit
    | none =>
      obtain ⟨rfl, rfl⟩ := Prod.mk.inj (Option.some.inj hedit)
      dsimp only
      split
      next hzero => exact ⟨rfl, fun hguest => absurd (hguest.symm.trans hzero) hmain⟩
      next => exact ⟨rfl, fun _ => ⟨rfl, rfl, rfl, rfl⟩⟩

theorem edit_sound {current : Option OSThread} {op : Op} (hb : Bound s) (hd : Delivers s) :
    Bound (s.edit (op.edit current s.mainThread)) ∧
      Delivers (s.edit (op.edit current s.mainThread)) := by
  cases hedit : op.edit current s.mainThread with
  | none => exact ⟨hb, hd⟩
  | some edit =>
    obtain ⟨thread, f⟩ := edit
    have hbond := edit_bond (h := s.threads.view thread) hb.main hedit
    have hhandle (t : OSThread) :
        ((s.edit (some (thread, f))).threads.view t).handle = (s.threads.view t).handle :=
      view_store_keeps (·.handle) hbond.1
    have hsame (t : OSThread) (i : Nat) (hi : (s.threads.view t).handle = some i) :
        ((s.edit (some (thread, f))).threads.view t).guest = (s.threads.view t).guest ∧
        ((s.edit (some (thread, f))).threads.view t).created = (s.threads.view t).created ∧
        ((s.edit (some (thread, f))).threads.view t).exitResult =
          (s.threads.view t).exitResult := by
      simp only [State.edit, view_store]
      split
      next heq =>
        subst heq
        obtain ⟨hguest, hcreated, -, hresult⟩ := hbond.2 (hb.guest t i hi)
        exact ⟨hguest, hcreated, hresult⟩
      next => exact ⟨rfl, rfl, rfl⟩
    refine ⟨bound_of_records hb rfl rfl hhandle (fun t i hi => (hsame t i hi).1) hb.joined,
      delivers_of_records hd rfl hhandle fun t i hi hopen => ?_⟩
    rw [(hsame t i hi).2.1] at hopen
    exact ⟨hopen, (hsame t i hi).2.2⟩

theorem resume_sound {willing : Bool} (hb : Bound s) (hd : Delivers s) :
    Bound (osResumeThread s thread willing).2 ∧ Delivers (osResumeThread s thread willing).2 := by
  obtain ⟨count, started, kernel, heq, hkernel⟩ := osResumeThread_spec s thread willing
  rw [heq]
  let written : State :=
    { s with
      threads := s.threads.store thread
        { s.threads.view thread with suspendCount := count, started } }
  have hhandle (t : OSThread) : (written.threads.view t).handle = (s.threads.view t).handle :=
    view_store_keeps (·.handle) rfl
  have hguest (t : OSThread) : (written.threads.view t).guest = (s.threads.view t).guest :=
    view_store_keeps (·.guest) rfl
  have hcreated (t : OSThread) : (written.threads.view t).created = (s.threads.view t).created :=
    view_store_keeps (·.created) rfl
  have hresult (t : OSThread) :
      (written.threads.view t).exitResult = (s.threads.view t).exitResult :=
    view_store_keeps (·.exitResult) rfl
  have hbw : Bound written :=
    bound_of_records hb rfl rfl hhandle (fun t _ _ => hguest t) hb.joined
  have hdw : Delivers written :=
    delivers_of_records hd rfl hhandle fun t i _ hopen =>
      ⟨hopen.imp_left (hcreated t).symm.trans, hresult t⟩
  rcases hkernel with rfl | ⟨i, k, hi, hk, -, rfl⟩
  · exact ⟨hbw, hdw⟩
  · have hkw : written.kernel[i]? = some k := hk
    refine ⟨bound_setKernel hbw hkw rfl (.inr ?_), delivers_setKernel hdw hkw rfl⟩
    rw [hhandle, hb.named.guest_of_handle hi hk, hi]

theorem call_sound {current : Option OSThread} {op : Op} (hb : Bound s) (hd : Delivers s)
    (hclean : ∀ thread args answers, op = .create thread args answers → Unused s thread) :
    Bound (call current op s).2 ∧ Delivers (call current op s).2 := by
  rcases op_cases op with ⟨thread, args, answers, rfl⟩ | ⟨thread, willing, rfl⟩ | hedit
  · have hunused := hclean thread args answers rfl
    exact ⟨bound_create hb hunused, delivers_create hb hd hunused⟩
  · exact resume_sound hb hd
  · rw [hedit]
    exact edit_sound hb hd

theorem deallocate_data : (k.deallocate h).guest = k.guest ∧ (k.deallocate h).value = k.value := by
  simp only [KernelThread.deallocate]
  split <;> exact ⟨rfl, rfl⟩

theorem returned_data {value : Int32} :
    (k.returned h value).guest = k.guest ∧ (k.returned h value).value = some value := by
  simp only [KernelThread.returned]
  split
  next => exact ⟨rfl, rfl⟩
  next => exact deallocate_data

theorem handle_of_not_idle (hb : Bound s) (hk : s.kernel[i]? = some k) (hlife : ¬k.Idle) :
    (s.threads.view k.guest).handle = some i := (hb.alone i k hk).resolve_left hlife

theorem joinStarts_joins (hmem : (t, i) ∈ (joinStarts s thread).2.joins) :
    (t, i) ∈ s.joins ∨
      (s.threads.view t).handle = some i ∧ (s.threads.view t).created = true := by
  simp only [joinStarts, get_fst] at hmem
  split at hmem
  next => exact .inl hmem
  next j hj =>
    rcases List.mem_cons.1 hmem with heq | hold
    · cases heq
      rw [joinable] at hj
      split at hj
      next => cases hj
      next hpass => exact .inr ⟨hj, by simpa using fun h => hpass (.inl h)⟩
    · exact .inl hold

theorem joinStarts_sound (hb : Bound s) (hd : Delivers s) :
    Bound (joinStarts s thread).2 ∧ Delivers (joinStarts s thread).2 := by
  have hview (t : OSThread) : (joinStarts s thread).2.threads.view t = s.threads.view t :=
    joinStarts_view
  have hmain : (joinStarts s thread).2.mainThread = s.mainThread := by
    rw [joinStarts]
    dsimp only
    split <;> rfl
  constructor
  · refine bound_of_records hb hmain joinStarts_kernel (fun t => by rw [hview])
      (fun t i _ => by rw [hview]) fun t i hmem => ?_
    rcases joinStarts_joins hmem with hold | ⟨hhandle, -⟩
    · exact hb.joined t i hold
    · exact hhandle
  · refine delivers_of_records hd joinStarts_kernel (fun t => by rw [hview]) fun t i _ hopen => ?_
    rw [hview] at hopen ⊢
    refine ⟨hopen.elim .inl fun hmem => ?_, rfl⟩
    rcases joinStarts_joins hmem with hold | ⟨-, hcreated⟩
    · exact .inr hold
    · exact .inl hcreated

theorem joinSucceeds_sound (hb : Bound s) (hd : Delivers s) :
    Bound (joinSucceeds s thread i).2 ∧ Delivers (joinSucceeds s thread i).2 := by
  have hview (t : OSThread) : (joinSucceeds s thread i).2.threads.view t =
      if t = thread then { s.threads.view thread with started := false, created := false }
      else s.threads.view t := view_store _ _ _ _
  have hhandle (t : OSThread) : ((joinSucceeds s thread i).2.threads.view t).handle =
      (s.threads.view t).handle := view_store_keeps (·.handle) rfl
  have hguest (t : OSThread) : ((joinSucceeds s thread i).2.threads.view t).guest =
      (s.threads.view t).guest := view_store_keeps (·.guest) rfl
  have hjoins {t : OSThread} {j : Nat} (hmem : (t, j) ∈ (joinSucceeds s thread i).2.joins) :
      (t, j) ∈ s.joins := List.mem_of_mem_erase hmem
  constructor
  · exact bound_of_records hb rfl rfl hhandle (fun t _ _ => hguest t) fun t j hmem =>
      hb.joined t j (hjoins hmem)
  · refine delivers_of_records hd rfl hhandle fun t j _ hopen => ?_
    rw [hview] at hopen ⊢
    split
    next heq =>
      subst heq
      rw [if_pos rfl] at hopen
      exact ⟨.inr (hjoins (hopen.resolve_left nofun)), rfl⟩
    next hne =>
      rw [if_neg hne] at hopen
      exact ⟨hopen.imp id hjoins, rfl⟩

theorem Step.sound (hs : Step s e s') (hclean : RecreatesClean s e) (hb : Bound s)
    (hd : Delivers s) : Bound s' ∧ Delivers s' := by
  have hbusy {k : KernelThread} {life : Life} (h : k.life = life) (hready : life ≠ .ready)
      (hexited : life ≠ .exited) : ¬k.Idle :=
    not_or.2 ⟨fun heq => hready (h.symm.trans heq), fun heq => hexited (h.symm.trans heq)⟩
  have hguest {k : KernelThread} (h : k.life.inGuest) : ¬k.Idle := by
    rintro (heq | heq) <;> rw [heq] at h <;> exact h
  cases hs with
  | call =>
    refine call_sound hb hd fun thread args answers heq => ?_
    subst heq
    exact hclean
  | enter hk hlife =>
    have halone := handle_of_not_idle hb hk (hbusy hlife nofun nofun)
    exact ⟨bound_setKernel hb hk rfl (.inr halone), delivers_setKernel hd hk rfl⟩
  | @entryReturned i k value hk hlife =>
    have halone := handle_of_not_idle hb hk (hbusy hlife nofun nofun)
    refine ⟨bound_setKernel (bound_setExitResult hb) hk returned_data.1 (.inr ?_),
      delivers_result hb hd hk halone returned_data.2⟩
    rwa [setExitResult_view, if_pos rfl]
  | cleanupReturned hk hlife =>
    have halone := handle_of_not_idle hb hk (hbusy hlife nofun nofun)
    exact ⟨bound_setKernel hb hk deallocate_data.1 (.inr halone),
      delivers_setKernel hd hk deallocate_data.2⟩
  | deallocatorReturned hk hlife =>
    have halone := handle_of_not_idle hb hk (hbusy hlife nofun nofun)
    exact ⟨bound_setKernel hb hk rfl (.inr halone), delivers_setKernel hd hk rfl⟩
  | @exitThread i k result hk hin =>
    have halone := handle_of_not_idle hb hk (hguest hin)
    refine ⟨bound_setKernel (bound_setExitResult hb) hk rfl (.inr ?_),
      delivers_result hb hd hk halone rfl⟩
    rwa [setExitResult_view, if_pos rfl]
  | testCancel hk hin =>
    have halone := handle_of_not_idle hb hk (hguest hin)
    rw [osTestThreadCancel]
    split
    next =>
      exact ⟨bound_setKernel hb hk rfl (.inr halone), delivers_setKernel hd hk rfl⟩
    next => exact ⟨hb, hd⟩
  | joinStarts => exact joinStarts_sound hb hd
  | joinFails =>
    exact ⟨bound_of_records hb rfl rfl (fun _ => rfl) (fun _ _ _ => rfl) fun t i hmem =>
        hb.joined t i (List.mem_of_mem_erase hmem),
      delivers_of_records hd rfl (fun _ => rfl) fun t i _ hopen =>
        ⟨hopen.imp_right List.mem_of_mem_erase, rfl⟩⟩
  | joinSucceeds => exact joinSucceeds_sound hb hd

abbrev OrderlyRun := Transition.Run fun s e s' => Step s e s' ∧ RecreatesClean s e

theorem sound_of_orderlyRun {mainThread : OSThread} (hmain : mainThread ≠ 0)
    (run : OrderlyRun (State.initial mainThread) es s) : Bound s ∧ Delivers s := by
  induction run with
  | nil => exact ⟨bound_initial hmain, delivers_initial⟩
  | snoc _ hs ih => exact hs.1.sound hs.2 ih.1 ih.2

def Event.told (i : Nat) : Event → Option Int32
  | .entryReturned j value | .exitThread j value => if j = i then some value else none
  | _ => none

-- What a thread has returned from its entry function, or last exited with.
def told (i : Nat) (es : List Event) : Option Int32 := (es.filterMap (Event.told i)).getLast?

theorem told_concat (i : Nat) (es : List Event) (e : Event) :
    told i (es ++ [e]) = (e.told i).or (told i es) := by
  rw [told, List.filterMap_append, List.getLast?_append]
  cases htold : e.told i with
  | none => rw [List.filterMap_cons_none htold, List.filterMap_nil]; rfl
  | some value => rw [List.filterMap_cons_some htold, List.filterMap_nil]; rfl

structure Told (es : List Event) (s : State) : Prop where
  value : ∀ i (k : KernelThread), s.kernel[i]? = some k → k.value = told i es
  unborn : ∀ i, s.kernel.length ≤ i → told i es = none

theorem told_of_kernel (ht : Told es s) (hkernel : s'.kernel = s.kernel)
    (hnone : ∀ i, e.told i = none) : Told (es ++ [e]) s' := by
  have htold (i : Nat) : told i (es ++ [e]) = told i es := by rw [told_concat, hnone, Option.none_or]
  refine ⟨?_, ?_⟩
  · simpa only [hkernel, htold] using ht.value
  · simpa only [hkernel, htold] using ht.unborn

theorem told_of_move (ht : Told es s) (hk : s.kernel[i]? = some k)
    (hkernel : s'.kernel = s.kernel.set i k') (hself : k'.value = (e.told i).or k.value)
    (hothers : ∀ j, j ≠ i → e.told j = none) : Told (es ++ [e]) s' := by
  refine ⟨?_, fun j hle => ?_⟩
  · rw [hkernel, forall_set_iff hk]
    refine ⟨fun j x hne hx => ?_, ?_⟩
    · rw [told_concat, hothers j hne, Option.none_or]
      exact ht.value j x hx
    · rw [told_concat, hself, ht.value i k hk]
  · obtain ⟨hlt, -⟩ := List.getElem?_eq_some_iff.1 hk
    rw [hkernel, List.length_set] at hle
    rw [told_concat, hothers j (Nat.ne_of_gt (Nat.lt_of_lt_of_le hlt hle)), Option.none_or]
    exact ht.unborn j hle

theorem call_told {caller : Option Nat} {current : Option OSThread} {op : Op} {reply : Reply}
    (ht : Told es s) : Told (es ++ [.call caller op reply]) (call current op s).2 := by
  rcases op_cases op with ⟨thread, args, answers, rfl⟩ | ⟨thread, willing, rfl⟩ | hedit
  · cases hcpu : createdCpu args.attributes answers with
    | some cpu =>
      have hkernel : (call current (.create thread args answers) s).2.kernel =
          s.kernel ++ [newKernelThread thread args answers.processPrio cpu] := by
        simp only [call, osCreateThread_some hcpu, Prod.map, id_eq]
      refine ⟨?_, fun i hle => ?_⟩
      · rw [hkernel, forall_concat_iff]
        simp only [told_concat]
        exact ⟨ht.value, (ht.unborn _ (Nat.le_refl _)).symm⟩
      · rw [hkernel, List.length_append] at hle
        rw [told_concat]
        exact ht.unborn i (Nat.le_trans (Nat.le_add_right _ _) hle)
    | none =>
      refine told_of_kernel ht ?_ fun _ => rfl
      simp only [call, osCreateThread_none hcpu, Prod.map, id_eq]
  · obtain ⟨count, started, kernel, heq, hsame | ⟨i, k, -, hk, hready, hstart⟩⟩ :=
      osResumeThread_spec s thread willing
    · refine told_of_kernel ht ?_ fun _ => rfl
      simp only [call, heq, Prod.map, id_eq, hsame]
    · have hkernel : (call current (.resume thread willing) s).2.kernel =
          s.kernel.set i { k with life := .started } := by
        simp only [call, heq, Prod.map, id_eq, hstart]
      exact told_of_move ht hk hkernel rfl fun _ _ => rfl
  · refine told_of_kernel ht ?_ fun _ => rfl
    rw [hedit]
    cases op.edit current s.mainThread <;> rfl

theorem Step.told (hs : Step s e s') (ht : Told es s) : Told (es ++ [e]) s' := by
  cases hs with
  | call => exact call_told ht
  | enter hk | deallocatorReturned hk => exact told_of_move ht hk rfl rfl fun _ _ => rfl
  | @entryReturned i k value hk =>
    refine told_of_move ht hk rfl ?_ fun j hne => if_neg (Ne.symm hne)
    rw [returned_data.2, show (Event.entryReturned i value).told i = some value from if_pos rfl]
    rfl
  | cleanupReturned hk => exact told_of_move ht hk rfl deallocate_data.2 fun _ _ => rfl
  | @exitThread i k result hk =>
    refine told_of_move ht hk rfl ?_ fun j hne => if_neg (Ne.symm hne)
    rw [show (Event.exitThread i result).told i = some result from if_pos rfl]
    rfl
  | @testCancel i k hk =>
    rw [osTestThreadCancel]
    split
    next => exact told_of_move ht hk rfl rfl fun _ _ => rfl
    next => exact told_of_kernel ht rfl fun _ => rfl
  | joinStarts => exact told_of_kernel ht joinStarts_kernel fun _ => rfl
  | joinFails | joinSucceeds => exact told_of_kernel ht rfl fun _ => rfl

theorem told_of_run {mainThread : OSThread} (run : Run (State.initial mainThread) es s) :
    Told es s := by
  induction run with
  | nil => exact ⟨fun _ _ hk => (by cases hk), fun _ _ => rfl⟩
  | snoc _ hs ih => exact hs.told ih

theorem join_delivers {result : Int32} (hb : Bound s) (hd : Delivers s)
    (hs : Step s (.joinSucceeds thread i result) s') :
    ∃ k, s.kernel[i]? = some k ∧ k.guest = thread ∧ k.life = .exited ∧
      ∀ value, k.value = some value → result = value := by
  cases hs with
  | @joinSucceeds _ _ k hmem hk hlife =>
    have hhandle := hb.joined thread i hmem
    exact ⟨k, hk, hb.named.guest_of_handle hhandle hk, hlife, fun value hvalue =>
      hd thread i k value hhandle (.inr hmem) hk hvalue⟩

-- A join that succeeds is of a thread of the record that has ended, and delivers what it returned
-- or exited with.
def JoinsSound (es : List Event) (s : State) : Prop :=
  ∀ thread i result s', Step s (.joinSucceeds thread i result) s' →
    ∃ k, s.kernel[i]? = some k ∧ k.guest = thread ∧ k.life = .exited ∧
      ∀ value, told i es = some value → result = value

theorem joinsSound (hb : Bound s) (hd : Delivers s) (ht : Told es s) : JoinsSound es s := by
  intro thread i result s' hs
  obtain ⟨k, hk, hguest, hlife, hvalue⟩ := join_delivers hb hd hs
  exact ⟨k, hk, hguest, hlife, fun value htold => hvalue value ((ht.value i k hk).trans htold)⟩

-- Every thread that has ended has called the callbacks in force, each once and in order, if and
-- only if each `OSExitThread` and each cancellation honoured left none to call. The joins deliver
-- the results where no record in use was created again.
theorem terminations_sound (mainThread : OSThread) (hmain : mainThread ≠ 0) (es : List Event)
    (w : Owing) (run : OwingRun (.initial mainThread) es w) :
    (CleanRun (.initial mainThread) es w ↔ AllCalled w) ∧
      (OrderlyRun (State.initial mainThread) es w.state → JoinsSound es w.state) := by
  refine ⟨cleanRun_iff run, fun orderly => ?_⟩
  obtain ⟨hb, hd⟩ := sound_of_orderlyRun hmain orderly
  exact joinsSound hb hd (told_of_run run.run)

theorem terminations_sound_returned :
    ∃ (es : List Event) (w : Owing), OwingRun (.initial 1) es w ∧
      w.state.kernel.map (fun k => (k.life, k.called)) = [(.exited, [.cleanup 100 4 0])] ∧
      (w.owed 0).callbacks = [.cleanup 100 4 0] ∧ AllCalled w ∧
      (∃ s', Step w.state (.joinSucceeds 4 0 7) s') ∧ told 0 es = some 7 ∧
      JoinsSound es w.state := by
  let args : CreateArgs := ⟨16, 0, 0, 0, 0, 16, affinityAny⟩
  let answers : CreateAnswers := ⟨44, true, true⟩
  let k : KernelThread := newKernelThread 4 args 44 (-2)
  let cleaning : KernelThread :=
    { k with
      life := .cleanup
      value := some 7
      called := [.cleanup 100 4 0] }
  let s₁ : State := (call none (.create 4 args answers) (State.initial 1)).2
  let s₂ : State := (call none (.setCleanupCallback 4 100) s₁).2
  let s₃ : State := (call none (.resume 4 true) s₂).2
  let s₄ : State := s₃.setKernel 0 { k with life := .entry }
  let s₅ : State := entryReturned s₄ 0 { k with life := .entry } 7
  let s₆ : State := (joinStarts s₅ 4).2
  let s₇ : State := cleanupReturned s₆ 0 cleaning
  have h₁ : Step (State.initial 1) (.call none (.create 4 args answers) _) s₁ := .call trivial
  have h₂ : Step s₁ (.call none (.setCleanupCallback 4 100) _) s₂ := .call trivial
  have h₃ : Step s₂ (.call none (.resume 4 true) _) s₃ := .call trivial
  have h₄ : Step s₃ (.enter 0 _ _ _) s₄ :=
    .enter (k := { k with life := .started }) (by decide +kernel) rfl
  have h₅ : Step s₄ (.entryReturned 0 7) s₅ := .entryReturned (by decide +kernel) rfl
  have h₆ : Step s₅ (.joinStarts 4) s₆ := .joinStarts
  have h₇ : Step s₆ (.cleanupReturned 0) s₇ := .cleanupReturned (by decide +kernel) rfl
  have hnew : RecreatesClean (State.initial 1)
      (.call none (.create 4 args answers) (call none (.create 4 args answers) (State.initial 1)).1) :=
    unused_initial 1 4
  have start : CleanRun (.initial 1) [] (.initial 1) := .nil
  obtain ⟨es, w, clean, orderly, hstate, howed, htold⟩ :
      ∃ (es : List Event) (w : Owing), CleanRun (.initial 1) es w ∧
        OrderlyRun (State.initial 1) es s₇ ∧ w.state = s₇ ∧
        (w.owed 0).callbacks = [.cleanup 100 4 0] ∧ told 0 es = some 7 :=
    ⟨_, _, ((((((start.move h₁ trivial).move h₂ trivial).move h₃ trivial).move h₄ trivial).move
        h₅ trivial).move h₆ trivial).move h₇ trivial,
      ((((((Transition.Run.single ⟨h₁, hnew⟩).snoc ⟨h₂, trivial⟩).snoc ⟨h₃, trivial⟩).snoc
        ⟨h₄, trivial⟩).snoc ⟨h₅, trivial⟩).snoc ⟨h₆, trivial⟩).snoc ⟨h₇, trivial⟩,
      rfl, by decide +kernel, by decide +kernel⟩
  have run := owingRun_of_cleanRun clean
  have sound := terminations_sound 1 (by decide) es w run
  have hresult : (joinSucceeds s₇ 4 0).1 = 7 := by decide +kernel
  have hended : s₇.kernel = [{ cleaning with life := .exited }] := by decide +kernel
  have hjoin : Step s₇ (.joinSucceeds 4 0 7) (joinSucceeds s₇ 4 0).2 :=
    hresult ▸ .joinSucceeds (by decide +kernel) (by rw [hended]; rfl) rfl
  exact ⟨es, w, run, by rw [hstate]; decide +kernel, howed, sound.1.1 clean, ⟨_, hstate ▸ hjoin⟩,
    htold, sound.2 (hstate ▸ orderly)⟩

-- A thread with a cleanup callback calls `OSExitThread`: it ends without the call, and is joined.
theorem exit_skips_cleanup :
    ∃ (es : List Event) (w : Owing), OwingRun (.initial 1) es w ∧
      w.state.kernel.map (fun k => (k.life, k.called)) = [(.exited, [])] ∧
      (w.owed 0).callbacks = [.cleanup 100 4 0] ∧ ¬AllCalled w ∧
      ∃ s', Step w.state (.joinSucceeds 4 0 5) s' := by
  let args : CreateArgs := ⟨16, 0, 0, 0, 0, 16, affinityAny⟩
  let answers : CreateAnswers := ⟨44, true, true⟩
  let k : KernelThread := newKernelThread 4 args 44 (-2)
  let s₁ : State := (call none (.create 4 args answers) (State.initial 1)).2
  let s₂ : State := (call none (.setCleanupCallback 4 100) s₁).2
  let s₃ : State := (call none (.resume 4 true) s₂).2
  let s₄ : State := s₃.setKernel 0 { k with life := .entry }
  let s₅ : State := osExitThread s₄ 0 { k with life := .entry } 5
  let s₆ : State := (joinStarts s₅ 4).2
  have h₁ : Step (State.initial 1) (.call none (.create 4 args answers) _) s₁ := .call trivial
  have h₂ : Step s₁ (.call none (.setCleanupCallback 4 100) _) s₂ := .call trivial
  have h₃ : Step s₂ (.call none (.resume 4 true) _) s₃ := .call trivial
  have h₄ : Step s₃ (.enter 0 _ _ _) s₄ :=
    .enter (k := { k with life := .started }) (by decide +kernel) rfl
  have h₅ : Step s₄ (.exitThread 0 5) s₅ := .exitThread (by decide +kernel) trivial
  have h₆ : Step s₅ (.joinStarts 4) s₆ := .joinStarts
  let ended : KernelThread :=
    { k with
      life := .exited
      value := some 5 }
  have hended : s₆.kernel = [ended] := by decide +kernel
  have hresult : (joinSucceeds s₆ 4 0).1 = 5 := by decide +kernel
  have hjoin : Step s₆ (.joinSucceeds 4 0 5) (joinSucceeds s₆ 4 0).2 :=
    hresult ▸ .joinSucceeds (k := ended) (by decide +kernel) (by rw [hended]; rfl) rfl
  obtain ⟨es, w, run, hstate, howed⟩ :
      ∃ (es : List Event) (w : Owing), OwingRun (.initial 1) es w ∧ w.state = s₆ ∧
        (w.owed 0).callbacks = [.cleanup 100 4 0] :=
    ⟨_, _, ((((Transition.Run.single h₁.owing).snoc h₂.owing).snoc h₃.owing).snoc
      h₄.owing).snoc h₅.owing |>.snoc h₆.owing, rfl, by decide +kernel⟩
  refine ⟨es, w, run, by rw [hstate]; decide +kernel, howed, fun hall => ?_, _, hstate ▸ hjoin⟩
  have hcalled : ended.called = (w.owed 0).callbacks :=
    hall 0 ended (by rw [hstate, hended]; rfl) rfl
  rw [howed] at hcalled
  cases hcalled

end CoreinitNx.Thread
