import Mathlib
import CoreinitNx.Thread.Lives

namespace CoreinitNx.Thread

open HandleTable Slots

variable {s s' : State} {e : Event} {es : List Event} {thread t : OSThread} {h : HostThread}
  {k k' : KernelThread} {i : Nat}

-- What has been seen of one `OSThread`: since its last creation, whether a resumption has brought
-- the count from 1 to 0, whether a start has failed, and whether it was created detached; and the
-- kernel threads whose entry function was called, and those that a join has returned.
structure Seen where
  resumed : Bool
  failed : Bool
  detached : Bool
  entered : List Nat
  joined : List Nat
deriving DecidableEq, Repr

structure Watched where
  state : State
  seen : Seen

def Watched.initial (mainThread : OSThread) : Watched :=
  ⟨State.initial mainThread, ⟨false, false, false, [], []⟩⟩

instance (h : HostThread) : Decidable h.ToStart := inferInstanceAs (Decidable (_ ∧ _))

def Seen.after (thread : OSThread) (s : State) (seen : Seen) : Event → Seen
  | .call _ (.create t args _) reply =>
    if t ≠ thread then seen
    else if reply = .ret 1 then
      { seen with
        resumed := false
        failed := false
        detached := args.attributes &&& attribDetached ≠ 0 }
    else { seen with failed := false }
  | .call _ (.resume t willing) reply =>
    if t ≠ thread then seen
    else
      { seen with
        resumed := seen.resumed || reply = .ret 1
        failed := if (s.threads.view thread).ToStart then !willing else seen.failed }
  | .enter id _ _ _ => { seen with entered := id :: seen.entered }
  | .joinSucceeds t id _ => if t = thread then { seen with joined := id :: seen.joined } else seen
  | _ => seen

-- The joins of the thread that wait.
def State.pending (s : State) (thread : OSThread) : List (OSThread × Nat) :=
  s.joins.filter (·.1 = thread)

-- The calls on the thread are creations, resumptions, suspensions and joins, each made when the one
-- before has returned; nothing is created where a thread of the record runs or is joined.
def Sequential (thread : OSThread) (s : State) : Event → Prop
  | .call _ (.create t _ _) _ => Unused s t
  | .call _ (.resume t _) _ | .call _ (.suspend t) _ | .joinStarts t =>
    t = thread → s.pending thread = []
  | .call caller op _ => ∀ f, op.edit (s.current caller) s.mainThread ≠ some (thread, f)
  | _ => True

structure WatchedStep (thread : OSThread) (w : Watched) (e : Event) (w' : Watched) : Prop where
  step : Step w.state e w'.state
  sequential : Sequential thread w.state e
  seen : w'.seen = w.seen.after thread w.state e

-- The count after the step; what a resumption and a suspension return; when the entry function is
-- called; what becomes of a start that failed; and what a join returns.
structure Sound (thread : OSThread) (w : Watched) (e : Event) (w' : Watched) : Prop where
  counted : 0 ≤ (w'.state.threads.view thread).suspendCount
  previous : ∀ caller op reply, e = .call caller op reply →
    ((∃ willing, op = .resume thread willing) ∨ op = .suspend thread) →
    reply = .ret (w.state.threads.view thread).suspendCount
  enters : ∀ id entry argc argv k, e = .enter id entry argc argv → w.state.kernel[id]? = some k →
    k.guest = thread → (w.state.threads.view thread).handle = some id ∧ w.seen.resumed = true ∧
      id ∉ w.seen.entered ∧ id ∉ w.seen.joined
  retries : ∀ caller reply, e = .call caller (.resume thread true) reply →
    w.seen.failed = true → (w.state.threads.view thread).lowered = 0 →
    ∃ k, w'.state.latest thread = some k ∧ k.life = .started
  joins : ∀ id result, e = .joinSucceeds thread id result →
    (w.state.threads.view thread).handle = some id ∧ id ∈ w.seen.entered ∧
      id ∉ w.seen.joined ∧ w.seen.detached = false ∧ ∃ k, w.state.kernel[id]? = some k ∧
        k.life = .exited ∧ ∀ value, k.value = some value → result = value

-- The count has room for one more suspension.
def BelowLimit (thread : OSThread) (s : State) : Event → Prop
  | .call _ (.suspend t) _ => t = thread → (s.threads.view thread).suspendCount ≠ Int32.maxValue
  | _ => True

variable {w w' : Watched} {mainThread : OSThread}

-- How the record of the thread, its kernel threads and its joins stand to what has been seen.
structure Tallied (h : HostThread) (kernel : List KernelThread) (pending : List (OSThread × Nat))
    (seen : Seen) : Prop where
  nonneg : 0 ≤ h.suspendCount
  suspended : h.created = true → h.started = false → seen.resumed = false → 0 < h.suspendCount
  resumed : ∀ i k, h.handle = some i → kernel[i]? = some k → k.life ≠ .ready →
    seen.resumed = true
  made : h.created = true → ∃ i, h.handle = some i
  unjoined : ∀ i, h.handle = some i → h.created = true → i ∉ seen.joined
  detached : h.created = true → h.detached = seen.detached
  failed : seen.failed = true → h.created = true ∧ h.started = false
  alone : pending.length ≤ 1
  pending : pending ≠ [] → h.created = true ∧ h.started = true ∧ h.detached = false

abbrev Counted (thread : OSThread) (s : State) (seen : Seen) : Prop :=
  Tallied (s.threads.view thread) s.kernel (s.pending thread) seen

structure Lived (s : State) (seen : Seen) : Prop where
  entered : ∀ i, i ∈ seen.entered ↔ BegunAt s i
  joined : ∀ i ∈ seen.joined, ∃ k, s.kernel[i]? = some k ∧ k.life = .exited

structure Sane (thread : OSThread) (w : Watched) : Prop where
  bound : Bound w.state
  delivers : Delivers w.state
  flagged : Flagged w.state
  counted : Counted thread w.state w.seen
  lived : Lived w.state w.seen

theorem not_begunAt_initial (i : Nat) : ¬ BegunAt (State.initial mainThread) i := by
  rintro ⟨k, hk, -⟩
  cases hk

theorem sane_initial (hmain : mainThread ≠ 0) : Sane thread (Watched.initial mainThread) where
  bound := bound_initial hmain
  delivers := delivers_initial
  flagged := flagged_initial hmain
  counted :=
    { nonneg := Int32.le_refl 0
      suspended := fun h => nomatch h
      resumed := fun _ _ h => nomatch h
      made := fun h => nomatch h
      unjoined := fun _ h => nomatch h
      detached := fun h => nomatch h
      failed := fun h => nomatch h
      alone := Nat.zero_le _
      pending := fun h => absurd rfl h }
  lived := ⟨fun i => iff_of_false List.not_mem_nil (not_begunAt_initial i), fun _ h => nomatch h⟩

theorem recreatesClean_of_sequential (h : Sequential thread s e) : RecreatesClean s e := by
  cases e with
  | call caller op reply =>
    cases op with
    | create t args answers => exact h
    | _ => trivial
  | _ => trivial

-- The parts of the record that the four calls go by.
structure SameRecord (h h' : HostThread) : Prop where
  handle : h'.handle = h.handle
  suspendCount : h'.suspendCount = h.suspendCount
  created : h'.created = h.created
  started : h'.started = h.started
  detached : h'.detached = h.detached

theorem SameRecord.refl : SameRecord h h := ⟨rfl, rfl, rfl, rfl, rfl⟩

-- A step in which the thread takes no part.
theorem counted_of_quiet {seen seen' : Seen} (hc : Counted thread s seen)
    (hrecord : SameRecord (s.threads.view thread) (s'.threads.view thread))
    (hlife : ∀ i k', (s.threads.view thread).handle = some i → s'.kernel[i]? = some k' →
      k'.life ≠ .ready → ∃ k, s.kernel[i]? = some k ∧ k.life ≠ .ready)
    (hpending : s'.pending thread = s.pending thread) (hresumed : seen'.resumed = seen.resumed)
    (hfailed : seen'.failed = seen.failed) (hdetached : seen'.detached = seen.detached)
    (hjoined : seen'.joined = seen.joined) : Counted thread s' seen' where
  nonneg := by
    rw [hrecord.suspendCount]
    exact hc.nonneg
  suspended := by
    rw [hrecord.suspendCount, hrecord.created, hrecord.started, hresumed]
    exact hc.suspended
  resumed i k' hhandle hk' hmoved := by
    rw [hrecord.handle] at hhandle
    obtain ⟨k, hk, hold⟩ := hlife i k' hhandle hk' hmoved
    rw [hresumed]
    exact hc.resumed i k hhandle hk hold
  made := by
    rw [hrecord.handle, hrecord.created]
    exact hc.made
  unjoined := by
    rw [hrecord.handle, hrecord.created, hjoined]
    exact hc.unjoined
  detached := by
    rw [hrecord.created, hrecord.detached, hdetached]
    exact hc.detached
  failed := by
    rw [hrecord.created, hrecord.started, hfailed]
    exact hc.failed
  alone := hpending ▸ hc.alone
  pending := by
    rw [hpending, hrecord.created, hrecord.started, hrecord.detached]
    exact hc.pending

theorem counted_of_same {seen : Seen} (hc : Counted thread s seen)
    (hview : s'.threads.view thread = s.threads.view thread) (hkernel : s'.kernel = s.kernel)
    (hpending : s'.pending thread = s.pending thread) : Counted thread s' seen := by
  refine counted_of_quiet hc ?_ (fun i k' _ hk' hmoved => ?_) hpending rfl rfl rfl rfl
  · rw [hview]
    exact .refl
  · rw [hkernel] at hk'
    exact ⟨k', hk', hmoved⟩

theorem lived_of_step (hs : Step s e s') {seen : Seen} (hl : Lived s seen)
    (hjoin : ∀ id result, e = .joinSucceeds thread id result →
      ∃ k, s.kernel[id]? = some k ∧ k.life = .exited) :
    Lived s' (seen.after thread s e) := by
  have hentered : (seen.after thread s e).entered =
      e.enters.elim seen.entered (· :: seen.entered) := by
    cases e with
    | call caller op reply =>
      cases op with
      | create t args answers =>
        simp only [Seen.after, Event.enters]
        split
        next => rfl
        next => split <;> rfl
      | resume t willing =>
        simp only [Seen.after, Event.enters]
        split <;> rfl
      | _ => rfl
    | joinSucceeds t id result =>
      simp only [Seen.after, Event.enters]
      split <;> rfl
    | _ => rfl
  have hjoined : ∀ i ∈ (seen.after thread s e).joined,
      i ∈ seen.joined ∨ ∃ result, e = .joinSucceeds thread i result := by
    intro i hi
    cases e with
    | call caller op reply =>
      refine .inl ?_
      cases op with
      | create t args answers =>
        simp only [Seen.after] at hi
        split at hi
        next => exact hi
        next => split at hi <;> exact hi
      | resume t willing =>
        simp only [Seen.after] at hi
        split at hi <;> exact hi
      | _ => exact hi
    | joinSucceeds t id result =>
      simp only [Seen.after] at hi
      split at hi
      next heq =>
        rcases List.mem_cons.1 hi with rfl | hold
        · exact .inr ⟨result, by rw [heq]⟩
        · exact .inl hold
      next => exact .inl hi
    | _ => exact .inl hi
  constructor
  · intro i
    rw [hs.begunAt, hentered, ← hl.entered]
    cases e.enters with
    | none => simp
    | some id => simp [or_comm, eq_comm]
  · intro i hi
    have hexited : ∃ k, s.kernel[i]? = some k ∧ k.life = .exited := by
      rcases hjoined i hi with hold | ⟨result, heq⟩
      · exact hl.joined i hold
      · exact hjoin i result heq
    obtain ⟨k, hk, hlife⟩ := hexited
    exact ⟨k, hs.exited hk hlife, hlife⟩

theorem lowered_toInt (hnonneg : 0 ≤ h.suspendCount) :
    h.lowered.toInt = if 0 < h.suspendCount.toInt then h.suspendCount.toInt - 1 else 0 := by
  have hlow : 0 ≤ h.suspendCount.toInt := Int32.le_iff_toInt_le.1 hnonneg
  have hhigh := Int32.toInt_lt h.suspendCount
  rw [HostThread.lowered]
  split
  next hpos =>
    have hpos' : 0 < h.suspendCount.toInt := Int32.lt_iff_toInt_lt.1 hpos
    rw [if_pos hpos', Int32.toInt_sub, Int.bmod_eq_of_le]
    · rfl
    · change -(2 ^ 32) / 2 ≤ h.suspendCount.toInt - 1
      omega
    · change h.suspendCount.toInt - 1 < (2 ^ 32 + 1) / 2
      omega
  next hpos =>
    have hpos' : ¬0 < h.suspendCount.toInt := fun h => hpos (Int32.lt_iff_toInt_lt.2 h)
    rw [if_neg hpos']
    omega

theorem suspended_toInt {c : Int32} (h : c ≠ Int32.maxValue) : (c + 1).toInt = c.toInt + 1 := by
  have hlow := Int32.le_toInt c
  have hhigh := Int32.toInt_lt c
  have hne : c.toInt ≠ 2 ^ 31 - 1 := fun heq => h (Int32.toInt_inj.1 (heq.trans (by decide)))
  rw [Int32.toInt_add, Int.bmod_eq_of_le]
  · rfl
  · change -(2 ^ 32) / 2 ≤ c.toInt + 1
    omega
  · change c.toInt + 1 < (2 ^ 32 + 1) / 2
    omega

theorem pending_of_unused (h : Unused s thread) : s.pending thread = [] := by
  apply List.filter_eq_nil_iff.2
  rintro ⟨t, i⟩ hmem hthread
  have heq : t = thread := of_decide_eq_true hthread
  exact h.2 i (heq ▸ hmem)

theorem mem_pending : (thread, i) ∈ s.pending thread ↔ (thread, i) ∈ s.joins := by
  rw [State.pending, List.mem_filter]
  exact and_iff_left (decide_eq_true rfl)

theorem seen_created {args : CreateArgs} {answers : CreateAnswers} {caller : Option Nat}
    {seen : Seen} : seen.after thread s (.call caller (.create thread args answers) (.ret 1)) =
      { seen with
        resumed := false
        failed := false
        detached := args.attributes &&& attribDetached ≠ 0 } := by
  simp [Seen.after]

theorem seen_refused {args : CreateArgs} {answers : CreateAnswers} {caller : Option Nat}
    {seen : Seen} : seen.after thread s (.call caller (.create thread args answers) (.ret 0)) =
      { seen with failed := false } := by
  simp [Seen.after]

theorem counted_create {args : CreateArgs} {answers : CreateAnswers} {caller : Option Nat}
    {seen : Seen} (hc : Counted thread s seen) (hf : Flagged s) (hl : Lived s seen)
    (hunused : Unused s t) :
    Counted thread (osCreateThread s t args answers).2
      (seen.after thread s (.call caller (.create t args answers)
        (.ret (osCreateThread s t args answers).1))) := by
  by_cases ht : t = thread
  · subst ht
    have hnone : s.pending t = [] := pending_of_unused hunused
    cases hcpu : createdCpu args.attributes answers with
    | none =>
      rw [osCreateThread_none hcpu, seen_refused, Counted, view_store_same]
      exact
        { hc with
          nonneg := (by decide : (0 : Int32) ≤ 1)
          suspended := fun h => nomatch h
          made := fun h => nomatch h
          unjoined := fun _ _ h => nomatch h
          detached := fun h => nomatch h
          failed := fun h => nomatch h
          pending := fun h => absurd hnone h }
    | some cpu =>
      rw [osCreateThread_some hcpu, seen_created, Counted, view_store_same]
      exact
        { nonneg := (by decide : (0 : Int32) ≤ 1)
          suspended := fun _ _ _ => (by decide : (0 : Int32) < 1)
          resumed := by
            intro i k hhandle hk hmoved
            cases hhandle
            rw [List.getElem?_concat_length] at hk
            cases hk
            exact absurd rfl hmoved
          made := fun _ => ⟨_, rfl⟩
          unjoined := by
            intro i hhandle _ hmem
            cases hhandle
            obtain ⟨k, hk, -⟩ := hl.joined _ hmem
            obtain ⟨hi, -⟩ := List.getElem?_eq_some_iff.1 hk
            exact absurd hi (Nat.lt_irrefl _)
          detached := fun _ => rfl
          failed := fun h => nomatch h
          alone := hc.alone
          pending := fun h => absurd hnone h }
  · have hseen (reply : Reply) :
        seen.after thread s (.call caller (.create t args answers) reply) = seen := if_pos ht
    rw [hseen]
    cases hcpu : createdCpu args.attributes answers with
    | none =>
      rw [osCreateThread_none hcpu]
      exact counted_of_same hc (view_store_ne _ _ (Ne.symm ht)) rfl rfl
    | some cpu =>
      rw [osCreateThread_some hcpu]
      refine counted_of_quiet hc ?_ (fun i k' hhandle hk' hmoved => ?_) rfl rfl rfl rfl rfl
      · rw [view_store_ne _ _ (Ne.symm ht)]
        exact .refl
      · obtain ⟨k, hk, -⟩ := hf.handle thread i hhandle
        obtain ⟨hi, -⟩ := List.getElem?_eq_some_iff.1 hk
        rw [List.getElem?_append_left hi] at hk'
        exact ⟨k', hk', hmoved⟩

-- Where the count has come down to zero, a resumption has brought it there.
theorem resumed_of_toStart {seen : Seen} (hc : Counted thread s seen)
    (hdue : (s.threads.view thread).ToStart) :
    seen.resumed = true ∨ (s.threads.view thread).suspendCount = 1 := by
  obtain ⟨hzero, hcreated, hstarted⟩ := hdue
  cases hresumed : seen.resumed with
  | true => exact .inl rfl
  | false =>
    have hpos := Int32.lt_iff_toInt_lt.1
      (hc.suspended hcreated (Bool.eq_false_iff.2 hstarted) hresumed)
    have hlow := lowered_toInt hc.nonneg
    rw [Int32.toInt_zero] at hpos
    rw [hzero, if_pos hpos, Int32.toInt_zero] at hlow
    refine .inr (Int32.toInt_inj.1 ?_)
    rw [show (1 : Int32).toInt = 1 from rfl]
    omega

theorem counted_resume {willing : Bool} {caller : Option Nat} {seen : Seen}
    (hc : Counted thread s seen) (hf : Flagged s) (hidle : t = thread → s.pending thread = []) :
    Counted thread (osResumeThread s t willing).2
      (seen.after thread s (.call caller (.resume t willing)
        (.ret (osResumeThread s t willing).1))) := by
  obtain ⟨hreply, hcases⟩ := osResumeThread_cases s t willing
  rw [hreply]
  by_cases ht : t = thread
  · subst ht
    have hnone := hidle rfl
    have hlow := lowered_toInt hc.nonneg
    have hlowered : 0 ≤ (s.threads.view t).lowered := by
      rw [Int32.le_iff_toInt_le, hlow, Int32.toInt_zero]
      split <;> omega
    simp only [Seen.after, ne_eq, not_true_eq_false, if_false, Reply.ret.injEq]
    rcases hcases with ⟨heq, -⟩ | ⟨i, k, hwilling, hstart, heq⟩
    · rw [heq, Counted, view_store_same]
      exact
        { hc with
          nonneg := hlowered
          suspended := by
            intro hcreated hstarted hresumed
            rw [Bool.or_eq_false_iff, decide_eq_false_iff_not] at hresumed
            have hpos := Int32.lt_iff_toInt_lt.1 (hc.suspended hcreated hstarted hresumed.1)
            have hone : (s.threads.view t).suspendCount.toInt ≠ 1 :=
              fun h => hresumed.2 (Int32.toInt_inj.1 h)
            rw [Int32.toInt_zero] at hpos
            rw [Int32.lt_iff_toInt_lt, hlow, if_pos hpos, Int32.toInt_zero]
            omega
          resumed := by
            intro i k hhandle hk hmoved
            rw [hc.resumed i k hhandle hk hmoved, Bool.true_or]
          failed := by
            intro hfailed
            dsimp only at hfailed
            split at hfailed
            next hdue => exact ⟨hdue.2.1, Bool.eq_false_iff.2 hdue.2.2⟩
            next => exact hc.failed hfailed }
    · rw [heq, Counted, view_store_same]
      exact
        { hc with
          nonneg := hlowered
          suspended := fun _ h => nomatch h
          resumed := by
            intro _ _ _ _ _
            rcases resumed_of_toStart hc hstart.due with hresumed | hone
            · rw [hresumed, Bool.true_or]
            · rw [decide_eq_true hone, Bool.or_true]
          failed := by
            rw [if_pos hstart.due, hwilling]
            exact fun h => nomatch h
          pending := fun h => absurd hnone h }
  · have hseen (reply : Reply) :
        seen.after thread s (.call caller (.resume t willing) reply) = seen := if_pos ht
    rw [hseen]
    rcases hcases with ⟨heq, -⟩ | ⟨i, k, -, hstart, heq⟩
    · rw [heq]
      exact counted_of_same hc (view_store_ne _ _ (Ne.symm ht)) rfl rfl
    · rw [heq]
      refine counted_of_quiet hc ?_ (fun j k' hhandle hk' hmoved => ?_) rfl rfl rfl rfl rfl
      · rw [view_store_ne _ _ (Ne.symm ht)]
        exact .refl
      · rw [list_set hstart.kernel] at hk'
        have hj : i ≠ j := by
          rintro rfl
          have hthread := hf.guest_of_handle hhandle hstart.kernel
          exact ht ((hf.guest_of_handle hstart.handle hstart.kernel).symm.trans hthread)
        rw [if_neg hj] at hk'
        exact ⟨k', hk', hmoved⟩

theorem osSuspendThread_eq : osSuspendThread s thread =
    ((s.threads.view thread).suspendCount,
      { s with
        threads := s.threads.store thread
          { s.threads.view thread with
            suspendCount := (s.threads.view thread).suspendCount + 1 } }) := update_eq s thread _

theorem counted_suspend {seen : Seen} (hc : Counted thread s seen)
    (hlimit : (s.threads.view thread).suspendCount ≠ Int32.maxValue) :
    Counted thread (osSuspendThread s thread).2 seen := by
  have hsum := suspended_toInt hlimit
  have hlow : 0 ≤ (s.threads.view thread).suspendCount.toInt := Int32.le_iff_toInt_le.1 hc.nonneg
  have hpos : 0 < (s.threads.view thread).suspendCount + 1 := by
    rw [Int32.lt_iff_toInt_lt, hsum, Int32.toInt_zero]
    omega
  rw [osSuspendThread_eq, Counted, view_store_same]
  exact
    { hc with
      nonneg := Int32.le_of_lt hpos
      suspended := fun _ _ _ => hpos }

theorem counted_edit {current : Option OSThread} {mainThread : OSThread} {op : Op} {seen : Seen}
    (hc : Counted thread s seen) (hedit : ∀ f, op.edit current mainThread ≠ some (thread, f)) :
    Counted thread (s.edit (op.edit current mainThread)) seen := by
  cases hop : op.edit current mainThread with
  | none => exact hc
  | some edit =>
    obtain ⟨t, f⟩ := edit
    have ht : thread ≠ t := by
      rintro rfl
      exact hedit f hop
    exact counted_of_same hc (view_store_ne _ _ ht) rfl rfl

-- A kernel thread that has been started moves on.
theorem counted_move {seen : Seen} {entered : List Nat} (hc : Counted thread s seen)
    (hk : s.kernel[i]? = some k) (hlife : k.life ≠ .ready) (hkernel : s'.kernel = s.kernel.set i k')
    (hrecord : SameRecord (s.threads.view thread) (s'.threads.view thread))
    (hpending : s'.pending thread = s.pending thread) :
    Counted thread s' { seen with entered } := by
  refine counted_of_quiet hc hrecord (fun j k₀ _ hk₀ hmoved => ?_) hpending rfl rfl rfl rfl
  rw [hkernel, list_set hk] at hk₀
  split at hk₀
  next hj =>
    subst hj
    exact ⟨k, hk, hlife⟩
  next => exact ⟨k₀, hk₀, hmoved⟩

theorem setExitResult_sameRecord {value : Int32} :
    SameRecord (s.threads.view thread) ((setExitResult s t value).threads.view thread) where
  handle := view_store_keeps (·.handle) rfl
  suspendCount := view_store_keeps (·.suspendCount) rfl
  created := view_store_keeps (·.created) rfl
  started := view_store_keeps (·.started) rfl
  detached := view_store_keeps (·.detached) rfl

theorem joinStarts_cases (s : State) (thread : OSThread) :
    (joinStarts s thread).2.joins = s.joins ∨
      ∃ i, (joinStarts s thread).2.joins = (thread, i) :: s.joins ∧
        (s.threads.view thread).created = true ∧ (s.threads.view thread).started = true ∧
        (s.threads.view thread).detached = false := by
  simp only [joinStarts, get_fst]
  split
  next => exact .inl rfl
  next i hjoin =>
    rw [joinable] at hjoin
    split at hjoin
    next => cases hjoin
    next hpass =>
      simp only [not_or, Bool.not_eq_true, Bool.not_eq_false] at hpass
      exact .inr ⟨i, rfl, hpass⟩

theorem counted_joinStarts {seen : Seen} (hc : Counted thread s seen)
    (hidle : t = thread → s.pending thread = []) : Counted thread (joinStarts s t).2 seen := by
  have hview (t' : OSThread) : (joinStarts s t).2.threads.view t' = s.threads.view t' :=
    joinStarts_view
  have hkernel : (joinStarts s t).2.kernel = s.kernel := joinStarts_kernel
  rcases joinStarts_cases s t with heq | ⟨i, heq, hopen⟩
  · apply counted_of_same hc (hview thread) hkernel
    rw [State.pending, heq]
    rfl
  · by_cases ht : t = thread
    · subst ht
      have hone : (joinStarts s t).2.pending t = [(t, i)] := by
        have hnone := hidle rfl
        rw [State.pending] at hnone ⊢
        simp only [heq, List.filter_cons, decide_true, if_true, hnone]
      rw [Counted, hview, hkernel, hone]
      exact { hc with alone := Nat.le_refl 1, pending := fun _ => hopen }
    · apply counted_of_same hc (hview thread) hkernel
      simp only [State.pending, heq, List.filter_cons, decide_eq_true_eq, if_neg ht]

-- What is left of the pending joins when one of them ends.
theorem pending_erase (hc : (s.pending thread).length ≤ 1) (hmem : (t, i) ∈ s.joins) :
    (s.joins.erase (t, i)).filter (·.1 = thread) =
      if t = thread then [] else s.pending thread := by
  rw [← List.erase_filter]
  split
  next heq =>
    subst heq
    have hin : (t, i) ∈ s.pending t := mem_pending.2 hmem
    apply List.eq_nil_of_length_eq_zero
    rw [State.pending] at hin hc
    rw [List.length_erase_of_mem hin]
    omega
  next hne =>
    apply List.erase_of_not_mem
    intro hin
    exact hne (of_decide_eq_true (List.mem_filter.1 hin).2)

theorem counted_joinFails {seen : Seen} (hc : Counted thread s seen) (hmem : (t, i) ∈ s.joins) :
    Counted thread (joinFails s t i) seen := by
  have hpending := pending_erase hc.alone hmem
  by_cases ht : t = thread
  · rw [if_pos ht] at hpending
    have hnone : (joinFails s t i).pending thread = [] := hpending
    rw [Counted, hnone]
    exact { hc with alone := Nat.zero_le 1, pending := fun h => absurd rfl h }
  · rw [if_neg ht] at hpending
    exact counted_of_same hc rfl rfl hpending

theorem counted_joinSucceeds {seen : Seen} {result : Int32} (hc : Counted thread s seen)
    (hmem : (t, i) ∈ s.joins) :
    Counted thread (joinSucceeds s t i).2 (seen.after thread s (.joinSucceeds t i result)) := by
  have hpending := pending_erase hc.alone hmem
  simp only [Seen.after]
  by_cases ht : t = thread
  · subst ht
    rw [if_pos rfl] at hpending
    rw [if_pos rfl]
    have hview : (joinSucceeds s t i).2.threads.view t =
        { s.threads.view t with started := false, created := false } := view_store_same _ _ _
    have hnone : (joinSucceeds s t i).2.pending t = [] := hpending
    have hin : s.pending t ≠ [] := List.ne_nil_of_mem (mem_pending.2 hmem)
    rw [Counted, hview, hnone]
    exact
      { hc with
        suspended := fun h => nomatch h
        made := fun h => nomatch h
        unjoined := fun _ _ h => nomatch h
        detached := fun h => nomatch h
        failed := by
          intro hfailed
          have hstarted := (hc.failed hfailed).2
          rw [(hc.pending hin).2.1] at hstarted
          cases hstarted
        alone := Nat.zero_le 1
        pending := fun h => absurd rfl h }
  · rw [if_neg ht] at hpending
    rw [if_neg ht]
    exact counted_of_same hc (view_store_ne _ _ (Ne.symm ht)) rfl hpending

theorem call_edit {current : Option OSThread} {op : Op}
    (hcreate : ∀ thread args answers, op ≠ .create thread args answers)
    (hresume : ∀ thread willing, op ≠ .resume thread willing) :
    (call current op s).2 = s.edit (op.edit current s.mainThread) := by
  rcases op_cases op with ⟨thread, args, answers, heq⟩ | ⟨thread, willing, heq⟩ | hedit
  · exact absurd heq (hcreate thread args answers)
  · exact absurd heq (hresume thread willing)
  · exact hedit current s

theorem counted_call {caller : Option Nat} {op : Op} {seen : Seen} (hc : Counted thread s seen)
    (hf : Flagged s) (hl : Lived s seen)
    (hseq : Sequential thread s (.call caller op (call (s.current caller) op s).1))
    (hlimit : BelowLimit thread s (.call caller op (call (s.current caller) op s).1)) :
    Counted thread (call (s.current caller) op s).2
      (seen.after thread s (.call caller op (call (s.current caller) op s).1)) := by
  have hedited (hcreate : ∀ thread args answers, op ≠ .create thread args answers)
      (hresume : ∀ thread willing, op ≠ .resume thread willing)
      (hother : ∀ f, op.edit (s.current caller) s.mainThread ≠ some (thread, f)) :
      Counted thread (call (s.current caller) op s).2 seen := by
    rw [call_edit hcreate hresume]
    exact counted_edit hc hother
  cases op with
  | create t args answers => exact counted_create hc hf hl hseq
  | resume t willing => exact counted_resume hc hf hseq
  | suspend t =>
    by_cases ht : t = thread
    · subst ht
      exact counted_suspend hc (hlimit rfl)
    · refine hedited nofun nofun fun f hedit => ht ?_
      exact (Prod.mk.inj (Option.some.inj hedit)).1
  | setCleanupCallback _ _ | setDeallocator _ _ | getPriority _ | setPriority _ _ | getAffinity _
  | setAffinity _ _ | getName _ | setName _ _ | cancel _ | detach _ | isTerminated _
  | setCancelState _ | getCurrent => exact hedited nofun nofun hseq

theorem counted_step (hs : Step s e s') {seen : Seen} (hc : Counted thread s seen)
    (hf : Flagged s) (hl : Lived s seen) (hseq : Sequential thread s e)
    (hlimit : BelowLimit thread s e) : Counted thread s' (seen.after thread s e) := by
  have hmoved {k : KernelThread} {life : Life} (h : k.life = life) (hne : life ≠ .ready) :
      k.life ≠ .ready := fun heq => hne (h.symm.trans heq)
  cases hs with
  | call => exact counted_call hc hf hl hseq hlimit
  | enter hk hlife => exact counted_move hc hk (hmoved hlife nofun) rfl .refl rfl
  | entryReturned hk hlife =>
    exact counted_move hc hk (hmoved hlife nofun) rfl setExitResult_sameRecord rfl
  | cleanupReturned hk hlife => exact counted_move hc hk (hmoved hlife nofun) rfl .refl rfl
  | deallocatorReturned hk hlife => exact counted_move hc hk (hmoved hlife nofun) rfl .refl rfl
  | exitThread hk hin =>
    exact counted_move hc hk (begun_of_inGuest hin).1 rfl setExitResult_sameRecord rfl
  | testCancel hk hin =>
    rw [osTestThreadCancel]
    split
    next => exact counted_move hc hk (begun_of_inGuest hin).1 rfl .refl rfl
    next => exact hc
  | joinStarts => exact counted_joinStarts hc hseq
  | joinFails hmem => exact counted_joinFails hc hmem
  | joinSucceeds hmem => exact counted_joinSucceeds hc hmem

theorem Step.of_joinSucceeds {result : Int32} (hs : Step s (.joinSucceeds thread i result) s') :
    (thread, i) ∈ s.joins ∧ ∃ k, s.kernel[i]? = some k ∧ k.life = .exited := by
  cases hs with
  | joinSucceeds hmem hk hlife => exact ⟨hmem, _, hk, hlife⟩

theorem Step.of_enter {entry : OSThreadEntryPointFn} {argc : Int32} {argv : Pointer}
    (hs : Step s (.enter i entry argc argv) s') (hk : s.kernel[i]? = some k) :
    k.life = .started := by
  cases hs with
  | enter hk₀ hlife =>
    rw [hk] at hk₀
    cases hk₀
    exact hlife

theorem Step.of_call {caller : Option Nat} {op : Op} {reply : Reply}
    (hs : Step s (.call caller op reply) s') :
    reply = (Thread.call (s.current caller) op s).1 ∧
      s' = (Thread.call (s.current caller) op s).2 := by
  cases hs
  exact ⟨rfl, rfl⟩

theorem WatchedStep.sane (hw : WatchedStep thread w e w') (hs : Sane thread w)
    (hlimit : BelowLimit thread w.state e) : Sane thread w' := by
  obtain ⟨hstep, hseq, hseen⟩ := hw
  obtain ⟨hb, hd⟩ := hstep.sound (recreatesClean_of_sequential hseq) hs.bound hs.delivers
  refine ⟨hb, hd, hstep.flagged hs.flagged, ?_, ?_⟩
  · rw [hseen]
    exact counted_step hstep hs.counted hs.flagged hs.lived hseq hlimit
  · rw [hseen]
    refine lived_of_step hstep hs.lived fun id result heq => ?_
    subst heq
    exact hstep.of_joinSucceeds.2

theorem enter_sound {entry : OSThreadEntryPointFn} {argc : Int32} {argv : Pointer}
    (hs : Sane thread w) (hstep : Step w.state (.enter i entry argc argv) s')
    (hk : w.state.kernel[i]? = some k) (hguest : k.guest = thread) :
    (w.state.threads.view thread).handle = some i ∧ w.seen.resumed = true ∧
      i ∉ w.seen.entered ∧ i ∉ w.seen.joined := by
  have hlife := hstep.of_enter hk
  have hhandle : (w.state.threads.view thread).handle = some i := by
    rw [← hguest]
    refine handle_of_not_idle hs.bound hk (not_or.2 ⟨?_, ?_⟩) <;> rw [hlife] <;> nofun
  have hready : k.life ≠ .ready := by
    rw [hlife]
    nofun
  refine ⟨hhandle, hs.counted.resumed i k hhandle hk hready, fun hmem => ?_, fun hmem => ?_⟩
  · obtain ⟨k₀, hk₀, hbegun⟩ := (hs.lived.entered i).1 hmem
    rw [hk] at hk₀
    cases hk₀
    exact hbegun.2 hlife
  · obtain ⟨k₀, hk₀, hexited⟩ := hs.lived.joined i hmem
    rw [hk] at hk₀
    cases hk₀
    rw [hlife] at hexited
    cases hexited

-- A start that failed is tried again.
theorem retry_sound (hs : Sane thread w) (hfailed : w.seen.failed = true)
    (hzero : (w.state.threads.view thread).lowered = 0) :
    ∃ k, (osResumeThread w.state thread true).2.latest thread = some k ∧ k.life = .started := by
  obtain ⟨hcreated, hstarted⟩ := hs.counted.failed hfailed
  obtain ⟨i, hhandle⟩ := hs.counted.made hcreated
  obtain ⟨k, hk, -⟩ := hs.flagged.handle thread i hhandle
  have hready : k.life = .ready := by
    apply Decidable.not_not.1
    intro hmoved
    rw [(hs.flagged.started thread i k hhandle hk hcreated).2 hmoved] at hstarted
    cases hstarted
  have hdue : (w.state.threads.view thread).ToStart :=
    ⟨hzero, hcreated, Bool.eq_false_iff.1 hstarted⟩
  obtain ⟨-, ⟨-, hstay⟩ | ⟨j, k₀, -, hstart, heq⟩⟩ := osResumeThread_cases w.state thread true
  · exact absurd ⟨hdue, hhandle, hk, hready⟩ (hstay i k rfl)
  · have hsame : (osResumeThread w.state thread true).2.latest thread =
        (w.state.kernel.set j { k₀ with life := .started })[j]? := by
      rw [heq, State.latest, view_store_same]
      dsimp only
      rw [hstart.handle]
      rfl
    refine ⟨{ k₀ with life := .started }, ?_, rfl⟩
    rw [hsame, list_set hstart.kernel, if_pos rfl]

theorem join_sound {result : Int32} (hs : Sane thread w)
    (hstep : Step w.state (.joinSucceeds thread i result) s') :
    (w.state.threads.view thread).handle = some i ∧ i ∈ w.seen.entered ∧ i ∉ w.seen.joined ∧
      w.seen.detached = false ∧ ∃ k, w.state.kernel[i]? = some k ∧ k.life = .exited ∧
        ∀ value, k.value = some value → result = value := by
  obtain ⟨k, hk, -, hlife, hvalue⟩ := join_delivers hs.bound hs.delivers hstep
  have hmem := hstep.of_joinSucceeds.1
  have hhandle := hs.bound.joined thread i hmem
  obtain ⟨hcreated, -, hdetached⟩ :=
    hs.counted.pending (List.ne_nil_of_mem (mem_pending.2 hmem))
  have hbegun : k.life.Begun := by
    rw [hlife]
    exact ⟨nofun, nofun⟩
  rw [hs.counted.detached hcreated] at hdetached
  exact ⟨hhandle, (hs.lived.entered i).2 ⟨k, hk, hbegun⟩, hs.counted.unjoined i hhandle hcreated,
    hdetached, k, hk, hlife, hvalue⟩

theorem WatchedStep.sound (hw : WatchedStep thread w e w') (hs : Sane thread w)
    (hlimit : BelowLimit thread w.state e) : Sound thread w e w' where
  counted := (hw.sane hs hlimit).counted.nonneg
  previous := by
    rintro caller op reply rfl hop
    obtain ⟨hreply, -⟩ := hw.step.of_call
    rw [hreply]
    rcases hop with ⟨willing, rfl⟩ | rfl
    · exact congrArg Reply.ret (osResumeThread_cases w.state thread willing).1
    · simp only [call, osSuspendThread_eq, Prod.map]
  enters := by
    rintro id entry argc argv k rfl hk hguest
    exact enter_sound hs hw.step hk hguest
  retries := by
    rintro caller reply rfl hfailed hzero
    rw [hw.step.of_call.2]
    exact retry_sound hs hfailed hzero
  joins := by
    rintro id result rfl
    exact join_sound hs hw.step

-- One more suspension than the count has room for makes it negative.
theorem Sound.belowLimit (hsound : Sound thread w e w') (hw : WatchedStep thread w e w') :
    BelowLimit thread w.state e := by
  cases e with
  | call caller op reply =>
    cases op with
    | suspend t =>
      rintro rfl hmax
      have hcount := hsound.counted
      rw [hw.step.of_call.2] at hcount
      simp only [call, osSuspendThread_eq, Prod.map, id, view_store_same, hmax] at hcount
      exact absurd hcount (by decide)
    | _ => trivial
  | _ => trivial

abbrev SoundRun (thread : OSThread) :=
  Transition.Run fun w e w' => WatchedStep thread w e w' ∧ Sound thread w e w'

abbrev LimitedRun (thread : OSThread) :=
  Transition.Run fun w e w' => WatchedStep thread w e w' ∧ BelowLimit thread w.state e

theorem sane_of_limitedRun (hmain : mainThread ≠ 0)
    (run : LimitedRun thread (Watched.initial mainThread) es w) : Sane thread w := by
  induction run with
  | nil => exact sane_initial hmain
  | snoc _ hs ih => exact hs.1.sane ih hs.2

theorem thread_counting_iff (mainThread : OSThread) (hmain : mainThread ≠ 0) (thread : OSThread)
    (es : List Event) (w : Watched) :
    SoundRun thread (Watched.initial mainThread) es w ↔
      LimitedRun thread (Watched.initial mainThread) es w := by
  constructor
  · intro run
    induction run with
    | nil => exact .nil
    | snoc _ hs ih => exact ih.snoc ⟨hs.1, hs.2.belowLimit hs.1⟩
  · intro run
    induction run with
    | nil => exact .nil
    | snoc run hs ih =>
      exact ih.snoc ⟨hs.1, hs.1.sound (sane_of_limitedRun hmain run) hs.2⟩

section Bounds

def plainArgs : CreateArgs := ⟨16, 0, 0, 0, 0, 16, affinityAny⟩

def kindAnswers : CreateAnswers := ⟨44, true, true⟩

def watchedCreated : Watched :=
  ⟨(osCreateThread (State.initial 1) 4 plainArgs kindAnswers).2, ⟨false, false, false, [], []⟩⟩

theorem watched_create : WatchedStep 4 (Watched.initial 1)
    (.call none (.create 4 plainArgs kindAnswers) (.ret 1)) watchedCreated where
  step := @Step.call (State.initial 1) none (.create 4 plainArgs kindAnswers) trivial
  sequential := unused_initial 1 4
  seen := rfl

theorem watched_suspend (hidle : w.state.pending thread = []) :
    WatchedStep thread w
      (.call none (.suspend thread) (.ret (w.state.threads.view thread).suspendCount))
      ⟨(osSuspendThread w.state thread).2, w.seen⟩ where
  step := by
    have hcall := @Step.call w.state none (.suspend thread) trivial
    simp only [call, osSuspendThread_eq, Prod.map, id] at hcall
    rw [osSuspendThread_eq]
    exact hcall
  sequential := fun _ => hidle
  seen := rfl

theorem thread_counting_iff_resumed :
    ∃ (es : List Event) (w : Watched), w.state.kernel.map (·.life) = [.entry] ∧
      SoundRun 4 (Watched.initial 1) es w := by
  let k : KernelThread := newKernelThread 4 plainArgs 44 (-2)
  let w₁ : Watched := watchedCreated
  let w₂ : Watched := ⟨(osResumeThread w₁.state 4 true).2, ⟨true, false, false, [], []⟩⟩
  let w₃ : Watched := ⟨w₂.state.setKernel 0 { k with life := .entry }, ⟨true, false, false, [0], []⟩⟩
  have h₂ : WatchedStep 4 w₁ (.call none (.resume 4 true) (.ret 1)) w₂ :=
    ⟨@Step.call w₁.state none (.resume 4 true) trivial, fun _ => rfl, by decide +kernel⟩
  have h₃ : WatchedStep 4 w₂ (.enter 0 16 0 0) w₃ :=
    ⟨.enter (k := { k with life := .started }) (by decide +kernel) rfl, trivial, rfl⟩
  have run : LimitedRun 4 (Watched.initial 1) _ w₃ :=
    ((Transition.Run.single ⟨watched_create, trivial⟩).snoc ⟨h₂, trivial⟩).snoc ⟨h₃, trivial⟩
  exact ⟨_, w₃, by decide +kernel, (thread_counting_iff 1 (by decide) 4 _ w₃).2 run⟩

theorem exists_suspended (n : Nat) (hn : n < 2 ^ 31 - 1) :
    ∃ (es : List Event) (w : Watched),
      Transition.Run (WatchedStep 4) (Watched.initial 1) es w ∧ w.state.pending 4 = [] ∧
      (w.state.threads.view 4).suspendCount.toInt = n + 1 := by
  induction n with
  | zero => exact ⟨_, watchedCreated, .single watched_create, rfl, rfl⟩
  | succ n ih =>
    obtain ⟨es, w, run, hidle, hcount⟩ := ih (by omega)
    refine ⟨_, _, run.snoc (watched_suspend hidle), hidle, ?_⟩
    have hbelow : (w.state.threads.view 4).suspendCount ≠ Int32.maxValue := by
      intro hmax
      rw [hmax, show Int32.maxValue.toInt = 2 ^ 31 - 1 from rfl] at hcount
      omega
    simp only [osSuspendThread_eq, view_store_same]
    rw [suspended_toInt hbelow, hcount]
    push_cast
    rfl

-- A thread that is created and then suspended 2^31 - 1 times has a negative count.
theorem suspend_count_wraps : ∃ (es : List Event) (w : Watched),
    Transition.Run (WatchedStep 4) (Watched.initial 1) es w ∧
      (w.state.threads.view 4).suspendCount < 0 ∧ ¬SoundRun 4 (Watched.initial 1) es w := by
  obtain ⟨es, w, run, hidle, hcount⟩ := exists_suspended (2 ^ 31 - 2) (by decide)
  have hmax : (w.state.threads.view 4).suspendCount = Int32.maxValue :=
    Int32.toInt_inj.1 hcount
  have hnegative : ((osSuspendThread w.state 4).2.threads.view 4).suspendCount < 0 := by
    rw [osSuspendThread_eq, view_store_same, hmax]
    exact (by decide : Int32.maxValue + 1 < 0)
  refine ⟨_, _, run.snoc (watched_suspend hidle), hnegative, fun sound => ?_⟩
  obtain ⟨m, -, -, hlast⟩ := sound.of_snoc
  exact absurd hlast.counted (Int32.not_le.2 hnegative)

end Bounds

end CoreinitNx.Thread
