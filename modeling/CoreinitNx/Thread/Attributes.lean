import CoreinitNx.Thread.Callbacks
import CoreinitNx.Library.Alignment
import Mathlib.Data.List.Forall2

namespace CoreinitNx.Thread

open Alignment

-- What the game sets of a thread and reads back.
structure Attributes where
  priority : Int32
  affinity : UInt32
  name : Pointer
  cleanup : OSThreadCleanupCallbackFn
  deallocator : OSThreadDeallocatorFn
deriving DecidableEq, Repr

def HostThread.attributes (h : HostThread) : Attributes :=
  ⟨h.cafePriority, h.cafeAffinity, h.name, h.cleanup, h.deallocator⟩

def Attributes.set (a : Attributes) (t : OSThread) : Op → Attributes
  | .create thread args _ =>
    if thread = t then ⟨args.priority, (args.attributes &&& affinityAny).toUInt32, 0, 0, 0⟩ else a
  | .setPriority thread priority => if thread = t then { a with priority } else a
  | .setAffinity thread affinity =>
    if thread = t then { a with affinity := affinity &&& affinityAny.toUInt32 } else a
  | .setName thread name => if thread = t then { a with name } else a
  | .setCleanupCallback thread cleanup => if thread = t then { a with cleanup } else a
  | .setDeallocator thread deallocator => if thread = t then { a with deallocator } else a
  | .resume _ _ | .suspend _ | .getPriority _ | .getAffinity _ | .getName _ | .cancel _ | .detach _
  | .isTerminated _ | .setCancelState _ | .getCurrent => a

def Attributes.after (t : OSThread) (a : Attributes) : Event → Attributes
  | .call _ op _ => a.set t op
  | _ => a

def Attributes.initial : Attributes := ⟨16, affinityAny.toUInt32, 0, 0, 0⟩

-- By the calls alone, whatever the threads did otherwise.
def given (t : OSThread) (es : List Event) : Attributes := es.foldl (Attributes.after t) .initial

-- What a getter answers, and a setter that hands back what it replaces.
def Op.answer (given : OSThread → Attributes) : Op → Option Reply
  | .getPriority t => some (.ret (given t).priority)
  | .getAffinity t => some (.word (given t).affinity)
  | .getName t => some (.pointer (given t).name)
  | .setCleanupCallback t _ => some (.pointer (given t).cleanup)
  | .setDeallocator t _ => some (.pointer (given t).deallocator)
  | .create _ _ _ | .resume _ _ | .suspend _ | .setPriority _ _ | .setAffinity _ _ | .setName _ _
  | .cancel _ | .detach _ | .isTerminated _ | .setCancelState _ | .getCurrent => none

variable {s s' : State} {e : Event} {es : List Event} {t thread mainThread : OSThread} {op : Op}
  {current : Option OSThread}

theorem given_concat (t : OSThread) (es : List Event) (e : Event) :
    given t (es ++ [e]) = (given t es).after t e := by
  rw [given, List.foldl_append]
  rfl

theorem view_store_attributes {table : HandleTable HostThread} {h : HostThread} {a : Attributes}
    (ha : h.attributes = a) :
    ((table.store thread h).view t).attributes =
      if thread = t then a else (table.view t).attributes := by
  rw [view_store, apply_ite HostThread.attributes, ha]
  exact if_congr eq_comm rfl rfl

theorem edit_attributes {f : HostThread → HostThread}
    (hedit : op.edit current mainThread = some (thread, f)) (h : HostThread) :
    (f h).attributes = h.attributes.set thread op := by
  cases op with
  | create | resume => cases hedit
  | suspend | getPriority | getAffinity | getName | isTerminated =>
    cases hedit
    rfl
  | setCleanupCallback | setDeallocator | setPriority | setAffinity | setName =>
    cases hedit
    rw [Attributes.set, if_pos rfl]
    rfl
  | cancel | detach =>
    rw [Op.edit] at hedit
    split at hedit
    next => cases hedit
    next =>
      cases hedit
      rfl
  | setCancelState =>
    cases current with
    | none => cases hedit
    | some =>
      cases hedit
      rfl
  | getCurrent =>
    cases current with
    | some => cases hedit
    | none =>
      cases hedit
      dsimp only
      split <;> rfl

-- What an edit of one record does not name it does not set.
theorem set_of_edit_ne {f : HostThread → HostThread} (a : Attributes)
    (hedit : op.edit current mainThread = some (thread, f)) (ht : thread ≠ t) : a.set t op = a := by
  cases op with
  | create | resume => cases hedit
  | suspend | getPriority | getAffinity | getName | isTerminated | cancel | detach
  | setCancelState | getCurrent => rfl
  | setCleanupCallback | setDeallocator | setPriority | setAffinity | setName =>
    cases hedit
    exact if_neg ht

theorem set_of_edit_none (a : Attributes) (hedit : op.edit current mainThread = none)
    (hcreate : ∀ thread args answers, op ≠ .create thread args answers) : a.set t op = a := by
  cases op with
  | create => exact absurd rfl (hcreate _ _ _)
  | setCleanupCallback | setDeallocator | setPriority | setAffinity | setName => cases hedit
  | resume | suspend | getPriority | getAffinity | getName | isTerminated | cancel | detach
  | setCancelState | getCurrent => rfl

theorem call_create_attributes {args : CreateArgs} {answers : CreateAnswers} :
    ((call current (.create thread args answers) s).2.threads.view t).attributes =
      (s.threads.view t).attributes.set t (.create thread args answers) := by
  rw [Attributes.set]
  cases hcpu : createdCpu args.attributes answers with
  | some cpu =>
    simp only [call, osCreateThread_some hcpu, Prod.map, id]
    exact view_store_attributes rfl
  | none =>
    simp only [call, osCreateThread_none hcpu, Prod.map, id]
    exact view_store_attributes rfl

theorem call_attributes (current : Option OSThread) (op : Op) (s : State) (t : OSThread) :
    ((call current op s).2.threads.view t).attributes = (s.threads.view t).attributes.set t op := by
  by_cases hcreate : ∃ thread args answers, op = .create thread args answers
  · obtain ⟨thread, args, answers, rfl⟩ := hcreate
    exact call_create_attributes
  rcases op_cases op with hop | ⟨thread, willing, rfl⟩ | hcall
  · exact absurd hop hcreate
  · obtain ⟨count, started, kernel, heq, -⟩ := osResumeThread_spec s thread willing
    simp only [call, Prod.map, id, heq]
    exact view_store_keeps HostThread.attributes rfl
  · rw [hcall]
    cases hedit : op.edit current s.mainThread with
    | none =>
      rw [set_of_edit_none _ hedit fun thread args answers h => hcreate ⟨_, _, _, h⟩]
      rfl
    | some edit =>
      obtain ⟨thread, f⟩ := edit
      rw [State.edit, view_store_attributes (edit_attributes hedit _)]
      split
      next ht => rw [ht]
      next ht => rw [set_of_edit_ne _ hedit ht]

theorem setExitResult_attributes {value : Int32} :
    ((setExitResult s thread value).threads.view t).attributes =
      (s.threads.view t).attributes := view_store_keeps HostThread.attributes rfl

theorem Step.attributes (hs : Step s e s') (t : OSThread) :
    (s'.threads.view t).attributes = (s.threads.view t).attributes.after t e := by
  cases hs with
  | call => exact call_attributes _ _ _ _
  | enter | cleanupReturned | deallocatorReturned | joinFails => rfl
  | entryReturned | exitThread => exact setExitResult_attributes
  | testCancel =>
    rw [osTestThreadCancel_threads]
    rfl
  | joinStarts =>
    rw [joinStarts_view]
    rfl
  | joinSucceeds => exact view_store_keeps HostThread.attributes rfl

theorem attributes_eq_given {mainThread : OSThread} (run : Run (State.initial mainThread) es s)
    (t : OSThread) : (s.threads.view t).attributes = given t es := by
  induction run with
  | nil => rfl
  | snoc _ hs ih => rw [hs.attributes, ih, given_concat]

theorem call_answer {r : Reply}
    (hanswer : op.answer (fun t => (s.threads.view t).attributes) = some r) :
    (call current op s).1 = r := by
  cases op with
  | getPriority | getAffinity | getName | setCleanupCallback | setDeallocator =>
    simp only [call, osGetThreadPriority, osGetThreadAffinity, osGetThreadName,
      osSetThreadCleanupCallback, osSetThreadDeallocator, update_eq, Prod.map]
    exact Option.some.inj hanswer
  | create | resume | suspend | setPriority | setAffinity | setName | cancel | detach
  | isTerminated | setCancelState | getCurrent => cases hanswer

theorem attributes_are_as_set (mainThread : OSThread) (es : List Event) (s : State)
    (run : Run (State.initial mainThread) es s) :
    (∀ t, (s.threads.view t).attributes = given t es) ∧
      ∀ before caller op reply after r, es = before ++ .call caller op reply :: after →
        op.answer (fun t => given t before) = some r → reply = r := by
  refine ⟨attributes_eq_given run, fun before caller op reply after r hes hanswer => ?_⟩
  rw [hes] at run
  obtain ⟨s₁, hbefore, hrest⟩ := run.of_append
  obtain ⟨s₂, hcall, -⟩ := hrest.of_cons
  have hview : (fun t => given t before) = fun t => (s₁.threads.view t).attributes :=
    funext fun t => (attributes_eq_given hbefore t).symm
  rw [hview] at hanswer
  cases hcall
  exact call_answer hanswer

theorem attributes_are_as_set_read :
    ∃ (es : List Event) (s : State), Run (State.initial 1) es s ∧
      (∀ t, (s.threads.view t).attributes = given t es) ∧
      ∃ before, es = before ++ [.call none (.getPriority 4) (.ret 9)] ∧
        given 4 before = ⟨9, 2, 0, 100, 0⟩ := by
  let args : CreateArgs := ⟨16, 0, 0, 0, 0, 40, affinityCpu1⟩
  let answers : CreateAnswers := ⟨44, true, true⟩
  let s₁ : State := (call none (.create 4 args answers) (State.initial 1)).2
  let s₂ : State := (call none (.setCleanupCallback 4 100) s₁).2
  let s₃ : State := (call none (.setPriority 4 9) s₂).2
  let s₄ : State := (call none (.getPriority 4) s₃).2
  have h₁ : Step (State.initial 1) (.call none (.create 4 args answers) _) s₁ := .call trivial
  have h₂ : Step s₁ (.call none (.setCleanupCallback 4 100) _) s₂ := .call trivial
  have h₃ : Step s₂ (.call none (.setPriority 4 9) _) s₃ := .call trivial
  have h₄ : Step s₃ (.call none (.getPriority 4) _) s₄ := .call trivial
  have run := (((Transition.Run.single h₁).snoc h₂).snoc h₃).snoc h₄
  obtain ⟨hviews, hanswers⟩ := attributes_are_as_set 1 _ s₄ run
  have hread : (call none (.getPriority 4) s₃).1 = .ret 9 := hanswers _ _ _ _ [] _ rfl rfl
  rw [show s₃.current none = none from rfl, hread] at run hviews
  exact ⟨_, s₄, run, hviews, _, rfl, by decide +kernel⟩

-- A successful `OSCreateThread`.
structure Creation where
  thread : OSThread
  args : CreateArgs
  answers : CreateAnswers
deriving DecidableEq, Repr

def Event.creation : Event → Option Creation
  | .call _ (.create thread args answers) (.ret code) =>
    if code = 0 then none else some ⟨thread, args, answers⟩
  | _ => none

-- What the kernel keeps of a thread from its creation on.
structure Parameters where
  guest : OSThread
  stackSize : UInt64
  priority : Int32
  cpu : Int32
deriving DecidableEq, Repr

def KernelThread.parameters (k : KernelThread) : Parameters :=
  ⟨k.guest, k.stackSize, k.priority, k.cpu⟩

def Creation.parameters (c : Creation) : Parameters :=
  ⟨c.thread, hostStackSize c.args.stackSize, mapPriority c.answers.processPrio c.args.priority,
    if c.answers.first then mapAffinity c.args.attributes else -2⟩

variable {id : Nat} {k k' : KernelThread} {args : CreateArgs} {answers : CreateAnswers}

theorem setKernel_parameters (hk : s.kernel[id]? = some k)
    (hsame : k'.parameters = k.parameters) :
    (s.setKernel id k').kernel.map (·.parameters) = s.kernel.map (·.parameters) := by
  obtain ⟨hid, rfl⟩ := List.getElem?_eq_some_iff.1 hk
  have hlength : id < (s.kernel.map (·.parameters)).length := by rwa [List.length_map]
  have hget : (s.kernel.map (·.parameters))[id] = s.kernel[id].parameters := List.getElem_map _
  rw [State.setKernel, List.map_set, hsame, ← hget, List.set_getElem_self]

theorem deallocate_parameters (k : KernelThread) (h : HostThread) :
    (k.deallocate h).parameters = k.parameters := by
  rw [KernelThread.deallocate]
  split <;> rfl

theorem returned_parameters (k : KernelThread) (h : HostThread) (value : Int32) :
    (k.returned h value).parameters = k.parameters := by
  rw [KernelThread.returned]
  split
  next => rfl
  next => exact deallocate_parameters _ _

theorem createdCpu_eq_some {attributes : OSThreadAttributes} {cpu : Int32}
    (hcpu : createdCpu attributes answers = some cpu) :
    cpu = if answers.first then mapAffinity attributes else -2 := by
  rw [createdCpu] at hcpu
  split at hcpu
  next hfirst => rw [if_pos hfirst, Option.some.inj hcpu]
  next hfirst =>
    rw [if_neg hfirst]
    split at hcpu
    next => exact (Option.some.inj hcpu).symm
    next => cases hcpu

theorem creation_none_of_not_create {caller : Option Nat} {reply : Reply}
    (hcreate : ∀ thread args answers, op ≠ .create thread args answers) :
    (Event.call caller op reply).creation = none := by
  cases op with
  | create => exact absurd rfl (hcreate _ _ _)
  | _ => rfl

theorem call_parameters (caller : Option Nat) (op : Op) (s : State) :
    (call current op s).2.kernel.map (·.parameters) =
      s.kernel.map (·.parameters) ++
        ((Event.call caller op (call current op s).1).creation.map (·.parameters)).toList := by
  by_cases hcreate : ∃ thread args answers, op = .create thread args answers
  · obtain ⟨thread, args, answers, rfl⟩ := hcreate
    cases hcpu : createdCpu args.attributes answers with
    | some cpu =>
      simp only [call, osCreateThread_some hcpu, Prod.map, id, List.map_append]
      rw [createdCpu_eq_some hcpu]
      rfl
    | none =>
      simp only [call, osCreateThread_none hcpu, Prod.map, id]
      exact (List.append_nil _).symm
  rw [creation_none_of_not_create fun thread args answers h => hcreate ⟨_, _, _, h⟩]
  rw [Option.map_none, Option.toList_none, List.append_nil]
  rcases op_cases op with hop | ⟨thread, willing, rfl⟩ | hcall
  · exact absurd hop hcreate
  · obtain ⟨count, started, kernel, heq, hkernel⟩ := osResumeThread_spec s thread willing
    simp only [call, Prod.map, id, heq]
    rcases hkernel with rfl | ⟨id, k, -, hk, -, rfl⟩
    · rfl
    · exact setKernel_parameters hk rfl
  · rw [hcall]
    cases op.edit current s.mainThread <;> rfl

theorem Step.parameters (hs : Step s e s') :
    s'.kernel.map (·.parameters) =
      s.kernel.map (·.parameters) ++ (e.creation.map (·.parameters)).toList := by
  have hmoved {s : State} {id : Nat} {k k' : KernelThread} (hk : s.kernel[id]? = some k)
      (hsame : k'.parameters = k.parameters) :
      (s.setKernel id k').kernel.map (·.parameters) = s.kernel.map (·.parameters) ++ [] := by
    rw [setKernel_parameters hk hsame, List.append_nil]
  cases hs with
  | call => exact call_parameters _ _ _
  | enter hk | deallocatorReturned hk => exact hmoved hk rfl
  | @entryReturned id k value hk =>
    exact hmoved (s := setExitResult s k.guest value) hk (returned_parameters _ _ _)
  | cleanupReturned hk => exact hmoved hk (deallocate_parameters _ _)
  | @exitThread id k result hk =>
    exact hmoved (s := setExitResult s k.guest result) hk rfl
  | testCancel hk =>
    rw [osTestThreadCancel]
    split
    next => exact hmoved hk rfl
    next => exact (List.append_nil _).symm
  | joinStarts =>
    rw [joinStarts_kernel]
    exact (List.append_nil _).symm
  | joinFails | joinSucceeds => exact (List.append_nil _).symm

theorem parameters_eq {mainThread : OSThread} (run : Run (State.initial mainThread) es s) :
    s.kernel.map (·.parameters) = (es.filterMap Event.creation).map Creation.parameters := by
  induction run with
  | nil => rfl
  | @snoc es s s' e _ hs ih =>
    rw [hs.parameters, ih, List.filterMap_append, List.map_append]
    congr 1
    cases hcreation : e.creation <;> simp [hcreation]

theorem hostStackSize_toNat (n : UInt32) :
    (hostStackSize n).toNat = ceilTo 0x1000 (max n.toNat 0x10000) := by
  have hn := n.toNat_lt
  have hpage : kPageSize.toNat = 0x1000 := rfl
  have hone : (1 : UInt64).toNat = 1 := rfl
  have hmask : (~~~(kPageSize - 1)).toNat = 2 ^ 64 - 1 - (2 ^ 12 - 1) := rfl
  have hsize : (if n.toUInt64 < kMinHostStack then kMinHostStack else n.toUInt64).toNat =
      max n.toNat 0x10000 := by
    have hmin : kMinHostStack.toNat = 0x10000 := rfl
    split
    next hlt =>
      rw [UInt64.lt_iff_toNat_lt, UInt32.toNat_toUInt64] at hlt
      omega
    next hlt =>
      rw [UInt64.lt_iff_toNat_lt, UInt32.toNat_toUInt64] at hlt
      rw [UInt32.toNat_toUInt64]
      omega
  have hsum : ((if n.toUInt64 < kMinHostStack then kMinHostStack else n.toUInt64) +
      kPageSize).toNat = max n.toNat 0x10000 + 0x1000 := by
    rw [UInt64.toNat_add, hsize, hpage, Nat.mod_eq_of_lt (by omega)]
  have hle : 1 ≤ (if n.toUInt64 < kMinHostStack then kMinHostStack else n.toUInt64) + kPageSize := by
    rw [UInt64.le_iff_toNat_le, hsum, hone]
    omega
  rw [hostStackSize, UInt64.toNat_and, UInt64.toNat_sub_of_le _ _ hle, hsum, hone, hmask,
    and_not_mask _ (by omega) (by decide)]
  rfl

-- The level of the game, 0 to 31.
def level (cafePriority : Int32) : Int := max 0 (min 31 cafePriority.toInt)

theorem level_mono {p q : Int32} (hpq : p.toInt ≤ q.toInt) : level p ≤ level q :=
  max_le_max_left 0 (min_le_min_left 31 hpq)

theorem mapPriority_toInt {processPrio p : Int32} (hlow : 0 ≤ processPrio.toInt)
    (hhigh : processPrio.toInt ≤ 0x3F) :
    (mapPriority processPrio p).toInt =
      processPrio.toInt + level p * (0x3F - processPrio.toInt) / 31 := by
  have h31 : (31 : Int32).toInt = 31 := rfl
  have hzero : (0 : Int32).toInt = 0 := rfl
  have hfloor : (if p < 0 then 0 else p : Int32).toInt = max 0 p.toInt := by
    split
    next hneg =>
      rw [Int32.lt_iff_toInt_lt, hzero] at hneg
      omega
    next hneg =>
      rw [Int32.lt_iff_toInt_lt, hzero] at hneg
      omega
  have hclamp : (if (if p < 0 then 0 else p) > 31 then 31 else if p < 0 then 0 else p : Int32).toInt =
      level p := by
    generalize (if p < 0 then 0 else p : Int32) = q at hfloor ⊢
    rw [level]
    split
    next hbig =>
      rw [gt_iff_lt, Int32.lt_iff_toInt_lt, h31] at hbig
      omega
    next hbig =>
      rw [gt_iff_lt, Int32.lt_iff_toInt_lt, h31] at hbig
      omega
  have hspan : (0x3F - processPrio).toInt = 0x3F - processPrio.toInt := by
    have h63 : (0x3F : Int32).toInt = 0x3F := rfl
    rw [Int32.toInt_sub, h63]
    exact Int.bmod_eq_of_le (by omega) (by omega)
  have hlevel : 0 ≤ level p ∧ level p ≤ 31 := by
    rw [level]
    omega
  have hnonneg : 0 ≤ level p * (0x3F - processPrio.toInt) :=
    Int.mul_nonneg hlevel.1 (by omega)
  have hle : level p * (0x3F - processPrio.toInt) ≤ 31 * 0x3F :=
    Int.mul_le_mul hlevel.2 (by omega) (by omega) (by omega)
  have hprod : ((if (if p < 0 then 0 else p) > 31 then 31 else if p < 0 then 0 else p : Int32) *
      (0x3F - processPrio)).toInt = level p * (0x3F - processPrio.toInt) := by
    rw [Int32.toInt_mul, hclamp, hspan, Int.bmod_eq_of_le (by omega) (by omega)]
  rw [mapPriority, Int32.toInt_add, Int32.toInt_div, hprod, h31,
    Int.tdiv_eq_ediv_of_nonneg hnonneg]
  have hquotient : (level p * (0x3F - processPrio.toInt) / 31).bmod (2 ^ 32) =
      level p * (0x3F - processPrio.toInt) / 31 := Int.bmod_eq_of_le (by omega) (by omega)
  rw [hquotient, Int.bmod_eq_of_le (by omega) (by omega)]

theorem mapPriority_window {processPrio p : Int32} (hlow : 0 ≤ processPrio.toInt)
    (hhigh : processPrio.toInt ≤ 0x3F) :
    processPrio.toInt ≤ (mapPriority processPrio p).toInt ∧
      (mapPriority processPrio p).toInt ≤ 0x3F := by
  have hlevel : 0 ≤ level p ∧ level p ≤ 31 := by
    rw [level]
    omega
  have hnonneg : 0 ≤ level p * (0x3F - processPrio.toInt) :=
    Int.mul_nonneg hlevel.1 (by omega)
  have hle : level p * (0x3F - processPrio.toInt) ≤ 31 * (0x3F - processPrio.toInt) :=
    Int.mul_le_mul_of_nonneg_right hlevel.2 (by omega)
  rw [mapPriority_toInt hlow hhigh]
  omega

theorem mapPriority_mono {processPrio p q : Int32} (hlow : 0 ≤ processPrio.toInt)
    (hhigh : processPrio.toInt ≤ 0x3F) (hpq : p.toInt ≤ q.toInt) :
    (mapPriority processPrio p).toInt ≤ (mapPriority processPrio q).toInt := by
  have hmul : level p * (0x3F - processPrio.toInt) ≤ level q * (0x3F - processPrio.toInt) :=
    Int.mul_le_mul_of_nonneg_right (level_mono hpq) (by omega)
  have hdiv := Int.ediv_le_ediv (by decide : (0 : Int) < 31) hmul
  rw [mapPriority_toInt hlow hhigh, mapPriority_toInt hlow hhigh]
  omega

-- The core is the first of the mask, where the mask leaves one out.
structure Runs (attributes : OSThreadAttributes) (cpu : Int32) (n : Nat) : Prop where
  core : cpu.toInt = n
  some : attributes &&& affinityAny ≠ affinityAny
  asked : attributes.toNat.testBit n
  first : ∀ m < n, attributes.toNat.testBit m = false

theorem mapAffinity_cases (attributes : OSThreadAttributes) :
    mapAffinity attributes = -2 ∨ ∃ n < 3, Runs attributes (mapAffinity attributes) n := by
  have hall (a : BitVec 8) : mapAffinity ⟨a⟩ = -2 ∨
      ∃ n : Nat, n < 3 ∧ (mapAffinity ⟨a⟩).toInt = n ∧ (⟨a⟩ : UInt8) &&& affinityAny ≠ affinityAny ∧
        a.toNat.testBit n ∧ ∀ m < n, a.toNat.testBit m = false := by
    revert a
    decide +kernel
  rcases hall attributes.toBitVec with hany | ⟨n, hn, hcore, hsome, hasked, hfirst⟩
  · exact .inl hany
  · exact .inr ⟨n, hn, hcore, hsome, hasked, hfirst⟩

-- What a kernel thread owes to the creation that made it.
structure Fits (c : Creation) (k : KernelThread) : Prop where
  guest : k.guest = c.thread
  stack : IsLeast {x | 0x1000 ∣ x ∧ max c.args.stackSize.toNat 0x10000 ≤ x} k.stackSize.toNat
  better : c.answers.processPrio.toInt ≤ k.priority.toInt
  worst : k.priority.toInt ≤ 0x3F
  core : k.cpu = -2 ∨ ∃ n < 3, Runs c.args.attributes k.cpu n

-- The priority that Horizon reports of the process is one of its own.
def Creation.Answered (c : Creation) : Prop :=
  0 ≤ c.answers.processPrio.toInt ∧ c.answers.processPrio.toInt ≤ 0x3F

theorem fits_of_parameters {c : Creation} (hc : c.Answered)
    (hk : k.parameters = c.parameters) : Fits c k := by
  obtain ⟨hguest, hstack, hprio, hcpu⟩ := Parameters.mk.inj hk
  obtain ⟨hbetter, hworst⟩ := mapPriority_window (p := c.args.priority) hc.1 hc.2
  refine ⟨hguest, ?_, ?_, ?_, ?_⟩
  · rw [hstack, hostStackSize_toNat]
    exact isLeast_ceilTo (by decide) _
  · rwa [hprio]
  · rwa [hprio]
  · rw [hcpu]
    split
    next => exact mapAffinity_cases _
    next => exact .inl rfl

theorem kernel_threads_fit (mainThread : OSThread) (es : List Event) (s : State)
    (run : Run (State.initial mainThread) es s)
    (hanswers : ∀ c ∈ es.filterMap Event.creation, c.Answered) :
    List.Forall₂ Fits (es.filterMap Event.creation) s.kernel ∧
      ∀ (i j : Nat) (c d : Creation) (k l : KernelThread),
        (es.filterMap Event.creation)[i]? = some c → s.kernel[i]? = some k →
        (es.filterMap Event.creation)[j]? = some d → s.kernel[j]? = some l →
        c.answers.processPrio = d.answers.processPrio →
        c.args.priority ≤ d.args.priority → k.priority ≤ l.priority := by
  have hall := parameters_eq run
  have heach (i : Nat) (c : Creation) (k : KernelThread)
      (hc : (es.filterMap Event.creation)[i]? = some c) (hk : s.kernel[i]? = some k) :
      k.parameters = c.parameters := by
    have hget := congrArg (fun l => l[i]?) hall
    simp only [List.getElem?_map, hc, hk, Option.map_some] at hget
    exact Option.some.inj hget
  constructor
  · have hlength := congrArg List.length hall
    rw [List.length_map, List.length_map] at hlength
    refine List.forall₂_iff_get.2 ⟨hlength.symm, fun i hi hi' => ?_⟩
    have hk := heach i _ _ (List.getElem?_eq_getElem hi) (List.getElem?_eq_getElem hi')
    exact fits_of_parameters (hanswers _ (List.getElem_mem hi)) hk
  · intro i j c d k l hc hk hd hl hsame hle
    obtain ⟨hlow, hhigh⟩ := hanswers d (List.mem_of_getElem? hd)
    have hprio := (Parameters.mk.inj (heach i c k hc hk)).2.2.1
    have hprio' := (Parameters.mk.inj (heach j d l hd hl)).2.2.1
    rw [hprio, hprio', hsame, Int32.le_iff_toInt_le]
    exact mapPriority_mono hlow hhigh (Int32.le_iff_toInt_le.1 hle)

theorem kernel_threads_fit_two :
    ∃ (es : List Event) (s : State), Run (State.initial 1) es s ∧
      s.kernel.map (·.parameters) = [⟨4, 0x10000, 0x2C, 1⟩, ⟨8, 0x12000, 0x3E, -2⟩] ∧
      List.Forall₂ Fits (es.filterMap Event.creation) s.kernel := by
  let args : CreateArgs := ⟨16, 0, 0, 0, 100, -5, affinityCpu1⟩
  let more : CreateArgs := ⟨16, 0, 0, 0, 0x11001, 30, affinityAny⟩
  let answers : CreateAnswers := ⟨44, true, true⟩
  let s₁ : State := (call none (.create 4 args answers) (State.initial 1)).2
  let s₂ : State := (call none (.create 8 more answers) s₁).2
  have h₁ : Step (State.initial 1) (.call none (.create 4 args answers) _) s₁ := .call trivial
  have h₂ : Step s₁ (.call none (.create 8 more answers) _) s₂ := .call trivial
  have run := (Transition.Run.single h₁).snoc h₂
  have hanswers : ∀ c ∈ [Creation.mk 4 args answers, ⟨8, more, answers⟩], c.Answered := by
    rintro c hc
    simp only [List.mem_cons, List.not_mem_nil, or_false] at hc
    rcases hc with rfl | rfl <;> exact ⟨by decide, by decide⟩
  exact ⟨_, s₂, run, by decide +kernel, (kernel_threads_fit 1 _ s₂ run hanswers).1⟩

end CoreinitNx.Thread
