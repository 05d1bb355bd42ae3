import CoreinitNx.Ghs.Basic

namespace CoreinitNx.Ghs

open Mutex

variable {τ κ η : Type} {L : Layout} {H : DefaultHeap η} {w w' : World τ κ η} {s : State τ κ}
  {mutex m : UInt64} {heap : η}

@[simp] theorem host_initMutex : (w.initMutex mutex).host m = w.host m := HandleTable.view_get _ _ _

@[simp] theorem host_ensureInit : (w.ensureInit L).host m = w.host m := by
  rw [World.ensureInit]
  split
  next => rfl
  next => exact HandleTable.view_get _ _ _

theorem host_setHost_same {host : HostMutex τ} : (w.setHost mutex host).host mutex = host :=
  HandleTable.view_store_same _ _ _

theorem host_setHost_ne {host : HostMutex τ} (h : m ≠ mutex) :
    (w.setHost mutex host).host m = w.host m := by
  rw [World.host, World.setHost, HandleTable.view_store_ne _ _ h, HandleTable.view_get]
  rfl

theorem mutexAt_setMutex_same : (w.setMutex mutex s).mutexAt mutex = s := by
  have hhost : (w.setMutex mutex s).host mutex = s.host := host_setHost_same
  have hcalls : (w.setMutex mutex s).calls mutex = s.pc := Function.update_self _ _ _
  have hdepth : (w.setMutex mutex s).depth mutex = s.depth := Function.update_self _ _ _
  rw [World.mutexAt, hhost, hcalls, hdepth]

theorem mutexAt_setMutex_ne (h : m ≠ mutex) : (w.setMutex mutex s).mutexAt m = w.mutexAt m := by
  have hhost : (w.setMutex mutex s).host m = w.host m := host_setHost_ne h
  have hcalls : (w.setMutex mutex s).calls m = w.calls m := Function.update_of_ne h _ _
  have hdepth : (w.setMutex mutex s).depth m = w.depth m := Function.update_of_ne h _ _
  rw [World.mutexAt, hhost, hcalls, hdepth]
  rfl

theorem mutexAt_congr (hhost : w'.host m = w.host m) (hcalls : w'.calls = w.calls)
    (hdepth : w'.depth = w.depth) : w'.mutexAt m = w.mutexAt m := by
  rw [World.mutexAt, hhost, hcalls, hdepth]
  rfl

variable [DecidableEq τ] {t : τ}

theorem lockBy_some {h locked : HostMutex τ} (hlock : h.lockBy t = some locked) :
    h.lock = none ∨ h.lock = some t := by
  rw [HostMutex.lockBy] at hlock
  split at hlock
  next hown => exact .inr hown
  next =>
    split at hlock
    next hfree => exact .inl hfree
    next => cases hlock

theorem unlockBy_free {h : HostMutex τ} (hlock : (h.unlockBy t).lock = none) :
    (h.unlockBy t).count = 0 ∨ h.unlockBy t = h := by
  rw [HostMutex.unlockBy] at hlock ⊢
  split at hlock
  next hown =>
    split at hlock
    next hzero =>
      rw [if_pos hown, if_pos hzero]
      exact .inl hzero
    next =>
      rw [hown] at hlock
      cases hlock
  next hown =>
    rw [if_neg hown]
    exact .inr rfl

theorem lockBy_owned {h locked : HostMutex τ} (hlock : h.lockBy t = some locked) :
    locked.lock = some t := by
  rw [HostMutex.lockBy] at hlock
  split at hlock
  next hown =>
    cases hlock
    exact hown
  next =>
    split at hlock
    next =>
      cases hlock
      rfl
    next => cases hlock

-- A call that locks and unlocks again leaves the mutex to nobody in the middle of a call.
theorem tidy_lock_unlock {locked : HostMutex τ} (hs : Tidy s) (hidle : s.pc t = .idle)
    (hlock : s.host.lockBy t = some locked) : Tidy { s with host := locked.unlockBy t } := by
  have hnobody (u : τ) : ¬(s.pc u).Holds := by
    intro hu
    have hown := hs.owner u hu
    rcases lockBy_some hlock with hfree | ht
    · rw [hfree] at hown
      cases hown
    · rw [ht] at hown
      cases hown
      rw [hidle] at hu
      exact hu
  refine ⟨fun u hu => absurd hu (hnobody u), fun u hu => absurd hu.holds (hnobody u), fun hfree => ?_⟩
  rcases unlockBy_free hfree with hzero | hsame
  · exact hzero
  · change (locked.unlockBy t).lock = none at hfree
    rw [hsame, lockBy_owned hlock] at hfree
    cases hfree

theorem host_flockCreate {result : Option Nat} (h : ghsFlockCreate L w t = some (result, w')) :
    ∃ locked, (w.host L.flockPoolMutex).lockBy t = some locked ∧
      w'.host L.flockPoolMutex = locked.unlockBy t ∧
      (∀ m, m ≠ L.flockPoolMutex → w'.host m = w.host m) ∧ w'.calls = w.calls ∧
      w'.depth = w.depth := by
  have hcalls : (w.ensureInit L).calls = w.calls ∧ (w.ensureInit L).depth = w.depth := by
    rw [World.ensureInit]
    split <;> exact ⟨rfl, rfl⟩
  simp only [ghsFlockCreate, host_ensureInit] at h
  split at h
  next => cases h
  next locked hlock =>
    refine ⟨locked, hlock, ?_⟩
    split at h
    next =>
      cases h
      refine ⟨host_setHost_same, fun m hm => ?_, hcalls⟩
      rw [host_setHost_ne hm, host_setHost_ne hm, host_ensureInit]
    next idx _ =>
      cases h
      refine ⟨host_setHost_same, fun m hm => ?_, hcalls⟩
      rw [host_setHost_ne hm]
      refine host_initMutex.trans ?_
      rw [host_setHost_ne hm, host_ensureInit]

omit [DecidableEq τ] in
theorem host_mtxInit (h : ghsMtxInit H w = (mutex, w')) :
    (∀ m, w'.host m = w.host m) ∧ w'.calls = w.calls ∧ w'.depth = w.depth := by
  simp only [ghsMtxInit] at h
  cases h
  split
  next => exact ⟨fun _ => rfl, rfl, rfl⟩
  next => exact ⟨fun _ => host_initMutex, rfl, rfl⟩

variable [DecidableEq κ] {e : Event τ κ} {es : List (Event τ κ)}

theorem Step.tidy (hs : Step L H w e w') (hw : ∀ m, Tidy (w.mutexAt m)) (m : UInt64) :
    Tidy (w'.mutexAt m) := by
  cases hs with
  | @mutex mutex e s hstep =>
    by_cases hm : m = mutex
    · subst hm
      rw [mutexAt_setMutex_same]
      exact hstep.tidy (hw m)
    · rw [mutexAt_setMutex_ne hm]
      exact hw m
  | initMutex mutex =>
    rw [mutexAt_congr host_initMutex rfl rfl]
    exact hw m
  | ensureInit =>
    have hsame : (w.ensureInit L).mutexAt m = w.mutexAt m := by
      refine mutexAt_congr host_ensureInit ?_ ?_ <;> rw [World.ensureInit] <;> split <;> rfl
    rw [hsame]
    exact hw m
  | @flockCreate _ t result hidle hcreate =>
    obtain ⟨locked, hlock, hpool, hother, hcalls, hdepth⟩ := host_flockCreate hcreate
    by_cases hm : m = L.flockPoolMutex
    · subst hm
      have hafter : w'.mutexAt L.flockPoolMutex =
          { w.mutexAt L.flockPoolMutex with host := locked.unlockBy t } := by
        rw [World.mutexAt, hpool, hcalls, hdepth]
        rfl
      rw [hafter]
      exact tidy_lock_unlock (hw _) (hidle _) hlock
    · rw [mutexAt_congr (hother m hm) hcalls hdepth]
      exact hw m
  | flockDestroy flockIdx =>
    have hsame : (ghsFlockDestroy L w flockIdx).mutexAt m = w.mutexAt m := by
      rw [ghsFlockDestroy]
      split
      next => rfl
      next =>
        refine mutexAt_congr (host_ensureInit (L := L)) ?_ ?_ <;> simp only [World.ensureInit] <;>
          split <;> rfl
    rw [hsame]
    exact hw m
  | mtxInit hinit =>
    obtain ⟨hhost, hcalls, hdepth⟩ := host_mtxInit hinit
    rw [mutexAt_congr (hhost m) hcalls hdepth]
    exact hw m
  | mtxDst mutex =>
    have hsame : (ghsMtxDst H w mutex).mutexAt m = w.mutexAt m := by
      rw [ghsMtxDst]
      split <;> rfl
    rw [hsame]
    exact hw m
  | heap heap => exact hw m

theorem Run.tidy (run : Run L H heap es w) (m : UInt64) : Tidy (w.mutexAt m) := by
  have hall : ∀ m, Tidy (w.mutexAt m) := by
    refine run.invariant_of (I := fun w => ∀ m, Tidy (w.mutexAt m)) (fun _ _ => trivial)
      (fun _ => tidy_initial) ?_
    exact fun _ _ _ (_ : True) hw hs => hs.tidy hw
  exact hall m

-- A mutex that any thread can take.
structure Free (h : HostMutex τ) : Prop where
  unowned : h.lock = none
  depth : h.count = 0
  taken : ∀ t, (h.tryLockBy t).1 = 1

theorem Run.free_iff (run : Run L H heap es w) : Free (w.host m) ↔ (w.host m).lock = none := by
  constructor
  · exact Free.unowned
  · intro hfree
    refine ⟨hfree, (Run.tidy run m).free hfree, fun t => ?_⟩
    rw [HostMutex.tryLockBy, hfree, if_neg (by rintro ⟨⟩), if_pos rfl]

theorem init_mutex_free_iff (run : Run L H heap es w) :
    (∀ mutex, Free ((w.initMutex mutex).host mutex) ↔ (w.host mutex).lock = none) ∧
      (∀ t idx w', ghsFlockCreate L w t = some (some idx, w') →
        (Free (w'.host (L.flocks idx)) ↔ (w.host (L.flocks idx)).lock = none)) ∧
      (∀ mutex w', ghsMtxInit H w = (mutex, w') → mutex ≠ 0 →
        (Free (w'.host mutex) ↔ (w.host mutex).lock = none)) := by
  refine ⟨fun mutex => ?_, fun t idx w' h => ?_, fun mutex w' h _ => ?_⟩
  · rw [host_initMutex]
    exact Run.free_iff run
  · obtain ⟨-, -, -, hother, -⟩ := host_flockCreate h
    rw [hother _ (L.flocks_ne_pool idx)]
    exact Run.free_iff run
  · rw [(host_mtxInit h).1 mutex]
    exact Run.free_iff run

-- Whatever one mutex can do, it does in the world, where the other mutexes stay as they are.
theorem exists_lift {es : List (Mutex.Event τ κ)}
    (run : Transition.Run Mutex.Step (w.mutexAt mutex) es s) :
    ∃ w', Transition.Run (Step L H) w (es.map (.mutex mutex)) w' ∧ w'.mutexAt mutex = s ∧
      (∀ m, m ≠ mutex → w'.mutexAt m = w.mutexAt m) ∧ w'.pool = w.pool ∧ w'.heap = w.heap := by
  induction run with
  | nil => exact ⟨w, .nil, rfl, fun _ _ => rfl, rfl, rfl⟩
  | @snoc es s s' e _ hs ih =>
    obtain ⟨w', run, hat, hother, hpool, hheap⟩ := ih
    rw [← hat] at hs
    refine ⟨w'.setMutex mutex s', ?_, mutexAt_setMutex_same, fun m hm => ?_, hpool, hheap⟩
    · rw [List.map_append]
      exact run.snoc (.mutex hs)
    · exact (mutexAt_setMutex_ne hm).trans (hother m hm)

theorem exists_called {op : Mutex.Op κ} {r : Mutex.Reply} {host : HostMutex τ}
    (hidle : w.calls m t = .idle) (hallowed : Allowed (w.mutexAt m) t op)
    (hends : EndsWith t ((w.mutexAt m).goto t (.entering op)) r host) :
    ∃ es w', Transition.Run (Step L H) w es w' ∧ .mutex m (.call t op) ∈ es ∧ w'.host m = host ∧
      w'.calls m t = .idle ∧ (∀ m', m' ≠ m → w'.mutexAt m' = w.mutexAt m') ∧ w'.pool = w.pool ∧
      w'.heap = w.heap := by
  obtain ⟨n, s', run, hhost, hpc⟩ := call_ends hidle hallowed hends
  obtain ⟨w', run', hat, hrest⟩ := exists_lift (L := L) (H := H) run
  refine ⟨_, w', run', List.mem_map_of_mem List.mem_cons_self, ?_, ?_, hrest⟩
  · rw [← hhost, ← hat]
    rfl
  · rw [← hpc, ← hat]
    rfl

theorem exists_locked (hidle : w.calls m t = .idle) (hfree : (w.host m).lock = none) :
    ∃ es w', Transition.Run (Step L H) w es w' ∧ .mutex m (.call t .lock) ∈ es ∧
      w'.host m = ⟨some t, 1⟩ ∧ w'.calls m t = .idle ∧
      (∀ m', m' ≠ m → w'.mutexAt m' = w.mutexAt m') ∧ w'.pool = w.pool ∧ w'.heap = w.heap := by
  have hlock : (w.host m).lockBy t = some ⟨some t, 1⟩ := by
    rw [HostMutex.lockBy, hfree, if_neg (by rintro ⟨⟩), if_pos rfl]
  exact exists_called hidle trivial (lock_ends (State.goto_pc_self _ _ _) hlock)

theorem exists_unlocked (hidle : w.calls m t = .idle) (hlocked : w.host m = ⟨some t, 1⟩) :
    ∃ es w', Transition.Run (Step L H) w es w' ∧ .mutex m (.call t .unlock) ∈ es ∧
      w'.host m = ⟨none, 0⟩ := by
  have hallowed : Allowed (w.mutexAt m) t .unlock := trivial
  obtain ⟨es, w', run, hmem, hhost, -⟩ := exists_called (L := L) (H := H) hidle hallowed
    (unlock_ends (State.goto_pc_self _ _ _))
  refine ⟨es, w', run, hmem, hhost.trans ?_⟩
  rw [show ((w.mutexAt m).goto t (.entering .unlock)).host = w.host m from rfl, hlocked]
  simp [HostMutex.unlockBy]

omit [DecidableEq κ] in
theorem exists_flockCreate {idx : Nat} (hpool : (w.host L.flockPoolMutex).lock = none)
    (hnext : (w.ensureInit L).pool.nextFlock = some idx) :
    ∃ w', ghsFlockCreate L w t = some (some idx, w') ∧
      w'.pool = (w.ensureInit L).pool.take idx ∧ (w'.host L.flockPoolMutex).lock = none := by
  have hlock : (w.host L.flockPoolMutex).lockBy t = some ⟨some t, 1⟩ := by
    rw [HostMutex.lockBy, hpool, if_neg (by rintro ⟨⟩), if_pos rfl]
  have hunlock : (⟨some t, 1⟩ : HostMutex τ).unlockBy t = ⟨none, 0⟩ := by
    simp [HostMutex.unlockBy]
  have hnext' : ((w.ensureInit L).setHost L.flockPoolMutex ⟨some t, 1⟩).pool.nextFlock = some idx :=
    hnext
  simp only [ghsFlockCreate, host_ensureInit, hlock, hnext']
  refine ⟨_, rfl, rfl, ?_⟩
  rw [host_setHost_same, hunlock]

omit [DecidableEq τ] [DecidableEq κ] in
theorem exists_mtxInit (h : (H.allocEx w.heap osMutexSize 8).1 = mutex) :
    ∃ w', ghsMtxInit H w = (mutex, w') ∧ w'.heap = (H.allocEx w.heap osMutexSize 8).2 := by
  refine ⟨(ghsMtxInit H w).2, Prod.ext h rfl, ?_⟩
  simp only [ghsMtxInit]
  split <;> rfl

def layout : Layout where
  flockPoolMutex := 0x1000
  flocks idx := 0x2000 + 0x2C * UInt64.ofNat (idx % kFlockMax)
  flocks_ne_pool idx := by
    have hall : ∀ i < kFlockMax, (0x2000 + 0x2C * UInt64.ofNat i) ≠ 0x1000 := by decide +kernel
    exact hall _ (Nat.mod_lt _ (by decide))

-- A thread locks the mutex and unlocks it again before the call that initialises it.
theorem init_mutex_free_iff_unlocked : ∃ (es : List _) (w : World Bool Unit Unit),
    Run layout ⟨fun _ _ _ => (0, ()), fun _ _ => ()⟩ () es w ∧
      .mutex 0x3000 (.call true .lock) ∈ es ∧ .mutex 0x3000 (.call true .unlock) ∈ es ∧
      Free ((w.initMutex 0x3000).host 0x3000) := by
  let H : DefaultHeap Unit := ⟨fun _ _ _ => (0, ()), fun _ _ => ()⟩
  obtain ⟨es, w, run, hlock, hlocked, hidle, -⟩ := exists_locked (L := layout) (H := H)
    (w := (.initial () : World Bool Unit Unit)) (m := 0x3000) (t := true) rfl rfl
  obtain ⟨es', w', run', hunlock, hhost⟩ := exists_unlocked (L := layout) (H := H) hidle hlocked
  have hrun := run.append run'
  refine ⟨es ++ es', w', hrun, List.mem_append_left _ hlock, List.mem_append_right _ hunlock, ?_⟩
  refine ((init_mutex_free_iff hrun).1 0x3000).2 ?_
  rw [hhost]

def mem2 : UInt64 := 0x10000

def mem2Heap : ExpHeap.ExpHeaps := (ExpHeap.memCreateExpHeapEx ⟨.empty, fun _ => 0⟩ mem2 0x1000 0).2

def defaultHeap : DefaultHeap ExpHeap.ExpHeaps := ExpHeap.defaultHeap mem2

-- A mutex is locked and then initialised again.
theorem init_keeps_owner : ∃ (es : List _) (w : World Bool Unit ExpHeap.ExpHeaps),
    Run layout defaultHeap mem2Heap es w ∧ ¬Free ((w.initMutex 0x3000).host 0x3000) := by
  obtain ⟨es, w, run, -, hhost, -⟩ := exists_locked (L := layout) (H := defaultHeap)
    (w := (.initial mem2Heap : World Bool Unit _)) (m := 0x3000) (t := true) rfl rfl
  refine ⟨es, w, run, fun hfree => ?_⟩
  have hnone := hfree.unowned
  rw [host_initMutex, hhost] at hnone
  cases hnone

-- A flock is destroyed while locked, and its slot is the next one handed out.
theorem flock_create_keeps_owner : ∃ (es : List _) (w w' : World Bool Unit ExpHeap.ExpHeaps),
    Run layout defaultHeap mem2Heap es w ∧ ghsFlockCreate layout w false = some (some 0, w') ∧
      ¬Free (w'.host (layout.flocks 0)) := by
  obtain ⟨w₁, hcreate, hpool, hunlocked⟩ :
      ∃ w', ghsFlockCreate layout (.initial mem2Heap : World Bool Unit _) true =
        some (some 0, w') ∧ _ := exists_flockCreate rfl rfl
  obtain ⟨-, -, -, hother, hcalls, -⟩ := host_flockCreate hcreate
  have hstep : Step layout defaultHeap _ (.flockCreate true (some 0)) w₁ :=
    .flockCreate (fun _ => rfl) hcreate
  have hfree : (w₁.host (layout.flocks 0)).lock = none := by
    rw [hother _ (layout.flocks_ne_pool 0)]
    rfl
  obtain ⟨es, w₂, run, -, hlocked, -, hsame, hpool₂, -⟩ := exists_locked (L := layout) (H := defaultHeap)
    (w := w₁) (m := layout.flocks 0) (t := true) (by rw [hcalls]; rfl) hfree
  have run₃ := (run.cons hstep).snoc (.flockDestroy 0)
  have hpool₃ : (ghsFlockDestroy layout w₂ 0).pool = ⟨true, .replicate _ false, 0⟩ := by
    have hinited : w₂.ensureInit layout = w₂ := by
      rw [World.ensureInit, if_pos]
      rw [hpool₂, hpool]
      rfl
    change (w₂.ensureInit layout).pool.give 0 = _
    rw [hinited, hpool₂, hpool]
    decide +kernel
  have hunlocked₃ : ((ghsFlockDestroy layout w₂ 0).host layout.flockPoolMutex).lock = none := by
    change ((w₂.ensureInit layout).host layout.flockPoolMutex).lock = none
    have hat := congrArg State.host (hsame _ fun h => layout.flocks_ne_pool 0 h.symm)
    rw [host_ensureInit, show w₂.host layout.flockPoolMutex = w₁.host _ from hat]
    exact hunlocked
  have hnext : ((ghsFlockDestroy layout w₂ 0).ensureInit layout).pool.nextFlock = some 0 := by
    rw [World.ensureInit, if_pos (by rw [hpool₃]), hpool₃]
    decide +kernel
  obtain ⟨w₄, hcreate₄, -⟩ := exists_flockCreate (t := false) hunlocked₃ hnext
  refine ⟨_, _, w₄, run₃, hcreate₄, fun hfree => ?_⟩
  obtain ⟨-, -, -, hother₄, -⟩ := host_flockCreate hcreate₄
  have hnone := hfree.unowned
  have hkept : (ghsFlockDestroy layout w₂ 0).host (layout.flocks 0) = w₂.host (layout.flocks 0) :=
    host_ensureInit (L := layout)
  rw [hother₄ _ (layout.flocks_ne_pool 0), hkept, hlocked] at hnone
  cases hnone

-- A mutex is given back to the heap while locked, and the heap hands its address out again.
theorem mtx_init_keeps_owner : ∃ (es : List _) (w w' : World Bool Unit ExpHeap.ExpHeaps)
    (mutex : UInt64), Run layout defaultHeap mem2Heap es w ∧
      ghsMtxInit defaultHeap w = (mutex, w') ∧ mutex ≠ 0 ∧ ¬Free (w'.host mutex) := by
  have halloc : (defaultHeap.allocEx mem2Heap osMutexSize 8).1 = 0x10068 := by decide +kernel
  have hagain : (defaultHeap.allocEx
      (defaultHeap.free (defaultHeap.allocEx mem2Heap osMutexSize 8).2 0x10068) osMutexSize 8).1 =
        0x10068 := by decide +kernel
  obtain ⟨w₁, hinit, hheap₁⟩ := exists_mtxInit (w := (.initial mem2Heap : World Bool Unit _)) halloc
  obtain ⟨hhost, hcalls, -⟩ := host_mtxInit hinit
  have hstep : Step layout defaultHeap _ (.mtxInit 0x10068) w₁ := .mtxInit hinit
  obtain ⟨es, w₂, run, -, hlocked, -, -, -, hheap₂⟩ := exists_locked (L := layout) (H := defaultHeap)
    (w := w₁) (m := 0x10068) (t := true) (by rw [hcalls]; rfl) (by rw [hhost]; rfl)
  have run₃ := (run.cons hstep).snoc (.mtxDst 0x10068)
  have hheap₃ : (ghsMtxDst defaultHeap w₂ 0x10068).heap = defaultHeap.free w₁.heap 0x10068 := by
    rw [ghsMtxDst, if_neg (by decide), hheap₂]
  rw [show (defaultHeap.allocEx mem2Heap osMutexSize 8).2 = w₁.heap from hheap₁.symm,
    ← hheap₃] at hagain
  obtain ⟨w₄, hinit₄, -⟩ := exists_mtxInit hagain
  refine ⟨_, _, w₄, _, run₃, hinit₄, by decide, fun hfree => ?_⟩
  have hnone := hfree.unowned
  have hkept : (ghsMtxDst defaultHeap w₂ 0x10068).host 0x10068 = w₂.host 0x10068 := rfl
  rw [(host_mtxInit hinit₄).1, hkept, hlocked] at hnone
  cases hnone

theorem init_mutex_keeps_owner :
    (∃ (es : List _) (w : World Bool Unit ExpHeap.ExpHeaps),
      Run layout defaultHeap mem2Heap es w ∧ ¬Free ((w.initMutex 0x3000).host 0x3000)) ∧
    (∃ (es : List _) (w w' : World Bool Unit ExpHeap.ExpHeaps),
      Run layout defaultHeap mem2Heap es w ∧ ghsFlockCreate layout w false = some (some 0, w') ∧
        ¬Free (w'.host (layout.flocks 0))) ∧
    ∃ (es : List _) (w w' : World Bool Unit ExpHeap.ExpHeaps) (mutex : UInt64),
      Run layout defaultHeap mem2Heap es w ∧ ghsMtxInit defaultHeap w = (mutex, w') ∧ mutex ≠ 0 ∧
        ¬Free (w'.host mutex) :=
  ⟨init_keeps_owner, flock_create_keeps_owner, mtx_init_keeps_owner⟩

end CoreinitNx.Ghs
