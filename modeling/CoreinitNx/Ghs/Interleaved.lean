import CoreinitNx.Ghs.FlockPool
import CoreinitNx.Library.Owners

namespace CoreinitNx.Ghs

def Pool.mark (pool : Pool) (idx : Nat) (inUse : Bool) : Pool :=
  { pool with flockInUse := pool.flockInUse.setIfInBounds idx inUse }

def Pool.remember (pool : Pool) (flockIdx : UInt32) : Pool := { pool with freeFlockIdx := flockIdx }

namespace Interleaved

open Owners Slots

-- `other` is any other call of the file: what it does to the pool is `ensureInit`.
inductive Call where
  | create
  | destroy (flockIdx : UInt32)
  | other
deriving DecidableEq, Repr

-- Where a thread is: the first three are in `ensureInit`, those from `reading` to `unlocking` in a
-- create under the pool's mutex.
inductive Place where
  | outside
  | checking (call : Call)
  | clearing (call : Call) (idx : Nat)
  | marking (call : Call)
  | ready (call : Call)
  | reading
  | trying (idx : UInt32)
  | scanning (idx : Nat)
  | taking (idx : Nat)
  | remembering (idx : Nat)
  | unlocking (idx : Nat)
  | returning (idx : Nat)
  | panicking
  | releasing (flockIdx : UInt32)
  | leaving
deriving DecidableEq, Repr

-- `held` is no data of the program: the indices that the callers have and have not given back.
structure System (τ : Type) where
  pool : Pool
  lock : Option τ
  place : τ → Place
  held : Finset Nat

variable {τ : Type}

namespace System

def start : System τ := ⟨⟨false, .replicate _ false, 0⟩, none, fun _ => .outside, ∅⟩

def goto [DecidableEq τ] (s : System τ) (t : τ) (place : Place) : System τ :=
  { s with place := Function.update s.place t place }

def setPool (s : System τ) (pool : Pool) : System τ := { s with pool }

def setLock (s : System τ) (lock : Option τ) : System τ := { s with lock }

def setHeld (s : System τ) (held : Finset Nat) : System τ := { s with held }

end System

-- What the caller gives back with a call, and where the call begins.
def Call.givesBack : Call → Finset Nat → Finset Nat
  | .destroy flockIdx, held => held.erase flockIdx.toNat
  | .create, held | .other, held => held

def Call.begin : Call → Place
  | .destroy flockIdx =>
    if flockIdx.toNat ≥ kFlockMax then .leaving else .checking (.destroy flockIdx)
  | .create => .checking .create
  | .other => .checking .other

inductive Event (τ : Type) where
  | call (t : τ) (call : Call)
  | statement (t : τ)
  | created (t : τ) (flockIdx : Nat)
  | panicked (t : τ)
  | returned (t : τ)
deriving DecidableEq, Repr

variable [DecidableEq τ]

inductive Step : System τ → Event τ → System τ → Prop
  | call {s : System τ} {t : τ} (c : Call) : s.place t = .outside →
      Step s (.call t c) ((s.setHeld (c.givesBack s.held)).goto t c.begin)
  | inited {s : System τ} {t : τ} {c : Call} : s.place t = .checking c → s.pool.inited = true →
      Step s (.statement t) (s.goto t (.ready c))
  | uninited {s : System τ} {t : τ} {c : Call} : s.place t = .checking c → s.pool.inited = false →
      Step s (.statement t) (s.goto t (.clearing c 0))
  | clear {s : System τ} {t : τ} {c : Call} {idx : Nat} : s.place t = .clearing c idx →
      idx < kFlockMax →
      Step s (.statement t) ((s.setPool (s.pool.mark idx false)).goto t (.clearing c (idx + 1)))
  | cleared {s : System τ} {t : τ} {c : Call} {idx : Nat} : s.place t = .clearing c idx →
      kFlockMax ≤ idx →
      Step s (.statement t) ((s.setPool (s.pool.remember 0)).goto t (.marking c))
  | mark {s : System τ} {t : τ} {c : Call} : s.place t = .marking c →
      Step s (.statement t) ((s.setPool { s.pool with inited := true }).goto t (.ready c))
  | lock {s : System τ} {t : τ} : s.place t = .ready .create → s.lock = none →
      Step s (.statement t) ((s.setLock (some t)).goto t .reading)
  | read {s : System τ} {t : τ} : s.place t = .reading →
      Step s (.statement t) (s.goto t (.trying s.pool.freeFlockIdx))
  | tried {s : System τ} {t : τ} {idx : UInt32} : s.place t = .trying idx →
      idx.toNat < kFlockMax → ¬s.pool.InUse idx.toNat →
      Step s (.statement t) (s.goto t (.taking idx.toNat))
  | scan {s : System τ} {t : τ} {idx : UInt32} : s.place t = .trying idx →
      kFlockMax ≤ idx.toNat ∨ s.pool.InUse idx.toNat →
      Step s (.statement t) (s.goto t (.scanning 0))
  | scanOn {s : System τ} {t : τ} {idx : Nat} : s.place t = .scanning idx → s.pool.InUse idx →
      Step s (.statement t) (s.goto t (.scanning (idx + 1)))
  | found {s : System τ} {t : τ} {idx : Nat} : s.place t = .scanning idx → idx < kFlockMax →
      ¬s.pool.InUse idx → Step s (.statement t) (s.goto t (.taking idx))
  | full {s : System τ} {t : τ} {idx : Nat} : s.place t = .scanning idx → kFlockMax ≤ idx →
      Step s (.statement t) ((s.setLock none).goto t .panicking)
  | panicked {s : System τ} {t : τ} : s.place t = .panicking →
      Step s (.panicked t) (s.goto t .outside)
  -- `OSInitMutex` before it only makes the mutex exist.
  | take {s : System τ} {t : τ} {idx : Nat} : s.place t = .taking idx →
      Step s (.statement t) ((s.setPool (s.pool.mark idx true)).goto t (.remembering idx))
  | remember {s : System τ} {t : τ} {idx : Nat} : s.place t = .remembering idx →
      Step s (.statement t)
        ((s.setPool (s.pool.remember (UInt32.ofNat idx + 1))).goto t (.unlocking idx))
  | unlock {s : System τ} {t : τ} {idx : Nat} : s.place t = .unlocking idx →
      Step s (.statement t) ((s.setLock none).goto t (.returning idx))
  | created {s : System τ} {t : τ} {idx : Nat} : s.place t = .returning idx →
      Step s (.created t idx) ((s.setHeld (insert idx s.held)).goto t .outside)
  | free {s : System τ} {t : τ} {flockIdx : UInt32} : s.place t = .ready (.destroy flockIdx) →
      Step s (.statement t)
        ((s.setPool (s.pool.mark flockIdx.toNat false)).goto t (.releasing flockIdx))
  | release {s : System τ} {t : τ} {flockIdx : UInt32} : s.place t = .releasing flockIdx →
      Step s (.statement t) ((s.setPool (s.pool.remember flockIdx)).goto t .leaving)
  | other {s : System τ} {t : τ} : s.place t = .ready .other →
      Step s (.statement t) (s.goto t .leaving)
  | returned {s : System τ} {t : τ} : s.place t = .leaving →
      Step s (.returned t) (s.goto t .outside)

-- A flock is given back only by who has it, and the first call of the file, which sets the pool up
-- without a lock, is over before another begins.
def Proper (s : System τ) : Event τ → Prop
  | .call _ c =>
    (∀ flockIdx : UInt32, c = .destroy flockIdx → flockIdx.toNat < kFlockMax →
      flockIdx.toNat ∈ s.held) ∧
    (s.pool.inited = true ∨ ∀ t, s.place t = .outside)
  | .statement _ | .created _ _ | .panicked _ | .returned _ => True

def ProperStep (s : System τ) (e : Event τ) (s' : System τ) : Prop := Proper s e ∧ Step s e s'

abbrev Run := Transition.Run (ProperStep (τ := τ))

def Event.thread : Event τ → τ
  | .call t _ | .statement t | .created t _ | .panicked t | .returned t => t

def Call.claim : Call → Option Nat
  | .destroy flockIdx => some flockIdx.toNat
  | .create | .other => none

-- The slot that a thread has taken and not handed out yet, or has come to free.
def Place.claim : Place → Option Nat
  | .checking c | .clearing c _ | .marking c | .ready c => c.claim
  | .remembering idx | .unlocking idx | .returning idx => some idx
  | .outside | .reading | .trying _ | .scanning _ | .taking _ | .panicking | .releasing _
  | .leaving => none

def Place.Critical : Place → Prop
  | .reading | .trying _ | .scanning _ | .taking _ | .remembering _ | .unlocking _ => True
  | .outside | .checking _ | .clearing _ _ | .marking _ | .ready _ | .returning _ | .panicking
  | .releasing _ | .leaving => False

def Place.Starting : Place → Prop
  | .clearing _ _ | .marking _ => True
  | .outside | .checking _ | .ready _ | .reading | .trying _ | .scanning _ | .taking _
  | .remembering _ | .unlocking _ | .returning _ | .panicking | .releasing _ | .leaving => False

-- Behind `ensureInit`.
def Place.Past : Place → Prop
  | .ready _ | .reading | .trying _ | .scanning _ | .taking _ | .remembering _ | .unlocking _
  | .returning _ | .panicking | .releasing _ => True
  | .outside | .checking _ | .clearing _ _ | .marking _ | .leaving => False

structure Inv (s : System τ) : Prop where
  owned : Owned s.pool.InUse s.held fun t => (s.place t).claim
  locked : ∀ t, (s.place t).Critical → s.lock = some t
  found : ∀ t idx, s.place t = .taking idx → idx < kFlockMax ∧ ¬s.pool.InUse idx
  past : ∀ t, (s.place t).Past → s.pool.inited = true
  starting : ∀ t, (s.place t).Starting → s.pool.inited = false
  alone : s.pool.inited = false → ∀ t u, s.place t ≠ .outside → s.place u ≠ .outside → t = u
  clean : s.pool.inited = false → ∀ idx, ¬s.pool.InUse idx

variable {s s' s₁ : System τ} {t u : τ} {p : Place} {e : Event τ} {es : List (Event τ)}
  {pool : Pool} {idx i : Nat} {b : Bool}

theorem inUse_mark_false : (pool.mark idx false).InUse i ↔ i ≠ idx ∧ pool.InUse i := by
  rw [Pool.InUse, Pool.InUse, Pool.mark, Vector.getElem?_setIfInBounds]
  split
  next heq => simp [heq]
  next hne => simp [Ne.symm hne]

theorem inUse_mark_true (hidx : idx < kFlockMax) :
    (pool.mark idx true).InUse i ↔ i = idx ∨ pool.InUse i := inUse_take hidx

omit [DecidableEq τ] in
theorem not_inUse_start : ¬(System.start : System τ).pool.InUse idx := by
  intro huse
  obtain ⟨hlt, huse⟩ := Vector.getElem?_eq_some_iff.1 huse
  simp [System.start] at huse

omit [DecidableEq τ] in
theorem inv_start : Inv (System.start : System τ) where
  owned := Owned.start fun _ => not_inUse_start
  locked := fun _ h => h.elim
  found := fun _ _ h => nomatch h
  past := fun _ h => h.elim
  starting := fun _ h => h.elim
  alone := fun _ _ _ h => absurd rfl h
  clean := fun _ _ => not_inUse_start

theorem claim_goto : (fun u => ((s.goto t p).place u).claim) =
    Function.update (fun u => (s.place u).claim) t p.claim :=
  Function.comp_update Place.claim s.place t p

theorem place_goto_self : (s.goto t p).place t = p := Function.update_self _ _ _

theorem place_goto_ne (h : u ≠ t) : (s.goto t p).place u = s.place u := Function.update_of_ne h _ _

-- One thread at a time is under the pool's mutex.
omit [DecidableEq τ] in
theorem Inv.exclusive (hs : Inv s) (ht : (s.place t).Critical) (hu : (s.place u).Critical) :
    u = t := by
  have hlock := hs.locked t ht
  rw [hs.locked u hu] at hlock
  exact Option.some.inj hlock

theorem Inv.owned_goto (hs : Inv s) (hclaim : p.claim = (s.place t).claim) :
    Owned s.pool.InUse s.held (Function.update (fun u => (s.place u).claim) t p.claim) := by
  rw [hclaim, Function.update_eq_self]
  exact hs.owned

-- A thread goes on; what it does to the pool and the lock leaves the others where they are.
theorem Inv.goto (hs : Inv s) (hplace : s₁.place = s.place)
    (howned : Owned s₁.pool.InUse s₁.held
      (Function.update (fun u => (s.place u).claim) t p.claim))
    (hlock : ∀ u, u ≠ t → (s.place u).Critical → s₁.lock = some u)
    (hcritical : p.Critical → s₁.lock = some t)
    (hothers : ∀ u idx, u ≠ t → s.place u = .taking idx → ¬s₁.pool.InUse idx)
    (hfound : ∀ idx, p = .taking idx → idx < kFlockMax ∧ ¬s₁.pool.InUse idx)
    (hinited : s₁.pool.inited = s.pool.inited) (hpast : p.Past → s.pool.inited = true)
    (hstarting : p.Starting → s.pool.inited = false)
    (halone : s.pool.inited = false → ∀ u, s.place u ≠ .outside → u = t)
    (hclean : s.pool.inited = false → ∀ idx, ¬s₁.pool.InUse idx) : Inv (s₁.goto t p) := by
  have hself : (s₁.goto t p).place t = p := place_goto_self
  have hne (u : τ) (hut : u ≠ t) : (s₁.goto t p).place u = s.place u :=
    (place_goto_ne hut).trans (congrFun hplace u)
  have hstill (h : s₁.pool.inited = false) (u : τ) (hu : (s₁.goto t p).place u ≠ .outside) :
      u = t := by
    by_cases hut : u = t
    · exact hut
    · rw [hne u hut] at hu
      exact halone (hinited ▸ h) u hu
  refine ⟨?_, fun u hu => ?_, fun u idx hu => ?_, fun u hu => ?_, fun u hu => ?_,
    fun h u v hu hv => ?_, fun h => hclean (hinited ▸ h)⟩
  · rw [claim_goto, hplace]
    exact howned
  · by_cases hut : u = t
    · subst hut
      exact hcritical (hself ▸ hu)
    · exact hlock u hut (hne u hut ▸ hu)
  · by_cases hut : u = t
    · subst hut
      exact hfound idx (hself ▸ hu)
    · rw [hne u hut] at hu
      exact ⟨(hs.found u idx hu).1, hothers u idx hut hu⟩
  · by_cases hut : u = t
    · subst hut
      exact hinited.trans (hpast (hself ▸ hu))
    · exact hinited.trans (hs.past u (hne u hut ▸ hu))
  · by_cases hut : u = t
    · subst hut
      exact hinited.trans (hstarting (hself ▸ hu))
    · exact hinited.trans (hs.starting u (hne u hut ▸ hu))
  · rw [hstill h u hu, hstill h v hv]

-- ... and so does a thread that only goes on.
theorem Inv.move (hs : Inv s) (ht : s.place t ≠ .outside) (hclaim : p.claim = (s.place t).claim)
    (hcritical : p.Critical → (s.place t).Critical)
    (hfound : ∀ idx, p = .taking idx → idx < kFlockMax ∧ ¬s.pool.InUse idx)
    (hpast : p.Past → s.pool.inited = true) (hstarting : p.Starting → s.pool.inited = false) :
    Inv (s.goto t p) := by
  exact hs.goto rfl (hs.owned_goto hclaim) (fun u _ => hs.locked u)
    (fun hp => hs.locked t (hcritical hp)) (fun u idx _ hu => (hs.found u idx hu).2) hfound rfl
    hpast hstarting (fun h u hu => hs.alone h u t hu ht) hs.clean

-- The holder of the lock gives it up.
theorem Inv.unlock (hs : Inv s) (ht : (s.place t).Critical) (hclaim : p.claim = (s.place t).claim)
    (hcritical : ¬p.Critical) (hfound : ∀ idx, p ≠ .taking idx) (hstarting : ¬p.Starting)
    (hinit : s.pool.inited = true) : Inv ((s.setLock none).goto t p) := by
  refine hs.goto rfl (hs.owned_goto hclaim) (fun u hut hu => absurd (hs.exclusive ht hu) hut)
    (fun hp => absurd hp hcritical) (fun u idx _ hu => (hs.found u idx hu).2)
    (fun idx hp => absurd hp (hfound idx)) rfl (fun _ => hinit) (fun hp => absurd hp hstarting)
    (fun h => ?_) hs.clean
  rw [hinit] at h
  cases h

-- A thread writes the hint, which no thread relies on.
theorem Inv.remember (hs : Inv s) (ht : s.place t ≠ .outside)
    (hclaim : p.claim = (s.place t).claim) (hcritical : p.Critical → (s.place t).Critical)
    (hfound : ∀ idx, p ≠ .taking idx) (hpast : p.Past → s.pool.inited = true)
    (hstarting : p.Starting → s.pool.inited = false) {flockIdx : UInt32} :
    Inv ((s.setPool (s.pool.remember flockIdx)).goto t p) := by
  exact hs.goto rfl (hs.owned_goto hclaim) (fun u _ => hs.locked u)
    (fun hp => hs.locked t (hcritical hp)) (fun u idx _ hu => (hs.found u idx hu).2)
    (fun idx hp => absurd hp (hfound idx)) rfl hpast hstarting
    (fun h u hu => hs.alone h u t hu ht) hs.clean

theorem Inv.call (hs : Inv s) (ht : s.place t = .outside) (c : Call)
    (hp : Proper s (.call t c)) : Inv ((s.setHeld (c.givesBack s.held)).goto t c.begin) := by
  have halone (h : s.pool.inited = false) (u : τ) (hu : s.place u ≠ .outside) : u = t := by
    rcases hp.2 with hinit | hout
    · rw [h] at hinit
      cases hinit
    · exact absurd (hout u) hu
  have hnone : (s.place t).claim = none := by rw [ht]; rfl
  have hsame : Owned s.pool.InUse s.held (Function.update (fun u => (s.place u).claim) t none) :=
    hs.owned_goto (p := .outside) hnone.symm
  have hbegin {held : Finset Nat} {p : Place}
      (howned : Owned s.pool.InUse held (Function.update (fun u => (s.place u).claim) t p.claim))
      (hcritical : ¬p.Critical) (hfound : ∀ idx, p ≠ .taking idx) (hpast : ¬p.Past)
      (hstarting : ¬p.Starting) : Inv ((s.setHeld held).goto t p) :=
    hs.goto rfl howned (fun u _ => hs.locked u) (fun h => absurd h hcritical)
      (fun u idx _ hu => (hs.found u idx hu).2) (fun idx h => absurd h (hfound idx)) rfl
      (fun h => absurd h hpast) (fun h => absurd h hstarting) halone hs.clean
  cases c with
  | create | other => exact hbegin hsame id nofun id id
  | destroy flockIdx =>
    rw [Call.begin]
    split
    next hge =>
      refine hbegin ?_ id nofun id id
      rw [Call.givesBack, Finset.erase_eq_of_notMem fun hheld => ?_]
      · exact hsame
      · exact absurd (hs.owned.inUse _ hheld).lt (Nat.not_lt.2 hge)
    next hlt =>
      exact hbegin (hs.owned.giveBack (hp.1 flockIdx rfl (Nat.not_le.1 hlt)) hnone) id nofun id id

theorem Step.inv (hstep : Step s e s') (hp : Proper s e) (hs : Inv s) : Inv s' := by
  have hinit {u : τ} {q : Place} (hu : s.place u = q) (hq : q.Past) : s.pool.inited = true :=
    hs.past u (hu ▸ hq)
  cases hstep with
  | call c ht => exact hs.call ht c hp
  | inited ht hinit =>
    exact hs.move (by rw [ht]; nofun) (by rw [ht]; rfl) (fun h => h.elim) (fun _ h => nomatch h)
      (fun _ => hinit) (fun h => h.elim)
  | uninited ht hinit =>
    exact hs.move (by rw [ht]; nofun) (by rw [ht]; rfl) (fun h => h.elim) (fun _ h => nomatch h)
      (fun h => h.elim) (fun _ => hinit)
  | @clear t c idx ht hidx =>
    have hno := hs.starting t (by rw [ht]; trivial)
    have hclean (i : Nat) : ¬(s.pool.mark idx false).InUse i := fun h =>
      hs.clean hno i (inUse_mark_false.1 h).2
    have hsame : (Place.clearing c (idx + 1)).claim = (s.place t).claim := by rw [ht]; rfl
    exact hs.goto rfl
      ((hs.owned_goto hsame).congr fun i => iff_of_false (hclean i) (hs.clean hno i))
      (fun u _ => hs.locked u) (fun h => h.elim) (fun _ _ _ _ => hclean _)
      (fun _ h => nomatch h) rfl (fun h => h.elim) (fun _ => hno)
      (fun h u hu => hs.alone h u t hu (by rw [ht]; nofun)) (fun _ => hclean)
  | @cleared t c idx ht hidx =>
    exact hs.remember (p := .marking c) (by rw [ht]; nofun) (by rw [ht]; rfl) (fun h => h.elim)
      nofun (fun h => h.elim) (fun _ => hs.starting t (by rw [ht]; trivial))
  | @mark t c ht =>
    have hno := hs.starting t (by rw [ht]; trivial)
    refine ⟨?_, fun u hu => ?_, fun u idx hu => ?_, fun _ _ => rfl, fun u hu => ?_,
      fun h => (nomatch h), fun h => (nomatch h)⟩
    · rw [claim_goto]
      exact hs.owned_goto (p := .ready c) (by rw [ht]; rfl)
    · by_cases hut : u = t
      · subst hut
        rw [place_goto_self] at hu
        exact hu.elim
      · rw [place_goto_ne hut] at hu
        exact hs.locked u hu
    · by_cases hut : u = t
      · subst hut
        rw [place_goto_self] at hu
        cases hu
      · rw [place_goto_ne hut] at hu
        exact hs.found u idx hu
    · by_cases hut : u = t
      · subst hut
        rw [place_goto_self] at hu
        exact hu.elim
      · rw [place_goto_ne hut] at hu
        change (s.place u).Starting at hu
        refine absurd (hs.alone hno u t (fun hout => ?_) (by rw [ht]; nofun)) hut
        rw [hout] at hu
        exact hu
  | @lock t ht hlock =>
    have hsame : Place.reading.claim = (s.place t).claim := by rw [ht]; rfl
    refine hs.goto rfl (hs.owned_goto hsame) (fun u _ hu => ?_) (fun _ => rfl)
      (fun u idx _ hu => (hs.found u idx hu).2) (fun _ h => nomatch h) rfl
      (fun _ => hinit ht trivial) (fun h => h.elim)
      (fun h u hu => hs.alone h u t hu (by rw [ht]; nofun)) hs.clean
    have hown := hs.locked u hu
    rw [hlock] at hown
    cases hown
  | tried ht hlt hfree | found ht hlt hfree =>
    refine hs.move (by rw [ht]; nofun) (by rw [ht]; rfl) (fun _ => by rw [ht]; trivial)
      (fun idx h => ?_) (fun _ => hinit ht trivial) (fun h => h.elim)
    cases h
    exact ⟨hlt, hfree⟩
  | read ht | scan ht | scanOn ht =>
    exact hs.move (by rw [ht]; nofun) (by rw [ht]; rfl) (fun _ => by rw [ht]; trivial)
      (fun _ h => nomatch h) (fun _ => hinit ht trivial) (fun h => h.elim)
  | full ht | unlock ht =>
    exact hs.unlock (by rw [ht]; trivial) (by rw [ht]; rfl) (fun h => h) nofun (fun h => h)
      (hinit ht trivial)
  | panicked ht | other ht | returned ht =>
    exact hs.move (by rw [ht]; nofun) (by rw [ht]; rfl) (fun h => h.elim) (fun _ h => nomatch h)
      (fun h => h.elim) (fun h => h.elim)
  | @take t idx ht =>
    obtain ⟨hlt, hfree⟩ := hs.found t idx ht
    have hpast := hinit ht trivial
    refine hs.goto rfl (hs.owned.take hfree (by rw [ht]; rfl) fun _ => inUse_mark_true hlt)
      (fun u _ => hs.locked u) (fun _ => hs.locked t (by rw [ht]; trivial))
      (fun u i hut hu => ?_) (fun _ h => nomatch h) rfl (fun _ => hpast) (fun h => h.elim)
      (fun h u hu => hs.alone h u t hu (by rw [ht]; nofun)) (fun h => ?_)
    · exact absurd (hs.exclusive (by rw [ht]; trivial) (by rw [hu]; trivial)) hut
    · rw [hpast] at h
      cases h
  | @remember t idx ht =>
    exact hs.remember (p := .unlocking idx) (by rw [ht]; nofun) (by rw [ht]; rfl)
      (fun _ => by rw [ht]; trivial) nofun (fun _ => hinit ht trivial) (fun h => h.elim)
  | @created t idx ht =>
    exact hs.goto rfl (hs.owned.handOut (by rw [ht]; rfl)) (fun u _ => hs.locked u)
      (fun h => h.elim) (fun u idx _ hu => (hs.found u idx hu).2) (fun _ h => nomatch h) rfl
      (fun h => h.elim) (fun h => h.elim)
      (fun h u hu => hs.alone h u t hu (by rw [ht]; nofun)) hs.clean
  | @free t flockIdx ht =>
    have hpast := hinit ht trivial
    refine hs.goto rfl (hs.owned.free (by rw [ht]; rfl) fun _ => inUse_mark_false)
      (fun u _ => hs.locked u) (fun h => h.elim) (fun u i _ hu huse => ?_) (fun _ h => nomatch h)
      rfl (fun _ => hpast) (fun h => h.elim)
      (fun h u hu => hs.alone h u t hu (by rw [ht]; nofun)) (fun h => ?_)
    · exact (hs.found u i hu).2 (inUse_mark_false.1 huse).2
    · rw [hpast] at h
      cases h
  | release ht =>
    exact hs.remember (p := .leaving) (by rw [ht]; nofun) (by rw [ht]; rfl) (fun h => h.elim) nofun
      (fun h => h.elim) (fun h => h.elim)

theorem Run.inv (hrun : Run .start es s) : Inv s :=
  hrun.invariant_of (fun _ _ => trivial) inv_start fun _ _ _ _ hs hstep => hstep.2.inv hstep.1 hs

theorem Step.place_ne (hstep : Step s e s') (h : u ≠ e.thread) : s'.place u = s.place u := by
  cases hstep <;> exact place_goto_ne h

end Interleaved

end CoreinitNx.Ghs
