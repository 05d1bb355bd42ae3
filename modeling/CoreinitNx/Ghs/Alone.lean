import CoreinitNx.Ghs.Interleaved

namespace CoreinitNx.Ghs

namespace Interleaved

open Slots

variable {τ : Type} [DecidableEq τ] {s s' s₁ : System τ} {t u : τ} {p q : Place} {c : Call}
  {pool : Pool} {idx i n : Nat}

theorem goto_goto : (s.goto t p).goto t q = s.goto t q := by
  rw [System.goto, System.goto, Function.update_idem]
  rfl

theorem idle_goto (h : ∀ u, u ≠ t → s.place u = .outside) (u : τ) :
    (s.goto t .outside).place u = .outside := by
  by_cases hut : u = t
  · subst hut
    exact place_goto_self
  · rw [place_goto_ne hut]
    exact h u hut

theorem goto_setPool : (s.goto t p).setPool pool = (s.setPool pool).goto t p := rfl

omit [DecidableEq τ] in
theorem setPool_setPool {pool' : Pool} : (s.setPool pool).setPool pool' = s.setPool pool' := rfl

-- One thread runs on its own, statement by statement.
def RunsTo (t : τ) (s s' : System τ) : Prop :=
  ∃ n, Run s (List.replicate n (.statement t)) s'

theorem RunsTo.refl (s : System τ) : RunsTo t s s := ⟨0, .nil⟩

theorem RunsTo.of_eq (h : s = s') : RunsTo t s s' := h ▸ .refl s

theorem RunsTo.cons (hstep : Step s (.statement t) s₁) (h : RunsTo t s₁ s') : RunsTo t s s' := by
  obtain ⟨n, h⟩ := h
  exact ⟨n + 1, h.cons ⟨trivial, hstep⟩⟩

theorem RunsTo.trans (h : RunsTo t s s₁) (h' : RunsTo t s₁ s') : RunsTo t s s' := by
  obtain ⟨n, h⟩ := h
  obtain ⟨m, h'⟩ := h'
  exact ⟨n + m, List.replicate_add n m _ ▸ h.append h'⟩

theorem RunsTo.place_ne (h : RunsTo t s s') (hut : u ≠ t) : s'.place u = s.place u := by
  obtain ⟨n, h⟩ := h
  induction n generalizing s' with
  | zero => rw [Transition.Run.of_nil h]
  | succ n ih =>
    rw [List.replicate_succ'] at h
    obtain ⟨m, h, hstep⟩ := h.of_snoc
    exact (hstep.2.place_ne hut).trans (ih h)

-- Induction on how many slots are left to clear.
theorem clears (ht : s.place t = .clearing c i) (hclear : ∀ j < i, ¬s.pool.InUse j) :
    RunsTo t s ((s.setPool ⟨true, .replicate _ false, 0⟩).goto t (.ready c)) := by
  induction hn : kFlockMax - i generalizing s i with
  | zero =>
    have hend : kFlockMax ≤ i := Nat.le_of_sub_eq_zero hn
    have hpool : s.pool.flockInUse = .replicate _ false := by
      ext j hj
      have hno := hclear j (Nat.lt_of_lt_of_le hj hend)
      rw [Pool.InUse, Vector.getElem?_eq_getElem hj] at hno
      rw [Vector.getElem_replicate]
      exact Bool.eq_false_iff.2 fun h => hno (congrArg some h)
    refine .cons (.cleared ht hend) (.cons (.mark place_goto_self) ?_)
    rw [goto_setPool, setPool_setPool, goto_goto, ← hpool]
    exact .refl _
  | succ n ih =>
    have hlt : i < kFlockMax := Nat.lt_of_sub_eq_succ hn
    refine .cons (.clear ht hlt) ?_
    have hrest := ih (s := (s.setPool (s.pool.mark i false)).goto t (.clearing c (i + 1)))
      place_goto_self (fun j hj huse => ?_) (by omega)
    · rwa [goto_setPool, setPool_setPool, goto_goto] at hrest
    · obtain ⟨hji, huse⟩ := inUse_mark_false.1 huse
      exact hclear j (by omega) huse

theorem ensureInit_alone (ht : s.place t = .checking c) {L : Layout} {κ η : Type}
    {w : World τ κ η} (hpool : w.pool = s.pool) :
    RunsTo t s ((s.setPool (w.ensureInit L).pool).goto t (.ready c)) := by
  rw [World.ensureInit]
  split
  next hinit =>
    rw [hpool] at hinit ⊢
    exact .cons (.inited ht hinit) (.refl _)
  next hinit =>
    rw [hpool] at hinit
    have hclear := clears (s := s.goto t (.clearing c 0)) (c := c) (i := 0) place_goto_self
      fun _ h => absurd h (Nat.not_lt_zero _)
    rw [goto_setPool, goto_goto] at hclear
    exact .cons (.uninited ht (Bool.eq_false_iff.2 hinit)) hclear

-- What a create that runs alone comes to, with the slot that `nextFlock` finds.
def System.searched (s : System τ) (t : τ) : Option Nat → System τ
  | some idx => s.goto t (.taking idx)
  | none => (s.setLock none).goto t .panicking

theorem goto_searched {result : Option Nat} :
    (s.goto t p).searched t result = s.searched t result := by
  cases result with
  | none => exact goto_goto (s := s.setLock none)
  | some idx => exact goto_goto

-- Induction on how many slots are left to look at.
theorem scans (ht : s.place t = .scanning i) (hpassed : ∀ j < i, s.pool.InUse j) :
    RunsTo t s (s.searched t (s.pool.flockInUse.toList.findIdx? (!·))) := by
  induction hn : kFlockMax - i generalizing s i with
  | zero =>
    have hend : kFlockMax ≤ i := Nat.le_of_sub_eq_zero hn
    have hnone : s.pool.flockInUse.toList.findIdx? (!·) = none := by
      refine first_eq_none_iff.2 fun j x hx => ?_
      have huse := hpassed j (Nat.lt_of_lt_of_le (lt_of_slot hx) hend)
      rw [Pool.InUse, hx] at huse
      cases huse
      rfl
    rw [hnone]
    exact .cons (.full ht hend) (.refl _)
  | succ n ih =>
    have hlt : i < kFlockMax := Nat.lt_of_sub_eq_succ hn
    by_cases huse : s.pool.InUse i
    · have hrest := ih (s := s.goto t (.scanning (i + 1))) place_goto_self (fun j hj => ?_)
        (by omega)
      · rw [goto_searched] at hrest
        exact .cons (.scanOn ht huse) hrest
      · rcases Nat.lt_succ_iff_lt_or_eq.1 hj with hj | rfl
        · exact hpassed j hj
        · exact huse
    · have hfirst : s.pool.flockInUse.toList.findIdx? (!·) = some i := by
        refine first_eq_some_iff.2 ⟨⟨_, Vector.getElem?_eq_getElem hlt, ?_⟩, fun j x hj hx => ?_⟩
        · rw [Pool.InUse, Vector.getElem?_eq_getElem hlt] at huse
          rw [Bool.eq_false_iff.2 fun h => huse (congrArg some h)]
          rfl
        · have hj := hpassed j hj
          rw [Pool.InUse, hx] at hj
          cases hj
          rfl
      rw [hfirst]
      exact .cons (.found ht hlt huse) (.refl _)

theorem searches (ht : s.place t = .reading) : RunsTo t s (s.searched t s.pool.nextFlock) := by
  have htry : (s.goto t (.trying s.pool.freeFlockIdx)).place t = .trying s.pool.freeFlockIdx :=
    place_goto_self
  refine .cons (.read ht) ?_
  rw [Pool.nextFlock]
  split
  next hbusy =>
    have hscan := scans (s := (s.goto t (.trying s.pool.freeFlockIdx)).goto t (.scanning 0))
      (i := 0) place_goto_self fun _ h => absurd h (Nat.not_lt_zero _)
    rw [goto_searched, goto_searched] at hscan
    exact .cons (.scan htry hbusy) hscan
  next hfree =>
    obtain ⟨hlt, hfree⟩ := not_or.1 hfree
    refine .cons (.tried htry (Nat.not_le.1 hlt) hfree) ?_
    rw [goto_goto]
    exact .refl _

-- What a create answers, and the state that it leaves behind.
def outcome (t : τ) : Option Nat → Event τ
  | some idx => .created t idx
  | none => .panicked t

def System.answered (s : System τ) : Option Nat → System τ
  | some idx => (s.setPool (s.pool.take idx)).setHeld (insert idx s.held)
  | none => s

omit [DecidableEq τ] in
theorem answered_pool {result : Option Nat} :
    (s.answered result).pool = result.elim s.pool s.pool.take := by
  cases result <;> rfl

omit [DecidableEq τ] in
theorem answered_lock {result : Option Nat} : (s.answered result).lock = s.lock := by
  cases result <;> rfl

omit [DecidableEq τ] in
theorem answered_held {result : Option Nat} :
    (s.answered result).held = result.elim s.held (insert · s.held) := by
  cases result <;> rfl

omit [DecidableEq τ] in
theorem answered_place {result : Option Nat} : (s.answered result).place = s.place := by
  cases result <;> rfl

theorem ready_create_alone (ht : s.place t = .ready .create) (hlock : s.lock = none) :
    ∃ n, Run s (List.replicate n (.statement t) ++ [outcome t s.pool.nextFlock])
      ((s.answered s.pool.nextFlock).goto t .outside) := by
  have hfree : s.setLock none = s := by rw [← hlock]; rfl
  have hsearch := searches (s := (s.setLock (some t)).goto t .reading) place_goto_self
  rw [show ((s.setLock (some t)).goto t .reading).pool.nextFlock = s.pool.nextFlock from rfl]
    at hsearch
  cases hnext : s.pool.nextFlock with
  | none =>
    rw [hnext] at hsearch
    have hend : ((s.setLock (some t)).goto t .reading).searched t none = s.goto t .panicking := by
      rw [← hfree]
      exact goto_goto (s := s.setLock none)
    rw [hend] at hsearch
    obtain ⟨n, hrun⟩ := RunsTo.cons (.lock ht hlock) hsearch
    refine ⟨n, hrun.snoc ⟨trivial, ?_⟩⟩
    have hpanic := Step.panicked (s := s.goto t .panicking) place_goto_self
    rwa [goto_goto] at hpanic
  | some idx =>
    rw [hnext] at hsearch
    have hend : ((s.setLock (some t)).goto t .reading).searched t (some idx) =
        (s.setLock (some t)).goto t (.taking idx) := goto_goto
    rw [hend] at hsearch
    have htake : RunsTo t ((s.setLock (some t)).goto t (.taking idx))
        ((s.setPool (s.pool.take idx)).goto t (.returning idx)) := by
      refine .cons (.take place_goto_self) (.cons (.remember place_goto_self)
        (.cons (.unlock place_goto_self) ?_))
      refine .of_eq ?_
      simp only [System.goto, System.setPool, System.setLock, Function.update_idem, ← hlock]
      rfl
    obtain ⟨n, hrun⟩ := (RunsTo.cons (.lock ht hlock) hsearch).trans htake
    refine ⟨n, hrun.snoc ⟨trivial, ?_⟩⟩
    have hcreated := Step.created (s := (s.setPool (s.pool.take idx)).goto t (.returning idx))
      place_goto_self
    rwa [show ∀ held, ((s.setPool (s.pool.take idx)).goto t (.returning idx)).setHeld held =
      ((s.setPool (s.pool.take idx)).setHeld held).goto t (.returning idx) from fun _ => rfl,
      goto_goto] at hcreated

theorem pool_flockCreate {κ η : Type} {L : Layout} {w w' : World τ κ η} {result : Option Nat}
    (h : ghsFlockCreate L w t = some (result, w')) :
    result = (w.ensureInit L).pool.nextFlock ∧
      w'.pool = result.elim (w.ensureInit L).pool (w.ensureInit L).pool.take := by
  simp only [ghsFlockCreate] at h
  split at h
  next => cases h
  next locked hlock =>
    split at h
    next hnone =>
      cases h
      exact ⟨hnone.symm, rfl⟩
    next idx hsome =>
      cases h
      exact ⟨hsome.symm, rfl⟩

-- Run on its own, a create does what it does in one step where calls are made one at a time.
theorem create_alone {κ η : Type} {L : Layout} {w w' : World τ κ η} {result : Option Nat}
    (hpool : w.pool = s.pool) (hidle : ∀ u, s.place u = .outside) (hlock : s.lock = none)
    (h : ghsFlockCreate L w t = some (result, w')) :
    ∃ n s', Run s (.call t .create :: (List.replicate n (.statement t) ++ [outcome t result])) s' ∧
      s'.pool = w'.pool ∧ s'.lock = none ∧ (∀ u, s'.place u = .outside) ∧
      s'.held = result.elim s.held (insert · s.held) := by
  have hcall : ProperStep s (.call t .create) (s.goto t (.checking .create)) :=
    ⟨⟨nofun, .inr hidle⟩, .call .create (hidle t)⟩
  have hinit := ensureInit_alone (s := s.goto t (.checking .create)) (L := L) place_goto_self hpool
  rw [goto_setPool, goto_goto] at hinit
  obtain ⟨n, hinit⟩ := hinit
  obtain ⟨m, hcreate⟩ := ready_create_alone
    (s := (s.setPool (w.ensureInit L).pool).goto t (.ready .create)) place_goto_self hlock
  have hrun := (hinit.append hcreate).cons hcall
  rw [← List.append_assoc, ← List.replicate_add] at hrun
  obtain ⟨rfl, hpool'⟩ := pool_flockCreate h
  refine ⟨n + m, _, hrun, answered_pool.trans hpool'.symm, answered_lock.trans hlock,
    idle_goto fun u hut => ?_, answered_held⟩
  rw [answered_place, place_goto_ne hut]
  exact hidle u

-- ... and so does a destroy, which takes no lock.
theorem destroy_alone {κ η : Type} {L : Layout} {w : World τ κ η} {flockIdx : UInt32}
    (hpool : w.pool = s.pool) (hidle : ∀ u, s.place u = .outside)
    (hheld : flockIdx.toNat < kFlockMax → flockIdx.toNat ∈ s.held) :
    ∃ n s', Run s (.call t (.destroy flockIdx) ::
        (List.replicate n (.statement t) ++ [.returned t])) s' ∧
      s'.pool = (ghsFlockDestroy L w flockIdx).pool ∧ s'.lock = s.lock ∧
      ∀ u, s'.place u = .outside := by
  have hcall := Step.call (.destroy flockIdx) (hidle t)
  have hproper : Proper s (.call t (.destroy flockIdx)) :=
    ⟨fun f hf hlt => by cases hf; exact hheld hlt, .inr hidle⟩
  have hreturn {s₁ : System τ} (h : s₁.place t = .leaving) :
      ProperStep s₁ (.returned t) (s₁.goto t .outside) := ⟨trivial, .returned h⟩
  rw [ghsFlockDestroy]
  split
  next hge =>
    rw [Call.begin, if_pos hge] at hcall
    have hrun := (Transition.Run.single ⟨hproper, hcall⟩).snoc (hreturn place_goto_self)
    refine ⟨0, _, hrun, hpool.symm, rfl, idle_goto fun u hut => ?_⟩
    rw [place_goto_ne hut]
    exact hidle u
  next hlt =>
    rw [Call.begin, if_neg hlt] at hcall
    have hinit := ensureInit_alone (L := L) (s := (s.setHeld ((Call.destroy flockIdx).givesBack
      s.held)).goto t (.checking (.destroy flockIdx))) place_goto_self hpool
    have hfree := hinit.trans (.cons (.free place_goto_self) (.cons (.release place_goto_self)
      (.refl _)))
    obtain ⟨n, hrun⟩ := id hfree
    refine ⟨n, _, (hrun.snoc (hreturn place_goto_self)).cons ⟨hproper, hcall⟩, rfl, rfl,
      idle_goto fun u hut => ?_⟩
    rw [hfree.place_ne hut, place_goto_ne hut]
    exact hidle u

end Interleaved

end CoreinitNx.Ghs
