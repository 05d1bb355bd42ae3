import CoreinitNx.Ghs.Alone

namespace CoreinitNx.Ghs

namespace Interleaved

open Slots

variable {τ : Type} [DecidableEq τ] {s s' s₁ : System τ} {t u : τ} {p : Place} {c : Call}
  {e : Event τ} {es : List (Event τ)} {pool : Pool} {idx i : Nat}

-- Only the thread that has found a free slot makes it one in use.
theorem Step.inUse (hstep : Step s e s') (hs : Inv s) (huse : s'.pool.InUse idx) :
    s.pool.InUse idx ∨ s.place e.thread = .taking idx := by
  cases hstep with
  | clear ht hidx | free ht => exact .inl (inUse_mark_false.1 huse).2
  | @take t i ht =>
    rcases (inUse_mark_true (hs.found t i ht).1).1 huse with rfl | hold
    · exact .inr ht
    · exact .inl hold
  | _ => exact .inl huse

theorem begin_eq (c : Call) : c.begin = .leaving ∨ c.begin = .checking c := by
  cases c with
  | create | other => exact .inr rfl
  | destroy flockIdx =>
    rw [Call.begin]
    split
    next => exact .inl rfl
    next => exact .inr rfl

theorem Step.scanning (hstep : Step s e s') (h : s'.place e.thread = .scanning i) :
    (∀ c, e ≠ .call e.thread c) ∧
      (i = 0 ∨ ∃ k, i = k + 1 ∧ s.place e.thread = .scanning k ∧ s.pool.InUse k) := by
  cases hstep with
  | call c ht =>
    rw [Event.thread, place_goto_self] at h
    rcases begin_eq c with hc | hc <;> rw [hc] at h <;> cases h
  | scan ht hbusy =>
    rw [Event.thread, place_goto_self] at h
    cases h
    exact ⟨nofun, .inl rfl⟩
  | scanOn ht huse =>
    rw [Event.thread, place_goto_self] at h
    cases h
    exact ⟨nofun, .inr ⟨_, rfl, ht, huse⟩⟩
  | _ =>
    rw [Event.thread, place_goto_self] at h
    cases h

theorem Step.panicking (hstep : Step s e s') (h : s'.place e.thread = .panicking) :
    (∀ c, e ≠ .call e.thread c) ∧ ∃ k, kFlockMax ≤ k ∧ s.place e.thread = .scanning k := by
  cases hstep with
  | call c ht =>
    rw [Event.thread, place_goto_self] at h
    rcases begin_eq c with hc | hc <;> rw [hc] at h <;> cases h
  | full ht hend => exact ⟨nofun, _, hend, ht⟩
  | _ =>
    rw [Event.thread, place_goto_self] at h
    cases h

-- In the call that it is in, a thread began to scan the slots in the state `m`.
def ScansSince (es : List (Event τ)) (t : τ) (m : System τ) : Prop :=
  ∃ es₁ es₂, es = es₁ ++ es₂ ∧ Run .start es₁ m ∧ m.place t = .scanning 0 ∧
    ∀ c, Event.call t c ∉ es₂

theorem ScansSince.snoc {m : System τ} (h : ScansSince es t m) (he : ∀ c, e ≠ .call t c) :
    ScansSince (es ++ [e]) t m := by
  obtain ⟨es₁, es₂, rfl, hrun, hm, hcall⟩ := h
  refine ⟨es₁, es₂ ++ [e], List.append_assoc _ _ _, hrun, hm, fun c hc => ?_⟩
  rcases List.mem_append.1 hc with hold | hnew
  · exact hcall c hold
  · exact he c (List.mem_singleton.1 hnew).symm

-- The slots that a scan has passed were in use when it began, and since then slots were only freed.
structure Scanned (es : List (Event τ)) (s : System τ) (t : τ) : Prop where
  scanning : ∀ i, s.place t = .scanning i → ∃ m, ScansSince es t m ∧
    (∀ j, s.pool.InUse j → m.pool.InUse j) ∧ ∀ j < i, m.pool.InUse j
  panicking : s.place t = .panicking → ∃ m, ScansSince es t m ∧ ∀ j < kFlockMax, m.pool.InUse j

theorem Run.scanned (hrun : Run .start es s) (t : τ) : Scanned es s t := by
  induction hrun with
  | nil => exact ⟨fun _ h => (nomatch h), fun h => (nomatch h)⟩
  | @snoc es s s' e hrun hstep ih =>
    have hs := Run.inv hrun
    obtain ⟨-, hone⟩ := id hstep
    refine ⟨fun i hi => ?_, fun hi => ?_⟩
    · by_cases hte : t = e.thread
      · subst hte
        obtain ⟨hcall, rfl | ⟨k, rfl, hk, huse⟩⟩ := hone.scanning hi
        · refine ⟨s', ⟨es ++ [e], [], (List.append_nil _).symm, hrun.snoc hstep, hi, ?_⟩,
            fun _ h => h, fun _ h => absurd h (Nat.not_lt_zero _)⟩
          exact fun _ h => nomatch h
        · obtain ⟨m, hm, hold, hpassed⟩ := ih.scanning k hk
          refine ⟨m, hm.snoc hcall, fun j hj => ?_, fun j hj => ?_⟩
          · rcases hone.inUse hs hj with hj | hj
            · exact hold j hj
            · rw [hk] at hj
              cases hj
          · rcases Nat.lt_succ_iff_lt_or_eq.1 hj with hj | rfl
            · exact hpassed j hj
            · exact hold j huse
      · rw [hone.place_ne hte] at hi
        obtain ⟨m, hm, hold, hpassed⟩ := ih.scanning i hi
        refine ⟨m, hm.snoc fun c he => hte ?_, fun j hj => ?_, hpassed⟩
        · rw [he]
          rfl
        · rcases hone.inUse hs hj with hj | hj
          · exact hold j hj
          · exact absurd (hs.exclusive (by rw [hj]; trivial) (by rw [hi]; trivial)) hte
    · by_cases hte : t = e.thread
      · subst hte
        obtain ⟨hcall, k, hk, hscan⟩ := hone.panicking hi
        obtain ⟨m, hm, -, hpassed⟩ := ih.scanning k hscan
        exact ⟨m, hm.snoc hcall, fun j hj => hpassed j (Nat.lt_of_lt_of_le hj hk)⟩
      · rw [hone.place_ne hte] at hi
        obtain ⟨m, hm, hall⟩ := ih.panicking hi
        refine ⟨m, hm.snoc fun c he => hte ?_, hall⟩
        rw [he]
        rfl

def GivesBack (idx : Nat) : Event τ → Prop
  | .call _ (.destroy flockIdx) => flockIdx.toNat = idx
  | .call _ .create | .call _ .other | .statement _ | .created _ _ | .panicked _
  | .returned _ => False

theorem Step.held (hstep : Step s e s') (hidx : idx ∈ s.held) :
    idx ∈ s'.held ∨ GivesBack idx e := by
  cases hstep with
  | call c ht =>
    cases c with
    | create | other => exact .inl hidx
    | destroy flockIdx =>
      by_cases heq : flockIdx.toNat = idx
      · exact .inr heq
      · exact .inl (Finset.mem_erase_of_ne_of_mem (Ne.symm heq) hidx)
  | created ht => exact .inl (Finset.mem_insert_of_mem hidx)
  | _ => exact .inl hidx

-- What a caller has stays with it until somebody gives it back.
theorem Run.held {m : System τ} (hrun : Run m es s) (hidx : idx ∈ m.held) :
    idx ∈ s.held ∨ ∃ e ∈ es, GivesBack idx e := by
  induction hrun with
  | nil => exact .inl hidx
  | snoc _ hstep ih =>
    rcases ih with hheld | ⟨e, he, hback⟩
    · rcases hstep.2.held hheld with hheld | hback
      · exact .inl hheld
      · exact .inr ⟨_, List.mem_append_right _ (List.mem_singleton_self _), hback⟩
    · exact .inr ⟨e, List.mem_append_left _ he, hback⟩

theorem Step.hands_out (hstep : Step s (.created t idx) s') (hs : Inv s) :
    idx < kFlockMax ∧ idx ∉ s.held ∧ idx ∈ s'.held := by
  cases hstep with
  | created ht =>
    obtain ⟨huse, hheld⟩ := hs.owned.claimed t idx (by rw [ht]; rfl)
    exact ⟨huse.lt, hheld, Finset.mem_insert_self _ _⟩

-- The callers have the index, or a create is on its way out with it, or a destroy has come to free
-- it.
def Taken (s : System τ) (idx : Nat) : Prop := idx ∈ s.held ∨ ∃ t, (s.place t).claim = some idx

theorem flocks_handed_out_once (hrun : Run .start es s) :
    (∀ t idx, .created t idx ∈ es → idx < kFlockMax) ∧
    (∀ es₁ es₂ es₃ t u idx, es = es₁ ++ .created t idx :: (es₂ ++ .created u idx :: es₃) →
      ∃ e ∈ es₂, GivesBack idx e) ∧
    ∀ es₁ es₂ t, es = es₁ ++ .panicked t :: es₂ →
      ∃ m, ScansSince es₁ t m ∧ ∀ idx < kFlockMax, Taken m idx := by
  refine ⟨fun t idx he => ?_, fun es₁ es₂ es₃ t u idx hes => ?_, fun es₁ es₂ t hes => ?_⟩
  · obtain ⟨es₁, es₂, rfl⟩ := List.append_of_mem he
    obtain ⟨m, hrun, hrest⟩ := hrun.of_append
    obtain ⟨m', hstep, -⟩ := hrest.of_cons
    exact (hstep.2.hands_out (Run.inv hrun)).1
  · subst hes
    obtain ⟨m₁, hrun₁, hrest⟩ := hrun.of_append
    obtain ⟨m₂, hfirst, hrest⟩ := hrest.of_cons
    obtain ⟨m₃, hbetween, hrest⟩ := hrest.of_append
    obtain ⟨m₄, hsecond, -⟩ := hrest.of_cons
    have hrun₃ : Run .start (es₁ ++ .created t idx :: es₂) m₃ := by
      rw [← List.singleton_append, ← List.append_assoc]
      exact (hrun₁.snoc hfirst).append hbetween
    obtain ⟨-, -, hheld⟩ := hfirst.2.hands_out (Run.inv hrun₁)
    obtain ⟨-, hnot, -⟩ := hsecond.2.hands_out (Run.inv hrun₃)
    exact (Run.held hbetween hheld).resolve_left hnot
  · subst hes
    obtain ⟨m₁, hrun₁, hrest⟩ := hrun.of_append
    obtain ⟨m₂, hpanic, -⟩ := hrest.of_cons
    have ht : m₁.place t = .panicking := by
      obtain ⟨-, hpanic⟩ := hpanic
      cases hpanic with
      | panicked ht => exact ht
    obtain ⟨m, hm, hall⟩ := (Run.scanned hrun₁ t).panicking ht
    obtain ⟨es₀, es', -, hrun₀, -⟩ := id hm
    exact ⟨m, hm, fun idx hidx => (Run.inv hrun₀).owned.owner idx (hall idx hidx)⟩

theorem flocks_handed_out_once_again : ∃ es₁ es₂ : List (Event Bool),
    (∃ s, Run .start (es₁ ++ .created true 0 :: (es₂ ++ [.created false 0])) s) ∧
      ∃ e ∈ es₂, GivesBack 0 e := by
  let w : World Bool Unit Unit := .initial ()
  obtain ⟨w₁, hw₁, hp₁, hm₁⟩ : ∃ w₁, ghsFlockCreate layout w true = some (some 0, w₁) ∧
      w₁.pool = (w.ensureInit layout).pool.take 0 ∧ (w₁.host layout.flockPoolMutex).lock = none :=
    exists_flockCreate rfl rfl
  have hdestroy : ghsFlockDestroy layout w₁ 0 = { w₁ with pool := w₁.pool.give 0 } := by
    rw [ghsFlockDestroy, if_neg (by decide), World.ensureInit, if_pos (by rw [hp₁]; rfl)]
  have hnext : ((ghsFlockDestroy layout w₁ 0).ensureInit layout).pool.nextFlock = some 0 := by
    rw [hdestroy, World.ensureInit, if_pos (by rw [hp₁]; rfl), hp₁]
    rfl
  obtain ⟨w₂, hw₂, -⟩ := exists_flockCreate (t := false) (by rw [hdestroy]; exact hm₁) hnext
  obtain ⟨n₁, s₁, hrun₁, hpool₁, hlock₁, hidle₁, hheld₁⟩ :=
    create_alone (s := (.start : System Bool)) rfl (fun _ => rfl) rfl hw₁
  have hheld (_ : (0 : UInt32).toNat < kFlockMax) : (0 : UInt32).toNat ∈ s₁.held := by
    rw [hheld₁]
    exact Finset.mem_insert_self _ _
  obtain ⟨n₂, s₂, hrun₂, hpool₂, hlock₂, hidle₂⟩ :=
    destroy_alone (t := true) (L := layout) hpool₁.symm hidle₁ hheld
  obtain ⟨n₃, s₃, hrun₃, -⟩ := create_alone hpool₂.symm hidle₂ (hlock₂.trans hlock₁) hw₂
  have hrun := (hrun₁.append hrun₂).append hrun₃
  have hsplit : Run .start ((.call true .create :: List.replicate n₁ (.statement true)) ++
      .created true 0 :: ((.call true (.destroy 0) :: (List.replicate n₂ (.statement true) ++
        .returned true :: .call false .create :: List.replicate n₃ (.statement false))) ++
          [.created false 0])) s₃ := by
    simpa [outcome] using hrun
  exact ⟨_, _, ⟨s₃, hsplit⟩, (flocks_handed_out_once hsplit).2.1 _ _ [] true false 0 rfl⟩

theorem Run.steps {m : System τ} (hrun : Run m es s) : Transition.Run Step m es s := by
  induction hrun with
  | nil => exact .nil
  | snoc _ hstep ih => exact ih.snoc hstep.2

theorem first_create (ht : s.place t = .clearing .create 0) (hlock : s.lock = none) :
    ∃ n s', Run s (List.replicate n (.statement t) ++ [.created t 0]) s' ∧ s'.lock = none ∧
      ∀ u, u ≠ t → s'.place u = s.place u := by
  obtain ⟨n, hclear⟩ := clears ht fun _ h => absurd h (Nat.not_lt_zero _)
  obtain ⟨m, hcreate⟩ := ready_create_alone
    (s := (s.setPool ⟨true, .replicate _ false, 0⟩).goto t (.ready .create)) place_goto_self hlock
  have hrun := hclear.append hcreate
  rw [← List.append_assoc, ← List.replicate_add] at hrun
  refine ⟨n + m, _, hrun, answered_lock.trans hlock, fun u hut => ?_⟩
  rw [place_goto_ne hut, answered_place, place_goto_ne hut]
  rfl

-- The set-up needs its condition: of two first calls at once, the later one clears the slot that
-- the other has taken, and both are handed the same flock.
theorem first_calls_clash : ∃ (es : List (Event Bool)) (s : System Bool),
    Transition.Run Step .start es s ∧ .created true 0 ∈ es ∧ .created false 0 ∈ es ∧
      ∀ e ∈ es, ¬GivesBack 0 e := by
  let s₁ : System Bool := System.start.goto true (.checking .create)
  let s₂ := s₁.goto false (.checking .create)
  let s₃ := s₂.goto true (.clearing .create 0)
  let s₄ := s₃.goto false (.clearing .create 0)
  have hfirst : Transition.Run Step .start [.call true .create, .call false .create,
      .statement true, .statement false] s₄ := by
    have h₁ : Step .start (.call true .create) s₁ := .call .create rfl
    have h₂ : Step s₁ (.call false .create) s₂ := .call .create rfl
    have h₃ : Step s₂ (.statement true) s₃ := .uninited rfl rfl
    have h₄ : Step s₃ (.statement false) s₄ := .uninited rfl rfl
    exact .cons h₁ (.cons h₂ (.cons h₃ (.single h₄)))
  obtain ⟨n, s₅, hrun₅, hlock₅, hplace₅⟩ := first_create (s := s₄) (t := true) rfl rfl
  obtain ⟨m, s₆, hrun₆, -⟩ := first_create (s := s₅) (t := false)
    ((hplace₅ false (by decide)).trans rfl) hlock₅
  refine ⟨_, s₆, (hfirst.append (Run.steps hrun₅)).append (Run.steps hrun₆), by simp, by simp, ?_⟩
  intro e he
  simp only [List.mem_append, List.mem_cons, List.mem_replicate, List.not_mem_nil, or_false] at he
  rcases he with ((rfl | rfl | rfl | rfl) | ⟨-, rfl⟩ | rfl) | ⟨-, rfl⟩ | rfl <;> exact id

end Interleaved

end CoreinitNx.Ghs
