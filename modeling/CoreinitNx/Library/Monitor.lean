import Mathlib.Algebra.BigOperators.Group.Finset.Basic
import Mathlib.Algebra.Order.BigOperators.Group.Finset
import Mathlib.Data.Fintype.Basic
import Mathlib.Data.Fintype.BigOperators
import CoreinitNx.Library.Transition

namespace Monitor

inductive Wake (κ : Type) where
  | one (cv : κ)
  | all (cv : κ)
deriving DecidableEq, Repr

-- What a thread does from taking the lock until it gives the lock up.
inductive Outcome (σ κ ρ : Type) where
  | done (result : ρ) (state : σ) (wake : Option (Wake κ))
  | sleep (cv : κ)
  | fault
deriving DecidableEq, Repr

structure Program (σ Op κ ρ : Type) where
  body : Op → σ → Outcome σ κ ρ
  starts : σ → Op → Prop
  timed : Op → Prop
  env : σ → σ → Prop

def Program.CanSleep {σ Op κ ρ : Type} (P : Program σ Op κ ρ) (op : Op) (cv : κ) : Prop :=
  ∃ s, P.body op s = .sleep cv

inductive Status (Op κ : Type) where
  | idle
  | entering (op : Op)
  | asleep (op : Op) (cv : κ)
  | woken (op : Op) (cv : κ)
deriving DecidableEq, Repr

namespace Status

variable {Op κ : Type}

-- The thread may take the lock next and run its body for `op`.
def Ready (st : Status Op κ) (op : Op) : Prop := st = .entering op ∨ ∃ cv, st = .woken op cv

def AsleepOn : Status Op κ → κ → Prop
  | .asleep _ c, cv => c = cv
  | _, _ => False

instance [DecidableEq κ] (cv : κ) : (st : Status Op κ) → Decidable (st.AsleepOn cv)
  | .asleep _ c => inferInstanceAs (Decidable (c = cv))
  | .idle | .entering _ | .woken _ _ => inferInstanceAs (Decidable False)

def WokenOn : Status Op κ → κ → Prop
  | .woken _ c, cv => c = cv
  | _, _ => False

def Waiting (st : Status Op κ) (op : Op) (cv : κ) : Prop :=
  st = .asleep op cv ∨ st = .woken op cv

theorem Ready.eq_of_waiting {st : Status Op κ} {op op' : Op} {cv : κ} (h : st.Ready op')
    (hw : st.Waiting op cv) : op' = op ∧ st = .woken op cv := by
  rcases hw with rfl | rfl <;> rcases h with h | ⟨c, h⟩ <;> cases h
  exact ⟨rfl, rfl⟩

def wakeAll [DecidableEq κ] (cv : κ) : Status Op κ → Status Op κ
  | .asleep op c => if c = cv then .woken op c else .asleep op c
  | st => st

theorem wokenOn_iff {st : Status Op κ} {cv : κ} : st.WokenOn cv ↔ ∃ op, st = .woken op cv := by
  constructor
  · intro h
    cases st with
    | woken op c => exact ⟨op, by rw [show c = cv from h]⟩
    | idle | entering _ | asleep _ _ => exact h.elim
  · rintro ⟨op, rfl⟩
    rfl

theorem asleepOn_iff {st : Status Op κ} {cv : κ} : st.AsleepOn cv ↔ ∃ op, st = .asleep op cv := by
  constructor
  · intro h
    cases st with
    | asleep op c => exact ⟨op, by rw [show c = cv from h]⟩
    | idle | entering _ | woken _ _ => exact h.elim
  · rintro ⟨op, rfl⟩
    rfl

theorem Ready.not_asleepOn {st : Status Op κ} {op : Op} {cv : κ} (h : st.Ready op) :
    ¬st.AsleepOn cv := by
  rcases h with rfl | ⟨c, rfl⟩ <;> exact id

end Status

structure Config (τ σ Op κ : Type) where
  shared : σ
  status : τ → Status Op κ

inductive Event (τ Op κ ρ : Type) where
  | call (t : τ) (op : Op)
  | returned (t : τ) (op : Op) (result : ρ)
  | slept (t : τ) (op : Op) (cv : κ)
  | timedOut (t : τ)
  | environment

-- The thread takes the lock and runs its body, to the end or to the next sleep.
def Event.RunBy {τ Op κ ρ : Type} (u : τ) : Event τ Op κ ρ → Prop
  | .returned t _ _ => t = u
  | .slept t _ _ => t = u
  | _ => False

variable {τ σ Op κ ρ : Type} [DecidableEq τ] [DecidableEq κ]

inductive Wakes : Option (Wake κ) → (τ → Status Op κ) → (τ → Status Op κ) → Prop
  | none (st : τ → Status Op κ) : Wakes .none st st
  | one {st : τ → Status Op κ} {u : τ} {op : Op} {cv : κ} : st u = .asleep op cv →
      Wakes (some (.one cv)) st (Function.update st u (.woken op cv))
  | nobody {st : τ → Status Op κ} {cv : κ} : (∀ u, ¬(st u).AsleepOn cv) →
      Wakes (some (.one cv)) st st
  | all (st : τ → Status Op κ) (cv : κ) : Wakes (some (.all cv)) st fun u => (st u).wakeAll cv

-- The lock makes a body one step; between two bodies any thread that is ready may run.
inductive Step (P : Program σ Op κ ρ) :
    Config τ σ Op κ → Event τ Op κ ρ → Config τ σ Op κ → Prop
  | call {c : Config τ σ Op κ} {t : τ} {op : Op} : c.status t = .idle → P.starts c.shared op →
      Step P c (.call t op) { c with status := Function.update c.status t (.entering op) }
  | returned {c : Config τ σ Op κ} {t : τ} {op : Op} {r : ρ} {s : σ} {w : Option (Wake κ)}
      {st : τ → Status Op κ} : (c.status t).Ready op → P.body op c.shared = .done r s w →
      Wakes w (Function.update c.status t .idle) st → Step P c (.returned t op r) ⟨s, st⟩
  | slept {c : Config τ σ Op κ} {t : τ} {op : Op} {cv : κ} : (c.status t).Ready op →
      P.body op c.shared = .sleep cv →
      Step P c (.slept t op cv) { c with status := Function.update c.status t (.asleep op cv) }
  | timedOut {c : Config τ σ Op κ} {t : τ} {op : Op} {cv : κ} : c.status t = .asleep op cv →
      P.timed op →
      Step P c (.timedOut t) { c with status := Function.update c.status t (.woken op cv) }
  | environment {c : Config τ σ Op κ} {s : σ} : P.env c.shared s →
      Step P c .environment { c with shared := s }

abbrev Run (P : Program σ Op κ ρ) (start : Config τ σ Op κ) :
    List (Event τ Op κ ρ) → Config τ σ Op κ → Prop :=
  Transition.Run (Step P) start

variable {P : Program σ Op κ ρ} {start c d : Config τ σ Op κ} {es : List (Event τ Op κ ρ)}
  {e : Event τ Op κ ρ}

theorem Wakes.keeps {K : Status Op κ → Prop} (hK : ∀ op cv, K (.asleep op cv) → K (.woken op cv))
    {w : Option (Wake κ)} {st st' : τ → Status Op κ} (h : Wakes w st st') {u : τ} (hu : K (st u)) :
    K (st' u) := by
  cases h with
  | none | nobody _ => exact hu
  | @one _ t op c ht =>
    by_cases hut : u = t
    · rw [hut, ht] at hu
      rw [hut, Function.update_self]
      exact hK op c hu
    · rw [Function.update_of_ne hut]
      exact hu
  | all _ c =>
    revert hu
    simp only
    cases st u with
    | idle | entering _ | woken _ _ => exact id
    | asleep op c' =>
      simp only [Status.wakeAll]
      split
      next => exact hK op c'
      next => exact id

omit [DecidableEq κ] in
theorem forall_update {K : Status Op κ → Prop} {st : τ → Status Op κ} {t : τ} {s : Status Op κ}
    (hst : ∀ u, K (st u)) (hs : K s) (u : τ) : K (Function.update st t s u) :=
  (Function.forall_update_iff st fun _ => K).2 ⟨hs, fun u _ => hst u⟩ u

theorem Wakes.all_waiting {st st' : τ → Status Op κ} {cv : κ} {u : τ} {op : Op}
    (h : Wakes (some (.all cv)) st st') (hu : (st u).Waiting op cv) : st' u = .woken op cv := by
  cases h with
  | all =>
    rcases hu with hu | hu
    · simp only [hu, Status.wakeAll, if_true]
    · simp only [hu, Status.wakeAll]

section Waiting

variable {u : τ} {op : Op} {cv : κ}

omit [DecidableEq κ] in
theorem Status.Waiting.wake (op' : Op) (cv' : κ)
    (h : (Status.asleep op' cv').Waiting op cv) : (Status.woken op' cv').Waiting op cv := by
  rcases h with h | h <;> cases h
  exact .inr rfl

-- A call that has slept stays the call of its thread until that thread runs.
theorem Step.waiting (hs : Step P c e d) (hrun : ¬e.RunBy u)
    (hu : (c.status u).Waiting op cv) : (d.status u).Waiting op cv := by
  have hother {t : τ} {s : Status Op κ} (hut : u ≠ t) :
      (Function.update c.status t s u).Waiting op cv := by
    rw [Function.update_of_ne hut]
    exact hu
  cases hs with
  | @call t op' hidle _ =>
    refine hother ?_
    rintro rfl
    rw [hidle] at hu
    rcases hu with h | h <;> cases h
  | returned _ _ hwakes =>
    exact hwakes.keeps (K := fun s => s.Waiting op cv) (fun _ _ => Status.Waiting.wake _ _)
      (hother fun h => hrun h.symm)
  | slept _ _ => exact hother fun h => hrun h.symm
  | @timedOut t op' cv' hasleep _ =>
    by_cases hut : u = t
    · subst hut
      rw [hasleep] at hu
      change (Function.update c.status u _ u).Waiting op cv
      rw [Function.update_self]
      exact hu.wake _ _
    · exact hother hut
  | environment _ => exact hu

theorem Step.woken (hs : Step P c e d) (hrun : ¬e.RunBy u) (hu : c.status u = .woken op cv) :
    d.status u = .woken op cv := by
  have hother {t : τ} {s : Status Op κ} (hut : u ≠ t) :
      Function.update c.status t s u = .woken op cv := by
    rw [Function.update_of_ne hut]
    exact hu
  cases hs with
  | @call t op' hidle _ =>
    refine hother ?_
    rintro rfl
    rw [hidle] at hu
    cases hu
  | returned _ _ hwakes =>
    exact hwakes.keeps (K := (· = .woken op cv)) (fun _ _ h => by cases h)
      (hother fun h => hrun h.symm)
  | slept _ _ => exact hother fun h => hrun h.symm
  | @timedOut t op' cv' hasleep _ =>
    refine hother ?_
    rintro rfl
    rw [hasleep] at hu
    cases hu
  | environment _ => exact hu

theorem Run.waiting (h : Run P start es c) (hrun : ∀ e ∈ es, ¬e.RunBy u)
    (hu : (start.status u).Waiting op cv) : (c.status u).Waiting op cv :=
  h.invariant_of hrun hu fun _ _ _ he hc hs => hs.waiting he hc

end Waiting

-- The thread sleeps un-woken although what it waits for is there.
def Stranded (satisfied : κ → σ → Prop) (c : Config τ σ Op κ) (u : τ) : Prop :=
  ∃ cv, (c.status u).AsleepOn cv ∧ satisfied cv c.shared

theorem Step.silent {t : τ} {op : Op} {r r' : ρ} {s : σ} (hs : Step P c (.returned t op r) d)
    (hb : P.body op c.shared = .done r' s .none) :
    d.shared = s ∧ ∀ u cv, (d.status u).AsleepOn cv ↔ (c.status u).AsleepOn cv := by
  cases hs with
  | returned hready hbody hwakes =>
    rw [hb] at hbody
    cases hbody
    cases hwakes
    refine ⟨rfl, fun u cv => ?_⟩
    change (Function.update c.status t .idle u).AsleepOn cv ↔ _
    by_cases hut : u = t
    · subst hut
      rw [Function.update_self]
      exact ⟨False.elim, fun h => absurd h hready.not_asleepOn⟩
    · rw [Function.update_of_ne hut]

section Calls

variable {ok : Op → Prop}

def OnlyCalls (ok : Op → Prop) (es : List (Event τ Op κ ρ)) : Prop :=
  ∀ t op, .call t op ∈ es → ok op

def Status.Runs (ok : Op → Prop) : Status Op κ → Prop
  | .idle => True
  | .entering op | .asleep op _ | .woken op _ => ok op

omit [DecidableEq κ] in
theorem Status.Ready.runs {st : Status Op κ} {op : Op} (h : st.Ready op) (hr : st.Runs ok) :
    ok op := by
  rcases h with rfl | ⟨cv, rfl⟩ <;> exact hr

theorem Step.runs (hs : Step P c e d) (hcall : ∀ t op, e = .call t op → ok op)
    (hr : ∀ t, (c.status t).Runs ok) (t : τ) : (d.status t).Runs ok := by
  have hset (u : τ) (s : Status Op κ) (hs : s.Runs ok) (v : τ) :
      (Function.update c.status u s v).Runs ok := forall_update (K := Status.Runs ok) hr hs v
  cases hs with
  | @call u op => exact hset u (.entering op) (hcall _ _ rfl) t
  | @returned u op r s w st _ _ hwakes =>
    exact hwakes.keeps (K := Status.Runs ok) (fun _ _ => id) (hset u .idle trivial t)
  | @slept u op cv hready _ => exact hset u (.asleep op cv) (hready.runs (hr u)) t
  | @timedOut u op cv hasleep _ =>
    have hru := hr u
    rw [hasleep] at hru
    exact hset u (.woken op cv) hru t
  | environment _ => exact hr t

omit [DecidableEq τ] [DecidableEq κ] in
theorem OnlyCalls.mem (h : OnlyCalls ok es) (e : Event τ Op κ ρ) (he : e ∈ es) :
    ∀ t op, e = .call t op → ok op := fun t op hc => h t op (hc ▸ he)

theorem Run.runs (h : Run P start es c) (hcall : OnlyCalls ok es)
    (hr : ∀ t, (start.status t).Runs ok) : ∀ t, (c.status t).Runs ok :=
  h.invariant_of (I := fun c => ∀ t, (c.status t).Runs ok) hcall.mem hr
    fun _ _ _ he hc hs => hs.runs he hc

theorem Run.shared_invariant {I : σ → Prop} (h : Run P start es c) (hcall : OnlyCalls ok es)
    (hr : ∀ t, (start.status t).Runs ok) (h0 : I start.shared)
    (hbody : ∀ op s r s' w, ok op → I s → P.body op s = .done r s' w → I s')
    (henv : ∀ s s', I s → P.env s s' → I s') : I c.shared := by
  have hboth : (∀ t, (c.status t).Runs ok) ∧ I c.shared := by
    refine h.invariant_of (I := fun c => (∀ t, (c.status t).Runs ok) ∧ I c.shared) hcall.mem
      ⟨hr, h0⟩ ?_
    rintro c e d he ⟨hc, hi⟩ hs
    refine ⟨hs.runs he hc, ?_⟩
    cases hs with
    | call | slept | timedOut => exact hi
    | returned hready hb _ => exact hbody _ _ _ _ _ (hready.runs (hc _)) hi hb
    | environment henv' => exact henv _ _ hi henv'
  exact hboth.2

end Calls

section Simulation

variable {α : Type} {R : σ → α → Prop} {A : Program α Op κ ρ}

inductive Outcome.Matches (R : σ → α → Prop) : Outcome σ κ ρ → Outcome α κ ρ → Prop
  | done {r : ρ} {s : σ} {a : α} {w : Option (Wake κ)} : R s a →
      Matches R (.done r s w) (.done r a w)
  | sleep {cv : κ} : Matches R (.sleep cv) (.sleep cv)

structure Simulates (R : σ → α → Prop) (P : Program σ Op κ ρ) (A : Program α Op κ ρ) : Prop where
  body : ∀ op s a, R s a → (P.body op s).Matches R (A.body op a)
  starts : ∀ op s a, R s a → P.starts s op → A.starts a op
  timed : ∀ op, P.timed op → A.timed op
  env : ∀ s s' a, R s a → P.env s s' → ∃ a', A.env a a' ∧ R s' a'

theorem Step.simulate (h : Simulates R P A) (hs : Step P c e d) {a : α} (ha : R c.shared a) :
    ∃ b, Step A ⟨a, c.status⟩ e ⟨b, d.status⟩ ∧ R d.shared b := by
  cases hs with
  | call hidle hstart => exact ⟨a, .call hidle (h.starts _ _ _ ha hstart), ha⟩
  | @returned t op r s w st hready hbody hwakes =>
    have hm := h.body op _ _ ha
    rw [hbody] at hm
    generalize hb : A.body op a = out at hm
    cases hm with
    | done hR => exact ⟨_, .returned hready hb hwakes, hR⟩
  | @slept t op cv hready hbody =>
    have hm := h.body op _ _ ha
    rw [hbody] at hm
    generalize hb : A.body op a = out at hm
    cases hm with
    | sleep => exact ⟨a, .slept hready hb, ha⟩
  | timedOut hasleep ht => exact ⟨a, .timedOut hasleep (h.timed _ ht), ha⟩
  | environment he =>
    obtain ⟨b, hb, hR⟩ := h.env _ _ _ ha he
    exact ⟨b, .environment hb, hR⟩

theorem Run.simulate (h : Simulates R P A) (run : Run P start es c) {a : α}
    (ha : R start.shared a) :
    ∃ b, Run A ⟨a, start.status⟩ es ⟨b, c.status⟩ ∧ R c.shared b := by
  induction run with
  | nil => exact ⟨a, .nil, ha⟩
  | snoc _ hs ih =>
    obtain ⟨b, hb, hR⟩ := ih
    obtain ⟨b', hb', hR'⟩ := hs.simulate h hR
    exact ⟨b', hb.snoc hb', hR'⟩

end Simulation

section Counting

open Classical in
noncomputable def tally {τ : Type} [Fintype τ] {β : Type} (p : β → Prop) (f : τ → β) : Nat :=
  ∑ t, if p (f t) then 1 else 0

variable [Fintype τ] {β : Type} {p : β → Prop} {f : τ → β}

omit [DecidableEq τ] in
theorem tally_pos_iff : 0 < tally p f ↔ ∃ t, p (f t) := by
  classical
  rw [tally]
  rw [Finset.sum_pos_iff]
  constructor
  · rintro ⟨t, -, ht⟩
    by_cases hp : p (f t)
    · exact ⟨t, hp⟩
    · rw [if_neg hp] at ht
      exact absurd ht (Nat.lt_irrefl 0)
  · rintro ⟨t, ht⟩
    exact ⟨t, Finset.mem_univ t, by rw [if_pos ht]; exact Nat.one_pos⟩

open Classical in
theorem tally_update (p : β → Prop) (f : τ → β) (t : τ) (b : β) :
    tally p (Function.update f t b) + (if p (f t) then 1 else 0) =
      tally p f + if p b then 1 else 0 := by
  simp only [tally]
  have hsplit (g : τ → β) : (∑ x, if p (g x) then 1 else 0) =
      (if p (g t) then 1 else 0) + ∑ x ∈ Finset.univ.erase t, if p (g x) then 1 else 0 :=
    (Finset.add_sum_erase _ _ (Finset.mem_univ t)).symm
  have hrest : (∑ x ∈ Finset.univ.erase t, if p (Function.update f t b x) then 1 else 0) =
      ∑ x ∈ Finset.univ.erase t, if p (f x) then 1 else 0 := by
    refine Finset.sum_congr rfl fun x hx => ?_
    rw [Function.update_of_ne (Finset.ne_of_mem_erase hx)]
  rw [hsplit f, hsplit (Function.update f t b), hrest, Function.update_self]
  omega

omit [DecidableEq τ] in
theorem tally_congr {γ : Type} {q : γ → Prop} {g : τ → γ} (h : ∀ t, p (f t) ↔ q (g t)) :
    tally p f = tally q g := by
  classical
  rw [tally]
  exact Finset.sum_congr rfl fun t _ => if_congr (h t) rfl rfl

theorem tally_update_same (t : τ) {b : β} (h : p b ↔ p (f t)) :
    tally p (Function.update f t b) = tally p f := by
  have hcount := tally_update p f t b
  by_cases hb : p b
  · rw [if_pos hb, if_pos (h.1 hb)] at hcount
    omega
  · rw [if_neg hb, if_neg fun hp => hb (h.2 hp)] at hcount
    omega

theorem tally_update_add (t : τ) {b : β} (hb : p b) (hf : ¬p (f t)) :
    tally p (Function.update f t b) = tally p f + 1 := by
  have hcount := tally_update p f t b
  rwa [if_pos hb, if_neg hf] at hcount

theorem tally_update_sub (t : τ) {b : β} (hb : ¬p b) (hf : p (f t)) :
    tally p (Function.update f t b) + 1 = tally p f := by
  have hcount := tally_update p f t b
  rwa [if_neg hb, if_pos hf] at hcount

end Counting

end Monitor
