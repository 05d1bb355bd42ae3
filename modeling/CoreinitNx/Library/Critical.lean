import CoreinitNx.Library.Monitor
import CoreinitNx.Library.Simulation

namespace Monitor

variable {τ σ Op κ ρ L : Type}

-- What a thread that holds the lock does next.
inductive Act (σ κ ρ L : Type) where
  | access (state : σ) (next : L)
  | wake (w : Wake κ) (next : L)
  | wait (cv : κ)
  | unlock (result : ρ)

-- The statements between taking the lock and giving it up; `none` is one that is undefined. A
-- call that has an `early` answer gives it without the lock. The environment asks for no lock,
-- and `carry` does to another state what it has done to the one it has left behind.
structure Code (σ Op κ ρ L : Type) where
  early : Op → Option ρ
  enter : Op → L
  act : L → σ → Option (Act σ κ ρ L)
  starts : σ → Op → Prop
  timed : Op → Prop
  env : σ → σ → Prop
  carry : σ → σ → σ

-- The last three fields are no data of a program: what the thread found, the statuses but for the
-- threads it has woken, and what it has woken them by.
structure Holder (τ σ Op κ L : Type) where
  thread : τ
  op : Op
  line : L
  entered : σ
  before : τ → Status Op κ
  woke : Option (Wake κ)

structure Fine (τ σ Op κ L : Type) where
  shared : σ
  status : τ → Status Op κ
  inside : Option (Holder τ σ Op κ L)

inductive FineEvent (τ Op κ ρ : Type) where
  | call (t : τ) (op : Op)
  | early (t : τ) (op : Op) (result : ρ)
  | acquire (t : τ) (op : Op)
  | statement (t : τ)
  | wake (t : τ) (w : Wake κ)
  | slept (t : τ) (op : Op) (cv : κ)
  | returned (t : τ) (op : Op) (result : ρ)
  | timedOut (t : τ)
  | environment
deriving DecidableEq, Repr

variable [DecidableEq τ] [DecidableEq κ]

def Fine.set (c : Fine τ σ Op κ L) (t : τ) (s : Status Op κ) : Fine τ σ Op κ L where
  shared := c.shared
  status := Function.update c.status t s
  inside := c.inside.map fun h => { h with before := Function.update h.before t s }

inductive FineStep (M : Code σ Op κ ρ L) :
    Fine τ σ Op κ L → FineEvent τ Op κ ρ → Fine τ σ Op κ L → Prop
  | call {c : Fine τ σ Op κ L} {t : τ} {op : Op} : c.status t = .idle → M.starts c.shared op →
      FineStep M c (.call t op) (c.set t (.entering op))
  | early {c : Fine τ σ Op κ L} {t : τ} {op : Op} {r : ρ} : c.status t = .entering op →
      M.early op = some r → FineStep M c (.early t op r) (c.set t .idle)
  | acquire {c : Fine τ σ Op κ L} {t : τ} {op : Op} : c.inside = none → (c.status t).Ready op →
      M.early op = none →
      FineStep M c (.acquire t op)
        { c with inside := some ⟨t, op, M.enter op, c.shared, c.status, none⟩ }
  | statement {c : Fine τ σ Op κ L} {h : Holder τ σ Op κ L} {s : σ} {l : L} :
      c.inside = some h → M.act h.line c.shared = some (.access s l) →
      FineStep M c (.statement h.thread)
        { c with shared := s, inside := some { h with line := l } }
  | wake {c : Fine τ σ Op κ L} {h : Holder τ σ Op κ L} {w : Wake κ} {l : L}
      {st : τ → Status Op κ} : c.inside = some h → M.act h.line c.shared = some (.wake w l) →
      Wakes (some w) c.status st →
      FineStep M c (.wake h.thread w)
        ⟨c.shared, st, some { h with line := l, woke := some w }⟩
  | slept {c : Fine τ σ Op κ L} {h : Holder τ σ Op κ L} {cv : κ} :
      c.inside = some h → M.act h.line c.shared = some (.wait cv) →
      FineStep M c (.slept h.thread h.op cv)
        ⟨c.shared, Function.update c.status h.thread (.asleep h.op cv), none⟩
  | returned {c : Fine τ σ Op κ L} {h : Holder τ σ Op κ L} {r : ρ} :
      c.inside = some h → M.act h.line c.shared = some (.unlock r) →
      FineStep M c (.returned h.thread h.op r)
        ⟨c.shared, Function.update c.status h.thread .idle, none⟩
  | timedOut {c : Fine τ σ Op κ L} {t : τ} {op : Op} {cv : κ} : c.status t = .asleep op cv →
      M.timed op → FineStep M c (.timedOut t) (c.set t (.woken op cv))
  | environment {c : Fine τ σ Op κ L} {s : σ} : M.env c.shared s →
      FineStep M c .environment
        { c with
          shared := s
          inside := c.inside.map fun h => { h with entered := M.carry s h.entered } }

-- How far a thread can have come since it took the lock.
inductive Reaches (M : Code σ Op κ ρ L) (op : Op) : σ → L → σ → Option (Wake κ) → Prop
  | enter (s : σ) : Reaches M op s (M.enter op) s none
  | statement {l l' : L} {s₀ s s' : σ} {w : Option (Wake κ)} : Reaches M op s₀ l s w →
      M.act l s = some (.access s' l') → Reaches M op s₀ l' s' w
  | wake {l l' : L} {s₀ s : σ} {w : Wake κ} : Reaches M op s₀ l s none →
      M.act l s = some (.wake w l') → Reaches M op s₀ l' s (some w)
  | environment {l : L} {s₀ s s' : σ} {w : Option (Wake κ)} : Reaches M op s₀ l s w →
      M.env s s' → Reaches M op (M.carry s' s₀) l s' w

-- Taken together, the statements of each call are its body.
structure Implements (M : Code σ Op κ ρ L) (P : Program σ Op κ ρ) : Prop where
  starts : ∀ s op, M.starts s op → P.starts s op
  starts_inside : ∀ {op s₀ l s w op'}, Reaches M op s₀ l s w → M.starts s op' → P.starts s₀ op'
  timed : ∀ op, M.timed op → P.timed op
  env : ∀ s s', M.env s s' → P.env s s'
  env_inside : ∀ {op s₀ l s w s'}, Reaches M op s₀ l s w → M.env s s' →
    P.env s₀ (M.carry s' s₀)
  early : ∀ op r, M.early op = some r → ∀ s, P.body op s = .done r s none
  unlock : ∀ {op s₀ l s w r}, M.early op = none → Reaches M op s₀ l s w →
    M.act l s = some (.unlock r) → P.body op s₀ = .done r s w
  wait : ∀ {op s₀ l s w cv}, M.early op = none → Reaches M op s₀ l s w →
    M.act l s = some (.wait cv) → s = s₀ ∧ w = none ∧ P.body op s₀ = .sleep cv
  wake : ∀ {op s₀ l s w w' l'}, M.early op = none → Reaches M op s₀ l s w →
    M.act l s = some (.wake w' l') → w = none
  fault : ∀ {op s₀ l s w}, M.early op = none → Reaches M op s₀ l s w →
    M.act l s = none → P.body op s₀ = .fault

section Wakes

variable {w : Option (Wake κ)} {st st' : τ → Status Op κ} {t : τ} {s : Status Op κ}

theorem Wakes.same_or (h : Wakes w st st') (t : τ) :
    st' t = st t ∨ ∃ op cv, st t = .asleep op cv ∧ st' t = .woken op cv := by
  cases h with
  | none | nobody _ => exact .inl rfl
  | @one _ u op cv hu =>
    by_cases htu : t = u
    · subst htu
      exact .inr ⟨op, cv, hu, Function.update_self _ _ _⟩
    · exact .inl (Function.update_of_ne htu _ _)
  | all _ cv =>
    cases hst : st t with
    | idle | entering _ | woken _ _ =>
      left
      simp only [hst, Status.wakeAll]
    | asleep op c =>
      simp only [hst, Status.wakeAll]
      split
      next => exact .inr ⟨op, c, rfl, rfl⟩
      next => exact .inl rfl

-- A thread that the wake leaves alone may be given another status before it or after it.
theorem Wakes.set (h : Wakes w st st') (ht : st' t = st t) (hs : ∀ cv, ¬s.AsleepOn cv) :
    Wakes w (Function.update st t s) (Function.update st' t s) := by
  cases h with
  | none => exact .none _
  | @one _ u op cv hu =>
    have hut : u ≠ t := by
      rintro rfl
      rw [Function.update_self, hu] at ht
      cases ht
    rw [Function.update_comm hut]
    refine .one ?_
    rwa [Function.update_of_ne hut]
  | @nobody _ cv hnone =>
    refine .nobody fun u => ?_
    by_cases hut : u = t
    · rw [hut, Function.update_self]
      exact hs cv
    · rw [Function.update_of_ne hut]
      exact hnone u
  | all _ cv =>
    have hwake : s.wakeAll cv = s := by
      cases s with
      | idle | entering _ | woken _ _ => rfl
      | asleep op c => exact absurd rfl (hs c)
    have hall : Function.update (fun u => (st u).wakeAll cv) t s =
        fun u => (Function.update st t s u).wakeAll cv := by
      funext u
      by_cases hut : u = t
      · rw [hut, Function.update_self, Function.update_self, hwake]
      · rw [Function.update_of_ne hut, Function.update_of_ne hut]
    rw [hall]
    exact .all _ cv

end Wakes

inductive Seen (τ Op ρ : Type) where
  | call (t : τ) (op : Op)
  | returned (t : τ) (op : Op) (result : ρ)
deriving DecidableEq, Repr

def Event.seen : Event τ Op κ ρ → Option (Seen τ Op ρ)
  | .call t op => some (.call t op)
  | .returned t op r => some (.returned t op r)
  | .slept _ _ _ | .timedOut _ | .environment => none

def FineEvent.seen : FineEvent τ Op κ ρ → Option (Seen τ Op ρ)
  | .call t op => some (.call t op)
  | .early t op r | .returned t op r => some (.returned t op r)
  | .acquire _ _ | .statement _ | .wake _ _ | .slept _ _ _ | .timedOut _ | .environment => none

-- Until the holder gives up the lock, it has done nothing yet.
def Fine.view (c : Fine τ σ Op κ L) : Config τ σ Op κ :=
  match c.inside with
  | none => ⟨c.shared, c.status⟩
  | some h => ⟨h.entered, h.before⟩

structure Holder.Inv (M : Code σ Op κ ρ L) (c : Fine τ σ Op κ L) (h : Holder τ σ Op κ L) :
    Prop where
  late : M.early h.op = none
  ready : (h.before h.thread).Ready h.op
  wakes : Wakes h.woke h.before c.status
  reaches : Reaches M h.op h.entered h.line c.shared h.woke

def Fine.Inv (M : Code σ Op κ ρ L) (c : Fine τ σ Op κ L) : Prop :=
  ∀ h, c.inside = some h → h.Inv M c

section Refinement

variable {M : Code σ Op κ ρ L} {P : Program σ Op κ ρ} {c d : Fine τ σ Op κ L}
  {e : FineEvent τ Op κ ρ} {t : τ} {h : Holder τ σ Op κ L} {s : Status Op κ} {op : Op} {cv : κ}

theorem Holder.Inv.status (hi : h.Inv M c) : c.status h.thread = h.before h.thread := by
  rcases hi.wakes.same_or h.thread with hsame | ⟨op, cv, hasleep, -⟩
  · exact hsame
  · exact absurd (Status.asleepOn_iff.2 ⟨op, hasleep⟩) hi.ready.not_asleepOn

theorem Holder.Inv.before_eq (hi : h.Inv M c) (hs : c.status t = s)
    (hwoken : ∀ op cv, s ≠ .woken op cv) : h.before t = s := by
  rcases hi.wakes.same_or t with hsame | ⟨op, cv, -, hwoke⟩
  · rw [← hsame, hs]
  · exact absurd (hs.symm.trans hwoke) (hwoken op cv)

theorem Fine.Inv.view_status (hi : c.Inv M) (hs : c.status t = s)
    (hwoken : ∀ op cv, s ≠ .woken op cv) : c.view.status t = s := by
  rw [Fine.view]
  split
  next => exact hs
  next h hin => exact (hi h hin).before_eq hs hwoken

omit [DecidableEq κ] in
theorem Fine.view_set (c : Fine τ σ Op κ L) (t : τ) (s : Status Op κ) :
    (c.set t s).view = ⟨c.view.shared, Function.update c.view.status t s⟩ := by
  rw [Fine.view, Fine.view, Fine.set]
  cases c.inside <;> rfl

-- A thread that does not hold the lock is given another status.
theorem Fine.Inv.set {s' : Status Op κ} (hi : c.Inv M) (hs : c.status t = s)
    (hwoken : ∀ op cv, s ≠ .woken op cv) (hasleep : ∀ cv, ¬s'.AsleepOn cv)
    (hnot : ∀ h, c.inside = some h → h.thread = t → M.early h.op = none →
      (h.before t).Ready h.op → s'.Ready h.op) : (c.set t s').Inv M := by
  intro h' hset
  obtain ⟨h, hin, rfl⟩ := Option.map_eq_some_iff.1 hset
  have hold := hi h hin
  refine ⟨hold.late, ?_, ?_, hold.reaches⟩
  · change (Function.update h.before t s' h.thread).Ready h.op
    by_cases ht : h.thread = t
    · have hready := hold.ready
      rw [ht] at hready ⊢
      rw [Function.update_self]
      exact hnot h hin ht hold.late hready
    · rw [Function.update_of_ne ht]
      exact hold.ready
  · exact hold.wakes.set (hs.trans (hold.before_eq hs hwoken).symm) hasleep

theorem FineStep.inv (himp : Implements M P) (hs : FineStep M c e d) (hi : c.Inv M) : d.Inv M := by
  cases hs with
  | @call t op hidle _ =>
    refine hi.set hidle nofun (fun _ => id) fun h hin ht _ hready => ?_
    rw [(hi h hin).before_eq hidle nofun] at hready
    rcases hready with h | ⟨_, h⟩ <;> cases h
  | @early t op r hentering hr =>
    refine hi.set hentering nofun (fun _ => id) fun h hin ht hlate hready => ?_
    rw [(hi h hin).before_eq hentering nofun] at hready
    rcases hready with heq | ⟨_, heq⟩
    · cases heq
      rw [hr] at hlate
      cases hlate
    · cases heq
  | acquire _ hready hlate =>
    rintro h ⟨⟩
    exact ⟨hlate, hready, .none _, .enter _⟩
  | statement hin hact =>
    rintro h ⟨⟩
    have hold := hi _ hin
    exact ⟨hold.late, hold.ready, hold.wakes, hold.reaches.statement hact⟩
  | @wake h w l st hin hact hwakes =>
    rintro h' ⟨⟩
    have hold := hi _ hin
    have hnone := himp.wake hold.late hold.reaches hact
    have hreach := hold.reaches
    have hsame := hold.wakes
    rw [hnone] at hreach hsame
    refine ⟨hold.late, hold.ready, ?_, hreach.wake hact⟩
    generalize hst : c.status = status at hsame hwakes
    cases hsame
    exact hwakes
  | slept | returned => exact nofun
  | timedOut hasleep htimed =>
    refine hi.set hasleep nofun (fun _ => id) fun h hin ht _ hready => ?_
    rw [(hi h hin).before_eq hasleep nofun] at hready
    rcases hready with h | ⟨_, h⟩ <;> cases h
  | environment henv =>
    intro h' hset
    obtain ⟨h, hin, rfl⟩ := Option.map_eq_some_iff.1 hset
    have hold := hi h hin
    exact ⟨hold.late, hold.ready, hold.wakes, hold.reaches.environment henv⟩

omit [DecidableEq τ] [DecidableEq κ] in
theorem Fine.view_inside (hin : c.inside = some h) : c.view = ⟨h.entered, h.before⟩ := by
  rw [Fine.view, hin]

omit [DecidableEq τ] [DecidableEq κ] in
theorem Fine.view_free (hin : c.inside = none) : c.view = ⟨c.shared, c.status⟩ := by
  rw [Fine.view, hin]

theorem Fine.Inv.view_starts (hi : c.Inv M) (himp : Implements M P) (h : M.starts c.shared op) :
    P.starts c.view.shared op := by
  cases hin : c.inside with
  | none =>
    rw [c.view_free hin]
    exact himp.starts _ _ h
  | some holder =>
    rw [c.view_inside hin]
    exact himp.starts_inside (hi holder hin).reaches h

theorem Fine.Inv.view_env (hi : c.Inv M) (himp : Implements M P) {x : σ} (h : M.env c.shared x) :
    ∃ y, P.env c.view.shared y ∧
      Fine.view { c with
        shared := x
        inside := c.inside.map fun h => { h with entered := M.carry x h.entered } } =
      ⟨y, c.view.status⟩ := by
  cases hin : c.inside with
  | none =>
    rw [c.view_free hin]
    exact ⟨x, himp.env _ _ h, rfl⟩
  | some holder =>
    rw [c.view_inside hin]
    exact ⟨_, himp.env_inside (hi holder hin).reaches h, rfl⟩

-- A call takes effect when it gives up the lock; up to then others see nothing of it.
theorem Implements.refines (himp : Implements M P) :
    Transition.Refines (FineStep (τ := τ) M) (Step P) Fine.view FineEvent.seen Event.seen
      (Fine.Inv M) where
  keeps hi hs := hs.inv himp hi
  moves {c e d} hi hs := by
    cases hs with
    | @call t op hidle hstart =>
      rw [c.view_set]
      exact ⟨_, .single (.call (hi.view_status hidle nofun) (hi.view_starts himp hstart)), rfl⟩
    | @early t op r hentering hr =>
      rw [c.view_set]
      have hready : (c.view.status t).Ready op := .inl (hi.view_status hentering nofun)
      exact ⟨_, .single (.returned hready (himp.early op r hr _) (.none _)), rfl⟩
    | acquire hin _ _ =>
      rw [c.view_free hin]
      exact ⟨[], .nil, rfl⟩
    | statement hin _ =>
      rw [c.view_inside hin]
      exact ⟨[], .nil, rfl⟩
    | wake hin _ _ =>
      rw [c.view_inside hin]
      exact ⟨[], .nil, rfl⟩
    | @slept h cv hin hact =>
      have hold := hi h hin
      obtain ⟨hshared, hnone, hbody⟩ := himp.wait hold.late hold.reaches hact
      have hwakes := hold.wakes
      rw [hnone] at hwakes
      have hsame : h.before = c.status := by
        generalize c.status = status at hwakes
        cases hwakes
        rfl
      rw [c.view_inside hin, hshared, hsame]
      have hready := hold.ready
      rw [hsame] at hready
      exact ⟨_, .single (.slept hready hbody), rfl⟩
    | @returned h r hin hact =>
      have hold := hi h hin
      rw [c.view_inside hin]
      exact ⟨_, .single (.returned hold.ready (himp.unlock hold.late hold.reaches hact)
        (hold.wakes.set hold.status fun _ => id)), rfl⟩
    | timedOut hasleep htimed =>
      rw [c.view_set]
      exact ⟨_, .single (.timedOut (hi.view_status hasleep nofun) (himp.timed _ htimed)), rfl⟩
    | @environment s henv =>
      obtain ⟨x, hx, hview⟩ := hi.view_env himp henv
      rw [hview]
      exact ⟨_, .single (.environment hx), rfl⟩

end Refinement

-- An object whose calls are one step each, taken when the object allows it.
structure Object (τ σ Op : Type) where
  shared : σ
  pending : τ → Option Op

inductive ObjectStep (P : Program σ Op κ ρ) : Object τ σ Op → Seen τ Op ρ → Object τ σ Op → Prop
  | call {c : Object τ σ Op} {t : τ} {op : Op} : c.pending t = none →
      ObjectStep P c (.call t op) { c with pending := Function.update c.pending t (some op) }
  | returned {c : Object τ σ Op} {t : τ} {op : Op} {r : ρ} {s : σ} {w : Option (Wake κ)} :
      c.pending t = some op → P.body op c.shared = .done r s w →
      ObjectStep P c (.returned t op r) ⟨s, Function.update c.pending t none⟩

def Status.pending : Status Op κ → Option Op
  | .idle => none
  | .entering op | .asleep op _ | .woken op _ => some op

def Config.object (c : Config τ σ Op κ) : Object τ σ Op := ⟨c.shared, fun t => (c.status t).pending⟩

section Objects

variable {P : Program σ Op κ ρ} {st st' : τ → Status Op κ} {t : τ} {op : Op}

omit [DecidableEq κ] in
theorem object_set (x : σ) (s : Status Op κ) :
    Config.object ⟨x, Function.update st t s⟩ =
      ⟨x, Function.update (fun u => (st u).pending) t s.pending⟩ := by
  rw [Config.object]
  congr 1
  funext u
  change (Function.update st t s u).pending = _
  by_cases hut : u = t
  · rw [hut, Function.update_self, Function.update_self]
  · rw [Function.update_of_ne hut, Function.update_of_ne hut]

omit [DecidableEq κ] in
theorem object_same {s : Status Op κ} (x : σ) (h : s.pending = (st t).pending) :
    Config.object ⟨x, Function.update st t s⟩ = Config.object ⟨x, st⟩ := by
  rw [object_set, h, Function.update_eq_self t fun u => (st u).pending]
  rfl

theorem Wakes.object {w : Option (Wake κ)} (x : σ) (h : Wakes w st st') :
    Config.object ⟨x, st'⟩ = Config.object ⟨x, st⟩ := by
  rw [Config.object, Config.object]
  congr 1
  funext u
  rcases h.same_or u with hsame | ⟨op, cv, hasleep, hwoken⟩
  · exact congrArg Status.pending hsame
  · change (st' u).pending = (st u).pending
    rw [hasleep, hwoken]
    rfl

omit [DecidableEq τ] [DecidableEq κ] in
theorem Status.Ready.pending {s : Status Op κ} (h : s.Ready op) : s.pending = some op := by
  rcases h with rfl | ⟨_, rfl⟩ <;> rfl

-- Sleeping and waking up change nothing for those who only see calls and answers.
theorem Program.refines (henv : ∀ s s', ¬P.env s s') :
    Transition.Refines (Step (τ := τ) P) (ObjectStep P) Config.object Event.seen some
      fun _ => True where
  keeps _ _ := trivial
  moves {c e d} _ hs := by
    cases hs with
    | @call t op hidle _ =>
      have hnone : (c.status t).pending = none := by rw [hidle]; rfl
      rw [object_set]
      exact ⟨_, .single (.call hnone), rfl⟩
    | @returned t op r s w st hready hbody hwakes =>
      rw [hwakes.object, object_set]
      exact ⟨_, .single (.returned hready.pending hbody), rfl⟩
    | @slept t op cv hready _ =>
      have hsame : (Status.asleep op cv).pending = (c.status t).pending := hready.pending.symm
      rw [object_same c.shared hsame]
      exact ⟨[], .nil, rfl⟩
    | @timedOut t op cv hasleep _ =>
      have hsame : (Status.woken op cv).pending = (c.status t).pending := by rw [hasleep]; rfl
      rw [object_same c.shared hsame]
      exact ⟨[], .nil, rfl⟩
    | environment he => exact absurd he (henv _ _)

end Objects

section Runs

variable {M : Code σ Op κ ρ L} {P : Program σ Op κ ρ} {start c : Fine τ σ Op κ L}
  {es : List (FineEvent τ Op κ ρ)} {h : Holder τ σ Op κ L}

theorem Fine.inv_free (hfree : c.inside = none) : c.Inv M := by
  intro h hin
  rw [hfree] at hin
  cases hin

theorem Implements.run (himp : Implements M P) (run : Transition.Run (FineStep M) start es c)
    (hfree : start.inside = none) :
    c.Inv M ∧ ∃ es', Run P start.view es' c.view ∧
      es'.filterMap Event.seen = es.filterMap FineEvent.seen :=
  himp.refines.run (Fine.inv_free hfree) run

theorem Program.run_object (henv : ∀ s s', ¬P.env s s') {start c : Config τ σ Op κ}
    {es : List (Event τ Op κ ρ)} (run : Run P start es c) :
    Transition.Run (ObjectStep P) start.object (es.filterMap Event.seen) c.object := by
  obtain ⟨-, es', hrun, hseen⟩ := (Program.refines henv).run trivial run
  rw [List.filterMap_some] at hseen
  rwa [← hseen]

theorem Fine.Inv.defined (hi : c.Inv M) (himp : Implements M P) (hin : c.inside = some h)
    (hbody : P.body h.op h.entered ≠ .fault) : (M.act h.line c.shared).isSome := by
  have hold := hi h hin
  cases hact : M.act h.line c.shared with
  | some act => rfl
  | none => exact absurd (himp.fault hold.late hold.reaches hact) hbody

-- Whoever has been woken up by the holder is in a call before and after.
theorem Fine.Inv.object (hi : c.Inv M) :
    c.view.object = ⟨c.view.shared, fun t => (c.status t).pending⟩ := by
  cases hin : c.inside with
  | none =>
    rw [c.view_free hin]
    rfl
  | some h =>
    rw [c.view_inside hin]
    exact ((hi h hin).wakes.object h.entered).symm

end Runs

end Monitor
