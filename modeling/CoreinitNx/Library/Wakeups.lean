import CoreinitNx.Library.Monitor

namespace Monitor

variable {τ σ Op κ ρ : Type} [DecidableEq τ] [DecidableEq κ]

-- How many waiters of `cv` the wake is sure to release, if any waits there.
def credit (cv : κ) : Option (Wake κ) → Nat
  | some (.one c) => if c = cv then 1 else 0
  | _ => 0

-- `avail cv` counts what a waiter of `cv` waits for; a body that frees one unit wakes one waiter.
structure Balanced (P : Program σ Op κ ρ) (ok : Op → Prop) (I : σ → Prop)
    (avail : κ → σ → Nat) : Prop where
  keeps : ∀ op s r s' w, ok op → I s → P.body op s = .done r s' w → I s'
  one_cv : ∀ op cv cv', P.CanSleep op cv → P.CanSleep op cv' → cv = cv'
  sleeps_empty : ∀ op s cv, I s → P.body op s = .sleep cv → avail cv s = 0
  spends : ∀ op s r s' w cv, ok op → I s → P.body op s = .done r s' w → w ≠ some (.all cv) →
    P.CanSleep op cv → avail cv s' + 1 ≤ avail cv s + credit cv w
  gives : ∀ op s r s' w cv, ok op → I s → P.body op s = .done r s' w → w ≠ some (.all cv) →
    avail cv s' ≤ avail cv s + credit cv w
  env : ∀ s s', I s → P.env s s' → I s' ∧ ∀ cv, avail cv s' ≤ avail cv s

namespace Status

variable {P : Program σ Op κ ρ} {ok : Op → Prop} {st : Status Op κ} {op : Op} {c cv : κ}

def Lawful (P : Program σ Op κ ρ) (ok : Op → Prop) : Status Op κ → Prop
  | .idle => True
  | .entering op => ok op
  | .asleep op cv => ok op ∧ P.CanSleep op cv
  | .woken op cv => ok op ∧ P.CanSleep op cv

omit [DecidableEq κ] in
theorem Ready.allowed (h : st.Ready op) (hl : st.Lawful P ok) : ok op := by
  rcases h with rfl | ⟨cv, rfl⟩
  · exact hl
  · exact hl.1

omit [DecidableEq κ] in
theorem Lawful.canSleep (hl : st.Lawful P ok) (h : st.Waiting op cv) : P.CanSleep op cv := by
  rcases h with rfl | rfl <;> exact hl.2

theorem not_asleepOn_wakeAll (st : Status Op κ) (cv : κ) : ¬(st.wakeAll cv).AsleepOn cv := by
  cases st with
  | idle | entering _ | woken _ _ => exact id
  | asleep op c =>
    simp only [Status.wakeAll]
    split
    next => exact id
    next hne => exact hne

theorem asleepOn_of_wakeAll (h : (st.wakeAll c).AsleepOn cv) : st.AsleepOn cv := by
  cases st with
  | idle | entering _ | woken _ _ => exact h
  | asleep op c' =>
    simp only [Status.wakeAll] at h
    split at h
    next => exact h.elim
    next => exact h

theorem wokenOn_wakeAll (hne : c ≠ cv) : (st.wakeAll c).WokenOn cv ↔ st.WokenOn cv := by
  cases st with
  | idle | entering _ | woken _ _ => exact Iff.rfl
  | asleep op c' =>
    simp only [Status.wakeAll]
    split
    next heq =>
      subst heq
      exact ⟨fun h => absurd h hne, False.elim⟩
    next => exact Iff.rfl

end Status

variable [Fintype τ] {P : Program σ Op κ ρ} {ok : Op → Prop} {I : σ → Prop}
  {avail : κ → σ → Nat} {start c d : Config τ σ Op κ} {es : List (Event τ Op κ ρ)}
  {e : Event τ Op κ ρ} {st st' : τ → Status Op κ} {w : Option (Wake κ)} {cv : κ}

noncomputable def wokenCount (cv : κ) (st : τ → Status Op κ) : Nat :=
  tally (fun s => s.WokenOn cv) st

def SomeoneAsleep (cv : κ) (st : τ → Status Op κ) : Prop := ∃ t, (st t).AsleepOn cv

structure Covered (P : Program σ Op κ ρ) (ok : Op → Prop) (I : σ → Prop) (avail : κ → σ → Nat)
    (c : Config τ σ Op κ) : Prop where
  inv : I c.shared
  lawful : ∀ t, (c.status t).Lawful P ok
  covers : ∀ cv, SomeoneAsleep cv c.status → avail cv c.shared ≤ wokenCount cv c.status

omit [DecidableEq κ] [Fintype τ] in
theorem SomeoneAsleep.of_update {t : τ} {s : Status Op κ}
    (h : SomeoneAsleep cv (Function.update st t s)) (hs : ¬s.AsleepOn cv) :
    SomeoneAsleep cv st := by
  obtain ⟨u, hu⟩ := h
  by_cases hut : u = t
  · rw [hut, Function.update_self] at hu
    exact absurd hu hs
  · rw [Function.update_of_ne hut] at hu
    exact ⟨u, hu⟩

theorem Wakes.covers (h : Wakes w st st') (hs : SomeoneAsleep cv st') :
    SomeoneAsleep cv st ∧ wokenCount cv st + credit cv w ≤ wokenCount cv st' ∧
      w ≠ some (.all cv) := by
  cases h with
  | none => exact ⟨hs, le_rfl, nofun⟩
  | @nobody _ c hnone =>
    refine ⟨hs, ?_, nofun⟩
    have hne : c ≠ cv := by
      rintro rfl
      obtain ⟨t, ht⟩ := hs
      exact hnone t ht
    rw [credit, if_neg hne]
    exact le_rfl
  | @one _ u op c hu =>
    refine ⟨hs.of_update id, ?_, nofun⟩
    have hold : ¬(st u).WokenOn cv := by
      rw [hu]
      exact id
    by_cases hcv : c = cv
    · have hmore : wokenCount cv (Function.update st u (.woken op c)) = wokenCount cv st + 1 :=
        tally_update_add u hcv hold
      rw [credit, if_pos hcv]
      exact hmore.ge
    · have hsame : wokenCount cv (Function.update st u (.woken op c)) = wokenCount cv st :=
        tally_update_same u ⟨fun h => absurd h hcv, fun h => absurd h hold⟩
      rw [credit, if_neg hcv]
      exact hsame.ge
  | all _ c =>
    obtain ⟨t, ht⟩ := hs
    have hne : c ≠ cv := by
      rintro rfl
      exact (st t).not_asleepOn_wakeAll c ht
    have hsame : wokenCount cv (fun u => (st u).wakeAll c) = wokenCount cv st :=
      tally_congr fun u => Status.wokenOn_wakeAll hne
    refine ⟨⟨t, Status.asleepOn_of_wakeAll ht⟩, ?_, ?_⟩
    · rw [hsame]
      exact le_rfl
    · intro h
      cases h
      exact hne rfl

theorem wokenCount_idle {t : τ} {op : Op} (cv : κ) (h : (st t).Ready op) :
    wokenCount cv (Function.update st t .idle) = wokenCount cv st ∨
      st t = .woken op cv ∧
        wokenCount cv (Function.update st t .idle) + 1 = wokenCount cv st := by
  rcases h with he | ⟨c, hw⟩
  · left
    refine tally_update_same t ?_
    rw [he]
    exact Iff.rfl
  · by_cases hcv : c = cv
    · right
      refine ⟨by rw [hw, hcv], tally_update_sub t id ?_⟩
      rw [hw]
      exact hcv
    · left
      refine tally_update_same t ?_
      rw [hw]
      exact ⟨False.elim, fun h => absurd h hcv⟩

omit [Fintype τ] in
theorem Step.lawful (hs : Step P c e d) (hc : ∀ t, (c.status t).Lawful P ok)
    (hok : ∀ t op, e = .call t op → ok op) (u : τ) : (d.status u).Lawful P ok := by
  have hset (t : τ) (s : Status Op κ) (hs : s.Lawful P ok) (v : τ) :
      (Function.update c.status t s v).Lawful P ok :=
    forall_update (K := Status.Lawful P ok) hc hs v
  cases hs with
  | @call t op _ _ => exact hset t (.entering op) (hok t op rfl) u
  | @returned t op r s w st _ _ hwakes =>
    exact hwakes.keeps (K := Status.Lawful P ok) (fun _ _ => id) (hset t .idle trivial u)
  | @slept t op cv hready hbody =>
    exact hset t (.asleep op cv) ⟨hready.allowed (hc t), c.shared, hbody⟩ u
  | @timedOut t op cv hasleep _ =>
    have hlaw := hc t
    rw [hasleep] at hlaw
    exact hset t (.woken op cv) hlaw u
  | environment _ => exact hc u

omit [Fintype τ] in
theorem Run.lawful {s : σ} (h : Run P ⟨s, fun _ => .idle⟩ es c) (hok : OnlyCalls ok es) (u : τ) :
    (c.status u).Lawful P ok := by
  have hall : ∀ u, (c.status u).Lawful P ok := by
    refine h.invariant_of (I := fun c => ∀ u, (c.status u).Lawful P ok) hok.mem (fun _ => trivial) ?_
    exact fun _ _ _ he hc hs => hs.lawful hc he
  exact hall u

theorem Step.covered (hb : Balanced P ok I avail) (hc : Covered P ok I avail c)
    (hs : Step P c e d) (hok : ∀ t op, e = .call t op → ok op) : Covered P ok I avail d := by
  have hlawful := hs.lawful hc.lawful hok
  cases hs with
  | @call t op hidle hstart =>
    refine ⟨hc.inv, hlawful, fun cv hsleep => ?_⟩
    have hsame : wokenCount cv (Function.update c.status t (.entering op)) =
        wokenCount cv c.status := by
      refine tally_update_same t ?_
      rw [hidle]
      exact Iff.rfl
    exact (hc.covers cv (hsleep.of_update id)).trans hsame.ge
  | @returned t op r s w st hready hbody hwakes =>
    have hop := hready.allowed (hc.lawful t)
    refine ⟨hb.keeps _ _ _ _ _ hop hc.inv hbody, hlawful, fun cv hsleep => ?_⟩
    obtain ⟨hsleep', hcount, hall⟩ := hwakes.covers hsleep
    have hcov := hc.covers cv (hsleep'.of_update id)
    change avail cv s ≤ wokenCount cv st
    -- The thread that leaves takes its own wake-up with it, and with it the unit it waited for.
    rcases wokenCount_idle cv hready with hsame | ⟨hwoken, hless⟩
    · have hgive := hb.gives _ _ _ _ _ cv hop hc.inv hbody hall
      omega
    · have hlaw := hc.lawful t
      rw [hwoken] at hlaw
      have hspend := hb.spends _ _ _ _ _ cv hop hc.inv hbody hall hlaw.2
      omega
  | @slept t op c' hready hbody =>
    refine ⟨hc.inv, hlawful, fun cv hsleep => ?_⟩
    by_cases hcv : c' = cv
    · change avail cv c.shared ≤ _
      rw [← hcv, hb.sleeps_empty _ _ _ hc.inv hbody]
      exact Nat.zero_le _
    · have hold : ¬(c.status t).WokenOn cv := by
        intro h
        obtain ⟨op', hw⟩ := Status.wokenOn_iff.1 h
        have hlaw := hc.lawful t
        rw [hw] at hlaw
        rcases hready with he | ⟨c'', hw'⟩
        · rw [he] at hw
          cases hw
        · rw [hw'] at hw
          cases hw
          exact hcv (hb.one_cv _ _ _ ⟨_, hbody⟩ hlaw.2)
      have hsame : wokenCount cv (Function.update c.status t (.asleep op c')) =
          wokenCount cv c.status :=
        tally_update_same t ⟨False.elim, fun h => absurd h hold⟩
      exact (hc.covers cv (hsleep.of_update hcv)).trans hsame.ge
  | @timedOut t op c' hasleep htimed =>
    refine ⟨hc.inv, hlawful, fun cv hsleep => ?_⟩
    have hold : ¬(c.status t).WokenOn cv := by
      rw [hasleep]
      exact id
    have hmore : wokenCount cv c.status ≤
        wokenCount cv (Function.update c.status t (.woken op c')) := by
      have hcount := tally_update (fun s : Status Op κ => s.WokenOn cv) c.status t (.woken op c')
      rw [if_neg hold] at hcount
      simp only [wokenCount]
      omega
    exact (hc.covers cv (hsleep.of_update id)).trans hmore
  | environment he =>
    obtain ⟨hi, hle⟩ := hb.env _ _ hc.inv he
    exact ⟨hi, hc.lawful, fun cv hsleep => (hle cv).trans (hc.covers cv hsleep)⟩

theorem Run.covered (hb : Balanced P ok I avail) (h0 : Covered P ok I avail start)
    (h : Run P start es c) (hok : OnlyCalls ok es) : Covered P ok I avail c :=
  h.invariant_of hok.mem h0 fun _ _ _ he hc hs => hs.covered hb hc he

omit [DecidableEq τ] [DecidableEq κ] in
theorem covered_of_idle {s : σ} (hs : I s) :
    Covered P ok I avail (⟨s, fun _ : τ => .idle⟩ : Config τ σ Op κ) := by
  refine ⟨hs, fun t => trivial, ?_⟩
  rintro cv ⟨t, h⟩
  exact h.elim

end Monitor
