import CoreinitNx.Mutex.Basic

namespace CoreinitNx.Mutex

variable {τ κ : Type} {s s' : State τ κ} {t u : τ} {pc : Pc κ} {op : Op κ} {own own' : Prop}
  {count count' : UInt32} {depth : Nat} {reply : Option Reply} {e : Event τ κ}
  {es : List (Event τ κ)}

-- What holds of a thread at each point of a call, by whether it owns the lock.
def Fits (pc : Pc κ) (own : Prop) (count : UInt32) (depth : Nat) : Prop :=
  match pc with
  | .entering (.wait _) | .incrementing _ | .decrementing => own ∧ 0 < depth ∧ count.toNat = depth
  | .idle | .entering _ => (own ↔ 0 < depth) ∧ (own → count.toNat = depth)
  | .storing _ n => own ∧ 0 < depth ∧ count.toNat = depth ∧ n = count + 1
  | .acquiring | .trying => ¬own ∧ depth = 0
  | .acquired _ | .releasing => own ∧ depth = 1
  | .storingLess n => own ∧ 0 < depth ∧ count.toNat = depth ∧ n = count - 1
  | .clearing _ saved => own ∧ 0 < depth ∧ count.toNat = depth ∧ saved.toNat = depth
  | .releasingToWait _ saved | .restoring _ saved => own ∧ 0 < depth ∧ saved.toNat = depth
  | .asleep _ saved | .woken _ saved => ¬own ∧ 0 < depth ∧ saved.toNat = depth

-- Only the owner's clauses speak of the count, so the others cannot tell what it is.
theorem Fits.frame (h : Fits pc own count depth) (hown : own' ↔ own)
    (hcount : own → count' = count) : Fits pc own' count' depth := by
  obtain rfl : own' = own := propext hown
  by_cases ho : own'
  · rw [hcount ho]
    exact h
  · cases pc with
    | idle => exact ⟨h.1, fun h' => absurd h' ho⟩
    | entering op =>
      cases op with
      | wait c => exact absurd h.1 ho
      | lock | tryLock | unlock | signal _ => exact ⟨h.1, fun h' => absurd h' ho⟩
    | acquiring | trying | asleep _ _ | woken _ _ => exact h
    | incrementing _ | storing _ _ | acquired _ | decrementing | storingLess _ | releasing
    | clearing _ _ | releasingToWait _ _ | restoring _ _ => exact absurd h.1 ho

theorem Fits.wake [DecidableEq κ] (c : κ) (h : Fits pc own count depth) :
    Fits (pc.wake c) own count depth := by
  rcases pc.wake_cases c with heq | ⟨saved, rfl, heq⟩
  · rw [heq]
    exact h
  · rw [heq]
    exact h

theorem Fits.entering (h : Fits (.idle : Pc κ) own count depth) (hwait : ∀ c, op = .wait c → own) :
    Fits (.entering op) own count depth := by
  cases op with
  | wait c =>
    have ho := hwait c rfl
    exact ⟨ho, h.1.1 ho, h.2 ho⟩
  | lock | tryLock | unlock | signal _ => exact h

def Sound (s : State τ κ) (t : τ) : Prop :=
  Fits (s.pc t) (s.host.lock = some t) s.host.count (s.depth t)

theorem Sound.of_other (h : Sound s u) (hpc : s'.pc u = s.pc u) (hdepth : s'.depth u = s.depth u)
    (hlock : s'.host.lock = some u ↔ s.host.lock = some u)
    (hcount : s.host.lock = some u → s'.host.count = s.host.count) : Sound s' u := by
  rw [Sound]
  rw [hpc, hdepth]
  exact Fits.frame h hlock hcount

variable [DecidableEq τ]

-- A step of `t` is seen by another thread through the lock and the count at most.
theorem sound_goto {s₁ : State τ κ} (hs : ∀ u, Sound s u)
    (hself : Fits pc (s₁.host.lock = some t) s₁.host.count (s₁.depth t))
    (hpc : s₁.pc = s.pc) (hdepth : ∀ u, u ≠ t → s₁.depth u = s.depth u)
    (hlock : ∀ u, u ≠ t → (s₁.host.lock = some u ↔ s.host.lock = some u))
    (hcount : s.host.lock ≠ some t → s₁.host.count = s.host.count) :
    ∀ u, Sound (s₁.goto t pc) u := by
  intro u
  by_cases hu : u = t
  · subst hu
    rw [Sound]
    rw [State.goto_pc_self]
    exact hself
  · refine (hs u).of_other ?_ (hdepth u hu) (hlock u hu) fun hown => hcount fun ht => hu ?_
    · rw [State.goto_pc_ne _ _ _ hu, hpc]
    · rw [hown] at ht
      exact Option.some.inj ht

theorem sound_move (hs : ∀ u, Sound s u)
    (hself : Fits pc (s.host.lock = some t) s.host.count (s.depth t)) :
    ∀ u, Sound (s.goto t pc) u :=
  sound_goto hs hself rfl (fun _ _ => rfl) (fun _ _ => Iff.rfl) fun _ => rfl

theorem sound_store {n : UInt32} {k : Nat} (hs : ∀ u, Sound s u) (hown : s.host.lock = some t)
    (hself : Fits pc True n k) : ∀ u, Sound (((s.setCount n).setDepth t k).goto t pc) u := by
  refine sound_goto hs ?_ rfl (fun u hu => State.setDepth_ne _ _ _ hu) (fun _ _ => Iff.rfl)
    fun hno => absurd hown hno
  rw [State.setDepth_self]
  exact hself.frame (iff_true_intro hown) fun _ => rfl

theorem sound_take {k : Nat} (hs : ∀ u, Sound s u) (hfree : s.host.lock = none)
    (hself : Fits pc True s.host.count k) :
    ∀ u, Sound (((s.setLock (some t)).setDepth t k).goto t pc) u := by
  refine sound_goto hs ?_ rfl (fun u hu => State.setDepth_ne _ _ _ hu) (fun u hu => ?_)
    fun _ => rfl
  · rw [State.setDepth_self]
    exact hself.frame (iff_true_intro rfl) fun _ => rfl
  · rw [hfree]
    exact ⟨fun h => absurd (Option.some.inj h).symm hu, fun h => nomatch h⟩

theorem sound_give {k : Nat} (hs : ∀ u, Sound s u) (hown : s.host.lock = some t)
    (hself : Fits pc False s.host.count k) :
    ∀ u, Sound (((s.setLock none).setDepth t k).goto t pc) u := by
  refine sound_goto hs ?_ rfl (fun u hu => State.setDepth_ne _ _ _ hu) (fun u hu => ?_)
    fun hno => absurd hown hno
  · rw [State.setDepth_self]
    exact hself.frame (iff_false_intro fun h => nomatch h) fun _ => rfl
  · rw [hown]
    exact ⟨fun h => (nomatch h), fun h => absurd (Option.some.inj h).symm hu⟩

theorem setCount_setDepth (s : State τ κ) (t : τ) (n : UInt32) :
    (s.setCount n).setDepth t (s.depth t) = s.setCount n := by
  rw [State.setDepth, State.setCount]
  rw [Function.update_eq_self]

theorem setLock_setDepth (s : State τ κ) (t : τ) (lock : Option τ) :
    (s.setLock lock).setDepth t (s.depth t) = s.setLock lock := by
  rw [State.setDepth, State.setLock]
  rw [Function.update_eq_self]

variable [DecidableEq κ]

theorem sound_signal (c : κ) (hs : ∀ u, Sound s u)
    (hself : Fits (.idle : Pc κ) (s.host.lock = some t) s.host.count (s.depth t)) :
    ∀ u, Sound { s with pc := Function.update (fun v => (s.pc v).wake c) t .idle } u := by
  intro u
  by_cases hu : u = t
  · subst hu
    rw [Sound]
    change Fits (Function.update (fun v => (s.pc v).wake c) u .idle u) _ _ _
    rw [Function.update_self]
    exact hself
  · rw [Sound]
    change Fits (Function.update (fun v => (s.pc v).wake c) t .idle u) _ _ _
    rw [Function.update_of_ne hu]
    exact (hs u).wake c

theorem count_pred_toNat {n : UInt32} (hn : n.toNat = depth) (hpos : 0 < depth) :
    (n - 1).toNat = depth - 1 := by
  have hone : (1 : UInt32) ≤ n := by
    rw [UInt32.le_iff_toNat_le, hn]
    exact hpos
  rw [UInt32.toNat_sub_of_le _ _ hone, hn, UInt32.toNat_one]

theorem advance_sound (hs : ∀ u, Sound s u) (h : advance s t = some (reply, s'))
    (hbound : s'.depth t < 2 ^ 32) : ∀ u, Sound s' u := by
  have ht := hs t
  have hstep := advance_cases h
  rw [Sound] at ht
  generalize s.pc t = pc at ht hstep
  have hnone (hown : s.host.lock ≠ some t) (hiff : s.host.lock = some t ↔ 0 < s.depth t) :
      s.depth t = 0 := Nat.eq_zero_of_not_pos fun hpos => hown (hiff.2 hpos)
  cases hstep with
  | lockOwned hown | tryOwned hown | unlockOwned hown =>
    exact sound_move hs ⟨hown, ht.1.1 hown, ht.2 hown⟩
  | lockOther hother | tryOther hother => exact sound_move hs ⟨hother, hnone hother ht.1⟩
  | unlockOther hother => exact sound_move hs ht
  | wait c =>
    obtain ⟨hown, hpos, hcount⟩ := ht
    exact sound_move hs ⟨hown, hpos, hcount, hcount⟩
  | signal c => exact sound_signal c hs ht
  | incrementing op =>
    obtain ⟨hown, hpos, hcount⟩ := ht
    exact sound_move hs ⟨hown, hpos, hcount, rfl⟩
  | storing op n =>
    obtain ⟨hown, hpos, hcount, rfl⟩ := ht
    refine sound_store hs hown ⟨iff_of_true trivial (Nat.succ_pos _), fun _ => ?_⟩
    change (Function.update s.depth t _) t < 2 ^ 32 at hbound
    rw [Function.update_self] at hbound
    rw [UInt32.toNat_add, UInt32.toNat_one, hcount, Nat.mod_eq_of_lt hbound]
  | acquiring hfree | trying hfree =>
    obtain ⟨-, hzero⟩ := ht
    exact sound_take hs hfree ⟨trivial, by rw [hzero]⟩
  | tryingFails htaken =>
    obtain ⟨hown, hzero⟩ := ht
    refine sound_move hs ⟨iff_of_false hown ?_, fun h => absurd h hown⟩
    rw [hzero]
    exact Nat.lt_irrefl 0
  | acquired op =>
    obtain ⟨hown, hone⟩ := ht
    have hstore : ∀ u, Sound (((s.setCount 1).setDepth t (s.depth t)).goto t .idle) u :=
      sound_store hs hown ⟨iff_of_true trivial (hone.symm ▸ Nat.one_pos), fun _ => hone.symm⟩
    rwa [setCount_setDepth] at hstore
  | decrementing =>
    obtain ⟨hown, hpos, hcount⟩ := ht
    exact sound_move hs ⟨hown, hpos, hcount, rfl⟩
  | storingZero =>
    obtain ⟨hown, hpos, hcount, hzero⟩ := ht
    have hless := count_pred_toNat hcount hpos
    rw [← hzero, UInt32.toNat_zero] at hless
    have hone : s.depth t = 1 := by omega
    have hstore : ∀ u, Sound (((s.setCount 0).setDepth t (s.depth t)).goto t .releasing) u :=
      sound_store hs hown ⟨trivial, hone⟩
    rwa [setCount_setDepth] at hstore
  | @storingLess n hne =>
    obtain ⟨hown, hpos, hcount, rfl⟩ := ht
    have hless := count_pred_toNat hcount hpos
    have hpos' : 0 < s.depth t - 1 := by
      rw [← hless, Nat.pos_iff_ne_zero]
      exact fun h0 => hne (UInt32.toNat_inj.1 h0)
    exact sound_store hs hown ⟨iff_of_true trivial hpos', fun _ => hless⟩
  | releasing =>
    obtain ⟨hown, hone⟩ := ht
    exact sound_give hs hown ⟨iff_of_false id (by omega), False.elim⟩
  | clearing c saved =>
    obtain ⟨hown, hpos, -, hsaved⟩ := ht
    have hstore : ∀ u,
        Sound (((s.setCount 0).setDepth t (s.depth t)).goto t (.releasingToWait c saved)) u :=
      sound_store hs hown ⟨trivial, hpos, hsaved⟩
    rwa [setCount_setDepth] at hstore
  | releasingToWait c saved =>
    obtain ⟨hown, hpos, hsaved⟩ := ht
    have hgive : ∀ u,
        Sound (((s.setLock none).setDepth t (s.depth t)).goto t (.asleep c saved)) u :=
      sound_give hs hown ⟨id, hpos, hsaved⟩
    rwa [setLock_setDepth] at hgive
  | woken c saved hfree =>
    obtain ⟨-, hpos, hsaved⟩ := ht
    have htake : ∀ u,
        Sound (((s.setLock (some t)).setDepth t (s.depth t)).goto t (.restoring c saved)) u :=
      sound_take hs hfree ⟨trivial, hpos, hsaved⟩
    rwa [setLock_setDepth] at htake
  | restoring c saved =>
    obtain ⟨hown, hpos, hsaved⟩ := ht
    have hstore : ∀ u, Sound (((s.setCount saved).setDepth t (s.depth t)).goto t .idle) u :=
      sound_store hs hown ⟨iff_of_true trivial hpos, fun _ => hsaved⟩
    rwa [setCount_setDepth] at hstore

theorem BoundedStep.sound (h : BoundedStep s e s') (hs : ∀ u, Sound s u) : ∀ u, Sound s' u := by
  obtain ⟨hstep, hbound⟩ := h
  cases hstep with
  | @call t op hidle hallowed =>
    have ht := hs t
    rw [Sound] at ht
    rw [hidle] at ht
    refine sound_move hs (ht.entering ?_)
    rintro c rfl
    exact hallowed
  | run hrun => exact advance_sound hs hrun (hbound _)

omit [DecidableEq τ] [DecidableEq κ] in
theorem sound_initial : Sound (State.initial : State τ κ) u :=
  ⟨iff_of_false (fun h => nomatch h) (Nat.lt_irrefl 0), fun h => nomatch h⟩

theorem Run.sound (h : Run State.initial es s) : ∀ u, Sound s u :=
  Transition.Run.invariant_of (I := fun s => ∀ u, Sound s u) h (fun _ _ => trivial)
    (fun _ => sound_initial) fun _ _ _ (_ : True) hs hstep => hstep.sound hs

end CoreinitNx.Mutex
