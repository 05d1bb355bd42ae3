import CoreinitNx.Mutex.Ownership

namespace CoreinitNx.Mutex

-- A thread by its calls and the replies to them: the call it is in, and its successful locks less
-- its effective unlocks.
structure Account (κ : Type) where
  call : Option (Op κ)
  locks : Nat

-- An unlock is effective where there is a lock to undo.
def Op.settle : Op κ → Reply → Nat → Nat
  | .lock, _, n => n + 1
  | .tryLock, reply, n => if reply = .ret 0 then n else n + 1
  | .unlock, _, n => n - 1
  | .wait _, _, n | .signal _, _, n => n

variable {τ κ : Type} [DecidableEq τ]

def Account.after (t : τ) (a : Account κ) : Event τ κ → Account κ
  | .call u op => if u = t then { a with call := some op } else a
  | .run u (some reply) =>
    if u = t then ⟨none, (a.call.map (·.settle reply a.locks)).getD a.locks⟩ else a
  | .run _ none => a

def Event.thread : Event τ κ → τ
  | .call t _ | .run t _ => t

def account (t : τ) (es : List (Event τ κ)) : Account κ := es.foldl (Account.after t) ⟨none, 0⟩

def Pc.call : Pc κ → Option (Op κ)
  | .idle => none
  | .entering op | .incrementing op | .storing op _ | .acquired op => some op
  | .acquiring => some .lock
  | .trying => some .tryLock
  | .decrementing | .storingLess _ | .releasing => some .unlock
  | .clearing cond _ | .releasingToWait cond _ | .asleep cond _ | .woken cond _
  | .restoring cond _ => some (.wait cond)

-- The lock is taken, and the call is about to answer so.
def Pc.taken : Pc κ → Nat
  | .acquired _ => 1
  | _ => 0

-- The locks of a thread, less its unlocks, that the game knows of or is about to be told of.
def locks (es : List (Event τ κ)) (s : State τ κ) (t : τ) : Nat :=
  (account t es).locks + (s.pc t).taken

-- Only the two calls that lock go through these points.
def Pc.Locks : Pc κ → Prop
  | .incrementing op | .storing op _ | .acquired op => op = .lock ∨ op = .tryLock
  | _ => True

structure Accounted (a : Account κ) (pc : Pc κ) (depth : Nat) : Prop where
  call : a.call = pc.call
  locks : pc.Locks
  depth : depth = a.locks + pc.taken

variable {s s' : State τ κ} {t u : τ} {pc pc' : Pc κ} {op : Op κ} {a : Account κ} {n depth : Nat}
  {reply : Option Reply} {r : Reply} {e : Event τ κ} {es : List (Event τ κ)}

theorem account_concat (t : τ) (es : List (Event τ κ)) (e : Event τ κ) :
    account t (es ++ [e]) = (account t es).after t e := by
  rw [account, List.foldl_append]
  rfl

omit [DecidableEq τ] in
theorem settle_success (h : op = .lock ∨ op = .tryLock) : op.settle (success op) n = n + 1 := by
  rcases h with rfl | rfl
  · rfl
  · have hne : Reply.ret 1 ≠ .ret 0 := by decide
    exact if_neg (α := Nat) (t := n) hne

theorem after_ne (a : Account κ) (h : e.thread ≠ t) : a.after t e = a := by
  cases e with
  | call u op => exact if_neg h
  | run u reply =>
    cases reply with
    | none => rfl
    | some r => exact if_neg h

theorem after_answer (hcall : a.call = some op) :
    a.after t (.run t (some r)) = ⟨none, op.settle r a.locks⟩ := by
  rw [Account.after, if_pos rfl, hcall]
  rfl

omit [DecidableEq τ] in
theorem Accounted.move (h : Accounted a pc n) (hcall : pc'.call = pc.call) (hlocks : pc'.Locks)
    (htaken : pc'.taken = pc.taken) : Accounted a pc' n :=
  ⟨h.call.trans hcall.symm, hlocks, h.depth.trans (by rw [htaken])⟩

-- A call that answers leaves its thread idle, with the depth that the reply tells.
theorem Accounted.answer (h : Accounted a pc n) (hcall : pc.call = some op)
    (hdepth : depth = op.settle r a.locks) :
    Accounted (a.after t (.run t (some r))) .idle depth := by
  rw [after_answer (h.call.trans hcall)]
  exact ⟨rfl, trivial, hdepth⟩

variable [DecidableEq κ]

theorem advance_accounted (hs : Sound s t) (h : advance s t = some (reply, s'))
    (ha : Accounted a (s.pc t) (s.depth t)) :
    Accounted (a.after t (.run t reply)) (s'.pc t) (s'.depth t) := by
  have hat {s₁ : State τ κ} (pc : Pc κ) : (s₁.goto t pc).pc t = pc := State.goto_pc_self _ _ _
  have hset {s₁ : State τ κ} (n : Nat) : (s₁.setDepth t n).depth t = n := State.setDepth_self _ _ _
  have hstep := advance_cases h
  rw [Sound] at hs
  generalize s.pc t = pc at hs ha hstep
  have hdepth := ha.depth
  cases hstep with
  | lockOwned | tryOwned =>
    rw [hat]
    exact ha.move rfl (by simp [Pc.Locks]) rfl
  | lockOther | tryOther | unlockOwned | wait | decrementing | storingZero | clearing
  | releasingToWait | woken =>
    rw [hat]
    exact ha.move rfl trivial rfl
  | unlockOther hother =>
    rw [hat]
    refine ha.answer rfl ?_
    have hzero : s.depth t = 0 := Nat.eq_zero_of_not_pos fun hpos => hother (hs.1.2 hpos)
    have hnone : a.locks = 0 := hdepth.symm.trans hzero
    change s.depth t = a.locks - 1
    rw [hzero, hnone]
  | signal c =>
    have hidle : Function.update (fun u => (s.pc u).wake c) t Pc.idle t = Pc.idle :=
      Function.update_self t _ fun u => (s.pc u).wake c
    have hanswer := ha.answer (t := t) (r := .void) rfl hdepth
    rw [← hidle] at hanswer
    exact hanswer
  | incrementing op =>
    rw [hat]
    exact ha.move rfl ha.locks rfl
  | storing op count =>
    rw [hat]
    refine ha.answer rfl ?_
    rw [settle_success ha.locks]
    exact (hset _).trans (congrArg Nat.succ hdepth)
  | acquiring | trying =>
    rw [hat]
    refine ⟨ha.call, by simp [Pc.Locks], ?_⟩
    exact (hset _).trans (congrArg Nat.succ hdepth)
  | tryingFails =>
    rw [hat]
    exact ha.answer rfl hdepth
  | acquired op =>
    rw [hat]
    refine ha.answer rfl ?_
    rw [settle_success ha.locks]
    exact hdepth
  | storingLess | releasing =>
    rw [hat]
    exact ha.answer rfl ((hset _).trans (congrArg (· - 1) hdepth))
  | restoring =>
    rw [hat]
    exact ha.answer rfl hdepth

theorem advance_other (h : advance s u = some (reply, s')) (ht : t ≠ u) :
    s'.depth t = s.depth t ∧ (s'.pc t = s.pc t ∨ ∃ c, s'.pc t = (s.pc t).wake c) := by
  have hpc {s₁ : State τ κ} (pc : Pc κ) : (s₁.goto u pc).pc t = s₁.pc t :=
    State.goto_pc_ne _ _ _ ht
  have hdepth {s₁ : State τ κ} (n : Nat) : (s₁.setDepth u n).depth t = s₁.depth t :=
    State.setDepth_ne _ _ _ ht
  have hstep := advance_cases h
  generalize s.pc u = pc at hstep
  cases hstep with
  | lockOwned | lockOther | tryOwned | tryOther | unlockOwned | unlockOther | wait | incrementing
  | tryingFails | acquired | decrementing | storingZero | clearing | releasingToWait | woken
  | restoring => exact ⟨rfl, .inl (hpc _)⟩
  | storing | acquiring | trying | storingLess | releasing => exact ⟨hdepth _, .inl (hpc _)⟩
  | signal c => exact ⟨rfl, .inr ⟨c, Function.update_of_ne ht _ fun v => (s.pc v).wake c⟩⟩

omit [DecidableEq τ] in
theorem Accounted.wake (h : Accounted a pc n) (c : κ) : Accounted a (pc.wake c) n := by
  rcases pc.wake_cases c with heq | ⟨saved, rfl, heq⟩
  · rwa [heq]
  · rw [heq]
    exact h.move rfl trivial rfl

theorem Step.accounted (hstep : Step s e s') (hs : ∀ u, Sound s u)
    (ha : Accounted a (s.pc t) (s.depth t)) : Accounted (a.after t e) (s'.pc t) (s'.depth t) := by
  by_cases ht : e.thread = t
  · cases hstep with
    | @call u op hidle =>
      obtain rfl : u = t := ht
      rw [State.goto_pc_self, Account.after, if_pos rfl]
      rw [hidle] at ha
      exact ⟨rfl, trivial, ha.depth⟩
    | @run _ u reply hrun =>
      obtain rfl : u = t := ht
      exact advance_accounted (hs u) hrun ha
  · rw [after_ne _ ht]
    cases hstep with
    | @call u op hidle =>
      have hother : (s.goto u (.entering op)).pc t = s.pc t := State.goto_pc_ne _ _ _ (Ne.symm ht)
      rwa [hother]
    | @run _ u reply hrun =>
      obtain ⟨hdepth, hpc⟩ := advance_other hrun (Ne.symm ht)
      rw [hdepth]
      rcases hpc with hsame | ⟨c, hwake⟩
      · rwa [hsame]
      · rw [hwake]
        exact ha.wake c

theorem Run.accounted (h : Run State.initial es s) (t : τ) :
    Accounted (account t es) (s.pc t) (s.depth t) := by
  induction h with
  | nil => exact ⟨rfl, trivial, rfl⟩
  | snoc run hs ih =>
    rw [account_concat]
    exact hs.1.accounted (Run.sound run) ih

-- The depth of a thread is what its calls and their replies make it.
theorem Run.depth_eq (h : Run State.initial es s) (t : τ) : s.depth t = locks es s t :=
  (Run.accounted h t).depth

theorem Run.bounded (h : Run State.initial es s) (t : τ) : s.depth t < 2 ^ 32 := by
  cases h with
  | nil => exact Nat.two_pow_pos 32
  | snoc _ hs => exact hs.2 t

end CoreinitNx.Mutex
