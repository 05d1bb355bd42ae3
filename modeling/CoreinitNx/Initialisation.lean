import CoreinitNx.Event.AutoReset
import CoreinitNx.MessageQueue.Basic
import CoreinitNx.Semaphore.Basic

namespace CoreinitNx

open Monitor

def MessageQueue.Satisfied : CondVar → HostQueue → Prop
  | .notEmpty, q => 0 < q.count
  | .notFull, q => q.count < q.capacity

def Event.Satisfied : CondVar → World → Prop
  | .cond, s => s.event.signalled = true

def Semaphore.Satisfied : CondVar → HostSemaphore → Prop
  | .cond, s => 0 < s.count

variable {τ : Type} [DecidableEq τ]

namespace MessageQueue

variable {es : List (Monitor.Event τ Op CondVar Reply)} {c d : Config τ HostQueue Op CondVar}
  {t u : τ} {r : Reply} {op : Op} {q : HostQueue} {size : Int32}

def BlockedSender (c : Config τ HostQueue Op CondVar) (u : τ) : Prop :=
  ∃ m flags, c.status u = .asleep (.send (some m) flags) .notFull

theorem send_of_sleep (h : program.body op q = .sleep .notFull) :
    ∃ m flags, op = .send (some m) flags := by
  cases op with
  | init size =>
    change osInitMessageQueue q size = _ at h
    rw [osInitMessageQueue] at h
    split at h <;> cases h
  | send message flags =>
    cases message with
    | none => cases h
    | some m => exact ⟨m, flags, rfl⟩
  | receive buffer flags =>
    change osReceiveMessage q buffer flags = _ at h
    rw [osReceiveMessage] at h
    split at h
    next =>
      split at h
      next => split at h <;> cases h
      next => split at h <;> cases h
    next => cases h
  | peek buffer =>
    change osPeekMessage q buffer = _ at h
    rw [osPeekMessage] at h
    split at h
    next =>
      split at h
      next => split at h <;> cases h
      next => cases h
    next => cases h

theorem blockedSender_iff (run : Run program ⟨HostObject.init, fun _ => .idle⟩ es c) :
    BlockedSender c u ↔ (c.status u).AsleepOn .notFull := by
  constructor
  · rintro ⟨m, flags, h⟩
    exact Status.asleepOn_iff.2 ⟨_, h⟩
  · intro h
    obtain ⟨op, hu⟩ := Status.asleepOn_iff.1 h
    have hlaw : (c.status u).Lawful program fun _ => True :=
      Run.lawful run (fun _ _ _ => trivial) u
    rw [hu] at hlaw
    obtain ⟨-, q, hq⟩ := hlaw
    obtain ⟨m, flags, rfl⟩ := send_of_sleep hq
    exact ⟨m, flags, hu⟩

theorem toUInt32_pos (h : 0 < size) : 0 < size.toUInt32 := by
  have hne : size.toUInt32 ≠ 0 := by
    intro h0
    rw [← Int32.toInt32_toUInt32 size, h0] at h
    exact absurd h (by decide)
  exact UInt32.pos_iff_ne_zero.2 hne

theorem init_strands_iff (run : Run program ⟨HostObject.init, fun _ => .idle⟩ es c)
    (hstep : Step program c (.returned t (.init size) r) d) :
    (∀ u, ¬Stranded Satisfied d u) ↔
      if 0 < size then ∀ u, ¬BlockedSender c u else ∀ u, ¬Stranded Satisfied c u := by
  split
  next hsize =>
    have hbody : program.body (.init size) c.shared = .done .void _ none :=
      if_neg (Int32.not_le.2 hsize)
    obtain ⟨hshared, hasleep⟩ := hstep.silent hbody
    refine forall_congr' fun u => not_congr ?_
    rw [blockedSender_iff run, ← hasleep u .notFull]
    constructor
    · rintro ⟨cv, hu, hsat⟩
      cases cv with
      | notEmpty =>
        rw [hshared] at hsat
        exact absurd hsat (UInt32.lt_irrefl 0)
      | notFull => exact hu
    · intro hu
      refine ⟨.notFull, hu, ?_⟩
      rw [hshared]
      exact toUInt32_pos hsize
  next hsize =>
    have hbody : program.body (.init size) c.shared = .done .void _ none :=
      if_pos (Int32.not_lt.1 hsize)
    obtain ⟨hshared, hasleep⟩ := hstep.silent hbody
    refine forall_congr' fun u => not_congr (exists_congr fun cv => ?_)
    rw [hshared, hasleep u cv]

end MessageQueue

namespace Event

variable {es : List (Monitor.Event τ Op CondVar Reply)} {c d : Config τ World Op CondVar}
  {t : τ} {r : Reply} {value : Int32} {mode : OSEventMode}

theorem init_strands_iff (hstep : Step program c (.returned t (.init value mode) r) d) :
    (∀ u, ¬Stranded Satisfied d u) ↔ value = 0 ∨ ∀ u op, c.status u ≠ .asleep op .cond := by
  obtain ⟨hshared, hasleep⟩ := hstep.silent rfl
  constructor
  · intro h
    refine or_iff_not_imp_left.2 fun hvalue u op hu => h u ⟨.cond, ?_, ?_⟩
    · exact (hasleep u .cond).2 (Status.asleepOn_iff.2 ⟨op, hu⟩)
    · rw [hshared]
      exact bne_iff_ne.2 hvalue
  · rintro h u ⟨cv, hu, hsat⟩
    rw [hshared] at hsat
    rcases h with hvalue | hnone
    · exact bne_iff_ne.1 hsat hvalue
    · obtain ⟨op, hu⟩ := Status.asleepOn_iff.1 ((hasleep u cv).1 hu)
      exact hnone u op hu

end Event

namespace Semaphore

variable {es : List (Monitor.Event τ Op CondVar Reply)} {c d : Config τ HostSemaphore Op CondVar}
  {t : τ} {r : Reply} {count : Int32}

theorem init_strands_iff (hstep : Step program c (.returned t (.init count) r) d) :
    (∀ u, ¬Stranded Satisfied d u) ↔ count ≤ 0 ∨ ∀ u op, c.status u ≠ .asleep op .cond := by
  obtain ⟨hshared, hasleep⟩ := hstep.silent rfl
  constructor
  · intro h
    refine or_iff_not_imp_left.2 fun hcount u op hu => h u ⟨.cond, ?_, ?_⟩
    · exact (hasleep u .cond).2 (Status.asleepOn_iff.2 ⟨op, hu⟩)
    · rw [hshared]
      exact Int32.not_le.1 hcount
  · rintro h u ⟨cv, hu, hsat⟩
    rw [hshared] at hsat
    rcases h with hcount | hnone
    · exact Int32.not_lt.2 hcount hsat
    · obtain ⟨op, hu⟩ := Status.asleepOn_iff.1 ((hasleep u cv).1 hu)
      exact hnone u op hu

end Semaphore

theorem init_strands_nobody_iff :
    (∀ es (c d : Config τ MessageQueue.HostQueue MessageQueue.Op MessageQueue.CondVar) t size r,
      Run MessageQueue.program ⟨HostObject.init, fun _ => .idle⟩ es c →
      Step MessageQueue.program c (.returned t (.init size) r) d →
      ((∀ u, ¬Stranded MessageQueue.Satisfied d u) ↔
        if 0 < size then ∀ u, ¬MessageQueue.BlockedSender c u
        else ∀ u, ¬Stranded MessageQueue.Satisfied c u)) ∧
    (∀ es tick (c d : Config τ Event.World Event.Op Event.CondVar) t value mode r,
      Run Event.program ⟨⟨HostObject.init, tick⟩, fun _ => .idle⟩ es c →
      Step Event.program c (.returned t (.init value mode) r) d →
      ((∀ u, ¬Stranded Event.Satisfied d u) ↔
        value = 0 ∨ ∀ u op, c.status u ≠ .asleep op .cond)) ∧
    (∀ es (c d : Config τ Semaphore.HostSemaphore Semaphore.Op Semaphore.CondVar) t count r,
      Run Semaphore.program ⟨HostObject.init, fun _ => .idle⟩ es c →
      Step Semaphore.program c (.returned t (.init count) r) d →
      ((∀ u, ¬Stranded Semaphore.Satisfied d u) ↔
        count ≤ 0 ∨ ∀ u op, c.status u ≠ .asleep op .cond)) :=
  ⟨fun _ _ _ _ _ _ run hstep => MessageQueue.init_strands_iff run hstep,
    fun _ _ _ _ _ _ _ _ _ hstep => Event.init_strands_iff hstep,
    fun _ _ _ _ _ _ _ hstep => Semaphore.init_strands_iff hstep⟩

-- A waiter sleeps on an event used before its `OSInitEvent`, which leaves it clear.
theorem init_strands_nobody_clear :
    ∃ (es : List _) (c d : Config Bool Event.World Event.Op Event.CondVar),
      Run Event.program ⟨⟨HostObject.init, 0⟩, fun _ => .idle⟩ es c ∧
        Step Event.program c (.returned false (.init 0 .auto) .void) d ∧
        d.status true = .asleep .wait .cond ∧ ∀ u, ¬Stranded Event.Satisfied d u := by
  have h0 : Run Event.program ⟨⟨HostObject.init, 0⟩, fun _ : Bool => .idle⟩ [] _ := .nil
  have h1 := h0.snoc (e := .call true .wait) (.call rfl (by trivial))
  have h2 := h1.snoc (e := .slept true .wait .cond) (.slept (.inl rfl) rfl)
  have h3 := h2.snoc (e := .call false (.init 0 .auto)) (.call rfl (by trivial))
  exact ⟨_, _, _, h3, .returned (.inl rfl) rfl (.none _), rfl,
    (init_strands_nobody_iff.2.1 _ _ _ _ _ _ _ _ h3
      (.returned (.inl rfl) rfl (.none _))).2 (.inl rfl)⟩

-- The waiters came before the `OSInit` call that makes their condition true.
theorem init_strands_waiter :
    (∃ (es : List _) (c d : Config Bool MessageQueue.HostQueue MessageQueue.Op MessageQueue.CondVar),
      Run MessageQueue.program ⟨HostObject.init, fun _ => .idle⟩ es c ∧
        Step MessageQueue.program c (.returned false (.init 1) .void) d ∧
        Stranded MessageQueue.Satisfied d true) ∧
    (∃ (es : List _) (c d : Config Bool Event.World Event.Op Event.CondVar),
      Run Event.program ⟨⟨HostObject.init, 0⟩, fun _ => .idle⟩ es c ∧
        Step Event.program c (.returned false (.init 1 .auto) .void) d ∧
        Stranded Event.Satisfied d true) ∧
    (∃ (es : List _) (c d : Config Bool Semaphore.HostSemaphore Semaphore.Op Semaphore.CondVar),
      Run Semaphore.program ⟨HostObject.init, fun _ => .idle⟩ es c ∧
        Step Semaphore.program c (.returned false (.init 1) .void) d ∧
        Stranded Semaphore.Satisfied d true) := by
  refine ⟨?_, ?_, ?_⟩
  · have h0 : Run MessageQueue.program ⟨HostObject.init, fun _ : Bool => .idle⟩ [] _ := .nil
    have h1 := h0.snoc (e := .call true (.send (some .zero) 1)) (.call rfl (by trivial))
    have h2 := h1.snoc (e := .slept true (.send (some .zero) 1) .notFull) (.slept (.inl rfl) rfl)
    have h3 := h2.snoc (e := .call false (.init 1)) (.call rfl (by trivial))
    exact ⟨_, _, _, h3, .returned (.inl rfl) rfl (.none _), .notFull, rfl, (by decide : (0 : UInt32) < 1)⟩
  · have h0 : Run Event.program ⟨⟨HostObject.init, 0⟩, fun _ : Bool => .idle⟩ [] _ := .nil
    have h1 := h0.snoc (e := .call true .wait) (.call rfl (by trivial))
    have h2 := h1.snoc (e := .slept true .wait .cond) (.slept (.inl rfl) rfl)
    have h3 := h2.snoc (e := .call false (.init 1 .auto)) (.call rfl (by trivial))
    exact ⟨_, _, _, h3, .returned (.inl rfl) rfl (.none _), .cond, rfl, rfl⟩
  · have h0 : Run Semaphore.program ⟨HostObject.init, fun _ : Bool => .idle⟩ [] _ := .nil
    have h1 := h0.snoc (e := .call true .wait) (.call rfl (by trivial))
    have h2 := h1.snoc (e := .slept true .wait .cond) (.slept (.inl rfl) rfl)
    have h3 := h2.snoc (e := .call false (.init 1)) (.call rfl (by trivial))
    exact ⟨_, _, _, h3, .returned (.inl rfl) rfl (.none _), .cond, rfl, (by decide : (0 : Int32) < 1)⟩

end CoreinitNx
