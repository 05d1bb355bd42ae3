import CoreinitNx.Library.Wakeups
import CoreinitNx.MessageQueue.Deque

namespace CoreinitNx.MessageQueue

open Monitor

-- What a waiter of each condition variable waits for: messages, or free slots.
def available : CondVar → BoundedDeque OSMessage → Nat
  | .notEmpty, d => d.items.length
  | .notFull, d => d.capacity - d.items.length

def waitsOn : Op → Option CondVar
  | .send (some _) flags => if isBlocking flags then some .notFull else none
  | .receive true flags => if isBlocking flags then some .notEmpty else none
  | _ => none

def isInit : Op → Bool
  | .init _ => true
  | _ => false

variable {op : Op} {d d' : BoundedDeque OSMessage} {r : Reply} {w : Option (Wake CondVar)}
  {cv : CondVar}

theorem deque_sleep (h : deque.body op d = .sleep cv) :
    waitsOn op = some cv ∧ available cv d = 0 := by
  cases op with
  | init size => cases h
  | send message flags =>
    cases message with
    | none => cases h
    | some m =>
      simp only [deque] at h
      split at h
      next => cases h
      next hfull =>
        split at h
        next hblock =>
          cases h
          exact ⟨if_pos hblock, Nat.sub_eq_zero_of_le (Nat.not_lt.1 hfull)⟩
        next => cases h
  | receive buffer flags =>
    cases buffer with
    | false => cases h
    | true =>
      simp only [deque] at h
      split at h
      next => cases h
      next hempty =>
        split at h
        next hblock =>
          cases h
          exact ⟨if_pos hblock, List.length_eq_zero_iff.2 hempty⟩
        next => cases h
  | peek buffer =>
    cases buffer with
    | false => cases h
    | true =>
      simp only [deque] at h
      split at h <;> cases h

theorem waitsOn_of_canSleep (h : deque.CanSleep op cv) : waitsOn op = some cv := by
  obtain ⟨d, hd⟩ := h
  exact (deque_sleep hd).1

theorem deque_done (hop : isInit op = false) (h : deque.body op d = .done r d' w) :
    (d' = d ∧ w = none ∧ waitsOn op = none) ∨
      (w = some (.one .notEmpty) ∧ d'.capacity = d.capacity ∧
        d'.items.length = d.items.length + 1 ∧ (waitsOn op).getD .notFull = .notFull) ∨
      (w = some (.one .notFull) ∧ d'.capacity = d.capacity ∧
        d'.items.length + 1 = d.items.length ∧ (waitsOn op).getD .notEmpty = .notEmpty) := by
  cases op with
  | init size => cases hop
  | send message flags =>
    cases message with
    | none =>
      cases h
      exact .inl ⟨rfl, rfl, rfl⟩
    | some m =>
      simp only [deque] at h
      split at h
      next hroom =>
        cases h
        refine .inr (.inl ⟨rfl, ?_, ?_, ?_⟩)
        · split <;> rfl
        · split
          next => rfl
          next => exact List.length_append
        · simp only [waitsOn]
          split <;> rfl
      next =>
        split at h
        next => cases h
        next hblock =>
          cases h
          exact .inl ⟨rfl, rfl, if_neg hblock⟩
  | receive buffer flags =>
    cases buffer with
    | false =>
      cases h
      exact .inl ⟨rfl, rfl, rfl⟩
    | true =>
      simp only [deque] at h
      split at h
      next m rest hitems =>
        cases h
        refine .inr (.inr ⟨rfl, rfl, ?_, ?_⟩)
        · change d.items.tail.length + 1 = d.items.length
          rw [hitems]
          rfl
        · simp only [waitsOn]
          split <;> rfl
      next =>
        split at h
        next => cases h
        next hblock =>
          cases h
          exact .inl ⟨rfl, rfl, if_neg hblock⟩
  | peek buffer =>
    cases buffer with
    | false =>
      cases h
      exact .inl ⟨rfl, rfl, rfl⟩
    | true =>
      simp only [deque] at h
      split at h <;> cases h <;> exact .inl ⟨rfl, rfl, rfl⟩

theorem deque_balanced :
    Balanced deque (fun op => isInit op = false) (fun _ => True) available where
  keeps _ _ _ _ _ _ _ _ := trivial
  one_cv op cv cv' h h' := by
    have hw := waitsOn_of_canSleep h
    rw [waitsOn_of_canSleep h'] at hw
    cases hw
    rfl
  sleeps_empty op d cv _ h := (deque_sleep h).2
  spends op d r d' w cv hop _ h hall hsleep := by
    have hbound := d'.bounded
    have hwait := waitsOn_of_canSleep hsleep
    rcases deque_done hop h with ⟨-, -, hw⟩ | ⟨rfl, hcap, hlen, hw⟩ | ⟨rfl, hcap, hlen, hw⟩
    · rw [hw] at hwait
      cases hwait
    · rw [hwait] at hw
      obtain rfl : cv = .notFull := hw
      change d'.capacity - d'.items.length + 1 ≤ d.capacity - d.items.length + 0
      omega
    · rw [hwait] at hw
      obtain rfl : cv = .notEmpty := hw
      change d'.items.length + 1 ≤ d.items.length + 0
      omega
  gives op d r d' w cv hop _ h hall := by
    have hbound := d.bounded
    rcases deque_done hop h with ⟨rfl, rfl, -⟩ | ⟨rfl, hcap, hlen, -⟩ | ⟨rfl, hcap, hlen, -⟩
    · exact Nat.le_add_right _ _
    · cases cv with
      | notEmpty => exact hlen.le
      | notFull =>
        change d'.capacity - d'.items.length ≤ d.capacity - d.items.length + 0
        omega
    · cases cv with
      | notEmpty =>
        change d'.items.length ≤ d.items.length + 0
        omega
      | notFull =>
        change d'.capacity - d'.items.length ≤ d.capacity - d.items.length + 1
        omega
  env _ _ _ h := h.elim

section NoLostWakeup

variable {τ : Type} [Fintype τ] [DecidableEq τ] {es : List (Event τ Op CondVar Reply)}
  {c : Config τ HostQueue Op CondVar} {q₀ q : HostQueue} {size : Int32}

theorem represents_of_init (hsize : 0 < size)
    (hinit : osInitMessageQueue q₀ size = .done .void q none) :
    Represents q (BoundedDeque.cleared size.toInt.toNat) := by
  rw [osInitMessageQueue, if_neg (Int32.not_le.2 hsize)] at hinit
  obtain ⟨-, rfl, -⟩ := Outcome.done.inj hinit
  exact ⟨Int32.toNat_toUInt32_of_le (Int32.le_of_lt hsize), Int32.toNatClampNeg_lt size,
    List.length_replicate, rfl, Ring.holds_replicate _ _⟩

omit [DecidableEq τ] in
theorem someone_woken {st : τ → Status Op CondVar} (h : 0 < wokenCount cv st) :
    ∃ t op, st t = .woken op cv := by
  obtain ⟨t, ht⟩ := tally_pos_iff.1 h
  obtain ⟨op, hop⟩ := Status.wokenOn_iff.1 ht
  exact ⟨t, op, hop⟩

theorem receive_of_waitsOn (h : waitsOn op = some .notEmpty) :
    ∃ flags, op = .receive true flags := by
  cases op with
  | init _ | peek _ => cases h
  | send message flags =>
    cases message with
    | none => cases h
    | some m =>
      simp only [waitsOn] at h
      split at h <;> cases h
  | receive buffer flags =>
    cases buffer with
    | false => cases h
    | true => exact ⟨flags, rfl⟩

theorem send_of_waitsOn (h : waitsOn op = some .notFull) :
    ∃ m flags, op = .send (some m) flags := by
  cases op with
  | init _ | peek _ => cases h
  | send message flags =>
    cases message with
    | none => cases h
    | some m => exact ⟨m, flags, rfl⟩
  | receive buffer flags =>
    cases buffer with
    | false => cases h
    | true =>
      simp only [waitsOn] at h
      split at h <;> cases h

structure NoLostWakeup (c : Config τ HostQueue Op CondVar) : Prop where
  receivers : ∀ t op, (c.status t).Waiting op .notEmpty → ∃ flags, op = .receive true flags
  senders : ∀ t op, (c.status t).Waiting op .notFull → ∃ m flags, op = .send (some m) flags
  messages : SomeoneAsleep .notEmpty c.status →
    c.shared.count.toNat ≤ wokenCount .notEmpty c.status
  slots : SomeoneAsleep .notFull c.status →
    c.shared.capacity.toNat - c.shared.count.toNat ≤ wokenCount .notFull c.status
  receiver_runs : SomeoneAsleep .notEmpty c.status → 0 < c.shared.count →
    ∃ t op, c.status t = .woken op .notEmpty
  sender_runs : SomeoneAsleep .notFull c.status → c.shared.count < c.shared.capacity →
    ∃ t op, c.status t = .woken op .notFull

theorem message_queue_no_lost_wakeup (hsize : 0 < size)
    (hinit : osInitMessageQueue q₀ size = .done .void q none)
    (run : Run program ⟨q, fun _ : τ => .idle⟩ es c)
    (hkeep : ∀ t n, Event.call t (.init n) ∉ es) : NoLostWakeup c := by
  obtain ⟨d, hrun, hrep⟩ := run.simulate program_simulates (represents_of_init hsize hinit)
  have hcov := hrun.covered deque_balanced (covered_of_idle trivial) fun t op hcall => by
    cases op with
    | init n => exact absurd hcall (hkeep t n)
    | send _ _ | receive _ _ | peek _ => rfl
  have hcount := hrep.count
  have hcap := hrep.capacity
  have hmessages : SomeoneAsleep .notEmpty c.status →
      d.items.length ≤ wokenCount .notEmpty c.status := hcov.covers .notEmpty
  have hslots : SomeoneAsleep .notFull c.status →
      d.capacity - d.items.length ≤ wokenCount .notFull c.status := hcov.covers .notFull
  constructor
  case receivers =>
    intro t op h
    exact receive_of_waitsOn (waitsOn_of_canSleep ((hcov.lawful t).canSleep h))
  case senders =>
    intro t op h
    exact send_of_waitsOn (waitsOn_of_canSleep ((hcov.lawful t).canSleep h))
  case messages =>
    rw [hcount]
    exact hmessages
  case slots =>
    rw [hcount, hcap]
    exact hslots
  case receiver_runs =>
    intro hsleep hpos
    rw [UInt32.lt_iff_toNat_lt, hcount] at hpos
    exact someone_woken ((Nat.zero_le _).trans_lt (hpos.trans_le (hmessages hsleep)))
  case sender_runs =>
    intro hsleep hroom
    rw [UInt32.lt_iff_toNat_lt, hcount, hcap] at hroom
    have hle := hslots hsleep
    exact someone_woken (by omega)

-- Two receivers sleep, one message arrives: one of them is woken, the other sleeps on.
theorem message_queue_no_lost_wakeup_three_threads :
    ∃ (es : List (Event (Fin 3) Op CondVar Reply)) (c : Config (Fin 3) HostQueue Op CondVar),
      Run program ⟨⟨[.zero], 0, 0, 1⟩, fun _ => .idle⟩ es c ∧
        SomeoneAsleep .notEmpty c.status ∧ c.shared.count = 1 ∧
        c.shared.count.toNat ≤ wokenCount .notEmpty c.status ∧
        ∃ t op, c.status t = .woken op .notEmpty := by
  have hinit : osInitMessageQueue HostObject.init 1 = .done .void ⟨[.zero], 0, 0, 1⟩ none := rfl
  have h0 : Run program ⟨⟨[.zero], 0, 0, 1⟩, fun _ : Fin 3 => .idle⟩ [] _ := .nil
  have h1 := h0.snoc (e := .call 0 (.receive true 1)) (.call rfl trivial)
  have h2 := h1.snoc (e := .slept 0 (.receive true 1) .notEmpty) (.slept (.inl rfl) rfl)
  have h3 := h2.snoc (e := .call 1 (.receive true 1)) (.call rfl trivial)
  have h4 := h3.snoc (e := .slept 1 (.receive true 1) .notEmpty) (.slept (.inl rfl) rfl)
  have h5 := h4.snoc (e := .call 2 (.send (some ⟨7, 1, 2, 3⟩) 0)) (.call rfl trivial)
  have h6 := h5.snoc (e := .returned 2 (.send (some ⟨7, 1, 2, 3⟩) 0) (.ret 1 none))
    (.returned (s := ⟨[⟨7, 1, 2, 3⟩], 0, 1, 1⟩) (w := some (.one .notEmpty)) (.inl rfl)
      (by decide +kernel) (.one (u := 0) rfl))
  have hsound := message_queue_no_lost_wakeup (show (0 : Int32) < 1 by decide) hinit h6 (by simp)
  exact ⟨_, _, h6, ⟨1, rfl⟩, rfl, hsound.messages ⟨1, rfl⟩,
    hsound.receiver_runs ⟨1, rfl⟩ (by decide)⟩

end NoLostWakeup

end CoreinitNx.MessageQueue
