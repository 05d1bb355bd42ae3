import CoreinitNx.Library.Ring
import CoreinitNx.MessageQueue.Basic

namespace CoreinitNx.MessageQueue

open Monitor

-- What a queue is for: at most `capacity` messages, taken from the front.
structure BoundedDeque (α : Type) where
  capacity : Nat
  items : List α
  bounded : items.length ≤ capacity

namespace BoundedDeque

variable {α : Type}

def cleared (n : Nat) : BoundedDeque α := ⟨n, [], Nat.zero_le n⟩

def pushBack (d : BoundedDeque α) (x : α) (h : d.items.length < d.capacity) : BoundedDeque α :=
  ⟨d.capacity, d.items ++ [x], by rw [List.length_append]; exact h⟩

def pushFront (d : BoundedDeque α) (x : α) (h : d.items.length < d.capacity) : BoundedDeque α :=
  ⟨d.capacity, x :: d.items, h⟩

def popFront (d : BoundedDeque α) : BoundedDeque α :=
  ⟨d.capacity, d.items.tail, by
    have hbound := d.bounded
    rw [List.length_tail]
    omega⟩

end BoundedDeque

open BoundedDeque

def deque : Program (BoundedDeque OSMessage) Op CondVar Reply where
  body
    | .init size, d => .done .void (if 0 < size then cleared size.toInt.toNat else d) none
    | .send none _, d => .done (.ret 0 none) d none
    | .send (some m) flags, d =>
      if h : d.items.length < d.capacity then
        .done (.ret 1 none) (if isHighPriority flags then d.pushFront m h else d.pushBack m h)
          (some (.one .notEmpty))
      else if isBlocking flags then .sleep .notFull
      else .done (.ret 0 none) d none
    | .receive false _, d => .done (.ret 0 none) d none
    | .receive true flags, d =>
      match d.items with
      | m :: _ => .done (.ret 1 (some m)) d.popFront (some (.one .notFull))
      | [] => if isBlocking flags then .sleep .notEmpty else .done (.ret 0 none) d none
    | .peek false, d => .done (.ret 0 none) d none
    | .peek true, d =>
      match d.items with
      | m :: _ => .done (.ret 1 (some m)) d none
      | [] => .done (.ret 0 none) d none
  starts _ _ := True
  timed _ := False
  env _ _ := False

structure Represents (q : HostQueue) (d : BoundedDeque OSMessage) : Prop where
  capacity : q.capacity.toNat = d.capacity
  small : d.capacity < 2 ^ 31
  ring_length : q.ring.length = d.capacity
  count : q.count.toNat = d.items.length
  holds : Ring.Holds q.ring q.head.toNat d.items

-- The indices are in range and the sums of `osSendMessage` and `osReceiveMessage` do not wrap.
structure InRange (q : HostQueue) : Prop where
  ring_length : q.ring.length = q.capacity.toNat
  head_lt : 0 < q.capacity → q.head < q.capacity
  count_le : q.count ≤ q.capacity
  head_add_capacity : q.head.toNat + q.capacity.toNat < 2 ^ 32
  head_add_count : q.head.toNat + q.count.toNat < 2 ^ 32
  head_succ : q.head.toNat + 1 < 2 ^ 32
  count_succ : q.count.toNat + 1 < 2 ^ 32

theorem remainder_of_ne {a b : UInt32} (h : b ≠ 0) : remainder a b = some (a % b) := if_neg h

theorem toNat_ne_zero {a : UInt32} (h : 0 < a.toNat) : a ≠ 0 := by
  rintro rfl
  exact absurd h (by decide)

namespace Represents

variable {q : HostQueue} {d : BoundedDeque OSMessage} {m : OSMessage} {flags : OSMessageFlags}

theorem head_lt (h : Represents q d) : q.head.toNat < max 1 d.capacity := by
  rw [← h.ring_length]
  exact h.holds.head_lt

theorem inRange (h : Represents q d) : InRange q := by
  have hcap := h.capacity
  have hcount := h.count
  have hhead := h.head_lt
  have hsmall := h.small
  have hbound := d.bounded
  refine ⟨by rw [h.ring_length, hcap], fun hpos => ?_, ?_, by omega, by omega, by omega, by omega⟩
  · rw [UInt32.lt_iff_toNat_lt] at hpos ⊢
    change 0 < q.capacity.toNat at hpos
    omega
  · rw [UInt32.le_iff_toNat_le]
    omega

theorem full_iff (h : Represents q d) : q.count ≥ q.capacity ↔ ¬d.items.length < d.capacity := by
  rw [ge_iff_le, UInt32.le_iff_toNat_le, h.capacity, h.count]
  exact Nat.not_lt.symm

theorem empty_iff (h : Represents q d) : q.count = 0 ↔ d.items = [] := by
  rw [← UInt32.toNat_inj, h.count, ← List.length_eq_zero_iff]
  exact Iff.rfl

theorem capacity_ne_zero (h : Represents q d) (hroom : d.items.length < d.capacity) :
    q.capacity ≠ 0 := by
  have hcap := h.capacity
  exact toNat_ne_zero (by omega)

theorem init (size : Int32) (h : Represents q d) :
    (osInitMessageQueue q size).Matches Represents (deque.body (.init size) d) := by
  rw [osInitMessageQueue]
  by_cases hsize : size ≤ 0
  · have hneg : ¬0 < size := fun hpos => Int32.not_le.2 hpos hsize
    simp only [deque, if_pos hsize, if_neg hneg]
    exact .done h
  · have hpos : 0 < size := Int32.not_le.1 hsize
    have hle : 0 ≤ size := Int32.le_of_lt hpos
    have hn := Int32.toNat_toUInt32_of_le hle
    have hlt := Int32.toNatClampNeg_lt size
    simp only [deque, if_neg hsize, if_pos hpos]
    exact .done ⟨hn, hlt, List.length_replicate, rfl, Ring.holds_replicate _ _⟩

theorem succ_count (h : Represents q d) (hroom : d.items.length < d.capacity) :
    (q.count + 1).toNat = d.items.length + 1 := by
  have hcount := h.count
  have hsmall := h.small
  rw [UInt32.toNat_add, UInt32.toNat_one, Nat.mod_eq_of_lt (by omega), hcount]

theorem back_slot (h : Represents q d) :
    ((q.head + q.count) % q.capacity).toNat =
      (q.head.toNat + d.items.length) % q.ring.length := by
  have hrange := h.inRange.head_add_count
  rw [UInt32.toNat_mod, UInt32.toNat_add, Nat.mod_eq_of_lt hrange, h.count, h.capacity,
    h.ring_length]

theorem front_slot (h : Represents q d) (hroom : d.items.length < d.capacity) :
    ((q.head + q.capacity - 1) % q.capacity).toNat =
      (q.head.toNat + q.ring.length - 1) % q.ring.length := by
  have hrange := h.inRange.head_add_capacity
  have hcap := h.capacity
  have hsum : (q.head + q.capacity).toNat = q.head.toNat + q.capacity.toNat := by
    rw [UInt32.toNat_add, Nat.mod_eq_of_lt hrange]
  have hone : (1 : UInt32) ≤ q.head + q.capacity := by
    rw [UInt32.le_iff_toNat_le, hsum, UInt32.toNat_one]
    omega
  rw [UInt32.toNat_mod, UInt32.toNat_sub_of_le _ _ hone, hsum, UInt32.toNat_one, hcap,
    h.ring_length]

theorem next_slot (h : Represents q d) :
    ((q.head + 1) % q.capacity).toNat = (q.head.toNat + 1) % q.ring.length := by
  rw [UInt32.toNat_mod, UInt32.toNat_add, UInt32.toNat_one, Nat.mod_eq_of_lt h.inRange.head_succ,
    h.capacity, h.ring_length]

theorem write (h : Represents q d) (hroom : d.items.length < d.capacity) {slot i : UInt32}
    {n : Nat} (hslot : slot.toNat = n % q.ring.length) :
    { q with head := i }.write slot m =
      some { q with head := i, ring := q.ring.set slot.toNat m } := by
  have hlen := h.ring_length
  refine if_pos ?_
  change slot.toNat < q.ring.length
  rw [hslot]
  exact Nat.mod_lt _ (by omega)

theorem place (h : Represents q d) (m : OSMessage) (flags : OSMessageFlags)
    (hroom : d.items.length < d.capacity) :
    ∃ q', q.place m flags = some q' ∧
      Represents { q' with count := q'.count + 1 }
        (if isHighPriority flags then d.pushFront m hroom else d.pushBack m hroom) := by
  have hne := h.capacity_ne_zero hroom
  have hring : d.items.length < q.ring.length := by rw [h.ring_length]; exact hroom
  rw [HostQueue.place]
  by_cases hhigh : isHighPriority flags = true
  · have hslot := h.front_slot hroom
    rw [if_pos hhigh, if_pos hhigh, remainder_of_ne hne]
    refine ⟨_, h.write hroom hslot, h.capacity, h.small, ?_, h.succ_count hroom, ?_⟩
    · exact List.length_set.trans h.ring_length
    · change Ring.Holds (q.ring.set _ m) _ (m :: d.items)
      rw [hslot]
      exact h.holds.pushFront hring
  · have hslot := h.back_slot
    rw [if_neg hhigh, if_neg hhigh, remainder_of_ne hne]
    refine ⟨_, h.write hroom hslot, h.capacity, h.small, ?_, ?_, ?_⟩
    · exact List.length_set.trans h.ring_length
    · have hlen : (d.items ++ [m]).length = d.items.length + 1 := List.length_append
      exact (h.succ_count hroom).trans hlen.symm
    · change Ring.Holds (q.ring.set _ m) _ (d.items ++ [m])
      rw [hslot]
      exact h.holds.pushBack hring

theorem send (h : Represents q d) (message : Option OSMessage) (flags : OSMessageFlags) :
    (osSendMessage q message flags).Matches Represents (deque.body (.send message flags) d) := by
  cases message with
  | none => exact .done h
  | some m =>
    simp only [osSendMessage, deque]
    by_cases hroom : d.items.length < d.capacity
    · have hfull : ¬q.count ≥ q.capacity := fun hf => h.full_iff.1 hf hroom
      obtain ⟨q', hplace, hq'⟩ := h.place m flags hroom
      rw [if_neg hfull, dif_pos hroom, hplace]
      exact .done hq'
    · rw [if_pos (h.full_iff.2 hroom), dif_neg hroom]
      by_cases hblock : isBlocking flags = true
      · rw [if_pos hblock, if_pos hblock]
        exact .sleep
      · rw [if_neg hblock, if_neg hblock]
        exact .done h

theorem read (h : Represents q d) {rest : List OSMessage} (hitems : d.items = m :: rest) :
    q.read q.head = some m := by
  have hholds := h.holds
  rw [hitems] at hholds
  exact hholds.front

theorem receive (h : Represents q d) (buffer : Bool) (flags : OSMessageFlags) :
    (osReceiveMessage q buffer flags).Matches Represents
      (deque.body (.receive buffer flags) d) := by
  cases buffer with
  | false => exact .done h
  | true =>
    simp only [osReceiveMessage, deque, if_true]
    cases hitems : d.items with
    | nil =>
      rw [if_pos (h.empty_iff.2 hitems)]
      by_cases hblock : isBlocking flags = true
      · rw [if_pos hblock, if_pos hblock]
        exact .sleep
      · rw [if_neg hblock, if_neg hblock]
        exact .done h
    | cons m rest =>
      have hcount : q.count ≠ 0 := fun h0 => by
        rw [h.empty_iff.1 h0] at hitems
        cases hitems
      have hbound := d.bounded
      have hlen := h.count
      rw [hitems, List.length_cons] at hbound hlen
      have hcap : 0 < q.capacity.toNat := by
        rw [h.capacity]
        omega
      rw [if_neg hcount, h.read hitems, remainder_of_ne (toNat_ne_zero hcap)]
      refine .done ⟨h.capacity, h.small, h.ring_length, ?_, ?_⟩
      · have hone : (1 : UInt32) ≤ q.count := by
          rw [UInt32.le_iff_toNat_le, hlen]
          exact Nat.succ_le_succ (Nat.zero_le _)
        change (q.count - 1).toNat = d.items.tail.length
        rw [UInt32.toNat_sub_of_le _ _ hone, hlen, hitems]
        rfl
      · change Ring.Holds q.ring ((q.head + 1) % q.capacity).toNat d.items.tail
        have hholds := h.holds
        rw [hitems] at hholds ⊢
        rw [h.next_slot]
        exact hholds.popFront

theorem peek (h : Represents q d) (buffer : Bool) :
    (osPeekMessage q buffer).Matches Represents (deque.body (.peek buffer) d) := by
  cases buffer with
  | false => exact .done h
  | true =>
    simp only [osPeekMessage, deque, if_true]
    have hpos : q.count > 0 ↔ d.items ≠ [] := by
      rw [gt_iff_lt, UInt32.pos_iff_ne_zero, ne_eq, h.empty_iff]
    cases hitems : d.items with
    | nil =>
      rw [if_neg fun h0 => hpos.1 h0 hitems]
      exact .done h
    | cons m rest =>
      rw [if_pos (hpos.2 (by rw [hitems]; exact List.cons_ne_nil _ _)), h.read hitems]
      exact .done h

end Represents

theorem program_simulates : Simulates Represents program deque where
  body op q d h := by
    cases op with
    | init size => exact h.init size
    | send message flags => exact h.send message flags
    | receive buffer flags => exact h.receive buffer flags
    | peek buffer => exact h.peek buffer
  starts _ _ _ _ _ := trivial
  timed _ := False.elim
  env _ _ _ _ := False.elim

theorem represents_init : Represents HostObject.init (cleared 0) :=
  ⟨rfl, by decide, rfl, rfl, Ring.holds_replicate 0 OSMessage.zero⟩

-- A queue starts as `HandleTable.get` makes it, so that calls may come before any `init`.
theorem message_queue_refines_deque {τ : Type} [DecidableEq τ]
    {es : List (Event τ Op CondVar Reply)} {c : Config τ HostQueue Op CondVar}
    (run : Run program ⟨HostObject.init, fun _ => .idle⟩ es c) :
    ∃ d : BoundedDeque OSMessage,
      Run deque ⟨cleared 0, fun _ => .idle⟩ es ⟨d, c.status⟩ ∧ Represents c.shared d ∧
        InRange c.shared ∧ ∀ op, program.body op c.shared ≠ .fault := by
  obtain ⟨d, hrun, hrep⟩ := run.simulate program_simulates represents_init
  refine ⟨d, hrun, hrep, hrep.inRange, fun op hfault => ?_⟩
  have hm := program_simulates.body op _ _ hrep
  rw [hfault] at hm
  cases hm

-- One thread blocks on the full queue, the other makes room and the blocked send goes in front.
theorem message_queue_refines_deque_two_threads :
    ∃ (es : List (Event Bool Op CondVar Reply)) (c : Config Bool HostQueue Op CondVar)
      (d : BoundedDeque OSMessage),
      Run deque ⟨cleared 0, fun _ => .idle⟩ es ⟨d, c.status⟩ ∧ Represents c.shared d ∧
        InRange c.shared ∧ (∀ op, program.body op c.shared ≠ .fault) ∧ c.shared.count = 2 := by
  have h0 : Run program ⟨HostObject.init, fun _ : Bool => .idle⟩ [] _ := .nil
  have h1 := h0.snoc (e := .call true (.init 2)) (.call rfl trivial)
  have h2 := h1.snoc (e := .returned true _ _)
    (.returned (s := ⟨[.zero, .zero], 0, 0, 2⟩) (.inl rfl) rfl (.none _))
  have h3 := h2.snoc (e := .call true (.send (some ⟨1, 1, 2, 3⟩) 0)) (.call rfl trivial)
  have h4 := h3.snoc (e := .returned true _ _)
    (.returned (s := ⟨[⟨1, 1, 2, 3⟩, .zero], 0, 1, 2⟩) (.inl rfl) rfl (.nobody (by decide)))
  have h5 := h4.snoc (e := .call true (.send (some ⟨2, 1, 2, 3⟩) 0)) (.call rfl trivial)
  have h6 := h5.snoc (e := .returned true _ _)
    (.returned (s := ⟨[⟨1, 1, 2, 3⟩, ⟨2, 1, 2, 3⟩], 0, 2, 2⟩) (.inl rfl) rfl (.nobody (by decide)))
  have h7 := h6.snoc (e := .call false (.send (some ⟨3, 1, 2, 3⟩) 3)) (.call rfl trivial)
  have h8 := h7.snoc (e := .slept false _ _) (.slept (.inl rfl) rfl)
  have h9 := h8.snoc (e := .call true (.receive true 0)) (.call rfl trivial)
  have h10 := h9.snoc (e := .returned true _ _)
    (.returned (s := ⟨[⟨1, 1, 2, 3⟩, ⟨2, 1, 2, 3⟩], 1, 1, 2⟩)
      (r := .ret 1 (some ⟨1, 1, 2, 3⟩)) (w := some (.one .notFull))
      (.inl rfl) (by decide +kernel) (.one (u := false) rfl))
  have h11 := h10.snoc (e := .returned false (.send (some ⟨3, 1, 2, 3⟩) 3) (.ret 1 none))
    (.returned (s := ⟨[⟨3, 1, 2, 3⟩, ⟨2, 1, 2, 3⟩], 0, 2, 2⟩) (w := some (.one .notEmpty))
      (.inr ⟨.notFull, rfl⟩) (by decide +kernel) (.nobody (by decide)))
  obtain ⟨d, hrun, hrep, hrange, hfault⟩ := message_queue_refines_deque h11
  exact ⟨_, _, d, hrun, hrep, hrange, hfault, rfl⟩

end CoreinitNx.MessageQueue
