import Mathlib.Algebra.Order.Group.Nat
import Mathlib.Data.List.Basic

namespace Ring

variable {α : Type} {ring items : List α} {head : Nat} {x : α}

-- `items` is what the ring holds, oldest first, from slot `head` on and around the end.
structure Holds (ring : List α) (head : Nat) (items : List α) : Prop where
  room : items.length ≤ ring.length
  head_lt : head < max 1 ring.length
  get : ∀ i, i < items.length → ring[(head + i) % ring.length]? = items[i]?

theorem slot_eq {n h i : Nat} (hh : h < n) (hi : i < n) :
    (h + i) % n = if h + i < n then h + i else h + i - n := by
  split
  next hlt => exact Nat.mod_eq_of_lt hlt
  next hge =>
    rw [Nat.mod_eq_sub_mod (Nat.not_lt.1 hge)]
    exact Nat.mod_eq_of_lt (by omega)

theorem slot_ne {n h i j : Nat} (hh : h < n) (hi : i < n) (hj : j < n) (hne : i ≠ j) :
    (h + i) % n ≠ (h + j) % n := by
  rw [slot_eq hh hi, slot_eq hh hj]
  split <;> split <;> omega

theorem slot_pred {n h : Nat} (hh : h < n) {i : Nat} (hi : i + 1 < n + 1) :
    ((h + n - 1) % n + i) % n = if i = 0 then (h + n - 1) % n else (h + (i - 1)) % n := by
  split
  next hz => rw [hz, Nat.add_zero, Nat.mod_mod]
  next hz =>
    rw [Nat.mod_add_mod]
    have hshape : h + n - 1 + i = h + (i - 1) + n := by omega
    rw [hshape, Nat.add_mod_right]

theorem slot_succ {n h i : Nat} : ((h + 1) % n + i) % n = (h + (i + 1)) % n := by
  rw [Nat.mod_add_mod, Nat.add_assoc, Nat.add_comm 1 i]

theorem holds_replicate (n : Nat) (d : α) : Holds (List.replicate n d) 0 [] :=
  ⟨Nat.zero_le _, by omega, fun i hi => absurd hi (Nat.not_lt_zero i)⟩

namespace Holds

theorem pushBack (h : Holds ring head items) (hroom : items.length < ring.length) :
    Holds (ring.set ((head + items.length) % ring.length) x) head (items ++ [x]) := by
  have hh : head < ring.length := lt_of_lt_of_le h.head_lt (by omega)
  refine ⟨by rw [List.length_append, List.length_set, List.length_singleton]; exact hroom,
    by rw [List.length_set]; exact h.head_lt, ?_⟩
  intro i hi
  rw [List.length_append, List.length_singleton] at hi
  rw [List.length_set]
  rcases Nat.lt_succ_iff_lt_or_eq.1 hi with hlt | rfl
  · rw [List.getElem?_set_ne (slot_ne hh hroom (by omega) (by omega)), h.get i hlt,
      List.getElem?_append_left hlt]
  · rw [List.getElem?_set_self (Nat.mod_lt _ (by omega)), List.getElem?_append_right le_rfl]
    simp

theorem pushFront (h : Holds ring head items) (hroom : items.length < ring.length) :
    Holds (ring.set ((head + ring.length - 1) % ring.length) x)
      ((head + ring.length - 1) % ring.length) (x :: items) := by
  have hh : head < ring.length := lt_of_lt_of_le h.head_lt (by omega)
  have hpos : 0 < ring.length := by omega
  have hnew : (head + ring.length - 1) % ring.length < ring.length := Nat.mod_lt _ hpos
  refine ⟨by rw [List.length_cons, List.length_set]; exact hroom,
    by rw [List.length_set]; omega, ?_⟩
  intro i hi
  rw [List.length_cons] at hi
  rw [List.length_set, slot_pred hh (by omega)]
  cases i with
  | zero => rw [if_pos rfl, List.getElem?_set_self hnew]; rfl
  | succ j =>
    have hprev : (head + ring.length - 1) % ring.length = (head + (ring.length - 1)) % ring.length := by
      rw [Nat.add_sub_assoc hpos]
    have hne := slot_ne hh (i := ring.length - 1) (j := j) (by omega) (by omega) (by omega)
    rw [if_neg (Nat.succ_ne_zero j), Nat.add_sub_cancel, hprev, List.getElem?_set_ne hne,
      h.get j (by omega), List.getElem?_cons_succ]

theorem front (h : Holds ring head (x :: items)) : ring[head]? = some x := by
  have hlen : 0 < ring.length := lt_of_lt_of_le (Nat.succ_pos _) h.room
  have hh : head < ring.length := lt_of_lt_of_le h.head_lt (by omega)
  have hget := h.get 0 (Nat.succ_pos _)
  rwa [Nat.add_zero, Nat.mod_eq_of_lt hh] at hget

theorem popFront (h : Holds ring head (x :: items)) :
    Holds ring ((head + 1) % ring.length) items := by
  have hroom := h.room
  rw [List.length_cons] at hroom
  have hnew : (head + 1) % ring.length < ring.length := Nat.mod_lt _ (by omega)
  refine ⟨by omega, lt_of_lt_of_le hnew (by omega), ?_⟩
  intro i hi
  rw [slot_succ, h.get (i + 1) (by rw [List.length_cons]; omega), List.getElem?_cons_succ]

end Holds

end Ring
