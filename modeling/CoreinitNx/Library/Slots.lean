import Mathlib.Tactic.Common

namespace Slots

-- A fixed table, searched from its first slot on.
variable {α : Type} {n i : Nat} {slots : Vector α n} {x y : α} {p : α → Bool}

theorem first_eq_some_iff : slots.toList.findIdx? p = some i ↔
    (∃ x, slots[i]? = some x ∧ p x = true) ∧
      ∀ (j : Nat) (x : α), j < i → slots[j]? = some x → p x = false := by
  rw [List.findIdx?_eq_some_iff_getElem]
  constructor
  · rintro ⟨hi, hfound, hbefore⟩
    rw [Vector.getElem_toList] at hfound
    rw [Vector.length_toList] at hi
    refine ⟨⟨slots[i], Vector.getElem?_eq_getElem hi, hfound⟩, fun j x hj hx => ?_⟩
    obtain ⟨hlt, rfl⟩ := Vector.getElem?_eq_some_iff.1 hx
    have hno := hbefore j hj
    rw [Vector.getElem_toList] at hno
    exact Bool.eq_false_iff.2 hno
  · rintro ⟨⟨x, hx, hfound⟩, hbefore⟩
    obtain ⟨hi, rfl⟩ := Vector.getElem?_eq_some_iff.1 hx
    refine ⟨by rwa [Vector.length_toList], by rwa [Vector.getElem_toList], fun j hj => ?_⟩
    have hno := hbefore j _ hj (Vector.getElem?_eq_getElem (Nat.lt_trans hj hi))
    rw [Vector.getElem_toList]
    exact Bool.eq_false_iff.1 hno

theorem first_eq_none_iff : slots.toList.findIdx? p = none ↔
    ∀ (i : Nat) (x : α), slots[i]? = some x → p x = false := by
  rw [List.findIdx?_eq_none_iff]
  constructor
  · intro hall i x hx
    rw [← Vector.getElem?_toList] at hx
    exact hall x (List.mem_of_getElem? hx)
  · intro hall x hmem
    obtain ⟨i, hx⟩ := List.getElem?_of_mem hmem
    rw [Vector.getElem?_toList] at hx
    exact hall i x hx

theorem find?_ofFn_eq_some_iff {f : Fin n → α} :
    (List.ofFn f).find? p = some x ↔
      p x = true ∧ ∃ i, f i = x ∧ ∀ j < i, p (f j) = false := by
  rw [List.find?_eq_some_iff_getElem]
  refine and_congr_right fun _ => ?_
  constructor
  · rintro ⟨i, hi, hx, hbefore⟩
    rw [List.length_ofFn] at hi
    rw [List.getElem_ofFn] at hx
    refine ⟨⟨i, hi⟩, hx, fun j hj => ?_⟩
    have hno := hbefore j hj
    rwa [List.getElem_ofFn, Bool.not_eq_true'] at hno
  · rintro ⟨i, hx, hbefore⟩
    refine ⟨i, by rw [List.length_ofFn]; exact i.isLt, by rwa [List.getElem_ofFn], fun j hj => ?_⟩
    rw [List.getElem_ofFn, hbefore ⟨j, Nat.lt_trans hj i.isLt⟩ hj, Bool.not_false]

theorem lt_of_slot (hx : slots[i]? = some x) : i < n := (Vector.getElem?_eq_some_iff.1 hx).1

theorem slot_set (hx : slots[i]? = some x) (j : Nat) :
    (slots.setIfInBounds i y)[j]? = if i = j then some y else slots[j]? := by
  rw [Vector.getElem?_setIfInBounds, if_pos (lt_of_slot hx)]

section Lists

variable {xs : List α} {k : Nat}

theorem concat_eq_some_iff : (xs ++ [x])[k]? = some y ↔ xs[k]? = some y ∨ k = xs.length ∧ y = x := by
  rcases Nat.lt_trichotomy k xs.length with hlt | rfl | hgt
  · rw [List.getElem?_append_left hlt]
    exact (or_iff_left fun hlast => Nat.ne_of_lt hlt hlast.1).symm
  · rw [List.getElem?_concat_length, List.getElem?_eq_none (Nat.le_refl _)]
    simp [eq_comm]
  · have hend : (xs ++ [x]).length ≤ k := by
      rw [List.length_append]
      exact hgt
    rw [List.getElem?_eq_none hend, List.getElem?_eq_none (Nat.le_of_lt hgt)]
    simp [Nat.ne_of_gt hgt]

theorem list_set (hx : xs[i]? = some x) (j : Nat) :
    (xs.set i y)[j]? = if i = j then some y else xs[j]? := by
  obtain ⟨hi, -⟩ := List.getElem?_eq_some_iff.1 hx
  rw [List.getElem?_set, if_pos hi]

end Lists

end Slots
