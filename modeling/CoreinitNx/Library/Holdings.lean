import Mathlib.Logic.Function.Basic
import CoreinitNx.Library.SlotTable

namespace SlotTable

variable {ω α : Type} {table : Table ω} {view : ω → Option α} {held : UInt32 → Option α}
  {handle handle' : UInt32} {x y : ω} {a : α}

-- `view` shows the objects, and `held` what stands behind each handle: an object of its own.
structure Shows [Zero ω] (table : Table ω) (view : ω → Option α) (held : UInt32 → Option α) :
    Prop where
  held_eq : ∀ handle, held handle = (find table handle).bind view
  shown : ∀ handle x, find table handle = some x → x ≠ 0 ∧ view x ≠ none
  apart : ∀ handle handle' x, find table handle = some x → find table handle' = some x →
    handle = handle'
  length_lt : table.length < 2 ^ 32

section Shows

variable [Zero ω]

theorem shows_nil (view : ω → Option α) : Shows ([] : Table ω) view fun _ => none where
  held_eq _ := by rw [find_nil, Option.bind_none]
  shown _ _ h := by
    rw [find_nil] at h
    cases h
  apart _ _ _ h _ := by
    rw [find_nil] at h
    cases h
  length_lt := Nat.two_pow_pos 32

namespace Shows

theorem found (h : Shows table view held) (hheld : held handle = some a) :
    ∃ x, find table handle = some x ∧ x ≠ 0 ∧ view x = some a := by
  rw [h.held_eq] at hheld
  obtain ⟨x, hx, hview⟩ := Option.bind_eq_some_iff.1 hheld
  exact ⟨x, hx, (h.shown handle x hx).1, hview⟩

theorem missing (h : Shows table view held) (hheld : held handle = none) :
    find table handle = none := by
  rw [h.held_eq] at hheld
  cases hfind : find table handle with
  | none => rfl
  | some x =>
    rw [hfind] at hheld
    exact absurd hheld (h.shown handle x hfind).2

variable [DecidableEq ω]

theorem store (h : Shows table view held) (hused : table.countP (·.used) < 2 ^ 32 - 1)
    (hx : x ≠ 0) (hnew : view x = none) :
    Shows (store table x).2 (Function.update view x (some a))
        (Function.update held (store table x).1 (some a)) ∧
      held (SlotTable.store table x).1 = none := by
  have room : Room table := ⟨h.length_lt, hused⟩
  have hself := find_store_self room (x := x)
  have hother {k : UInt32} (hk : k ≠ (SlotTable.store table x).1) := find_store_ne room (x := x) hk
  have hne {k : UInt32} {y : ω} (hy : find table k = some y) : y ≠ x := by
    rintro rfl
    exact (h.shown k y hy).2 hnew
  refine ⟨⟨fun k => ?_, fun k y hy => ?_, fun k k' y hy hy' => ?_, ?_⟩, ?_⟩
  · by_cases hk : k = (SlotTable.store table x).1
    · rw [hk, Function.update_self, hself, Option.bind_some, Function.update_self]
    · rw [Function.update_of_ne hk, hother hk, h.held_eq]
      cases hy : find table k with
      | none => rfl
      | some y => rw [Option.bind_some, Option.bind_some, Function.update_of_ne (hne hy)]
  · by_cases hk : k = (SlotTable.store table x).1
    · rw [hk, hself] at hy
      cases hy
      rw [Function.update_self]
      exact ⟨hx, nofun⟩
    · rw [hother hk] at hy
      rw [Function.update_of_ne (hne hy)]
      exact h.shown k y hy
  · by_cases hk : k = (SlotTable.store table x).1 <;> by_cases hk' : k' = (SlotTable.store table x).1
    · rw [hk, hk']
    · rw [hk, hself] at hy
      cases hy
      rw [hother hk'] at hy'
      exact absurd rfl (hne hy')
    · rw [hk', hself] at hy'
      cases hy'
      rw [hother hk] at hy
      exact absurd rfl (hne hy)
    · rw [hother hk] at hy
      rw [hother hk'] at hy'
      exact h.apart k k' y hy hy'
  · obtain ⟨_, _, _, _, _, _, hlen⟩ := store_spec room x
    exact hlen
  · rw [h.held_eq, find_store_slot room, Option.bind_none]

theorem update (h : Shows table view held) (hfind : find table handle = some x) :
    Shows table (Function.update view x (some a)) (Function.update held handle (some a)) where
  held_eq k := by
    by_cases hk : k = handle
    · rw [hk, Function.update_self, hfind, Option.bind_some, Function.update_self]
    · rw [Function.update_of_ne hk, h.held_eq]
      cases hy : find table k with
      | none => rfl
      | some y =>
        have hne : y ≠ x := by
          rintro rfl
          exact hk (h.apart k handle y hy hfind)
        rw [Option.bind_some, Option.bind_some, Function.update_of_ne hne]
  shown k y hy := by
    obtain ⟨hzero, hview⟩ := h.shown k y hy
    refine ⟨hzero, ?_⟩
    by_cases hyx : y = x
    · rw [hyx, Function.update_self]
      nofun
    · rwa [Function.update_of_ne hyx]
  apart := h.apart
  length_lt := h.length_lt

theorem release (h : Shows table view held) (hfind : find table handle = some x) :
    Shows (release table handle) (Function.update view x none)
      (Function.update held handle none) := by
  obtain ⟨hzero, -⟩ := find_eq_some.1 hfind
  have hother {k : UInt32} (hk : k ≠ handle) :
      find (SlotTable.release table handle) k = find table k := find_release_ne hzero hk
  have hkeep {k : UInt32} {y : ω} (hy : find (SlotTable.release table handle) k = some y) :
      k ≠ handle ∧ find table k = some y := by
    have hk : k ≠ handle := by
      rintro rfl
      rw [find_release_self] at hy
      cases hy
    rw [hother hk] at hy
    exact ⟨hk, hy⟩
  have hne {k : UInt32} {y : ω} (hk : k ≠ handle) (hy : find table k = some y) : y ≠ x := by
    rintro rfl
    exact hk (h.apart k handle y hy hfind)
  refine ⟨fun k => ?_, fun k y hy => ?_, fun k k' y hy hy' => ?_, ?_⟩
  · by_cases hk : k = handle
    · rw [hk, Function.update_self, find_release_self, Option.bind_none]
    · rw [Function.update_of_ne hk, hother hk, h.held_eq]
      cases hy : find table k with
      | none => rfl
      | some y => rw [Option.bind_some, Option.bind_some, Function.update_of_ne (hne hk hy)]
  · obtain ⟨hk, hy⟩ := hkeep hy
    rw [Function.update_of_ne (hne hk hy)]
    exact h.shown k y hy
  · exact h.apart k k' y (hkeep hy).2 (hkeep hy').2
  · rw [SlotTable.release, List.length_set]
    exact h.length_lt

end Shows

end Shows

end SlotTable
