import Mathlib.Data.List.Basic
import Mathlib.Data.List.Infix

namespace Search

-- The bytes of a literal of the program.
def ascii (s : String) : List UInt8 := s.toList.map fun c => c.toNat.toUInt8

variable {α : Type} [DecidableEq α] {needle text rest : List α} {i j : Nat}

-- Where the needle first occurs.
def firstAt (needle : List α) : List α → Option Nat
  | [] => if needle = [] then some 0 else none
  | x :: xs =>
    if needle <+: x :: xs then some 0 else (firstAt needle xs).map (· + 1)

-- The text up to the first occurrence of the needle.
def cutAt (needle text : List α) : List α :=
  match firstAt needle text with
  | some i => text.take i
  | none => text

theorem firstAt_eq_some_iff :
    firstAt needle text = some i ↔
      i ≤ text.length ∧ needle <+: text.drop i ∧ ∀ j < i, ¬needle <+: text.drop j := by
  induction text generalizing i with
  | nil =>
    rw [firstAt]
    split
    next hnil =>
      subst hnil
      constructor
      · intro h
        cases h
        exact ⟨Nat.le_refl 0, List.nil_prefix, fun _ hj => absurd hj (Nat.not_lt_zero _)⟩
      · rintro ⟨hle, -, -⟩
        rw [Nat.le_zero.1 hle]
    next hne =>
      refine iff_of_false nofun ?_
      rintro ⟨-, hpre, -⟩
      rw [List.drop_nil] at hpre
      exact hne (List.prefix_nil.1 hpre)
  | cons x xs ih =>
    rw [firstAt]
    split
    next hpre =>
      constructor
      · intro h
        cases h
        exact ⟨Nat.zero_le _, hpre, fun _ hj => absurd hj (Nat.not_lt_zero _)⟩
      · rintro ⟨-, -, hfirst⟩
        cases i with
        | zero => rfl
        | succ i => exact absurd hpre (hfirst 0 (Nat.succ_pos i))
    next hpre =>
      rw [Option.map_eq_some_iff]
      constructor
      · rintro ⟨i, hi, rfl⟩
        obtain ⟨hle, hat, hfirst⟩ := ih.1 hi
        refine ⟨Nat.succ_le_succ hle, hat, fun j hj => ?_⟩
        cases j with
        | zero => exact hpre
        | succ j => exact hfirst j (Nat.lt_of_succ_lt_succ hj)
      · rintro ⟨hle, hat, hfirst⟩
        cases i with
        | zero => exact absurd hat hpre
        | succ i =>
          exact ⟨i, ih.2 ⟨Nat.le_of_succ_le_succ hle, hat,
            fun j hj => hfirst (j + 1) (Nat.succ_lt_succ hj)⟩, rfl⟩

theorem firstAt_eq_none_iff : firstAt needle text = none ↔ ¬needle <:+: text := by
  induction text with
  | nil =>
    rw [firstAt, List.infix_nil]
    split <;> simp_all
  | cons x xs ih =>
    rw [firstAt, List.infix_cons_iff, not_or, ← ih]
    split
    next hpre => simp [hpre]
    next hpre => simp [hpre]

omit [DecidableEq α] in
theorem not_infix_of_not_mem {c : α} {tail : List α} (hc : c ∉ text) : ¬(c :: tail) <:+: text := by
  intro h
  exact hc (h.subset List.mem_cons_self)

-- Of a text whose cut has no letter of the needle's start: the text has nothing cut off, or the
-- needle comes right behind the cut.
theorem cutAt_eq_iff {c : α} {tail cut : List α} (hc : c ∉ cut) :
    cutAt (c :: tail) text = cut ↔ text = cut ∨ cut ++ c :: tail <+: text := by
  constructor
  · intro h
    rw [cutAt] at h
    split at h
    next i hi =>
      obtain ⟨-, ⟨rest, hrest⟩, -⟩ := firstAt_eq_some_iff.1 hi
      refine .inr ⟨rest, ?_⟩
      rw [List.append_assoc, hrest, ← h, List.take_append_drop]
    next => exact .inl h
  · rintro (rfl | ⟨rest, rfl⟩)
    · rw [cutAt, firstAt_eq_none_iff.2 (not_infix_of_not_mem hc)]
    · have hfirst : firstAt (c :: tail) (cut ++ c :: tail ++ rest) = some cut.length := by
        refine firstAt_eq_some_iff.2 ⟨?_, ?_, fun j hj hpre => ?_⟩
        · rw [List.append_assoc, List.length_append]
          exact Nat.le_add_right _ _
        · rw [List.append_assoc, List.drop_left]
          exact List.prefix_append _ _
        · rw [List.append_assoc, List.drop_append_of_le_length (Nat.le_of_lt hj),
            List.drop_eq_getElem_cons hj, List.cons_append, List.cons_prefix_cons] at hpre
          exact hc (hpre.1 ▸ List.getElem_mem hj)
      rw [cutAt, hfirst]
      dsimp only
      rw [List.append_assoc, List.take_left]

theorem cutAt_length_le : (cutAt needle text).length ≤ text.length := by
  rw [cutAt]
  split
  next => exact (List.take_prefix _ _).length_le
  next => exact Nat.le_refl _

end Search
