import Mathlib.Data.List.Dedup

namespace Distinct

variable {α β : Type} [DecidableEq β] {f : α → β} {xs : List α} {values : List β}

-- How many values a function takes on a list.
def number (f : α → β) (xs : List α) : Nat := (xs.map f).dedup.length

theorem number_le : number f xs ≤ xs.length := by
  calc (xs.map f).dedup.length
      ≤ (xs.map f).length := (List.dedup_sublist _).length_le
    _ = xs.length := List.length_map f

theorem number_eq_zero_iff : number f xs = 0 ↔ xs = [] := by
  rw [number, List.length_eq_zero_iff, List.dedup_eq_nil, List.map_eq_nil_iff]

theorem number_eq_length_iff (h : xs.Nodup) :
    number f xs = xs.length ↔ ∀ x ∈ xs, ∀ y ∈ xs, f x = f y → x = y := by
  rw [← List.nodup_map_iff_inj_on h, ← List.dedup_eq_self, number]
  constructor
  · intro hlength
    exact (List.dedup_sublist _).eq_of_length (hlength.trans (List.length_map f).symm)
  · intro hself
    rw [hself, List.length_map]

-- A set of the values, however it was built, has that many.
theorem length_eq_number (h : values.Nodup) (hmem : ∀ b, b ∈ values ↔ ∃ x ∈ xs, f x = b) :
    values.length = number f xs := by
  refine ((List.perm_ext_iff_of_nodup h (List.nodup_dedup _)).2 fun b => ?_).length_eq
  rw [hmem, List.mem_dedup, List.mem_map]

theorem number_filter_eq_countP_iff {p q : α → Bool} (h : xs.Nodup)
    (hpq : ∀ x ∈ xs, p x = true → q x = true) :
    number f (xs.filter p) = xs.countP q ↔ (∀ x ∈ xs, q x = true → p x = true) ∧
      ∀ x ∈ xs, ∀ y ∈ xs, q x = true → q y = true → f x = f y → x = y := by
  have hcount : xs.countP p ≤ xs.countP q := List.countP_mono_left hpq
  have hle : number f (xs.filter p) ≤ (xs.filter p).length := number_le
  have hinj : number f (xs.filter p) = _ ↔ _ := number_eq_length_iff (h.filter p)
  simp only [List.mem_filter, and_imp] at hinj
  rw [← List.countP_eq_length_filter] at hle hinj
  constructor
  · intro heq
    have hboth : (xs.filter q).filter p = xs.filter p := by
      rw [List.filter_filter]
      refine List.filter_congr fun x hx => ?_
      cases hpx : p x with
      | false => rfl
      | true => rw [hpq x hx hpx, Bool.and_self]
    have hself : (xs.filter q).filter p = xs.filter q := by
      refine List.filter_sublist.eq_of_length ?_
      rw [hboth, ← List.countP_eq_length_filter, ← List.countP_eq_length_filter]
      omega
    have hback : ∀ x ∈ xs, q x = true → p x = true := fun x hx hqx =>
      List.filter_eq_self.1 hself x (List.mem_filter.2 ⟨hx, hqx⟩)
    refine ⟨hback, fun x hx y hy hqx hqy => ?_⟩
    exact hinj.1 (by omega) x hx (hback x hx hqx) y hy (hback y hy hqy)
  · rintro ⟨hback, hapart⟩
    have hsame : xs.countP q ≤ xs.countP p := List.countP_mono_left hback
    have hnumber := hinj.2 fun x hx hpx y hy hpy =>
      hapart x hx y hy (hpq x hx hpx) (hpq y hy hpy)
    omega

-- A set built one value after another.
theorem mem_foldl_insert {γ : Type} [BEq γ] [LawfulBEq γ] {xs set : List γ} {x : γ} :
    x ∈ xs.foldl (fun set a => set.insert a) set ↔ x ∈ set ∨ x ∈ xs := by
  induction xs generalizing set with
  | nil => simp
  | cons a xs ih =>
    rw [List.foldl_cons, ih, List.mem_insert_iff, List.mem_cons, or_comm (a := x = a), or_assoc]

end Distinct
