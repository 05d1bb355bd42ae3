import Mathlib.Data.List.Basic
import Mathlib.Data.List.Infix

namespace Paths

variable {α : Type} [DecidableEq α]

def IsAbsolute (sep : α) (path : List α) : Prop := path.head? = some sep

instance (sep : α) (path : List α) : Decidable (IsAbsolute sep path) :=
  inferInstanceAs (Decidable (path.head? = some sep))

def join (sep : α) (base path : List α) : List α :=
  if base.getLast? = some sep then base ++ path else base ++ sep :: path

def enter (sep : α) (base path : List α) : List α :=
  if IsAbsolute sep path then path else join sep base path

-- The path is the key, or goes on from it with a new component.
def Covers (sep : α) (key path : List α) : Prop :=
  key <+: path ∧ (key = path ∨ key.getLast? = some sep ∨ path[key.length]? = some sep)

def squeeze (sep : α) : List α → List α
  | [] => []
  | x :: xs => if x = sep ∧ IsAbsolute sep xs then squeeze sep xs else x :: squeeze sep xs

variable {sep x : α} {base path key xs ys zs : List α}

omit [DecidableEq α] in
theorem isAbsolute_append (h : IsAbsolute sep xs) (ys : List α) : IsAbsolute sep (xs ++ ys) := by
  cases xs with
  | nil => cases h
  | cons x xs => exact h

theorem isAbsolute_join (h : IsAbsolute sep base) (path : List α) :
    IsAbsolute sep (join sep base path) := by
  rw [join]
  split <;> exact isAbsolute_append h _

theorem isAbsolute_enter (h : IsAbsolute sep base) (path : List α) :
    IsAbsolute sep (enter sep base path) := by
  rw [enter]
  split
  next habs => exact habs
  next => exact isAbsolute_join h path

theorem isAbsolute_foldl_enter (h : IsAbsolute sep base) (paths : List (List α)) :
    IsAbsolute sep (paths.foldl (enter sep) base) := by
  induction paths generalizing base with
  | nil => exact h
  | cons path paths ih => exact ih (isAbsolute_enter h path)

-- Nothing of the paths before an absolute one is left.
theorem foldl_enter_getLast {paths : List (List α)}
    (h : IsAbsolute sep ((base :: paths).getLast (List.cons_ne_nil base paths))) :
    paths.foldl (enter sep) base = (base :: paths).getLast (List.cons_ne_nil base paths) := by
  rcases List.eq_nil_or_concat paths with rfl | ⟨before, last, rfl⟩
  · rfl
  · simp only [List.concat_eq_append, ← List.cons_append, List.getLast_append_singleton] at h ⊢
    rw [List.foldl_append, List.foldl_cons, List.foldl_nil, enter, if_pos h]

theorem head?_squeeze (xs : List α) : (squeeze sep xs).head? = xs.head? := by
  induction xs with
  | nil => rfl
  | cons x xs ih =>
    simp only [squeeze]
    split
    next h =>
      rw [ih, h.1]
      exact h.2
    next => rfl

theorem isAbsolute_squeeze_append (xs ys : List α) :
    IsAbsolute sep (squeeze sep xs ++ ys) ↔ IsAbsolute sep (xs ++ ys) := by
  simp only [IsAbsolute, List.head?_append, head?_squeeze]

theorem squeeze_append (xs ys : List α) :
    squeeze sep (squeeze sep xs ++ ys) = squeeze sep (xs ++ ys) := by
  induction xs with
  | nil => rfl
  | cons x xs ih =>
    rw [List.cons_append, squeeze, squeeze]
    by_cases h : x = sep ∧ IsAbsolute sep xs
    · rw [if_pos h, if_pos ⟨h.1, isAbsolute_append h.2 ys⟩, ih]
    · rw [if_neg h, List.cons_append, squeeze]
      simp only [isAbsolute_squeeze_append, ih]

theorem squeeze_append_congr (h : squeeze sep xs = squeeze sep ys) (zs : List α) :
    squeeze sep (xs ++ zs) = squeeze sep (ys ++ zs) := by
  rw [← squeeze_append xs, h, squeeze_append]

theorem filter_squeeze (xs : List α) :
    (squeeze sep xs).filter (fun x => x ≠ sep) = xs.filter fun x => x ≠ sep := by
  induction xs with
  | nil => rfl
  | cons x xs ih =>
    rw [squeeze]
    split
    next h =>
      rw [ih, List.filter_cons_of_neg (by simp [h.1])]
    next => rw [List.filter_cons, List.filter_cons, ih]

theorem mem_of_squeeze_eq (h : squeeze sep xs = squeeze sep ys) (hmem : x ∈ xs) (hne : x ≠ sep) :
    x ∈ ys := by
  have hfilter := congrArg (List.filter fun x => x ≠ sep) h
  rw [filter_squeeze, filter_squeeze] at hfilter
  have hboth : x ∈ ys.filter fun x => x ≠ sep := by
    rw [← hfilter]
    exact List.mem_filter.2 ⟨hmem, decide_eq_true hne⟩
  exact (List.mem_filter.1 hboth).1

end Paths
