import Mathlib

namespace Tiling

variable {α β : Type} [LinearOrder α] {lo hi : β → α} {free : β → Prop}

-- `xs` covers [a, b) from left to right by nonempty pieces, each ending where the next starts.
def Tiles (lo hi : β → α) : List β → α → α → Prop
  | [], a, b => a = b
  | x :: xs, a, b => lo x = a ∧ lo x < hi x ∧ Tiles lo hi xs (hi x) b

def Separated (free : β → Prop) (xs : List β) : Prop := xs.IsChain fun x y => ¬(free x ∧ free y)

theorem tiles_append {xs ys : List β} {a c : α} :
    Tiles lo hi (xs ++ ys) a c ↔ ∃ b, Tiles lo hi xs a b ∧ Tiles lo hi ys b c := by
  induction xs generalizing a with
  | nil => simp [Tiles]
  | cons x xs ih =>
    simp only [List.cons_append, Tiles, ih]
    constructor
    · rintro ⟨hl, hp, b, hx, hy⟩
      exact ⟨b, ⟨hl, hp, hx⟩, hy⟩
    · rintro ⟨b, ⟨hl, hp, hx⟩, hy⟩
      exact ⟨hl, hp, b, hx, hy⟩

theorem Tiles.le {xs : List β} {a b : α} (h : Tiles lo hi xs a b) : a ≤ b := by
  induction xs generalizing a with
  | nil => exact le_of_eq h
  | cons x xs ih =>
    obtain ⟨rfl, hp, ht⟩ := h
    exact hp.le.trans (ih ht)

theorem Tiles.bounds {xs : List β} {a b : α} (h : Tiles lo hi xs a b) {x : β} (hx : x ∈ xs) :
    a ≤ lo x ∧ lo x < hi x ∧ hi x ≤ b := by
  induction xs generalizing a with
  | nil => simp at hx
  | cons y ys ih =>
    obtain ⟨rfl, hp, ht⟩ := h
    rcases List.mem_cons.1 hx with rfl | hx
    · exact ⟨le_rfl, hp, ht.le⟩
    · obtain ⟨h1, h2, h3⟩ := ih ht hx
      exact ⟨hp.le.trans h1, h2, h3⟩

theorem Tiles.pairwise {xs : List β} {a b : α} (h : Tiles lo hi xs a b) :
    xs.Pairwise fun x y => hi x ≤ lo y := by
  induction xs generalizing a with
  | nil => exact .nil
  | cons x xs ih =>
    obtain ⟨rfl, -, ht⟩ := h
    exact .cons (fun y hy => (ht.bounds hy).1) (ih ht)

theorem Tiles.eq_or_disjoint {xs : List β} {a b : α} (h : Tiles lo hi xs a b) {x y : β}
    (hx : x ∈ xs) (hy : y ∈ xs) : x = y ∨ hi x ≤ lo y ∨ hi y ≤ lo x := by
  induction xs generalizing a with
  | nil => simp at hx
  | cons z zs ih =>
    obtain ⟨rfl, hp, ht⟩ := h
    rcases List.mem_cons.1 hx with hxz | hxs <;> rcases List.mem_cons.1 hy with hyz | hys
    · exact .inl (hxz.trans hyz.symm)
    · exact .inr (.inl (hxz ▸ (ht.bounds hys).1))
    · exact .inr (.inr (hyz ▸ (ht.bounds hxs).1))
    · exact ih ht hxs hys

theorem Tiles.splice {pre mid post : List β} {x : β} {a b : α}
    (h : Tiles lo hi (pre ++ x :: post) a b) (hm : Tiles lo hi mid (lo x) (hi x)) :
    Tiles lo hi (pre ++ mid ++ post) a b := by
  obtain ⟨c, hpre, rfl, -, hpost⟩ := tiles_append.1 h
  exact tiles_append.2 ⟨_, tiles_append.2 ⟨_, hpre, hm⟩, hpost⟩

theorem Separated.splice {pre mid post : List β} {x : β} (h : Separated free (pre ++ x :: post))
    (hx : free x) (hm : Separated free mid) : Separated free (pre ++ mid ++ post) := by
  obtain ⟨hpre, htail, hleft⟩ := List.isChain_append.1 h
  obtain ⟨hright, hpost⟩ := List.isChain_cons.1 htail
  have hl : ∀ y ∈ pre.getLast?, ¬free y := fun y hy hf => hleft y hy x (by simp) ⟨hf, hx⟩
  have hr : ∀ y ∈ post.head?, ¬free y := fun y hy hf => hright y hy ⟨hx, hf⟩
  have hpm : Separated free (pre ++ mid) :=
    List.isChain_append.2 ⟨hpre, hm, fun y hy _ _ hf => hl y hy hf.1⟩
  exact List.isChain_append.2 ⟨hpm, hpost, fun _ _ z hz hf => hr z hz hf.2⟩

theorem tiles_map {f : β → β} (hlo : ∀ x, lo (f x) = lo x) (hhi : ∀ x, hi (f x) = hi x)
    {xs : List β} {a b : α} : Tiles lo hi (xs.map f) a b ↔ Tiles lo hi xs a b := by
  induction xs generalizing a with
  | nil => rfl
  | cons x xs ih => simp only [List.map_cons, Tiles, hlo, hhi, ih]

theorem separated_map {f : β → β} (hf : ∀ x, free (f x) ↔ free x) {xs : List β} :
    Separated free (xs.map f) ↔ Separated free xs := by
  simp only [Separated, List.isChain_map, hf]

def mergeFrom (free : β → Bool) (join : β → β → β) : β → List β → List β
  | x, [] => [x]
  | x, y :: ys =>
      if free x && free y then mergeFrom free join (join x y) ys
      else x :: mergeFrom free join y ys

def mergeFree (free : β → Bool) (join : β → β → β) : List β → List β
  | [] => []
  | x :: xs => mergeFrom free join x xs

-- Within [a, b) joining two adjacent free pieces gives the free piece that covers both.
structure Joins (lo hi : β → α) (free : β → Bool) (join : β → β → β) (a b : α) : Prop where
  free_join : ∀ x y, free x = true → free y = true → free (join x y) = true
  lo_join : ∀ x y, lo (join x y) = lo x
  hi_join : ∀ x y, a ≤ lo x → lo x < hi x → hi x = lo y → lo y < hi y → hi y ≤ b →
    hi (join x y) = hi y

section Merge

variable {free : β → Bool} {join : β → β → β} {a b : α}

theorem mergeFrom_tiles (hj : Joins lo hi free join a b) {x : β} {xs : List β}
    (ha : a ≤ lo x) (hp : lo x < hi x) (ht : Tiles lo hi xs (hi x) b) :
    Tiles lo hi (mergeFrom free join x xs) (lo x) b := by
  induction xs generalizing x with
  | nil => exact ⟨rfl, hp, ht⟩
  | cons y ys ih =>
    obtain ⟨hy, hpy, hys⟩ := ht
    simp only [mergeFrom]
    split
    · have hlo := hj.lo_join x y
      have hhi := hj.hi_join x y ha hp hy.symm hpy hys.le
      have hpj : lo (join x y) < hi (join x y) := by
        rw [hlo, hhi]; exact hp.trans (hy ▸ hpy)
      rw [← hlo]
      exact ih (hlo ▸ ha) hpj (by rwa [hhi])
    · refine ⟨rfl, hp, ?_⟩
      rw [← hy]
      exact ih (ha.trans (hp.le.trans (le_of_eq hy.symm))) hpy hys

theorem mergeFree_tiles {xs : List β} (hj : Joins lo hi free join a b)
    (ht : Tiles lo hi xs a b) : Tiles lo hi (mergeFree free join xs) a b := by
  cases xs with
  | nil => exact ht
  | cons x xs =>
    obtain ⟨rfl, hp, hxs⟩ := ht
    exact mergeFrom_tiles hj le_rfl hp hxs

theorem mergeFrom_head (hj : Joins lo hi free join a b) (x : β) (xs : List β) :
    ∃ z zs, mergeFrom free join x xs = z :: zs ∧ (free z = true ↔ free x = true) := by
  induction xs generalizing x with
  | nil => exact ⟨x, [], rfl, Iff.rfl⟩
  | cons y ys ih =>
    simp only [mergeFrom]
    split
    next h =>
      obtain ⟨hx, hy⟩ := (Bool.and_eq_true _ _).mp h
      obtain ⟨z, zs, hz, hf⟩ := ih (join x y)
      exact ⟨z, zs, hz, by simp [hf, hj.free_join x y hx hy, hx]⟩
    next => exact ⟨x, _, rfl, Iff.rfl⟩

theorem mergeFrom_separated (hj : Joins lo hi free join a b) (x : β) (xs : List β) :
    Separated (fun y => free y = true) (mergeFrom free join x xs) := by
  induction xs generalizing x with
  | nil => exact .singleton x
  | cons y ys ih =>
    simp only [mergeFrom]
    split
    next => exact ih _
    next h =>
      obtain ⟨z, zs, hz, hf⟩ := mergeFrom_head hj y ys
      have hs := ih y
      rw [hz] at hs ⊢
      refine List.isChain_cons.2 ⟨fun w hw => ?_, hs⟩
      obtain rfl : z = w := by simpa using hw
      rintro ⟨hfx, hfz⟩
      exact h (by simp [hfx, hf.1 hfz])

theorem mergeFree_separated (hj : Joins lo hi free join a b) (xs : List β) :
    Separated (fun y => free y = true) (mergeFree free join xs) := by
  cases xs with
  | nil => exact .nil
  | cons x xs => exact mergeFrom_separated hj x xs

theorem mem_mergeFrom_of_not_free (hj : Joins lo hi free join a b) {u : β}
    (hu : free u = false) (x : β) (xs : List β) :
    u ∈ mergeFrom free join x xs ↔ u ∈ x :: xs := by
  induction xs generalizing x with
  | nil => rfl
  | cons y ys ih =>
    simp only [mergeFrom]
    split
    next h =>
      obtain ⟨hx, hy⟩ := (Bool.and_eq_true _ _).mp h
      have hux : u ≠ x := fun e => by simp [e, hx] at hu
      have huy : u ≠ y := fun e => by simp [e, hy] at hu
      have huj : u ≠ join x y := fun e => by simp [e, hj.free_join x y hx hy] at hu
      simp [ih, hux, huy, huj]
    next => simp [ih]

theorem mem_mergeFree_of_not_free (hj : Joins lo hi free join a b) {u : β}
    (hu : free u = false) (xs : List β) : u ∈ mergeFree free join xs ↔ u ∈ xs := by
  cases xs with
  | nil => rfl
  | cons x xs => exact mem_mergeFrom_of_not_free hj hu x xs

theorem mergeFrom_forall {P : β → Prop}
    (hP : ∀ x y, free x = true → free y = true → P x → P y → P (join x y)) {x : β} {xs : List β}
    (hx : P x) (hxs : ∀ y ∈ xs, P y) : ∀ y ∈ mergeFrom free join x xs, P y := by
  induction xs generalizing x with
  | nil => simpa [mergeFrom] using hx
  | cons y ys ih =>
    have hy : P y := hxs y (by simp)
    have hys : ∀ z ∈ ys, P z := fun z hz => hxs z (by simp [hz])
    simp only [mergeFrom]
    split
    next h =>
      obtain ⟨hfx, hfy⟩ := (Bool.and_eq_true _ _).mp h
      exact ih (hP x y hfx hfy hx hy) hys
    next =>
      intro z hz
      rcases List.mem_cons.1 hz with rfl | hz
      · exact hx
      · exact ih hy hys z hz

theorem mergeFree_forall {P : β → Prop}
    (hP : ∀ x y, free x = true → free y = true → P x → P y → P (join x y)) {xs : List β}
    (hxs : ∀ y ∈ xs, P y) : ∀ y ∈ mergeFree free join xs, P y := by
  cases xs with
  | nil => exact hxs
  | cons x xs => exact mergeFrom_forall hP (hxs x (by simp)) fun y hy => hxs y (by simp [hy])

theorem filter_mergeFrom (hj : Joins lo hi free join a b) (x : β) (xs : List β) :
    (mergeFrom free join x xs).filter (fun y => !free y) = (x :: xs).filter fun y => !free y := by
  induction xs generalizing x with
  | nil => rfl
  | cons y ys ih =>
    simp only [mergeFrom]
    split
    next h =>
      obtain ⟨hx, hy⟩ := (Bool.and_eq_true _ _).mp h
      simp [ih, hj.free_join x y hx hy, hx, hy]
    next => rw [List.filter_cons, ih, List.filter_cons (x := x)]

theorem filter_mergeFree (hj : Joins lo hi free join a b) (xs : List β) :
    (mergeFree free join xs).filter (fun y => !free y) = xs.filter fun y => !free y := by
  cases xs with
  | nil => rfl
  | cons x xs => exact filter_mergeFrom hj x xs

end Merge

theorem Tiles.sum {lo hi : β → Nat} {xs : List β} {a b : Nat} (h : Tiles lo hi xs a b) :
    a + (xs.map fun x => hi x - lo x).sum = b := by
  induction xs generalizing a with
  | nil => exact h
  | cons x xs ih =>
    obtain ⟨rfl, hp, ht⟩ := h
    have := ih ht
    rw [List.map_cons, List.sum_cons]
    omega

theorem Tiles.not_mem_tail {y : β} {ys : List β} {b : α} (hp : lo y < hi y)
    (ht : Tiles lo hi ys (hi y) b) {x : β} (hx : lo x = lo y) : x ∉ ys := by
  intro hm
  have := (ht.bounds hm).1
  exact absurd (hx ▸ this) (not_le.2 hp)

-- A free head cannot stop short of another free head: a used piece would start inside it.
theorem Tiles.free_head_le {x y : β} {xs ys : List β} {b : α} (hx : Tiles lo hi xs (hi x) b)
    (hy : Tiles lo hi ys (hi y) b) (sx : Separated free (x :: xs)) (hfx : free x) (hfy : free y)
    (hused : ∀ u, ¬free u → u ∈ x :: xs → u ∈ y :: ys) : hi y ≤ hi x := by
  cases xs with
  | nil => exact hx.symm ▸ hy.le
  | cons u us =>
    have hfu : ¬free u := fun h => (List.isChain_cons.1 sx).1 u (by simp) ⟨hfx, h⟩
    have hne : u ≠ y := fun h => hfu (h ▸ hfy)
    have hm : u ∈ ys := (List.mem_cons.1 (hused u hfu (by simp))).resolve_left hne
    exact hx.1 ▸ (hy.bounds hm).1

theorem Tiles.head_eq {x y : β} {xs ys : List β} {a b : α} (hx : Tiles lo hi (x :: xs) a b)
    (hy : Tiles lo hi (y :: ys) a b) (sx : Separated free (x :: xs))
    (sy : Separated free (y :: ys)) (hused : ∀ u, ¬free u → (u ∈ x :: xs ↔ u ∈ y :: ys))
    (hfree : free x → free y → lo x = lo y → hi x = hi y → x = y) : x = y := by
  obtain ⟨hxa, hxp, hxs⟩ := hx
  obtain ⟨hya, hyp, hys⟩ := hy
  have hlo : lo x = lo y := hxa.trans hya.symm
  by_cases hfx : free x
  · by_cases hfy : free y
    · have hle := hxs.free_head_le hys sx hfx hfy fun u hu => (hused u hu).1
      have hge := hys.free_head_le hxs sy hfy hfx fun u hu => (hused u hu).2
      exact hfree hfx hfy hlo (le_antisymm hge hle)
    · have hm := List.mem_cons.1 ((hused y hfy).2 (by simp))
      exact (hm.resolve_right (hxs.not_mem_tail hxp hlo.symm)).symm
  · have hm := List.mem_cons.1 ((hused x hfx).1 (by simp))
    exact hm.resolve_right (hys.not_mem_tail hyp hlo)

-- Two tilings of one interval with no two free neighbours agree once their used pieces do.
theorem Tiles.eq_of_used {xs ys : List β} {a b : α} (hx : Tiles lo hi xs a b)
    (hy : Tiles lo hi ys a b) (sx : Separated free xs) (sy : Separated free ys)
    (hused : ∀ u, ¬free u → (u ∈ xs ↔ u ∈ ys))
    (hfree : ∀ x ∈ xs, ∀ y ∈ ys, free x → free y → lo x = lo y → hi x = hi y → x = y) :
    xs = ys := by
  induction xs generalizing a ys with
  | nil =>
    cases ys with
    | nil => rfl
    | cons y ys =>
      obtain ⟨rfl, hp, ht⟩ := hy
      exact absurd (hx ▸ ht.le) (not_le.2 hp)
  | cons x xs ih =>
    cases ys with
    | nil =>
      obtain ⟨rfl, hp, ht⟩ := hx
      exact absurd (hy ▸ ht.le) (not_le.2 hp)
    | cons y ys =>
      have hxy : x = y := hx.head_eq hy sx sy hused (hfree x (by simp) y (by simp))
      subst hxy
      obtain ⟨-, hp, hxs⟩ := hx
      obtain ⟨-, -, hys⟩ := hy
      congr 1
      refine ih hxs hys (List.isChain_cons.1 sx).2 (List.isChain_cons.1 sy).2 ?_ ?_
      · intro u hu
        have hiff := hused u hu
        by_cases hux : u = x
        · subst hux
          exact ⟨fun h => absurd h (hxs.not_mem_tail hp rfl),
            fun h => absurd h (hys.not_mem_tail hp rfl)⟩
        · simpa [hux] using hiff
      · exact fun p hp q hq => hfree p (by simp [hp]) q (by simp [hq])

end Tiling
