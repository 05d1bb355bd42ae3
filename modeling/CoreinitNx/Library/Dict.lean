import Mathlib

-- A map that keeps its entries in the order in which their keys came.
structure Dict (α β : Type) where
  entries : List (α × β)
  nodup : (entries.map Prod.fst).Nodup

namespace Dict

variable {α β : Type}

def empty : Dict α β := ⟨[], .nil⟩

def isEmpty (d : Dict α β) : Bool := d.entries.isEmpty

def mapEntries (f : α → β → β) (d : Dict α β) : Dict α β where
  entries := d.entries.map fun p => (p.1, f p.1 p.2)
  nodup := by
    rw [List.map_map]
    exact d.nodup

section

variable [DecidableEq α] {d : Dict α β} {a k : α} {b : β} {f : β → β}

def get? (d : Dict α β) (k : α) : Option β := d.entries.lookup k

def adjust (a : α) (f : β → β) (d : Dict α β) : Dict α β :=
  d.mapEntries fun k b => if k = a then f b else b

def setDefault (a : α) (b : β) (d : Dict α β) : Dict α β :=
  if h : a ∈ d.entries.map Prod.fst then d
  else
    { entries := d.entries ++ [(a, b)]
      nodup := by
        rw [List.map_append, List.nodup_append]
        refine ⟨d.nodup, List.nodup_singleton _, ?_⟩
        intro x hx y hy heq
        rw [List.map_singleton, List.mem_singleton] at hy
        rw [heq, hy] at hx
        exact h hx }

def set (a : α) (b : β) (d : Dict α β) : Dict α β := (d.setDefault a b).adjust a fun _ => b

def erase (a : α) (d : Dict α β) : Dict α β where
  entries := d.entries.filter fun p => p.1 ≠ a
  nodup := d.nodup.sublist (List.filter_sublist.map Prod.fst)

def total (f : β → Nat) (d : Dict α β) : Nat := (d.entries.map fun p => f p.2).sum

theorem get?_empty : (empty : Dict α β).get? k = none := rfl

theorem get?_mapEntries {f : α → β → β} : (d.mapEntries f).get? k = (d.get? k).map (f k) := by
  simp only [get?, mapEntries]
  induction d.entries with
  | nil => rfl
  | cons p entries ih =>
    obtain ⟨x, y⟩ := p
    by_cases hx : k = x
    · subst hx
      simp
    · rw [List.map_cons, List.lookup_cons, List.lookup_cons, beq_false_of_ne hx]
      exact ih

theorem get?_adjust :
    (d.adjust a f).get? k = if k = a then (d.get? k).map f else d.get? k := by
  rw [adjust, get?_mapEntries]
  split
  next => rfl
  next => exact congrFun Option.map_id _

theorem get?_eq_none_iff : d.get? k = none ↔ k ∉ d.entries.map Prod.fst := by
  rw [get?, List.lookup_eq_none_iff]
  simp only [List.mem_map, not_exists, not_and, bne_iff_ne]
  exact ⟨fun h p hp hk => h p hp hk.symm, fun h p hp hk => h p hp hk.symm⟩

theorem get?_eq_some_iff : d.get? k = some b ↔ (k, b) ∈ d.entries := by
  obtain ⟨entries, hnodup⟩ := d
  simp only [get?]
  induction entries with
  | nil => exact iff_of_false (Option.some_ne_none b).symm List.not_mem_nil
  | cons p entries ih =>
    obtain ⟨x, y⟩ := p
    obtain ⟨hx, hnodup⟩ := List.nodup_cons.1 hnodup
    rw [List.lookup_cons, List.mem_cons, Prod.mk.injEq]
    cases hkx : k == x with
    | true =>
      obtain rfl := eq_of_beq hkx
      have habsent : (k, b) ∉ entries := fun hmem =>
        hx (List.mem_map.2 ⟨(k, b), hmem, rfl⟩)
      rw [or_iff_left habsent, eq_self_iff_true, true_and]
      exact Option.some_inj.trans eq_comm
    | false =>
      have hne : k ≠ x := fun heq => by simp [heq] at hkx
      rw [or_iff_right fun heq => hne heq.1]
      exact ih hnodup

theorem get?_setDefault :
    (d.setDefault a b).get? k = if k = a then some ((d.get? k).getD b) else d.get? k := by
  rw [setDefault]
  by_cases h : a ∈ d.entries.map Prod.fst
  · rw [dif_pos h]
    split
    next heq =>
      subst heq
      obtain ⟨y, hy⟩ := Option.ne_none_iff_exists'.1 (mt get?_eq_none_iff.1 (not_not.2 h))
      rw [hy]
      rfl
    next => rfl
  · rw [dif_neg h, get?, List.lookup_append]
    split
    next heq =>
      subst heq
      rw [← get?, get?_eq_none_iff.2 h]
      simp
    next hne =>
      rw [List.lookup_cons, beq_false_of_ne hne, List.lookup_nil, Option.or_none, get?]

theorem get?_set : (d.set a b).get? k = if k = a then some b else d.get? k := by
  rw [set, get?_adjust, get?_setDefault]
  split <;> rfl

theorem isEmpty_iff : d.isEmpty = true ↔ ∀ k, d.get? k = none := by
  rw [isEmpty, List.isEmpty_iff]
  constructor
  · intro h k
    rw [get?, h]
    rfl
  · intro h
    by_contra hne
    obtain ⟨p, hp⟩ := List.exists_mem_of_ne_nil _ hne
    exact get?_eq_none_iff.1 (h p.1) (List.mem_map_of_mem hp)

theorem map_of_fresh {γ : Type} {entries : List (α × β)} (g : α → β → γ)
    (h : a ∉ entries.map Prod.fst) :
    entries.map (fun p => g p.1 (if p.1 = a then b else p.2)) =
      entries.map fun p => g p.1 p.2 := by
  apply List.map_congr_left
  intro p hp
  have hmem : p.1 ∈ entries.map Prod.fst := List.mem_map_of_mem hp
  rw [if_neg]
  rintro rfl
  exact h hmem

theorem entries_set_of_fresh (h : d.get? a = none) : (d.set a b).entries = d.entries ++ [(a, b)] := by
  have hfresh : a ∉ d.entries.map Prod.fst := get?_eq_none_iff.1 h
  rw [set, setDefault, dif_neg hfresh, adjust, mapEntries]
  dsimp only
  rw [List.map_append, List.map_singleton, if_pos rfl, map_of_fresh Prod.mk hfresh, List.map_id']

theorem total_set {f : β → Nat} (h : d.get? a = none) : (d.set a b).total f = d.total f + f b := by
  rw [total, entries_set_of_fresh h, List.map_append, List.sum_append, List.map_singleton,
    List.sum_singleton, total]

theorem total_set_some {f : β → Nat} {old : β} (h : d.get? a = some old) :
    (d.set a b).total f + f old = d.total f + f b := by
  have hmem : a ∈ d.entries.map Prod.fst := by
    by_contra hfresh
    rw [get?_eq_none_iff.2 hfresh] at h
    cases h
  rw [set, setDefault, dif_pos hmem]
  obtain ⟨entries, hnodup⟩ := d
  simp only [get?, total, adjust, mapEntries, List.map_map, Function.comp_def] at h ⊢
  clear hmem
  induction entries with
  | nil => cases h
  | cons p entries ih =>
    obtain ⟨x, y⟩ := p
    obtain ⟨hx, hnodup⟩ := List.nodup_cons.1 hnodup
    rw [List.lookup_cons] at h
    rw [List.map_cons, List.map_cons, List.sum_cons, List.sum_cons]
    cases hax : a == x with
    | true =>
      obtain rfl := eq_of_beq hax
      rw [hax] at h
      obtain rfl := Option.some.inj h
      rw [if_pos rfl, map_of_fresh (fun _ => f) hx]
      dsimp only
      omega
    | false =>
      rw [hax] at h
      have hne : x ≠ a := fun heq => by simp [heq] at hax
      have hrest := ih hnodup h
      rw [if_neg hne]
      omega

theorem total_erase {f : β → Nat} (h : d.get? a = some b) :
    (d.erase a).total f + f b = d.total f := by
  obtain ⟨entries, hnodup⟩ := d
  simp only [get?, erase, total] at h ⊢
  induction entries with
  | nil => cases h
  | cons p entries ih =>
    obtain ⟨x, y⟩ := p
    obtain ⟨hx, hnodup⟩ := List.nodup_cons.1 hnodup
    rw [List.lookup_cons] at h
    cases hax : a == x with
    | true =>
      obtain rfl := eq_of_beq hax
      rw [hax] at h
      obtain rfl := Option.some.inj h
      have hrest : (entries.filter fun p => p.1 ≠ a) = entries := by
        apply List.filter_eq_self.2
        intro p hp
        have hmem : p.1 ∈ entries.map Prod.fst := List.mem_map_of_mem hp
        exact decide_eq_true fun heq => hx (heq ▸ hmem)
      rw [List.filter_cons_of_neg (by simp), hrest, List.map_cons, List.sum_cons, Nat.add_comm]
    | false =>
      rw [hax] at h
      have hne : x ≠ a := fun heq => by simp [heq] at hax
      have := ih hnodup h
      rw [List.filter_cons_of_pos (by simpa using hne), List.map_cons, List.map_cons,
        List.sum_cons, List.sum_cons]
      omega

end

section Assign

variable [DecidableEq α] {ps : List (α × β)} {p : α × β} {k : α} {f : β → Nat}

-- One assignment after the other, the last of a key in force.
def assign (ps : List (α × β)) : Dict α β := ps.foldl (fun d p => d.set p.1 p.2) empty

theorem assign_concat : assign (ps ++ [p]) = (assign ps).set p.1 p.2 := List.foldl_concat ..

theorem get?_assign_eq_none_iff : (assign ps).get? k = none ↔ k ∉ ps.map Prod.fst := by
  induction ps using List.reverseRecOn with
  | nil => exact iff_of_true rfl List.not_mem_nil
  | append_singleton ps p ih =>
    rw [assign_concat, get?_set, List.map_append, List.mem_append, List.map_singleton,
      List.mem_singleton]
    split
    next hk => exact iff_of_false (Option.some_ne_none _) (not_not.2 (.inr hk))
    next hk => rw [ih, or_iff_left hk]

theorem mem_of_get?_assign {b : β} (h : (assign ps).get? k = some b) : (k, b) ∈ ps := by
  induction ps using List.reverseRecOn with
  | nil => cases h
  | append_singleton ps p ih =>
    rw [assign_concat, get?_set] at h
    split at h
    next hk =>
      obtain rfl := Option.some.inj h
      subst hk
      exact List.mem_append_right _ (List.mem_singleton_self p)
    next => exact List.mem_append_left _ (ih h)

theorem entries_assign (h : (ps.map Prod.fst).Nodup) : (assign ps).entries = ps := by
  induction ps using List.reverseRecOn with
  | nil => rfl
  | append_singleton ps p ih =>
    rw [List.map_append, List.map_singleton, ← List.concat_eq_append, List.nodup_concat] at h
    rw [assign_concat, entries_set_of_fresh (get?_assign_eq_none_iff.2 h.1), ih h.2]

theorem total_assign_le : (assign ps).total f ≤ (ps.map fun p => f p.2).sum := by
  induction ps using List.reverseRecOn with
  | nil => exact Nat.le_refl _
  | append_singleton ps p ih =>
    rw [assign_concat, List.map_append, List.sum_append, List.map_singleton, List.sum_singleton]
    cases hold : (assign ps).get? p.1 with
    | none =>
      rw [total_set hold]
      omega
    | some old =>
      have hset : ((assign ps).set p.1 p.2).total f + f old = _ := total_set_some hold
      omega

-- A second assignment of a key loses what the first one stored.
theorem nodup_of_total_assign (hpos : ∀ p ∈ ps, 0 < f p.2)
    (h : (assign ps).total f = (ps.map fun p => f p.2).sum) : (ps.map Prod.fst).Nodup := by
  induction ps using List.reverseRecOn with
  | nil => exact List.nodup_nil
  | append_singleton ps p ih =>
    have hle : (assign ps).total f ≤ _ := total_assign_le
    rw [assign_concat, List.map_append, List.sum_append, List.map_singleton,
      List.sum_singleton] at h
    cases hold : (assign ps).get? p.1 with
    | none =>
      rw [total_set hold] at h
      have hrest := ih (fun q hq => hpos q (List.mem_append_left _ hq)) (by omega)
      rw [List.map_append, List.map_singleton, ← List.concat_eq_append, List.nodup_concat]
      exact ⟨get?_assign_eq_none_iff.1 hold, hrest⟩
    | some old =>
      have hset : ((assign ps).set p.1 p.2).total f + f old = _ := total_set_some hold
      have hpositive : 0 < f old :=
        hpos (p.1, old) (List.mem_append_left _ (mem_of_get?_assign hold))
      omega

end Assign

end Dict
