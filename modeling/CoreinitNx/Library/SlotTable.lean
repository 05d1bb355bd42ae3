import Mathlib

namespace SlotTable

-- A growing table of objects under handles counted from `1`; `0` is the null object.
structure Slot (ω : Type) where
  object : ω
  used : Bool
deriving DecidableEq, Repr

abbrev Table (ω : Type) := List (Slot ω)

-- What a user of the objects has seen happen to them, oldest first.
inductive Use (ω : Type) where
  | opened (handle : UInt32) (object : ω)
  | closed (object : ω)
deriving DecidableEq, Repr

variable {ω : Type} {table table' : Table ω} {log log' before mid after : List (Use ω)}
  {handle handle' : UInt32} {x y : ω}

def slotFor (table : Table ω) (handle : UInt32) : Option (Slot ω) :=
  if handle = 0 ∨ handle.toNat > table.length then none
  else table[handle.toNat - 1]?.filter (·.used)

-- The lowest slot out of use, counted from `1`; `0` where there is none.
def freeSlot (table : Table ω) : UInt32 :=
  match table.findIdx? (!·.used) with
  | some i => UInt32.ofNat (i + 1)
  | none => 0

def store [Zero ω] (table : Table ω) (x : ω) : UInt32 × Table ω :=
  let slot := freeSlot table
  if slot = 0 then
    let table := table ++ [⟨0, false⟩]
    let slot := UInt32.ofNat table.length
    (slot, table.set (slot - 1).toNat ⟨x, true⟩)
  else (slot, table.set (slot - 1).toNat ⟨x, true⟩)

-- The two halves of `store`: to find a slot, and to put the object there.
def reserve [Zero ω] (table : Table ω) : UInt32 × Table ω :=
  let slot := freeSlot table
  if slot = 0 then
    let table := table ++ [⟨0, false⟩]
    (UInt32.ofNat table.length, table)
  else (slot, table)

def fill (table : Table ω) (slot : UInt32) (x : ω) : Table ω :=
  table.set (slot - 1).toNat ⟨x, true⟩

theorem store_eq [Zero ω] (table : Table ω) (x : ω) :
    store table x = ((reserve table).1, fill (reserve table).2 (reserve table).1 x) := by
  rw [store, reserve]
  split <;> rfl

def release [Zero ω] (table : Table ω) (handle : UInt32) : Table ω :=
  table.set (handle.toNat - 1) ⟨0, false⟩

def find (table : Table ω) (handle : UInt32) : Option ω := (slotFor table handle).map (·.object)

theorem find_eq_some :
    find table handle = some x ↔ handle ≠ 0 ∧ table[handle.toNat - 1]? = some ⟨x, true⟩ := by
  rw [find, slotFor]
  split
  next hout =>
    rcases hout with rfl | hlen
    · simp
    · have hnone : table[handle.toNat - 1]? = none := List.getElem?_eq_none (by omega)
      simp [hnone]
  next hin =>
    have hne : handle ≠ 0 := fun heq => hin (.inl heq)
    cases hget : table[handle.toNat - 1]? with
    | none => simp
    | some slot =>
      obtain ⟨y, used⟩ := slot
      cases used <;> simp [hne]

theorem find_nil : find ([] : Table ω) handle = none := by
  cases h : find ([] : Table ω) handle with
  | none => rfl
  | some x => cases (find_eq_some.1 h).2

theorem find_of_unused (hall : ∀ slot ∈ table, slot.used = false) : find table handle = none := by
  cases h : find table handle with
  | none => rfl
  | some x => cases hall _ (List.mem_of_getElem? (find_eq_some.1 h).2)

theorem index_ne (hne : handle ≠ 0) (hne' : handle' ≠ 0) (h : handle' ≠ handle) :
    handle.toNat - 1 ≠ handle'.toNat - 1 := by
  have hpos : handle.toNat ≠ 0 := fun heq => hne (UInt32.toNat_inj.1 heq)
  have hpos' : handle'.toNat ≠ 0 := fun heq => hne' (UInt32.toNat_inj.1 heq)
  have hnat : handle'.toNat ≠ handle.toNat := fun heq => h (UInt32.toNat_inj.1 heq)
  omega

section Release

variable [Zero ω]

theorem find_release_self : find (release table handle) handle = none := by
  cases h : find (release table handle) handle with
  | none => rfl
  | some x =>
    obtain ⟨-, hget⟩ := find_eq_some.1 h
    rw [release, List.getElem?_set_self'] at hget
    cases hold : table[handle.toNat - 1]? <;> simp [hold] at hget

theorem find_release_ne (hne : handle ≠ 0) (h : handle' ≠ handle) :
    find (release table handle) handle' = find table handle' := by
  apply Option.ext
  intro x
  rw [find_eq_some, find_eq_some]
  refine and_congr_right fun hne' => ?_
  rw [release, List.getElem?_set_ne (index_ne hne hne' h)]

end Release

-- There is a handle left to give out.
def Room (table : Table ω) : Prop :=
  table.length < 2 ^ 32 ∧ table.countP (·.used) < 2 ^ 32 - 1

section Store

variable [Zero ω]

theorem ofNat_succ {i : Nat} (hi : i < 2 ^ 32 - 1) :
    (UInt32.ofNat (i + 1)).toNat = i + 1 ∧ UInt32.ofNat (i + 1) ≠ 0 ∧
      (UInt32.ofNat (i + 1) - 1).toNat = i := by
  have hnat : (UInt32.ofNat (i + 1)).toNat = i + 1 := by
    rw [UInt32.toNat_ofNat', Nat.mod_eq_of_lt (by omega)]
  refine ⟨hnat, ?_, ?_⟩
  · intro hzero
    rw [hzero] at hnat
    cases hnat
  · rw [UInt32.toNat_sub_of_le, hnat]
    · rfl
    · rw [UInt32.le_iff_toNat_le, hnat]
      exact Nat.succ_le_succ (Nat.zero_le i)

theorem store_spec (room : Room table) (x : ω) :
    ∃ i < 2 ^ 32 - 1, (store table x).1 = UInt32.ofNat (i + 1) ∧
      (store table x).2[i]? = some ⟨x, true⟩ ∧
      (∀ j : Nat, j ≠ i → (store table x).2[j]? = table[j]?) ∧
      (∀ slot, table[i]? = some slot → slot.used = false) ∧ (store table x).2.length < 2 ^ 32 := by
  obtain ⟨hlen, hcount⟩ := room
  rw [store]
  cases hfree : table.findIdx? (!·.used) with
  | some i =>
    obtain ⟨hlt, hused, -⟩ := List.findIdx?_eq_some_iff_getElem.1 hfree
    have hi : i < 2 ^ 32 - 1 := by omega
    obtain ⟨-, hne, hpred⟩ := ofNat_succ hi
    have hslot : freeSlot table = UInt32.ofNat (i + 1) := by rw [freeSlot, hfree]
    rw [hslot]
    simp only [if_neg hne, hpred]
    refine ⟨i, hi, rfl, List.getElem?_set_self hlt, fun j hj => List.getElem?_set_ne hj.symm, ?_, ?_⟩
    · intro slot hget
      obtain ⟨_, rfl⟩ := List.getElem?_eq_some_iff.1 hget
      simpa using hused
    · rwa [List.length_set]
  | none =>
    have hall : table.countP (·.used) = table.length := by
      rw [List.countP_eq_length]
      intro slot hmem
      simpa using List.findIdx?_eq_none_iff.1 hfree slot hmem
    have hi : table.length < 2 ^ 32 - 1 := hall ▸ hcount
    obtain ⟨-, -, hpred⟩ := ofNat_succ hi
    have hslot : freeSlot table = 0 := by rw [freeSlot, hfree]
    rw [hslot]
    simp only [↓reduceIte, List.length_append, List.length_singleton, hpred]
    refine ⟨table.length, hi, rfl, List.getElem?_set_self ?_, fun j hj => ?_, ?_, ?_⟩
    · simp
    · rw [List.getElem?_set_ne hj.symm]
      rcases Nat.lt_or_gt_of_ne hj with hlt | hgt
      · exact List.getElem?_append_left hlt
      · rw [List.getElem?_eq_none (by simpa using Nat.succ_le_of_lt hgt), List.getElem?_eq_none (Nat.le_of_lt hgt)]
    · intro slot hget
      rw [List.getElem?_eq_none (Nat.le_refl _)] at hget
      cases hget
    · rw [List.length_set, List.length_append, List.length_singleton]
      omega

theorem find_store_self (room : Room table) : find (store table x).2 (store table x).1 = some x := by
  obtain ⟨i, hi, hslot, hget, -⟩ := store_spec room x
  obtain ⟨hnat, hne, -⟩ := ofNat_succ hi
  rw [find_eq_some, hslot]
  refine ⟨hne, ?_⟩
  rwa [hnat, Nat.add_sub_cancel]

theorem find_store_ne (room : Room table) (h : handle ≠ (store table x).1) :
    find (store table x).2 handle = find table handle := by
  obtain ⟨i, hi, hslot, -, hother, -⟩ := store_spec room x
  obtain ⟨hnat, hne, -⟩ := ofNat_succ hi
  apply Option.ext
  intro y
  rw [find_eq_some, find_eq_some]
  refine and_congr_right fun hzero => ?_
  rw [hother]
  have hindex := index_ne hne hzero (hslot ▸ h)
  rw [hnat, Nat.add_sub_cancel] at hindex
  exact hindex.symm

theorem find_store_slot (room : Room table) : find table (store table x).1 = none := by
  obtain ⟨i, hi, hslot, -, -, hfree, -⟩ := store_spec room x
  obtain ⟨hnat, hne, -⟩ := ofNat_succ hi
  cases h : find table (store table x).1 with
  | none => rfl
  | some y =>
    obtain ⟨-, hget⟩ := find_eq_some.1 h
    rw [hslot, hnat, Nat.add_sub_cancel] at hget
    cases hfree _ hget

theorem store_ne_zero (room : Room table) : (store table x).1 ≠ 0 :=
  (find_eq_some.1 (find_store_self room)).1

end Store

-- A slot that is only reserved has nothing in it.
theorem find_reserve [Zero ω] (table : Table ω) (handle : UInt32) :
    find (reserve table).2 handle = find table handle := by
  rw [reserve]
  dsimp only
  split
  next =>
    apply Option.ext
    intro x
    rw [find_eq_some, find_eq_some]
    refine and_congr_right fun _ => ?_
    rw [List.getElem?_append]
    split
    next => rfl
    next hout =>
      rw [List.getElem?_eq_none (Nat.not_lt.1 hout)]
      cases handle.toNat - 1 - table.length <;> simp
  next => rfl

theorem length_reserve [Zero ω] (table : Table ω) (x : ω) :
    (reserve table).2.length = (store table x).2.length := by
  rw [store_eq, fill, List.length_set]

section Log

variable [DecidableEq ω]

-- How often `x` is closed before it is opened anew.
def closes (x : ω) : List (Use ω) → Nat
  | [] => 0
  | .opened _ y :: log => if y = x then 0 else closes x log
  | .closed y :: log => (if y = x then 1 else 0) + closes x log

-- Opened in `log` and not closed since.
def StillOpen (log : List (Use ω)) (handle : UInt32) (x : ω) : Prop :=
  ∃ before after, log = before ++ .opened handle x :: after ∧ closes x after = 0

def Reopened (x : ω) (log : List (Use ω)) : Prop := ∃ handle, .opened handle x ∈ log

theorem closes_snoc_opened : closes x (log ++ [.opened handle y]) = closes x log := by
  induction log with
  | nil => simp [closes]
  | cons u log ih =>
    cases u with
    | opened _ z => rw [List.cons_append, closes, closes, ih]
    | closed z => rw [List.cons_append, closes, closes, ih]

theorem closes_snoc_closed_ne (hne : y ≠ x) : closes x (log ++ [.closed y]) = closes x log := by
  induction log with
  | nil => simp [closes, hne]
  | cons u log ih =>
    cases u with
    | opened _ z => rw [List.cons_append, closes, closes, ih]
    | closed z => rw [List.cons_append, closes, closes, ih]

theorem closes_snoc_of_reopened (h : Reopened x log) :
    closes x (log ++ [.closed y]) = closes x log := by
  obtain ⟨handle, hmem⟩ := h
  induction log with
  | nil => cases hmem
  | cons u log ih =>
    rcases List.mem_cons.1 hmem with rfl | hrest
    · rw [List.cons_append, closes, closes, if_pos rfl, if_pos rfl]
    · cases u with
      | opened _ z => rw [List.cons_append, closes, closes, ih hrest]
      | closed z => rw [List.cons_append, closes, closes, ih hrest]

theorem closes_snoc_self (h : ¬Reopened x log) :
    closes x (log ++ [.closed x]) = closes x log + 1 := by
  induction log with
  | nil => simp [closes]
  | cons u log ih =>
    have hrest : ¬Reopened x log := fun ⟨handle, hmem⟩ => h ⟨handle, List.mem_cons_of_mem _ hmem⟩
    cases u with
    | opened handle z =>
      have hz : z ≠ x := by
        rintro rfl
        exact h ⟨handle, List.mem_cons_self⟩
      rw [List.cons_append, closes, closes, if_neg hz, if_neg hz, ih hrest]
    | closed z => rw [List.cons_append, closes, closes, ih hrest, Nat.add_assoc]

theorem closes_le_append : closes x log ≤ closes x (log ++ log') := by
  induction log with
  | nil => exact Nat.zero_le _
  | cons u log ih =>
    cases u with
    | opened _ z =>
      rw [List.cons_append, closes, closes]
      split
      next => exact Nat.le_refl _
      next => exact ih
    | closed z =>
      rw [List.cons_append, closes, closes]
      exact Nat.add_le_add_left ih _

omit [DecidableEq ω] in
theorem snoc_split {u v : Use ω} (h : log ++ [u] = before ++ v :: after) :
    after = [] ∧ log = before ∧ u = v ∨ ∃ after', after = after' ++ [u] ∧ log = before ++ v :: after' := by
  rcases List.eq_nil_or_concat after with rfl | ⟨after', w, rfl⟩
  · obtain ⟨hlog, hlast⟩ := List.append_inj' h rfl
    exact .inl ⟨rfl, hlog, List.singleton_inj.1 hlast⟩
  · rw [List.concat_eq_append, ← List.cons_append, ← List.append_assoc] at h
    obtain ⟨hlog, hlast⟩ := List.append_inj' h rfl
    obtain rfl := List.singleton_inj.1 hlast
    exact .inr ⟨after', List.concat_eq_append, hlog⟩

omit [DecidableEq ω] in
theorem last_opening_unique {before' after' : List (Use ω)}
    (h : before ++ .opened handle x :: after = before' ++ .opened handle' x :: after')
    (hlast : ¬Reopened x after) (hlast' : ¬Reopened x after') : handle = handle' ∧ after = after' := by
  rcases List.append_eq_append_iff.1 h with ⟨gap, -, heq⟩ | ⟨gap, -, heq⟩
  · cases gap with
    | nil =>
      obtain ⟨huse, hafter⟩ := List.cons.inj heq
      exact ⟨(Use.opened.inj huse).1, hafter⟩
    | cons u gap =>
      refine absurd ⟨handle', ?_⟩ hlast
      rw [(List.cons.inj heq).2]
      exact List.mem_append_right _ List.mem_cons_self
  · cases gap with
    | nil =>
      obtain ⟨huse, hafter⟩ := List.cons.inj heq
      exact ⟨(Use.opened.inj huse).1.symm, hafter.symm⟩
    | cons u gap =>
      refine absurd ⟨handle, ?_⟩ hlast'
      rw [(List.cons.inj heq).2]
      exact List.mem_append_right _ List.mem_cons_self

-- The objects that `held` has under its handles are those the log leaves open, and no object was
-- closed twice.
structure Agrees [Zero ω] (held : UInt32 → Option ω) (log : List (Use ω)) : Prop where
  handle_ne_zero : ∀ handle x, .opened handle x ∈ log → handle ≠ 0
  object_ne_zero : ∀ handle x, held handle = some x → x ≠ 0
  closes_le : ∀ before handle x after, log = before ++ .opened handle x :: after →
    closes x after ≤ 1
  closed_first : ∀ before handle x after, log = before ++ .opened handle x :: after →
    Reopened x after → closes x after = 1
  held_of_open : ∀ handle x, StillOpen log handle x → held handle = some x
  open_of_held : ∀ handle x, held handle = some x →
    ∃ before after, log = before ++ .opened handle x :: after ∧ closes x after = 0 ∧
      ¬Reopened x after
  apart : ∀ before handle x mid handle' y after,
    log = before ++ .opened handle x :: (mid ++ .opened handle' y :: after) →
    closes x mid = 0 → handle ≠ handle' ∧ x ≠ y

namespace Agrees

variable [Zero ω] {held held' : UInt32 → Option ω}

theorem nil : Agrees (fun _ => none) ([] : List (Use ω)) where
  handle_ne_zero _ _ h := nomatch h
  object_ne_zero _ _ h := nomatch h
  closes_le before _ _ _ h := absurd h.symm (List.append_ne_nil_of_right_ne_nil before nofun)
  closed_first before _ _ _ h := absurd h.symm (List.append_ne_nil_of_right_ne_nil before nofun)
  held_of_open _ _ := fun ⟨before, _, h, _⟩ =>
    absurd h.symm (List.append_ne_nil_of_right_ne_nil before nofun)
  open_of_held _ _ h := nomatch h
  apart before _ _ _ _ _ _ h := absurd h.symm (List.append_ne_nil_of_right_ne_nil before nofun)

theorem congr (h : Agrees held log) (heq : ∀ handle, held' handle = held handle) :
    Agrees held' log := by
  rwa [funext heq]

theorem held_inj (h : Agrees held log) (hx : held handle = some x) (hy : held handle' = some x) :
    handle = handle' := by
  obtain ⟨before, after, hlog, -, hlast⟩ := h.open_of_held handle x hx
  obtain ⟨before', after', hlog', -, hlast'⟩ := h.open_of_held handle' x hy
  exact (last_opening_unique (hlog.symm.trans hlog') hlast hlast').1

theorem stillOpen_iff (h : Agrees held log) : StillOpen log handle x ↔ held handle = some x := by
  constructor
  · exact h.held_of_open handle x
  · intro hx
    obtain ⟨before, after, hlog, hcloses, -⟩ := h.open_of_held handle x hx
    exact ⟨before, after, hlog, hcloses⟩

theorem opened (h : Agrees held log) (hfree : held handle = none)
    (hfresh : ∀ handle, held handle ≠ some x) (hne : handle ≠ 0) (hx : x ≠ 0)
    (hself : held' handle = some x)
    (hother : ∀ handle', handle' ≠ handle → held' handle' = held handle') :
    Agrees held' (log ++ [.opened handle x]) where
  handle_ne_zero := by
    intro handle' y hmem
    rcases List.mem_append.1 hmem with hold | hnew
    · exact h.handle_ne_zero handle' y hold
    · cases List.mem_singleton.1 hnew
      exact hne
  object_ne_zero := by
    intro handle' y hy
    by_cases heq : handle' = handle
    · subst heq
      cases hself.symm.trans hy
      exact hx
    · rw [hother handle' heq] at hy
      exact h.object_ne_zero handle' y hy
  closes_le := by
    intro before handle' y after hsplit
    rcases snoc_split hsplit with ⟨rfl, -, -⟩ | ⟨after', rfl, hlog⟩
    · exact Nat.zero_le _
    · rw [closes_snoc_opened]
      exact h.closes_le before handle' y after' hlog
  closed_first := by
    intro before handle' y after hsplit hre
    rcases snoc_split hsplit with ⟨rfl, -, -⟩ | ⟨after', rfl, hlog⟩
    · obtain ⟨_, hmem⟩ := hre
      cases hmem
    · rw [closes_snoc_opened]
      obtain ⟨handle'', hmem⟩ := hre
      rcases List.mem_append.1 hmem with hold | hnew
      · exact h.closed_first before handle' y after' hlog ⟨handle'', hold⟩
      · obtain ⟨-, hyx⟩ := Use.opened.inj (List.mem_singleton.1 hnew)
        have hle := h.closes_le before handle' y after' hlog
        have hpos : closes y after' ≠ 0 := fun hzero =>
          hfresh handle' (hyx ▸ h.held_of_open handle' y ⟨before, after', hlog, hzero⟩)
        omega
  held_of_open := by
    rintro handle' y ⟨before, after, hsplit, hzero⟩
    rcases snoc_split hsplit with ⟨rfl, -, huse⟩ | ⟨after', rfl, hlog⟩
    · cases huse
      exact hself
    · rw [closes_snoc_opened] at hzero
      have hheld := h.held_of_open handle' y ⟨before, after', hlog, hzero⟩
      rw [hother handle' ?_]
      · exact hheld
      · rintro rfl
        rw [hfree] at hheld
        cases hheld
  open_of_held := by
    intro handle' y hy
    by_cases heq : handle' = handle
    · subst heq
      cases hself.symm.trans hy
      exact ⟨log, [], rfl, rfl, fun ⟨_, hmem⟩ => nomatch hmem⟩
    · rw [hother handle' heq] at hy
      obtain ⟨before, after, rfl, hzero, hlast⟩ := h.open_of_held handle' y hy
      refine ⟨before, after ++ [.opened handle x], by simp, ?_, ?_⟩
      · rw [closes_snoc_opened]
        exact hzero
      · rintro ⟨handle'', hmem⟩
        rcases List.mem_append.1 hmem with hold | hnew
        · exact hlast ⟨handle'', hold⟩
        · cases List.mem_singleton.1 hnew
          exact hfresh handle' hy
  apart := by
    intro before handle' y mid handle'' z after hsplit hzero
    rw [← List.cons_append, ← List.append_assoc] at hsplit
    rcases snoc_split hsplit with ⟨rfl, hlog, huse⟩ | ⟨after', rfl, hlog⟩
    · cases huse
      have hheld := h.held_of_open handle' y ⟨before, mid, hlog, hzero⟩
      refine ⟨?_, ?_⟩
      · rintro rfl
        rw [hfree] at hheld
        cases hheld
      · rintro rfl
        exact hfresh handle' hheld
    · rw [List.append_assoc, List.cons_append] at hlog
      exact h.apart before handle' y mid handle'' z after' hlog hzero

-- The close falls on the one opening of `x` that is still open.
theorem closes_closed {y : ω} (h : Agrees held log) (hheld : held handle = some x)
    (hlog : log = before ++ .opened handle' y :: after) :
    closes y (after ++ [.closed x]) = closes y after ∧ (closes y after = 0 → y ≠ x) ∨
      closes y (after ++ [.closed x]) = 1 := by
  obtain ⟨before₀, after₀, hlog₀, hzero₀, hlast₀⟩ := h.open_of_held handle x hheld
  by_cases hyx : y = x
  · subst hyx
    by_cases hre : Reopened y after
    · refine .inl ⟨closes_snoc_of_reopened hre, fun hzero => ?_⟩
      rw [h.closed_first before handle' y after hlog hre] at hzero
      cases hzero
    · obtain ⟨-, rfl⟩ := last_opening_unique (hlog₀.symm.trans hlog) hlast₀ hre
      exact .inr (by rw [closes_snoc_self hre, hzero₀])
  · exact .inl ⟨closes_snoc_closed_ne (Ne.symm hyx), fun _ => hyx⟩

omit [Zero ω] [DecidableEq ω] in
theorem held_of_closed {y : ω} (hself : held' handle = none)
    (hother : ∀ handle', handle' ≠ handle → held' handle' = held handle')
    (hy : held' handle' = some y) : handle' ≠ handle ∧ held handle' = some y := by
  have hne : handle' ≠ handle := by
    rintro rfl
    rw [hself] at hy
    cases hy
  exact ⟨hne, by rw [← hother handle' hne, hy]⟩

theorem closed (h : Agrees held log) (hheld : held handle = some x) (hself : held' handle = none)
    (hother : ∀ handle', handle' ≠ handle → held' handle' = held handle') :
    Agrees held' (log ++ [.closed x]) where
  handle_ne_zero := by
    intro handle' y hmem
    rcases List.mem_append.1 hmem with hold | hnew
    · exact h.handle_ne_zero handle' y hold
    · cases List.mem_singleton.1 hnew
  object_ne_zero := by
    intro handle' y hy
    exact h.object_ne_zero handle' y (held_of_closed hself hother hy).2
  closes_le := by
    intro before handle' y after hsplit
    rcases snoc_split hsplit with ⟨rfl, -, -⟩ | ⟨after', rfl, hlog⟩
    · exact Nat.zero_le _
    · rcases h.closes_closed hheld hlog with ⟨hsame, -⟩ | hone
      · rw [hsame]
        exact h.closes_le before handle' y after' hlog
      · exact Nat.le_of_eq hone
  closed_first := by
    intro before handle' y after hsplit hre
    rcases snoc_split hsplit with ⟨rfl, -, -⟩ | ⟨after', rfl, hlog⟩
    · obtain ⟨_, hmem⟩ := hre
      cases hmem
    · rcases h.closes_closed hheld hlog with ⟨hsame, -⟩ | hone
      · rw [hsame]
        obtain ⟨handle'', hmem⟩ := hre
        rcases List.mem_append.1 hmem with hold | hnew
        · exact h.closed_first before handle' y after' hlog ⟨handle'', hold⟩
        · cases List.mem_singleton.1 hnew
      · exact hone
  held_of_open := by
    rintro handle' y ⟨before, after, hsplit, hzero⟩
    rcases snoc_split hsplit with ⟨-, -, huse⟩ | ⟨after', rfl, hlog⟩
    · cases huse
    · rcases h.closes_closed hheld hlog with ⟨hsame, hne⟩ | hone
      · rw [hsame] at hzero
        have hy := h.held_of_open handle' y ⟨before, after', hlog, hzero⟩
        rw [hother handle' ?_]
        · exact hy
        · rintro rfl
          cases hheld.symm.trans hy
          exact hne hzero rfl
      · rw [hone] at hzero
        cases hzero
  open_of_held := by
    intro handle' y hy
    obtain ⟨hne, hy⟩ := held_of_closed hself hother hy
    obtain ⟨before, after, hlog, hzero, hlast⟩ := h.open_of_held handle' y hy
    have hyx : x ≠ y := by
      rintro rfl
      exact hne (h.held_inj hy hheld)
    refine ⟨before, after ++ [.closed x], by simp [hlog], ?_, ?_⟩
    · rw [closes_snoc_closed_ne hyx]
      exact hzero
    · rintro ⟨handle'', hmem⟩
      rcases List.mem_append.1 hmem with hold | hnew
      · exact hlast ⟨handle'', hold⟩
      · cases List.mem_singleton.1 hnew
  apart := by
    intro before handle' y mid handle'' z after hsplit hzero
    rw [← List.cons_append, ← List.append_assoc] at hsplit
    rcases snoc_split hsplit with ⟨-, -, huse⟩ | ⟨after', rfl, hlog⟩
    · cases huse
    · rw [List.append_assoc, List.cons_append] at hlog
      exact h.apart before handle' y mid handle'' z after' hlog hzero

end Agrees

section Operations

variable [Zero ω]

theorem agrees_store (h : Agrees (find table) log) (room : Room table) (hx : x ≠ 0)
    (hfresh : ∀ handle, ¬StillOpen log handle x) :
    Agrees (find (store table x).2) (log ++ [.opened (store table x).1 x]) :=
  h.opened (find_store_slot room) (fun handle heq => hfresh handle (h.stillOpen_iff.2 heq))
    (store_ne_zero room) hx (find_store_self room) fun _ hne => find_store_ne room hne

theorem agrees_release (h : Agrees (find table) log) (hfind : find table handle = some x) :
    Agrees (find (release table handle)) (log ++ [.closed x]) :=
  h.closed hfind find_release_self fun _ hne => find_release_ne (find_eq_some.1 hfind).1 hne

-- Closing one entry of the table in passing, where it holds an object.
def sweepUses (slot : Slot ω) : List (Use ω) :=
  if slot.used ∧ slot.object ≠ 0 then [.closed slot.object] else []

theorem agrees_sweep {i : Nat} {slot : Slot ω} (h : Agrees (find table) log)
    (hlen : table.length < 2 ^ 32) (hget : table[i]? = some slot) :
    Agrees (find (table.set i ⟨0, false⟩)) (log ++ sweepUses slot) := by
  obtain ⟨hlt, -⟩ := List.getElem?_eq_some_iff.1 hget
  obtain ⟨hnat, hne, -⟩ := ofNat_succ (i := i) (by omega)
  obtain ⟨y, used⟩ := slot
  cases used with
  | true =>
    have hfind : find table (UInt32.ofNat (i + 1)) = some y := by
      rw [find_eq_some, hnat, Nat.add_sub_cancel]
      exact ⟨hne, hget⟩
    have hrel := agrees_release h hfind
    rw [release, hnat, Nat.add_sub_cancel] at hrel
    rw [sweepUses, if_pos ⟨rfl, h.object_ne_zero _ _ hfind⟩]
    exact hrel
  | false =>
    rw [sweepUses, if_neg (fun hboth => nomatch hboth.1), List.append_nil]
    refine h.congr fun handle => ?_
    apply Option.ext
    intro x
    rw [find_eq_some, find_eq_some]
    refine and_congr_right fun _ => ?_
    by_cases heq : i = handle.toNat - 1
    · subst heq
      rw [List.getElem?_set_self hlt, hget]
      simp
    · rw [List.getElem?_set_ne heq]

theorem agrees_clear (h : Agrees (find table) log) (hall : ∀ slot ∈ table, slot.used = false) :
    Agrees (find ([] : Table ω)) log :=
  h.congr fun _ => by rw [find_nil, find_of_unused hall]

theorem agrees_sweep_all {done rest : Table ω} (h : Agrees (find (done ++ rest)) log)
    (hlen : (done ++ rest).length < 2 ^ 32) (hdone : ∀ slot ∈ done, slot.used = false) :
    Agrees (find ([] : Table ω)) (log ++ rest.flatMap sweepUses) := by
  induction rest generalizing done log with
  | nil =>
    rw [List.append_nil] at h
    rw [List.flatMap_nil, List.append_nil]
    exact agrees_clear h hdone
  | cons slot rest ih =>
    have hget : (done ++ slot :: rest)[done.length]? = some slot := by simp
    have hstep := agrees_sweep h hlen hget
    have hset : (done ++ slot :: rest).set done.length ⟨0, false⟩ = (done ++ [⟨0, false⟩]) ++ rest := by
      simp
    rw [hset] at hstep
    rw [List.flatMap_cons, ← List.append_assoc]
    refine ih hstep ?_ ?_
    · simpa using hlen
    · intro slot' hmem
      rcases List.mem_append.1 hmem with hold | hnew
      · exact hdone slot' hold
      · rw [List.mem_singleton.1 hnew]

end Operations

end Log

end SlotTable
