import CoreinitNx.FrmHeap.Basic

namespace CoreinitNx.FrmHeap

open Alignment

structure Bounds (h : HostFrmHeap) : Prop where
  start_le : h.dataStart.toNat ≤ h.head.toNat
  head_le : h.head.toNat ≤ h.tail.toNat
  tail_le : h.tail.toNat ≤ h.dataEnd.toNat

structure Inv (h : HostFrmHeap) : Prop where
  alive : h.live = true
  room : h.dataEnd.toNat ≤ userSpaceEnd
  bounds : Bounds h
  states : ∀ st ∈ h.states, h.dataStart.toNat ≤ st.head.toNat ∧ st.head.toNat ≤ st.tail.toNat

variable {h h' : HostFrmHeap} {size : UInt32} {alignment : Int32} {r : UInt64}

-- A tail request larger than the tail address wraps to an address above the tail.
theorem alignDown_wrapped {a : UInt32} (ha : IsAlignment a) {tail : UInt64}
    (ht : tail.toNat ≤ userSpaceEnd) (hlt : tail.toNat < size.toNat) :
    tail.toNat < (alignDown (tail - size.toUInt64) a).toNat := by
  have hle := ha.le
  have hsz := size.toNat_lt
  have hsub : (tail - size.toUInt64).toNat = 2 ^ 64 - size.toNat + tail.toNat := by
    rw [UInt64.toNat_sub, UInt32.toNat_toUInt64, Nat.mod_eq_of_lt (by omega)]
  have hfloor := lt_floorTo_add ha.pos (tail - size.toUInt64).toNat
  rw [ha.toNat_alignDown]
  rw [userSpaceEnd] at ht
  omega

theorem allocateIn_tail {a : UInt32} (ha : IsAlignment a) {tail head : UInt64}
    (ht : tail.toNat ≤ userSpaceEnd)
    (hc : ¬(alignDown (tail - size.toUInt64) a < head ∨ alignDown (tail - size.toUInt64) a > tail)) :
    head.toNat ≤ (alignDown (tail - size.toUInt64) a).toNat ∧
      (alignDown (tail - size.toUInt64) a).toNat + size.toNat ≤ tail.toNat ∧
      a.toNat ∣ (alignDown (tail - size.toUInt64) a).toNat := by
  rw [not_or, UInt64.not_lt, gt_iff_lt, UInt64.not_lt, UInt64.le_iff_toNat_le,
    UInt64.le_iff_toNat_le] at hc
  obtain ⟨hhead, htail⟩ := hc
  have hfits : size.toNat ≤ tail.toNat := by
    by_contra hlt
    exact absurd htail (Nat.not_le.2 (alignDown_wrapped ha ht (Nat.not_le.1 hlt)))
  have hsub : (tail - size.toUInt64).toNat = tail.toNat - size.toNat := by
    rw [UInt64.toNat_sub_of_le, UInt32.toNat_toUInt64]
    rwa [UInt64.le_iff_toNat_le, UInt32.toNat_toUInt64]
  have hfloor := floorTo_le a.toNat (tail - size.toUInt64).toNat
  rw [ha.toNat_alignDown] at hhead ⊢
  exact ⟨hhead, by omega, dvd_floorTo _ _⟩

theorem allocateIn_head {a : UInt32} (ha : IsAlignment a) {tail head : UInt64}
    (hh : head.toNat ≤ userSpaceEnd)
    (hc : ¬(alignUp head a + size.toUInt64 > tail ∨ alignUp head a < head)) :
    head.toNat ≤ (alignUp head a).toNat ∧
      (alignUp head a + size.toUInt64).toNat = (alignUp head a).toNat + size.toNat ∧
      (alignUp head a).toNat + size.toNat ≤ tail.toNat ∧ a.toNat ∣ (alignUp head a).toNat := by
  have hle := ha.le
  have hsz := size.toNat_lt
  rw [userSpaceEnd] at hh
  have hup : (alignUp head a).toNat = ceilTo a.toNat head.toNat := ha.toNat_alignUp (by omega)
  have hlt := ceilTo_lt_add ha.pos head.toNat
  have hsum : (alignUp head a + size.toUInt64).toNat = (alignUp head a).toNat + size.toNat := by
    rw [UInt64.toNat_add, UInt32.toNat_toUInt64, Nat.mod_eq_of_lt (by omega)]
  rw [not_or, gt_iff_lt, UInt64.not_lt, UInt64.not_lt, UInt64.le_iff_toNat_le,
    UInt64.le_iff_toNat_le, hsum] at hc
  exact ⟨hc.2, hsum, hc.1, hup ▸ dvd_ceilTo _ _⟩

theorem allocateIn_some (hh : h.head.toNat ≤ userSpaceEnd) (ht : h.tail.toNat ≤ userSpaceEnd)
    (ha : allocateIn h size alignment = some (r, h')) :
    (normaliseAlignment alignment).1.toNat ∣ r.toNat ∧
      ((normaliseAlignment alignment).2 = true ∧ h' = { h with tail := r } ∧
          h.head.toNat ≤ r.toNat ∧ r.toNat + size.toNat ≤ h.tail.toNat ∨
        (normaliseAlignment alignment).2 = false ∧
          ∃ stop, h' = { h with head := stop } ∧ h.head.toNat ≤ r.toNat ∧
            stop.toNat = r.toNat + size.toNat ∧ stop.toNat ≤ h.tail.toNat) := by
  have hn := isAlignment_normaliseAlignment alignment
  rw [allocateIn] at ha
  generalize normaliseAlignment alignment = n at ha hn ⊢
  obtain ⟨a, fromTail⟩ := n
  simp only at ha hn ⊢
  split at ha
  next hside =>
    split at ha
    next => cases ha
    next hc =>
      obtain ⟨rfl, rfl⟩ := Prod.mk.inj (Option.some.inj ha)
      obtain ⟨h1, h2, h3⟩ := allocateIn_tail hn ht hc
      exact ⟨h3, .inl ⟨hside, rfl, h1, h2⟩⟩
  next hside =>
    split at ha
    next => cases ha
    next hc =>
      obtain ⟨rfl, rfl⟩ := Prod.mk.inj (Option.some.inj ha)
      obtain ⟨h1, h2, h3, h4⟩ := allocateIn_head hn hh hc
      exact ⟨h4, .inr ⟨eq_false_of_ne_true hside, _, rfl, h1, h2, h2 ▸ h3⟩⟩

theorem Inv.tail_room (hi : Inv h) : h.tail.toNat ≤ userSpaceEnd := hi.bounds.tail_le.trans hi.room

theorem Inv.head_room (hi : Inv h) : h.head.toNat ≤ userSpaceEnd :=
  hi.bounds.head_le.trans hi.tail_room

theorem Inv.alloc (hi : Inv h) (ha : allocateIn h size alignment = some (r, h')) : Inv h' := by
  obtain ⟨hstart, hhead, htail⟩ := hi.bounds
  obtain ⟨-, ⟨-, rfl, h1, h2⟩ | ⟨-, stop, rfl, h1, h2, h3⟩⟩ :=
    allocateIn_some hi.head_room hi.tail_room ha
  · have hr : r.toNat ≤ h.dataEnd.toNat := (Nat.le_add_right _ _).trans (h2.trans htail)
    exact ⟨hi.alive, hi.room, ⟨hstart, h1, hr⟩, hi.states⟩
  · have hs : h.dataStart.toNat ≤ stop.toNat := by omega
    exact ⟨hi.alive, hi.room, ⟨hs, h3, htail⟩, hi.states⟩

theorem alloc_inside (hi : Inv h) (ha : allocateIn h size alignment = some (r, h')) :
    h'.dataStart.toNat ≤ r.toNat ∧ r.toNat + size.toNat ≤ h'.dataEnd.toNat := by
  obtain ⟨hstart, hhead, htail⟩ := hi.bounds
  obtain ⟨-, ⟨-, rfl, h1, h2⟩ | ⟨-, stop, rfl, h1, h2, h3⟩⟩ :=
    allocateIn_some hi.head_room hi.tail_room ha
  · exact ⟨hstart.trans h1, h2.trans htail⟩
  · exact ⟨hstart.trans h1, h2 ▸ h3.trans htail⟩

theorem Inv.free (hi : Inv h) (mode : UInt32) : Inv (freeIn h mode) := by
  obtain ⟨halive, hroom, ⟨hstart, hhead, htail⟩, hstates⟩ := hi
  unfold freeIn
  split <;> split <;> split <;>
    refine ⟨halive, hroom, ⟨?_, ?_, ?_⟩, ?_⟩ <;>
    first
    | exact hstates
    | exact fun st hst => by cases hst
    | (simp only; omega)

theorem Inv.record (hi : Inv h) (tag : UInt32) :
    Inv { h with states := h.states ++ [⟨tag, h.head, h.tail⟩] } := by
  refine ⟨hi.alive, hi.room, ⟨hi.bounds.start_le, hi.bounds.head_le, hi.bounds.tail_le⟩, ?_⟩
  intro st hst
  rcases List.mem_append.1 hst with hst | hst
  · exact hi.states st hst
  · obtain rfl := List.mem_singleton.1 hst
    exact ⟨hi.bounds.start_le, hi.bounds.head_le⟩

theorem Inv.adjust (hi : Inv h) : Inv { h with dataEnd := h.head, tail := h.head } := by
  obtain ⟨halive, hroom, ⟨hstart, hhead, htail⟩, hstates⟩ := hi
  exact ⟨halive, hhead.trans (htail.trans hroom), ⟨hstart, le_rfl, le_rfl⟩, hstates⟩

theorem selected_mem {tag : UInt32} {idx : Nat} {st : State} (hs : selected h tag = some (idx, st)) :
    st ∈ h.states := by
  obtain ⟨i, -, hi⟩ := Option.bind_eq_some_iff.1 hs
  obtain ⟨st', hget, heq⟩ := Option.map_eq_some_iff.1 hi
  obtain ⟨-, rfl⟩ := Prod.mk.inj heq
  exact List.mem_of_getElem? hget

theorem Inv.freeByState (hi : Inv h) {tag : UInt32} {idx : Nat} {st : State}
    (hs : selected h tag = some (idx, st)) (hend : st.tail.toNat ≤ h.dataEnd.toNat) :
    Inv { h with head := st.head, tail := st.tail, states := h.states.take idx } := by
  obtain ⟨h1, h2⟩ := hi.states st (selected_mem hs)
  exact ⟨hi.alive, hi.room, ⟨h1, h2, hend⟩, fun q hq => hi.states q (List.mem_of_mem_take hq)⟩

end CoreinitNx.FrmHeap
