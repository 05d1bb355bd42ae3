import CoreinitNx.ExpHeap.BaseHeap
import CoreinitNx.ExpHeap.Policy

namespace CoreinitNx.ExpHeap

open Tiling

variable {s s' : ExpHeaps} {heap k : UInt64} {h h' : HostExpHeap} {size a : UInt32}
  {payload ptr block : UInt64} {alignment : Int32} {b free used : Block} {bs pre mid post : List Block}

def usedBytes (bs : List Block) : Nat := ((bs.filter fun b => b.used).map fun b => b.size.toNat).sum

def freeBytes (bs : List Block) : Nat := ((bs.filter fun b => !b.used).map fun b => b.size.toNat).sum

@[simp] theorem usedBytes_append (bs cs : List Block) :
    usedBytes (bs ++ cs) = usedBytes bs + usedBytes cs := by simp [usedBytes]

theorem usedBytes_used (hu : b.used = true) (bs : List Block) :
    usedBytes (b :: bs) = b.size.toNat + usedBytes bs := by simp [usedBytes, hu]

theorem usedBytes_free (hu : b.used = false) (bs : List Block) :
    usedBytes (b :: bs) = usedBytes bs := by simp [usedBytes, hu]

theorem freeBytes_add_usedBytes (bs : List Block) :
    freeBytes bs + usedBytes bs = (bs.map fun b => b.size.toNat).sum := by
  induction bs with
  | nil => rfl
  | cons b bs ih =>
    rw [List.map_cons, List.sum_cons, ← ih]
    cases hu : b.used with
    | true =>
      rw [usedBytes_used hu]
      simp only [freeBytes, List.filter_cons, hu]
      simp
      omega
    | false =>
      rw [usedBytes_free hu]
      simp only [freeBytes, List.filter_cons, hu]
      simp
      omega

theorem toNat_totalFree_foldl (bs : List Block) (total : UInt32)
    (hsum : total.toNat + freeBytes bs < 2 ^ 32) :
    (bs.foldl (fun total b => if b.used then total else total + b.size) total).toNat =
      total.toNat + freeBytes bs := by
  induction bs generalizing total with
  | nil => rfl
  | cons b bs ih =>
    rw [List.foldl_cons]
    cases hu : b.used with
    | true =>
      have hskip : freeBytes (b :: bs) = freeBytes bs := by simp [freeBytes, hu]
      rw [hskip] at hsum ⊢
      exact ih total hsum
    | false =>
      have hadd : freeBytes (b :: bs) = b.size.toNat + freeBytes bs := by simp [freeBytes, hu]
      rw [hadd] at hsum ⊢
      have hnext : (total + b.size).toNat = total.toNat + b.size.toNat := by
        rw [UInt32.toNat_add, Nat.mod_eq_of_lt (by omega)]
      rw [if_neg Bool.false_ne_true, ih _ (by omega), hnext]
      omega

-- The tiles' lengths are the blocks' sizes, so free and used bytes together make the region.
theorem WellFormed.balance (wf : WellFormed h) :
    (totalFree h.blocks).toNat + usedBytes h.blocks = h.dataEnd.toNat - h.dataStart.toNat := by
  have hlen : (h.blocks.map fun b => b.hi - b.lo) = h.blocks.map fun b => b.size.toNat :=
    List.map_congr_left fun b _ => by rw [Block.hi, Block.lo]; omega
  have hsum := wf.tiles.sum
  have hparts := freeBytes_add_usedBytes h.blocks
  have hspan := wf.span
  rw [hlen] at hsum
  have htotal : (totalFree h.blocks).toNat = freeBytes h.blocks := by
    have := toNat_totalFree_foldl h.blocks 0 (by rw [UInt32.toNat_zero]; omega)
    rwa [UInt32.toNat_zero, Nat.zero_add] at this
  omega

theorem Carves.usedBytes (hc : Carves free size payload used mid) :
    usedBytes mid = used.size.toNat := by
  have hpw := hc.tiles.pairwise.sublist (List.filter_sublist (p := fun b => b.used))
  have hlt := (hc.tiles.bounds hc.mem).2.1
  have hall : ∀ b ∈ mid.filter fun b => b.used, b = used := fun b hb =>
    hc.only b (List.mem_filter.1 hb).1 (List.mem_filter.1 hb).2
  have hmem : used ∈ mid.filter fun b => b.used := List.mem_filter.2 ⟨hc.mem, hc.used_eq⟩
  rw [ExpHeap.usedBytes]
  generalize (mid.filter fun b => b.used) = bs at hpw hall hmem ⊢
  cases bs with
  | nil => cases hmem
  | cons b bs =>
    cases bs with
    | nil => simp [hall b (by simp)]
    | cons c bs =>
      have hbc := (List.pairwise_cons.1 hpw).1 c (by simp)
      rw [hall b (by simp), hall c (by simp)] at hbc
      omega

theorem WellFormed.charged (wf : WellFormed h) (hcut : h.blocks = pre ++ free :: post)
    (hu : free.used = false) (hc : Carves free size payload used mid) :
    (totalFree (pre ++ mid ++ post)).toNat + used.size.toNat = (totalFree h.blocks).toNat := by
  have hbefore := wf.balance
  have hafter := (wf.carve hcut hu hc).balance
  rw [hcut, usedBytes_append, usedBytes_free hu] at hbefore
  rw [usedBytes_append, usedBytes_append, hc.usedBytes] at hafter
  rw [hcut]
  dsimp only at hafter
  omega

theorem usedBytes_coalesce (wf : WellFormed h) (bs : List Block) :
    usedBytes (coalesce bs) = usedBytes bs := by
  have hfilter := filter_mergeFree (joins_joinBlock wf.span) bs
  simp only [Bool.not_not] at hfilter
  rw [usedBytes, coalesce_eq, hfilter, usedBytes]

theorem WellFormed.refunded (wf : WellFormed h) (hb : b ∈ occupied h) :
    (totalFree (ExpHeap.freeIn h b.payload).blocks).toNat =
      (totalFree h.blocks).toNat + b.size.toNat := by
  have hbefore := wf.balance
  have hafter := (WellFormed.freeIn wf b.payload).balance
  obtain ⟨-, hstart, hend⟩ := freeIn_fields h b.payload
  rw [hstart, hend] at hafter
  obtain ⟨-, hnone⟩ | ⟨pre, c, post, hcut, hu, hpay, heq⟩ := freeIn_cases h b.payload
  · exact absurd rfl (hnone b hb)
  · obtain rfl : c = b := wf.eq_of_payload ⟨by simp [hcut], hu⟩ hb hpay
    have hrelease : c.release.used = false := rfl
    rw [heq] at hafter ⊢
    dsimp only at hafter ⊢
    rw [usedBytes_coalesce wf, usedBytes_append, usedBytes_free hrelease] at hafter
    rw [hcut, usedBytes_append, usedBytes_used hu] at hbefore
    rw [hcut]
    omega

-- Later calls, on any handle, none of which takes the loan back.
inductive Later (loan : Loan) (s : ExpHeaps) : ExpHeaps → Prop
  | refl : Later loan s s
  | call {s' : ExpHeaps} (heap : UInt64) (c : Call) : Later loan s s' → CreatesInRoom heap c →
      c.ends heap (exec s' heap c).1 loan = false → Later loan s (exec s' heap c).2

theorem Later.occupied (hl : Later (b.payload, heap) s s') (hwf : AllWellFormed s)
    (hlive : IsLive s heap) (hocc : b ∈ ExpHeap.occupied (s.heaps.view heap)) :
    AllWellFormed s' ∧ IsLive s' heap ∧ b ∈ ExpHeap.occupied (s'.heaps.view heap) := by
  induction hl with
  | refl => exact ⟨hwf, hlive, hocc⟩
  | call other c _ hroom hends ih =>
    obtain ⟨hwf, hlive, hocc⟩ := ih
    refine ⟨exec_allWellFormed hwf hroom, exec_isLive hwf hroom hlive ?_,
      exec_occupied hwf hroom hlive hocc hends⟩
    rintro rfl rfl
    rw [Call.ends, beq_self_eq_true] at hends
    cases hends

theorem totalFreeSize_of_live (hlive : IsLive s heap) :
    (memGetTotalFreeSizeForExpHeap s heap).1 = totalFree (s.heaps.view heap).blocks := by
  rw [memGetTotalFreeSizeForExpHeap, live_of_live hlive.1 hlive.2]

theorem Later.refund (hl : Later (b.payload, heap) s s') (hwf : AllWellFormed s)
    (hlive : IsLive s heap) (hocc : b ∈ ExpHeap.occupied (s.heaps.view heap)) :
    (memGetTotalFreeSizeForExpHeap (memFreeToExpHeap s' heap b.payload) heap).1.toNat =
      (memGetTotalFreeSizeForExpHeap s' heap).1.toNat + b.size.toNat := by
  obtain ⟨hwf, hlive, hocc⟩ := hl.occupied hwf hlive hocc
  have wf := hwf heap hlive.2
  have hview := memFree_view hlive.1 hlive.2 (wf.payload_ne_zero hocc)
  have hlive' : IsLive (memFreeToExpHeap s' heap b.payload) heap := by
    refine ⟨hlive.1, ?_⟩
    rw [hview, (freeIn_fields _ _).1]
    exact hlive.2
  rw [totalFreeSize_of_live hlive', totalFreeSize_of_live hlive, hview, wf.refunded hocc]

-- A pointer that no used block holds, null included, is ignored.
theorem memFree_unknown (hno : IsLive s heap → ¬Holds s heap block) (k : UInt64) :
    (memFreeToExpHeap s heap block).heaps.view k = s.heaps.view k ∧
      (memFreeToExpHeap s heap block).memory = s.memory := by
  have hmem : (live s heap).2.memory = s.memory := by
    rw [live]
    split <;> rfl
  rcases dead_or_live s heap with hdead | ⟨hz, hl⟩
  · rw [memFreeToExpHeap, live_of_dead hdead]
    exact ⟨live_view s heap k, hmem⟩
  · have hsame : freeIn (s.heaps.view heap) block = s.heaps.view heap := by
      rcases freeIn_cases (s.heaps.view heap) block with ⟨heq, -⟩ | ⟨pre, c, post, hcut, hu, hp, -⟩
      · exact heq
      · exact absurd ⟨c, ⟨by simp [hcut], hu⟩, hp⟩ (hno ⟨hz, hl⟩)
    rw [memFreeToExpHeap, live_of_live hz hl]
    dsimp only
    split
    next => exact ⟨live_view s heap k, hmem⟩
    next =>
      refine ⟨?_, hmem⟩
      dsimp only
      rw [hsame]
      by_cases hk : k = heap
      · rw [hk, HandleTable.view_store_same]
      · rw [HandleTable.view_store_ne _ _ hk, live_view]

theorem memAlloc_charge (hwf : AllWellFormed s)
    (hok : (memAllocFromExpHeapEx s heap size alignment).1 ≠ 0) :
    let r := memAllocFromExpHeapEx s heap size alignment
    ∃ used ∈ occupied (r.2.heaps.view heap), used.payload = r.1 ∧
      max size.toNat 1 + 0x14 ≤ used.size.toNat ∧
      used.size.toNat ≤
        max size.toNat 1 + 0x14 + ((normaliseAlignment alignment).1.toNat - 1) + 0x17 ∧
      (memGetTotalFreeSizeForExpHeap r.2 heap).1.toNat + used.size.toNat =
        (memGetTotalFreeSizeForExpHeap s heap).1.toNat := by
  intro r
  have hlive' : IsLive r.2 heap := (alloc_lent hwf hok).live
  rcases dead_or_live s heap with hdead | ⟨hz, hl⟩
  · rw [memAllocFromExpHeapEx, live_of_dead hdead] at hok
    exact absurd rfl hok
  rcases memAlloc_cases hz hl size alignment with ⟨-, hnull, -⟩ | ⟨payload, h', ha, hpay, hview⟩
  · exact absurd hnull hok
  have wf := hwf heap hl
  obtain ⟨pre, free, post, used, mid, hcut, rfl, hcarve, hchosen, hput⟩ :=
    allocateIn_put wf (toNat_requested_pos size) ha
  have hocc : used ∈ occupied (r.2.heaps.view heap) := by
    rw [hview, occupied_carve hcut hchosen.fits.1 hcarve]
    exact Set.mem_insert _ _
  have hholds : used.Holds := by
    have hs := hcarve.sound used hcarve.mem
    rwa [Block.Sound, if_pos hcarve.used_eq] at hs
  obtain ⟨hlow, hhigh, -⟩ := hholds
  have hcharge := hput.charge
  rw [hcarve.payloadSize_eq, toNat_atLeastOne, Block.hi] at hhigh
  rw [toNat_expBlockSize, Block.lo] at hlow
  rw [toNat_atLeastOne] at hcharge
  refine ⟨used, hocc, hcarve.payload_eq.trans hpay.symm, by omega, hcharge, ?_⟩
  rw [totalFreeSize_of_live hlive', totalFreeSize_of_live ⟨hz, hl⟩, hview]
  exact wf.charged hcut hchosen.fits.1 hcarve

theorem exp_heap_accounting (hr : Run s) (heap : UInt64) :
    (IsLive s heap →
      (memGetTotalFreeSizeForExpHeap s heap).1.toNat + usedBytes (s.heaps.view heap).blocks =
        (s.heaps.view heap).dataEnd.toNat - (s.heaps.view heap).dataStart.toNat) ∧
      (∀ size alignment, (memAllocFromExpHeapEx s heap size alignment).1 ≠ 0 →
        let r := memAllocFromExpHeapEx s heap size alignment
        ∃ k, max size.toNat 1 + 0x14 ≤ k ∧
          k ≤ max size.toNat 1 + 0x14 + ((normaliseAlignment alignment).1.toNat - 1) + 0x17 ∧
          (memGetTotalFreeSizeForExpHeap r.2 heap).1.toNat + k =
            (memGetTotalFreeSizeForExpHeap s heap).1.toNat ∧
          ∀ s', Later (r.1, heap) r.2 s' →
            (memGetTotalFreeSizeForExpHeap (memFreeToExpHeap s' heap r.1) heap).1.toNat =
              (memGetTotalFreeSizeForExpHeap s' heap).1.toNat + k) ∧
      ∀ block, (IsLive s heap → ¬Holds s heap block) →
        (∀ k, (memFreeToExpHeap s heap block).heaps.view k = s.heaps.view k) ∧
          (memFreeToExpHeap s heap block).memory = s.memory := by
  have hwf : AllWellFormed s := hr.wellFormed
  refine ⟨?_, ?_, ?_⟩
  · intro hlive
    rw [totalFreeSize_of_live hlive]
    exact (hwf heap hlive.2).balance
  · intro size alignment hok r
    obtain ⟨used, hocc, hpay, hlow, hhigh, htotal⟩ := memAlloc_charge hwf hok
    have hwf' : AllWellFormed r.2 := exec_allWellFormed (c := .alloc size alignment) hwf nofun
    refine ⟨used.size.toNat, hlow, hhigh, htotal, fun s' hlater => ?_⟩
    rw [← hpay] at hlater ⊢
    exact hlater.refund hwf' (alloc_lent hwf hok).live hocc
  · intro block hno
    exact ⟨fun k => (memFree_unknown hno k).1, (memFree_unknown hno 0).2⟩

-- 100 bytes cost 120, which come back after a neighbour was taken and a bogus free ignored.
theorem exp_heap_accounting_hundred :
    let s := (exec ⟨HandleTable.empty, fun _ => 0⟩ 0x1000 (.create 0x200 0)).2
    let r := memAllocFromExpHeapEx s 0x1000 100 4
    let s' := (exec (exec r.2 0x1000 (.alloc 16 (-4))).2 0x1000 (.free 0x1070)).2
    (memGetTotalFreeSizeForExpHeap s 0x1000).1 = 428 ∧
      (memGetTotalFreeSizeForExpHeap r.2 0x1000).1 = 308 ∧
      ∃ k, (memGetTotalFreeSizeForExpHeap r.2 0x1000).1.toNat + k = 428 ∧
        (memGetTotalFreeSizeForExpHeap (memFreeToExpHeap s' 0x1000 r.1) 0x1000).1.toNat =
          (memGetTotalFreeSizeForExpHeap s' 0x1000).1.toNat + k := by
  intro s r s'
  have htotal : (memGetTotalFreeSizeForExpHeap s 0x1000).1 = 428 := by decide
  have hr : Run s := .call _ _ (.start _) (by rintro _ _ ⟨⟩; rw [InUserSpace]; decide)
  refine ⟨htotal, by decide, ?_⟩
  obtain ⟨k, -, -, hk, hback⟩ := (exp_heap_accounting hr 0x1000).2.1 100 4 (by decide)
  rw [htotal] at hk
  have hlater : Later (r.1, 0x1000) r.2 s' :=
    .call _ _ (.call _ _ .refl (by rintro _ _ ⟨⟩) rfl) (by rintro _ _ ⟨⟩) (by decide)
  exact ⟨k, hk, hback s' hlater⟩

end CoreinitNx.ExpHeap
