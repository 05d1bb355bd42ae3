import CoreinitNx.ExpHeap.Allocatable

namespace CoreinitNx.ExpHeap

open Alignment

variable {s : ExpHeaps} {heap : UInt64} {h h' : HostExpHeap} {size a slack : UInt32}
  {payload : UInt64} {alignment : Int32} {mode : UInt8} {b free : Block} {bs : List Block}

def Fits (size a : UInt32) (b : Block) : Prop := b.used = false ∧ size ≤ fitInFree b a

-- The block taken, in its place in the list: the first that fits, or the first of the tightest.
structure Chosen (mode : UInt8) (size a : UInt32) (pre : List Block) (free : Block)
    (post : List Block) : Prop where
  fits : Fits size a free
  first : mode = memExpHeapModeFirstFree → ∀ b ∈ pre, ¬Fits size a b
  tighter : mode ≠ memExpHeapModeFirstFree → ∀ b ∈ pre, Fits size a b →
    fitInFree free a < fitInFree b a
  tightest : mode ≠ memExpHeapModeFirstFree → ∀ b ∈ post, Fits size a b →
    fitInFree free a ≤ fitInFree b a

theorem sub_lt_iff {x : UInt32} (h : size ≤ x) :
    x - size < slack ↔ x.toNat < slack.toNat + size.toNat := by
  have hle := UInt32.le_iff_toNat_le.1 h
  rw [UInt32.lt_iff_toNat_lt, UInt32.toNat_sub_of_le _ _ h]
  omega

theorem chooseFrom_skip {i : Nat} {chosen : Option Nat} (hb : ¬Fits size a b) :
    chooseFrom mode size a (b :: bs) i chosen slack =
      chooseFrom mode size a bs (i + 1) chosen slack := by
  rw [chooseFrom]
  cases hu : b.used with
  | true => rw [if_pos rfl]
  | false =>
    have hlt : fitInFree b a < size := UInt32.not_le.1 fun hle => hb ⟨hu, hle⟩
    rw [if_neg Bool.false_ne_true]
    dsimp only
    rw [if_pos hlt]

theorem chooseFrom_fits {i : Nat} {chosen : Option Nat} (hb : Fits size a b) :
    chooseFrom mode size a (b :: bs) i chosen slack =
      if mode = memExpHeapModeFirstFree then some i
      else if chosen = none ∨ fitInFree b a - size < slack then
        chooseFrom mode size a bs (i + 1) (some i) (fitInFree b a - size)
      else chooseFrom mode size a bs (i + 1) chosen slack := by
  obtain ⟨hu, hfit⟩ := hb
  rw [chooseFrom, hu, if_neg Bool.false_ne_true]
  dsimp only
  rw [if_neg (UInt32.not_lt.2 hfit)]

theorem chooseFrom_first {i j : Nat} (hmode : mode = memExpHeapModeFirstFree)
    (hc : chooseFrom mode size a bs i none slack = some j) :
    ∃ pre free post, bs = pre ++ free :: post ∧ j = i + pre.length ∧ Fits size a free ∧
      ∀ b ∈ pre, ¬Fits size a b := by
  induction bs generalizing i with
  | nil => cases hc
  | cons b bs ih =>
    by_cases hb : Fits size a b
    · rw [chooseFrom_fits hb, if_pos hmode] at hc
      exact ⟨[], b, bs, rfl, (Option.some.inj hc).symm, hb, by simp⟩
    · rw [chooseFrom_skip hb] at hc
      obtain ⟨pre, free, post, rfl, rfl, hfree, hpre⟩ := ih hc
      refine ⟨b :: pre, free, post, rfl, by rw [List.length_cons]; omega, hfree, ?_⟩
      exact List.forall_mem_cons.2 ⟨hb, hpre⟩

-- One of the blocks, at `j` when they start at `i`, is the first of the tightest, with a fit of `p`.
def Improved (size a : UInt32) (p : UInt32 → Prop) (bs : List Block) (i j : Nat) : Prop :=
  ∃ pre free post, bs = pre ++ free :: post ∧ j = i + pre.length ∧ Fits size a free ∧
    (∀ c ∈ pre, Fits size a c → fitInFree free a < fitInFree c a) ∧
    (∀ c ∈ post, Fits size a c → fitInFree free a ≤ fitInFree c a) ∧ p (fitInFree free a)

theorem Improved.cons {i j : Nat} {p q : UInt32 → Prop} (h : Improved size a p bs (i + 1) j)
    (hlt : ∀ fit, p fit → Fits size a b → fit < fitInFree b a) (hpq : ∀ fit, p fit → q fit) :
    Improved size a q (b :: bs) i j := by
  obtain ⟨pre, free, post, rfl, rfl, hfree, hpre, hpost, hfit⟩ := h
  refine ⟨b :: pre, free, post, rfl, by rw [List.length_cons]; omega, hfree, ?_, hpost, hpq _ hfit⟩
  exact List.forall_mem_cons.2 ⟨hlt _ hfit, hpre⟩

-- The running minimum: either no later block beats the slack so far, or one later block beats it
-- and every block before it, and is not beaten after it.
theorem chooseFrom_nearest {i j : Nat} {chosen : Option Nat}
    (hmode : mode ≠ memExpHeapModeFirstFree)
    (hc : chooseFrom mode size a bs i chosen slack = some j) :
    (chosen = some j ∧ ∀ c ∈ bs, Fits size a c →
        slack.toNat + size.toNat ≤ (fitInFree c a).toNat) ∨
      Improved size a (fun fit => chosen ≠ none → fit.toNat < slack.toNat + size.toNat) bs i j := by
  induction bs generalizing i chosen slack with
  | nil => exact .inl ⟨hc, by simp⟩
  | cons b bs ih =>
    by_cases hb : Fits size a b
    · have hslack : (fitInFree b a - size).toNat + size.toNat = (fitInFree b a).toNat := by
        have hle := UInt32.le_iff_toNat_le.1 hb.2
        rw [UInt32.toNat_sub_of_le _ _ hb.2]
        omega
      rw [chooseFrom_fits hb, if_neg hmode] at hc
      by_cases hbetter : chosen = none ∨ fitInFree b a - size < slack
      · rw [if_pos hbetter] at hc
        have hbeats : chosen ≠ none → (fitInFree b a).toNat < slack.toNat + size.toNat :=
          fun hne => (sub_lt_iff hb.2).1 (hbetter.resolve_left hne)
        right
        rcases ih hc with ⟨hij, hrest⟩ | hrest
        · refine ⟨[], b, bs, rfl, (Option.some.inj hij).symm, hb, by simp, ?_, hbeats⟩
          intro c hcm hcf
          have := hrest c hcm hcf
          rw [hslack] at this
          exact UInt32.le_iff_toNat_le.2 this
        · rw [hslack] at hrest
          apply hrest.cons
          · exact fun fit hfit _ => UInt32.lt_iff_toNat_lt.2 (hfit nofun)
          · exact fun fit hfit hne => (hfit nofun).trans (hbeats hne)
      · rw [if_neg hbetter] at hc
        obtain ⟨hne, hge⟩ := not_or.1 hbetter
        rw [sub_lt_iff hb.2, Nat.not_lt] at hge
        rcases ih hc with ⟨hij, hrest⟩ | hrest
        · exact .inl ⟨hij, List.forall_mem_cons.2 ⟨fun _ => hge, hrest⟩⟩
        · right
          apply hrest.cons
          · exact fun fit hfit _ => UInt32.lt_iff_toNat_lt.2 ((hfit hne).trans_le hge)
          · exact fun fit hfit => hfit
    · rw [chooseFrom_skip hb] at hc
      rcases ih hc with ⟨hij, hrest⟩ | hrest
      · exact .inl ⟨hij, List.forall_mem_cons.2 ⟨fun h => absurd h hb, hrest⟩⟩
      · exact .inr (hrest.cons (fun fit _ h => absurd h hb) fun fit hfit => hfit)

theorem chooseFrom_chosen {j : Nat} (hc : chooseFrom mode size a bs 0 none 0 = some j) :
    ∃ pre free post, bs = pre ++ free :: post ∧ j = pre.length ∧
      Chosen mode size a pre free post := by
  by_cases hmode : mode = memExpHeapModeFirstFree
  · obtain ⟨pre, free, post, hbs, hj, hfree, hpre⟩ := chooseFrom_first hmode hc
    exact ⟨pre, free, post, hbs, by omega, hfree, fun _ => hpre, fun h => absurd hmode h,
      fun h => absurd hmode h⟩
  · obtain ⟨hno, -⟩ | ⟨pre, free, post, hbs, hj, hfree, hpre, hpost, -⟩ :=
      chooseFrom_nearest hmode hc
    · cases hno
    · exact ⟨pre, free, post, hbs, by omega, hfree, fun h => absurd h hmode, fun _ => hpre,
        fun _ => hpost⟩

-- What a remainder too small to split adds is less than a block header and four bytes.
theorem replacement_size {p : Placement} {fromBottom : Bool} (hp : p.Fits free size a)
    (hb : b ∈ replacement free p size fromBottom) (hu : b.used = true) :
    b.size.toNat ≤ p.blockEnd.toNat - p.blockStart.toNat + 23 := by
  have hlen : (p.block size fromBottom).size.toNat = p.blockEnd.toNat - p.blockStart.toNat :=
    hp.toNat_size
  have hwider {x : UInt32} (hx : ¬x ≥ minSplit) :
      ((p.block size fromBottom).size + x).toNat ≤ p.blockEnd.toNat - p.blockStart.toNat + 23 := by
    rw [ge_iff_le, UInt32.le_iff_toNat_le, toNat_minSplit] at hx
    have hsum := Nat.mod_le ((p.block size fromBottom).size.toNat + x.toNat) (2 ^ 32)
    rw [UInt32.toNat_add]
    omega
  have hfree {start : UInt64} {x : UInt32} : b ≠ freeBlock start x := by
    rintro rfl
    cases hu
  rw [replacement] at hb
  cases fromBottom with
  | true =>
    simp only [if_true] at hb
    split at hb
    next =>
      have hb := (List.mem_pair.1 hb).resolve_left hfree
      rw [hb, hlen]
      omega
    next hsmall =>
      split at hb
      next =>
        rw [List.mem_singleton.1 hb]
        exact hwider hsmall
      next =>
        rw [List.mem_singleton.1 hb, hlen]
        omega
  | false =>
    simp only [Bool.false_eq_true, if_false] at hb
    split at hb
    next =>
      have hb := (List.mem_pair.1 hb).resolve_right hfree
      rw [hb, hlen]
      omega
    next hsmall =>
      rw [List.mem_singleton.1 hb]
      exact hwider hsmall

-- Where the payload goes in the block that was taken.
structure Put (free : Block) (size a : UInt32) (fromBottom : Bool) (payload : UInt64)
    (used : Block) : Prop where
  top : fromBottom = false → payload.toNat = free.lowest a
  bottom : fromBottom = true → payload.toNat = free.highest size a
  charge : used.size.toNat ≤ size.toNat + 20 + (a.toNat - 1) + 23

theorem place_put (ha : IsAlignment a) (hb : free.hi ≤ userSpaceEnd) (hs : 0 < size.toNat)
    (hfit : size ≤ fitInFree free a) (fromBottom : Bool) :
    ∃ p used, place free size a fromBottom = some p ∧
      Carves free size p.payload used (replacement free p size fromBottom) ∧
      Put free size a fromBottom p.payload used := by
  rw [UInt32.le_iff_toNat_le] at hfit
  cases fromBottom with
  | true =>
    obtain ⟨p, hp, hf, hend, hpay, hstart⟩ := place_bottom ha hb hs hfit
    obtain ⟨used, hc⟩ := replacement_bottom hf hs hend
    refine ⟨p, used, hp, hc, (by rintro ⟨⟩), fun _ => hpay, ?_⟩
    have hsize := replacement_size hf hc.mem hc.used_eq
    have hfloor := lt_floorTo_add ha.pos (free.hi - size.toNat)
    rw [toNat_expBlockSize] at hstart
    rw [hend] at hsize
    rw [Block.highest] at hpay
    omega
  | false =>
    obtain ⟨p, hp, hf, hstart, hpay, hend⟩ := place_top ha hb hs hfit
    obtain ⟨used, hc⟩ := replacement_top hf hb hs hstart
    refine ⟨p, used, hp, hc, fun _ => hpay, (by rintro ⟨⟩), ?_⟩
    have hsize := replacement_size hf hc.mem hc.used_eq
    have hceil := ceilTo_lt_add ha.pos (free.lo + expBlockSize.toNat)
    have hlo : p.blockStart.toNat = free.lo := by rw [hstart]; rfl
    rw [hlo, hend, Block.lowest] at hsize
    rw [toNat_expBlockSize] at hceil hsize
    omega

-- A grant takes one free block out of the list and puts its pieces where it was.
theorem allocateIn_put (wf : WellFormed h) (hs : 0 < size.toNat)
    (ha : allocateIn h size alignment = some (payload, h')) :
    ∃ pre free post used mid, h.blocks = pre ++ free :: post ∧
      h' = { h with blocks := pre ++ mid ++ post } ∧
      Carves free size payload used mid ∧
      Chosen h.mode size (normaliseAlignment alignment).1 pre free post ∧
      Put free size (normaliseAlignment alignment).1 (normaliseAlignment alignment).2 payload
        used := by
  have halign := isAlignment_normaliseAlignment alignment
  rw [allocateIn] at ha
  generalize normaliseAlignment alignment = n at ha halign ⊢
  obtain ⟨a, fromBottom⟩ := n
  dsimp only at ha halign ⊢
  cases hc : chooseFrom h.mode size a h.blocks 0 none 0 with
  | none =>
    rw [hc] at ha
    cases ha
  | some j =>
    obtain ⟨pre, free, post, hcut, rfl, hchosen⟩ := chooseFrom_chosen hc
    have hget : h.blocks[pre.length]? = some free := by
      rw [hcut, List.getElem?_append_right le_rfl, Nat.sub_self, List.getElem?_cons_zero]
    have hmem : free ∈ h.blocks := List.mem_of_getElem? hget
    obtain ⟨p, used, hp, hcarve, hput⟩ :=
      place_put halign (wf.hi_le hmem) hs hchosen.fits.2 fromBottom
    rw [hc] at ha
    dsimp only at ha
    rw [hget] at ha
    dsimp only at ha
    rw [hp] at ha
    obtain ⟨rfl, rfl⟩ := Prod.mk.inj (Option.some.inj ha)
    have hpre : h.blocks.take pre.length = pre := by rw [hcut, List.take_left]
    have hpost : h.blocks.drop (pre.length + 1) = post := by
      rw [hcut, ← List.drop_drop, List.drop_left, List.drop_one, List.tail_cons]
    refine ⟨pre, free, post, used, _, hcut, ?_, hcarve, hchosen, hput⟩
    rw [hpre, hpost]

theorem WellFormed.mem_pre_or_lo_le {pre post : List Block} (wf : WellFormed h)
    (hcut : h.blocks = pre ++ free :: post) (hb : b ∈ h.blocks) : b ∈ pre ∨ free.lo ≤ b.lo := by
  have hpw := wf.tiles.pairwise
  have hlt := (wf.bounds (b := free) (by simp [hcut])).2.1
  rw [hcut, List.pairwise_append, List.pairwise_cons] at hpw
  rw [hcut, List.mem_append, List.mem_cons] at hb
  rcases hb with hb | rfl | hb
  · exact .inl hb
  · exact .inr le_rfl
  · exact .inr (hlt.le.trans (hpw.2.1.1 b hb))

theorem exp_placement_policy (hr : Run s) (heap : UInt64) (size : UInt32) (alignment : Int32)
    (hok : (memAllocFromExpHeapEx s heap size alignment).1 ≠ 0) :
    let h := s.heaps.view heap
    let n : UInt32 := if size = 0 then 1 else size
    let a := (normaliseAlignment alignment).1
    let fromBottom := (normaliseAlignment alignment).2
    let r := memAllocFromExpHeapEx s heap size alignment
    ∃ pre free post used mid, h.blocks = pre ++ free :: post ∧
      r.2.heaps.view heap = { h with blocks := pre ++ mid ++ post } ∧
      Carves free n r.1 used mid ∧ Fits n a free ∧
      (h.mode = memExpHeapModeFirstFree → ∀ b ∈ h.blocks, Fits n a b → free.lo ≤ b.lo) ∧
      (h.mode ≠ memExpHeapModeFirstFree → ∀ b ∈ h.blocks, Fits n a b →
        fitInFree free a ≤ fitInFree b a ∧
          (fitInFree b a = fitInFree free a → free.lo ≤ b.lo)) ∧
      (fromBottom = false →
        IsLeast {x | a.toNat ∣ x ∧ free.lo + expBlockSize.toNat ≤ x} r.1.toNat) ∧
      (fromBottom = true →
        IsGreatest {x | a.toNat ∣ x ∧ x + n.toNat ≤ free.hi} r.1.toNat) := by
  intro h n a fromBottom r
  have hpos : 0 < n.toNat := toNat_requested_pos size
  have halign : IsAlignment a := isAlignment_normaliseAlignment alignment
  rcases dead_or_live s heap with hdead | ⟨hz, hl⟩
  · rw [memAllocFromExpHeapEx, live_of_dead hdead] at hok
    exact absurd rfl hok
  have wf : WellFormed h := hr.wellFormed heap hl
  rcases memAlloc_cases hz hl size alignment with ⟨-, hnull, -⟩ | ⟨payload, h', ha, hpay, hview⟩
  · exact absurd hnull hok
  obtain ⟨pre, free, post, used, mid, hcut, rfl, hcarve, hchosen, hput⟩ := allocateIn_put wf hpos ha
  change r.1 = payload at hpay
  have hmem : free ∈ h.blocks := by simp [hcut]
  have hfit := UInt32.le_iff_toNat_le.1 hchosen.fits.2
  rw [toNat_fitInFree halign (wf.hi_le hmem)] at hfit
  refine ⟨pre, free, post, used, mid, hcut, hview, hpay ▸ hcarve, hchosen.fits, ?_, ?_, ?_, ?_⟩
  · intro hmode b hb hbf
    exact (wf.mem_pre_or_lo_le hcut hb).resolve_left fun hpre => hchosen.first hmode b hpre hbf
  · intro hmode b hb hbf
    rcases wf.mem_pre_or_lo_le hcut hb with hpre | hlo
    · have hlt := hchosen.tighter hmode b hpre hbf
      exact ⟨UInt32.le_of_lt hlt, fun heq => absurd heq.symm (UInt32.ne_of_lt hlt)⟩
    · refine ⟨?_, fun _ => hlo⟩
      rw [hcut, List.mem_append, List.mem_cons] at hb
      rcases hb with hpre | rfl | hpost
      · exact UInt32.le_of_lt (hchosen.tighter hmode b hpre hbf)
      · exact UInt32.le_refl _
      · exact hchosen.tightest hmode b hpost hbf
  · intro htop
    rw [hpay, hput.top htop]
    exact isLeast_ceilTo halign.pos _
  · intro hbottom
    have hset : {x | a.toNat ∣ x ∧ x + n.toNat ≤ free.hi} =
        {x | a.toNat ∣ x ∧ x ≤ free.hi - n.toNat} := by
      ext x
      refine and_congr_right fun _ => ?_
      omega
    rw [hpay, hput.bottom hbottom, hset]
    exact isGreatest_floorTo _ _

-- Of the holes left by two frees the tighter one is taken, not the lower one.
theorem exp_placement_policy_nearest :
    let s := [Call.create 0x400 0, .alloc 200 4, .alloc 16 4, .alloc 64 4, .alloc 500 4,
      .free 4200, .free 4456, .setAllocMode 1].foldl (fun s c => (exec s 0x1000 c).2)
      ⟨HandleTable.empty, fun _ => 0⟩
    (memAllocFromExpHeapEx s 0x1000 64 4).1 = 4456 ∧
      ∃ free ∈ (s.heaps.view 0x1000).blocks, ∀ b ∈ (s.heaps.view 0x1000).blocks, Fits 64 4 b →
        fitInFree free 4 ≤ fitInFree b 4 := by
  intro s
  have hpay : (memAllocFromExpHeapEx s 0x1000 64 4).1 = 4456 := by decide
  refine ⟨hpay, ?_⟩
  have hr : Run s := by
    refine .call _ _ (.call _ _ (.call _ _ (.call _ _ (.call _ _ (.call _ _ (.call _ _ (.call _ _
      (.start _) ?_) ?_) ?_) ?_) ?_) ?_) ?_) ?_
    · rintro _ _ ⟨⟩
      rw [InUserSpace]
      decide
    all_goals rintro _ _ ⟨⟩
  obtain ⟨pre, free, post, -, -, hcut, -, -, -, -, hnearest, -⟩ :=
    exp_placement_policy hr 0x1000 64 4 (by rw [hpay]; decide)
  refine ⟨free, by simp [hcut], fun b hb hfit => (hnearest (by decide) b hb hfit).1⟩

end CoreinitNx.ExpHeap
