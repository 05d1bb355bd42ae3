import CoreinitNx.ExpHeap.Placement

namespace CoreinitNx.ExpHeap

open Tiling

structure WellFormed (h : HostExpHeap) : Prop where
  room : h.dataEnd.toNat ≤ userSpaceEnd
  order : h.dataStart.toNat < h.dataEnd.toNat
  span : h.dataEnd.toNat - h.dataStart.toNat < 2 ^ 32
  tiles : Tiles Block.lo Block.hi h.blocks h.dataStart.toNat h.dataEnd.toNat
  separated : Separated (fun b => b.used = false) h.blocks
  sound : ∀ b ∈ h.blocks, b.Sound

def occupied (h : HostExpHeap) : Set Block := {b | b ∈ h.blocks ∧ b.used = true}

variable {h : HostExpHeap} {b c free : Block} {size a : UInt32} {block : UInt64}

namespace WellFormed

theorem bounds (wf : WellFormed h) (hb : b ∈ h.blocks) :
    h.dataStart.toNat ≤ b.lo ∧ b.lo < b.hi ∧ b.hi ≤ h.dataEnd.toNat := wf.tiles.bounds hb

theorem hi_le (wf : WellFormed h) (hb : b ∈ h.blocks) : b.hi ≤ userSpaceEnd :=
  (wf.bounds hb).2.2.trans wf.room

theorem holds (wf : WellFormed h) (hb : b ∈ occupied h) : b.Holds := by
  have hs := wf.sound b hb.1
  rwa [Block.Sound, if_pos hb.2] at hs

theorem blank (wf : WellFormed h) (hb : b ∈ h.blocks) (hu : b.used = false) : b.Blank := by
  have hs := wf.sound b hb
  rwa [Block.Sound, hu, if_neg Bool.false_ne_true] at hs

theorem disjoint (wf : WellFormed h) (hb : b ∈ occupied h) (hc : c ∈ occupied h) (hne : b ≠ c) :
    b.payload.toNat + b.payloadSize.toNat + expBlockSize.toNat ≤ c.payload.toNat ∨
      c.payload.toNat + c.payloadSize.toNat + expBlockSize.toNat ≤ b.payload.toNat := by
  obtain ⟨hb1, hb2, -⟩ := wf.holds hb
  obtain ⟨hc1, hc2, -⟩ := wf.holds hc
  rcases wf.tiles.eq_or_disjoint hb.1 hc.1 with heq | hlt | hlt
  · exact absurd heq hne
  · left; omega
  · right; omega

theorem eq_of_payload (wf : WellFormed h) (hb : b ∈ occupied h) (hc : c ∈ occupied h)
    (hp : b.payload = c.payload) : b = c := by
  by_contra hne
  rcases wf.disjoint hb hc hne with hd | hd <;> rw [hp, toNat_expBlockSize] at hd <;> omega

theorem payload_ne_zero (wf : WellFormed h) (hb : b ∈ occupied h) : b.payload ≠ 0 := by
  intro hz
  obtain ⟨h1, -, -⟩ := wf.holds hb
  rw [hz, toNat_expBlockSize] at h1
  exact absurd h1 (by simp)

end WellFormed

theorem chooseFrom_some {mode : UInt8} {bs : List Block} {i j : Nat} {chosen : Option Nat}
    {slack : UInt32} (hc : chooseFrom mode size a bs i chosen slack = some j) :
    chosen = some j ∨
      ∃ k b, j = i + k ∧ bs[k]? = some b ∧ b.used = false ∧ size ≤ fitInFree b a := by
  induction bs generalizing i chosen slack with
  | nil => exact .inl hc
  | cons b bs ih =>
    have lift {chosen' : Option Nat} {slack' : UInt32}
        (hc' : chooseFrom mode size a bs (i + 1) chosen' slack' = some j) :
        chosen' = some j ∨ ∃ k c, j = i + k ∧ (b :: bs)[k]? = some c ∧ c.used = false ∧
          size ≤ fitInFree c a := by
      rcases ih hc' with hl | ⟨k, c, hk, hget, hrest⟩
      · exact .inl hl
      · exact .inr ⟨k + 1, c, by omega, hget, hrest⟩
    simp only [chooseFrom] at hc
    split at hc
    next => exact lift hc
    next hu =>
      have hfree : b.used = false := Bool.eq_false_iff.2 hu
      split at hc
      next => exact lift hc
      next hfit =>
        have here : ∃ k c, i = i + k ∧ (b :: bs)[k]? = some c ∧ c.used = false ∧
            size ≤ fitInFree c a := ⟨0, b, rfl, rfl, hfree, UInt32.not_lt.1 hfit⟩
        split at hc
        next =>
          obtain rfl := Option.some.inj hc
          exact .inr here
        next =>
          split at hc
          next =>
            rcases lift hc with hl | hr
            · obtain rfl := Option.some.inj hl
              exact .inr here
            · exact .inr hr
          next => exact lift hc

theorem chooseFrom_none {mode : UInt8} {bs : List Block} {i : Nat} {chosen : Option Nat}
    {slack : UInt32} (hc : chooseFrom mode size a bs i chosen slack = none) :
    chosen = none ∧ ∀ b ∈ bs, b.used = false → fitInFree b a < size := by
  induction bs generalizing i chosen slack with
  | nil => exact ⟨hc, by simp⟩
  | cons b bs ih =>
    simp only [chooseFrom] at hc
    split at hc
    next hu =>
      obtain ⟨h1, h2⟩ := ih hc
      exact ⟨h1, by simpa [hu] using h2⟩
    next =>
      split at hc
      next hfit =>
        obtain ⟨h1, h2⟩ := ih hc
        exact ⟨h1, by simpa [hfit] using h2⟩
      next =>
        split at hc
        next => cases hc
        next =>
          split at hc
          next => exact absurd (ih hc).1 (by simp)
          next hbetter => exact absurd (.inl (ih hc).1) hbetter

theorem allocateIn_cases (wf : WellFormed h) (hs : 0 < size.toNat) (alignment : Int32) :
    allocateIn h size alignment = none ∧
        (∀ b ∈ h.blocks, b.used = false → fitInFree b (normaliseAlignment alignment).1 < size) ∨
      ∃ pre free post used mid payload, h.blocks = pre ++ free :: post ∧ free.used = false ∧
        Carves free size payload used mid ∧
        (normaliseAlignment alignment).1.toNat ∣ payload.toNat ∧
        allocateIn h size alignment = some (payload, { h with blocks := pre ++ mid ++ post }) := by
  have ha := isAlignment_normaliseAlignment alignment
  rw [allocateIn]
  generalize normaliseAlignment alignment = n at ha ⊢
  obtain ⟨a, fromBottom⟩ := n
  simp only at ha ⊢
  cases hc : chooseFrom h.mode size a h.blocks 0 none 0 with
  | none => exact .inl ⟨rfl, (chooseFrom_none hc).2⟩
  | some j =>
    right
    obtain ⟨k, free, rfl, hget, hu, hfit⟩ := (chooseFrom_some hc).resolve_left (by simp)
    rw [Nat.zero_add]
    have hmem : free ∈ h.blocks := List.mem_of_getElem? hget
    have hcut : h.blocks = h.blocks.take k ++ free :: h.blocks.drop (k + 1) := by
      obtain ⟨hk, rfl⟩ := List.getElem?_eq_some_iff.1 hget
      rw [← List.drop_eq_getElem_cons hk, List.take_append_drop]
    obtain ⟨p, hp, hfits, hbot, htop⟩ :=
      place_fits ha (wf.hi_le hmem) hs (UInt32.le_iff_toNat_le.1 hfit) fromBottom
    have hcarve : ∃ used, Carves free size p.payload used (replacement free p size fromBottom) := by
      cases fromBottom with
      | true => exact replacement_bottom hfits hs (hbot rfl)
      | false => exact replacement_top hfits (wf.hi_le hmem) hs (htop rfl)
    obtain ⟨used, hcarve⟩ := hcarve
    refine ⟨_, free, _, used, _, p.payload, hcut, hu, hcarve, hfits.aligned, ?_⟩
    simp only [hget, hp]

theorem allocateIn_some {h' : HostExpHeap} {alignment : Int32} {payload : UInt64}
    (wf : WellFormed h) (hs : 0 < size.toNat)
    (ha : allocateIn h size alignment = some (payload, h')) :
    ∃ pre free post used mid, h.blocks = pre ++ free :: post ∧ free.used = false ∧
      Carves free size payload used mid ∧
      (normaliseAlignment alignment).1.toNat ∣ payload.toNat ∧
      h' = { h with blocks := pre ++ mid ++ post } := by
  rcases allocateIn_cases wf hs alignment with ⟨hnone, -⟩ |
    ⟨pre, free, post, used, mid, p, hcut, hu, hc, hd, hsome⟩
  · rw [hnone] at ha
    cases ha
  · rw [hsome] at ha
    obtain ⟨rfl, rfl⟩ := Prod.mk.inj (Option.some.inj ha)
    exact ⟨pre, free, post, used, mid, hcut, hu, hc, hd, rfl⟩

theorem WellFormed.carve {pre post mid : List Block} {used : Block} {payload : UInt64}
    (wf : WellFormed h) (hcut : h.blocks = pre ++ free :: post) (hu : free.used = false)
    (hc : Carves free size payload used mid) :
    WellFormed { h with blocks := pre ++ mid ++ post } := by
  have ht := wf.tiles
  have hsep := wf.separated
  rw [hcut] at ht hsep
  refine ⟨wf.room, wf.order, wf.span, ht.splice hc.tiles, hsep.splice hu hc.separated, ?_⟩
  intro b hb
  simp only [List.mem_append] at hb
  rcases hb with (hb | hb) | hb
  · exact wf.sound b (by simp [hcut, hb])
  · exact hc.sound b hb
  · exact wf.sound b (by simp [hcut, hb])

theorem occupied_carve {pre post mid : List Block} {used : Block} {payload : UInt64}
    (hcut : h.blocks = pre ++ free :: post) (hu : free.used = false)
    (hc : Carves free size payload used mid) :
    occupied { h with blocks := pre ++ mid ++ post } = insert used (occupied h) := by
  ext b
  simp only [occupied, Set.mem_ofPred_eq, Set.mem_insert_iff, hcut, List.mem_append, List.mem_cons]
  constructor
  · rintro ⟨(hb | hb) | hb, hbu⟩
    · exact .inr ⟨.inl hb, hbu⟩
    · exact .inl (hc.only b hb hbu)
    · exact .inr ⟨.inr (.inr hb), hbu⟩
  · rintro (rfl | ⟨hb | rfl | hb, hbu⟩)
    · exact ⟨.inl (.inr hc.mem), hc.used_eq⟩
    · exact ⟨.inl (.inl hb), hbu⟩
    · simp [hu] at hbu
    · exact ⟨.inr hb, hbu⟩

def joinBlock (b next : Block) : Block := { b with size := b.size + next.size }

theorem coalesceFrom_eq (b : Block) (bs : List Block) :
    coalesceFrom b bs = mergeFrom (fun b => !b.used) joinBlock b bs := by
  induction bs generalizing b with
  | nil => rfl
  | cons c bs ih => simp only [coalesceFrom, mergeFrom, ih]; rfl

theorem coalesce_eq (bs : List Block) : coalesce bs = mergeFree (fun b => !b.used) joinBlock bs := by
  cases bs with
  | nil => rfl
  | cons b bs => exact coalesceFrom_eq b bs

theorem joins_joinBlock {start stop : Nat} (hspan : stop - start < 2 ^ 32) :
    Joins Block.lo Block.hi (fun b => !b.used) joinBlock start stop := by
  refine ⟨fun _ _ hb _ => hb, fun _ _ => rfl, ?_⟩
  intro b c hstart _ hbc _ hstop
  have hsum : (b.size + c.size).toNat = b.size.toNat + c.size.toNat := by
    rw [Block.lo, Block.hi] at *
    rw [UInt32.toNat_add, Nat.mod_eq_of_lt (by omega)]
  change b.start.toNat + (b.size + c.size).toNat = c.start.toNat + c.size.toNat
  rw [Block.lo, Block.hi] at hbc
  omega

theorem releaseFirst_some {bs bs' : List Block} (hr : releaseFirst block bs = some bs') :
    ∃ pre b post, bs = pre ++ b :: post ∧ b.used = true ∧ b.payload = block ∧
      bs' = pre ++ b.release :: post := by
  induction bs generalizing bs' with
  | nil => cases hr
  | cons c bs ih =>
    simp only [releaseFirst, Bool.and_eq_true, beq_iff_eq] at hr
    split at hr
    next hc => exact ⟨[], c, bs, rfl, hc.1, hc.2, (Option.some.inj hr).symm⟩
    next =>
      obtain ⟨tail, htail, rfl⟩ := Option.map_eq_some_iff.1 hr
      obtain ⟨pre, b, post, rfl, hu, hp, rfl⟩ := ih htail
      exact ⟨c :: pre, b, post, rfl, hu, hp, rfl⟩

theorem releaseFirst_none {bs : List Block} (hr : releaseFirst block bs = none) :
    ∀ b ∈ bs, b.used = true → b.payload ≠ block := by
  induction bs with
  | nil => simp
  | cons c bs ih =>
    simp only [releaseFirst, Bool.and_eq_true, beq_iff_eq] at hr
    split at hr
    next => cases hr
    next hc =>
      intro b hb hu hp
      rcases List.mem_cons.1 hb with rfl | hb
      · exact hc ⟨hu, hp⟩
      · exact ih (Option.map_eq_none_iff.1 hr) b hb hu hp

-- A free either finds no used block at the pointer or coalesces the list with that one released.
theorem freeIn_cases (h : HostExpHeap) (block : UInt64) :
    freeIn h block = h ∧ (∀ b ∈ occupied h, b.payload ≠ block) ∨
      ∃ pre b post, h.blocks = pre ++ b :: post ∧ b.used = true ∧ b.payload = block ∧
        freeIn h block = { h with blocks := coalesce (pre ++ b.release :: post) } := by
  cases hr : releaseFirst block h.blocks with
  | none => exact .inl ⟨by simp [freeIn, hr], fun b hb => releaseFirst_none hr b hb.1 hb.2⟩
  | some bs =>
    obtain ⟨pre, b, post, hcut, hu, hp, rfl⟩ := releaseFirst_some hr
    exact .inr ⟨pre, b, post, hcut, hu, hp, by simp [freeIn, hr]⟩

theorem Block.Sound.release (b : Block) : b.release.Sound := ⟨rfl, rfl⟩

theorem sound_joinBlock (hb : b.used = false) (hs : b.Sound) : (joinBlock b c).Sound := by
  have hj : (joinBlock b c).used = false := hb
  rw [Block.Sound, hb, if_neg Bool.false_ne_true] at hs
  rw [Block.Sound, hj, if_neg Bool.false_ne_true]
  exact hs

theorem WellFormed.released {pre post : List Block} (wf : WellFormed h)
    (hcut : h.blocks = pre ++ b :: post) :
    WellFormed { h with blocks := coalesce (pre ++ b.release :: post) } := by
  have hj := joins_joinBlock wf.span
  have ht := wf.tiles
  rw [hcut] at ht
  have hb : b.lo < b.hi := (ht.bounds (by simp)).2.1
  have htiles : Tiles Block.lo Block.hi (pre ++ b.release :: post) h.dataStart.toNat
      h.dataEnd.toNat := by
    have hone : Tiles Block.lo Block.hi [b.release] b.lo b.hi := ⟨rfl, hb, rfl⟩
    have hsplice := ht.splice hone
    rwa [List.append_assoc, List.singleton_append] at hsplice
  rw [coalesce_eq]
  refine ⟨wf.room, wf.order, wf.span, mergeFree_tiles hj htiles, ?_, ?_⟩
  · simpa using mergeFree_separated hj (pre ++ b.release :: post)
  · apply mergeFree_forall
    · intro x y hx _ hsx _
      exact sound_joinBlock (by simpa using hx) hsx
    · intro c hc
      simp only [List.mem_append, List.mem_cons] at hc
      rcases hc with hc | rfl | hc
      · exact wf.sound c (by simp [hcut, hc])
      · exact Block.Sound.release b
      · exact wf.sound c (by simp [hcut, hc])

theorem WellFormed.freeIn (wf : WellFormed h) (block : UInt64) : WellFormed (ExpHeap.freeIn h block) := by
  rcases freeIn_cases h block with ⟨heq, -⟩ | ⟨pre, b, post, hcut, -, -, heq⟩
  · rwa [heq]
  · rw [heq]
    exact wf.released hcut

theorem occupied_freeIn (wf : WellFormed h) (block : UInt64) :
    occupied (freeIn h block) = {b | b ∈ occupied h ∧ b.payload ≠ block} := by
  rcases freeIn_cases h block with ⟨heq, hnone⟩ | ⟨pre, b, post, hcut, hu, hp, heq⟩
  · rw [heq]
    ext c
    exact ⟨fun hc => ⟨hc, hnone c hc⟩, fun hc => hc.1⟩
  · have hb : b ∈ occupied h := ⟨by simp [hcut], hu⟩
    have hrest : ∀ c, c.used = true →
        (c ∈ coalesce (pre ++ b.release :: post) ↔ c ∈ pre ∨ c ∈ post) := by
      intro c hc
      have hne : c ≠ b.release := by rintro rfl; simp [Block.release] at hc
      rw [coalesce_eq, mem_mergeFree_of_not_free (joins_joinBlock wf.span) (by simp [hc])]
      simp [hne]
    ext c
    rw [heq]
    constructor
    · rintro ⟨hm, hc⟩
      have hside := (hrest c hc).1 hm
      have hmem : c ∈ occupied h := ⟨by rw [hcut]; simp [or_left_comm, hside], hc⟩
      refine ⟨hmem, fun hpc => ?_⟩
      obtain rfl := wf.eq_of_payload hmem hb (hpc.trans hp.symm)
      have hpw := wf.tiles.pairwise
      have hlt := (wf.bounds hmem.1).2.1
      rw [hcut, List.pairwise_append, List.pairwise_cons] at hpw
      obtain ⟨-, ⟨hpost, -⟩, hpre⟩ := hpw
      rcases hside with hside | hside
      · exact absurd (hpre c hside c (by simp)) (Nat.not_le.2 hlt)
      · exact absurd (hpost c hside) (Nat.not_le.2 hlt)
    · rintro ⟨⟨hm, hc⟩, hpc⟩
      refine ⟨(hrest c hc).2 ?_, hc⟩
      have hne : c ≠ b := fun h => hpc (h ▸ hp)
      rw [hcut] at hm
      simpa [hne] using hm

end CoreinitNx.ExpHeap
