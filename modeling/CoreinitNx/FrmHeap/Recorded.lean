import CoreinitNx.FrmHeap.Allocatable

namespace CoreinitNx.FrmHeap

variable {s : FrmHeaps} {heap k : UInt64} {h : HostFrmHeap} {tag : UInt32}

-- One call of a run, with the heap it names as it was before the call, and its result.
structure Past where
  heap : UInt64
  call : Call
  before : HostFrmHeap
  result : UInt64
deriving DecidableEq, Repr

-- Any calls on any handles; the newest is the first of the list.
inductive History : List Past → FrmHeaps → Prop
  | start (memory : Memory) : History [] ⟨HandleTable.empty, memory⟩
  | call {past : List Past} {s : FrmHeaps} (heap : UInt64) (c : Call) : History past s →
      History (⟨heap, c, s.heaps.view heap, (exec s heap c).1⟩ :: past) (exec s heap c).2

-- A successful record: its place in the run, and the heap as it was when it was made.
structure Recorded where
  position : Nat
  tag : UInt32
  before : HostFrmHeap
deriving DecidableEq, Repr

namespace Recorded

def state (r : Recorded) : State := ⟨r.tag, r.before.head, r.before.tail⟩

def Matches (tag : UInt32) (r : Recorded) : Prop := tag = 0 ∨ r.tag = tag

instance (tag : UInt32) (r : Recorded) : Decidable (r.Matches tag) :=
  inferInstanceAs (Decidable (_ ∨ _))

end Recorded

-- The most recent of the records given newest first.
def target (tag : UInt32) (records : List Recorded) : Option Recorded :=
  records.find? fun r => r.Matches tag

-- The records neither rolled back nor discarded since, newest first.
def standing (heap : UInt64) : List Past → List Recorded
  | [] => []
  | p :: past =>
      if p.heap ≠ heap then standing heap past
      else match p.call with
        | .create _ _ | .destroy => if p.result ≠ 0 then [] else standing heap past
        | .free mode =>
            if mode &&& memFrmHeapFreeAll = memFrmHeapFreeAll then [] else standing heap past
        | .record tag =>
            if p.result = 1 then ⟨past.length, tag, p.before⟩ :: standing heap past
            else standing heap past
        | .freeByState tag =>
            match target tag (standing heap past) with
            | none => standing heap past
            | some r => (standing heap past).filter fun q => q.position < r.position
        | .alloc _ _ | .adjust => standing heap past

def stackOf (records : List Recorded) : List State := (records.map Recorded.state).reverse

def older (records : List Recorded) (r : Recorded) : List Recorded :=
  records.filter fun q => q.position < r.position

structure Traced (heap : UInt64) (past : List Past) (s : FrmHeaps) : Prop where
  stack : (s.heaps.view heap).states = stackOf (standing heap past)
  dead : heap = 0 ∨ (s.heaps.view heap).live = false → standing heap past = []
  sorted : (standing heap past).Pairwise fun newer older => older.position < newer.position
  recent : ∀ r ∈ standing heap past, r.position < past.length
  before : ∀ r ∈ standing heap past, r.before.states = stackOf (older (standing heap past) r)

section Stack

variable {records newer rest : List Recorded} {r : Recorded}

theorem stackOf_cons (r : Recorded) (rest : List Recorded) :
    stackOf (r :: rest) = stackOf rest ++ [r.state] := by
  rw [stackOf, List.map_cons, List.reverse_cons, stackOf]

theorem length_stackOf (records : List Recorded) : (stackOf records).length = records.length := by
  rw [stackOf, List.length_reverse, List.length_map]

theorem stackOf_append (newer rest : List Recorded) :
    stackOf (newer ++ rest) = stackOf rest ++ stackOf newer := by
  rw [stackOf, List.map_append, List.reverse_append, stackOf, stackOf]

theorem older_eq (newer : List Recorded) (hsort : (newer ++ r :: rest).Pairwise fun x y => y.position < x.position) :
    older (newer ++ r :: rest) r = rest := by
  obtain ⟨-, hr, hcross⟩ := List.pairwise_append.1 hsort
  obtain ⟨hrest, -⟩ := List.pairwise_cons.1 hr
  have hnewer : newer.filter (fun q => q.position < r.position) = [] := by
    rw [List.filter_eq_nil_iff]
    intro q hq
    have hlt := hcross q hq r List.mem_cons_self
    simpa using hlt.le
  rw [older, List.filter_append, hnewer, List.nil_append, List.filter_cons_of_neg (by simp)]
  rw [List.filter_eq_self]
  intro q hq
  simpa using hrest q hq

theorem findBelow_append (states more : List State) (tag : UInt32) {n : Nat}
    (hn : n ≤ states.length) : findBelow (states ++ more) tag n = findBelow states tag n := by
  induction n with
  | zero => rfl
  | succ n ih => rw [findBelow, findBelow, List.getElem?_append_left hn, ih (Nat.le_of_lt hn)]

theorem findBelow_stackOf (newer rest : List Recorded) (hnewer : ∀ q ∈ newer, q.tag ≠ tag) :
    findBelow (stackOf (newer ++ rest)) tag (newer ++ rest).length =
      findBelow (stackOf rest) tag rest.length := by
  induction newer with
  | nil => rfl
  | cons q newer ih =>
    have hlast : (stackOf (newer ++ rest) ++ [q.state])[(newer ++ rest).length]? = some q.state := by
      rw [← length_stackOf]
      exact List.getElem?_concat_length
    have hq : q.state.tag ≠ tag := hnewer q List.mem_cons_self
    rw [List.cons_append, stackOf_cons, List.length_cons, findBelow, hlast, Option.map_some,
      if_neg (by simpa using hq), findBelow_append _ _ _ (length_stackOf _).ge]
    exact ih fun q hq => hnewer q (List.mem_cons_of_mem _ hq)

theorem selectState_stackOf (hnewer : ∀ q ∈ newer, ¬q.Matches tag) (hr : r.Matches tag) :
    selectState (stackOf (newer ++ r :: rest)) tag = some rest.length := by
  have hlen := length_stackOf (newer ++ r :: rest)
  have hne : stackOf (newer ++ r :: rest) ≠ [] := by
    intro hnil
    rw [hnil] at hlen
    simp at hlen
  rw [selectState, if_neg hne, hlen]
  by_cases hz : tag = 0
  · have hnil : newer = [] := List.eq_nil_iff_forall_not_mem.2 fun q hq => hnewer q hq (.inl hz)
    rw [if_pos hz, hnil]
    rfl
  · have htag : r.state.tag = tag := hr.resolve_left hz
    have hlast : (stackOf rest ++ [r.state])[rest.length]? = some r.state := by
      rw [← length_stackOf]
      exact List.getElem?_concat_length
    rw [if_neg hz, findBelow_stackOf newer _ fun q hq h => hnewer q hq (.inr h), stackOf_cons,
      List.length_cons, findBelow, hlast, Option.map_some, if_pos (congrArg some htag)]

theorem selectState_none (hnone : ∀ q ∈ records, ¬q.Matches tag) :
    selectState (stackOf records) tag = none := by
  cases records with
  | nil => rfl
  | cons q rest =>
    have hne : stackOf (q :: rest) ≠ [] := by
      rw [stackOf_cons]
      exact List.append_ne_nil_of_right_ne_nil _ (List.cons_ne_nil _ _)
    have hz : tag ≠ 0 := fun h => hnone q List.mem_cons_self (.inl h)
    have htags : ∀ x ∈ q :: rest, x.tag ≠ tag := fun x hx h => hnone x hx (.inr h)
    have hfind := findBelow_stackOf (q :: rest) [] htags
    rw [List.append_nil] at hfind
    rw [selectState, if_neg hne, if_neg hz, length_stackOf, hfind]
    rfl

theorem target_some (h : target tag records = some r) :
    r.Matches tag ∧ ∃ newer rest, records = newer ++ r :: rest ∧ ∀ q ∈ newer, ¬q.Matches tag := by
  obtain ⟨hr, newer, rest, heq, hnewer⟩ := List.find?_eq_some_iff_append.1 h
  exact ⟨of_decide_eq_true hr, newer, rest, heq, fun q hq => by simpa using hnewer q hq⟩

theorem target_none (h : target tag records = none) : ∀ q ∈ records, ¬q.Matches tag := by
  intro q hq
  simpa using List.find?_eq_none.1 h q hq

theorem selected_stackOf (hstack : h.states = stackOf records)
    (hsort : records.Pairwise fun x y => y.position < x.position)
    (htarget : target tag records = some r) :
    selected h tag = some ((older records r).length, r.state) ∧
      h.states.take (older records r).length = stackOf (older records r) := by
  obtain ⟨hr, newer, rest, rfl, hnewer⟩ := target_some htarget
  have hsplit : stackOf (newer ++ r :: rest) = stackOf rest ++ ([r.state] ++ stackOf newer) := by
    rw [stackOf_append, stackOf_cons, List.append_assoc]
  have hlen := length_stackOf rest
  rw [older_eq _ hsort, selected, hstack, selectState_stackOf hnewer hr, hsplit]
  constructor
  · rw [Option.bind_some, List.getElem?_append_right hlen.le, hlen, Nat.sub_self]
    rfl
  · rw [← hlen]
    exact List.take_left

theorem freeByStateIn_eq (hstack : h.states = stackOf records)
    (hsort : records.Pairwise fun x y => y.position < x.position) (tag : UInt32) :
    freeByStateIn h tag = (target tag records).map fun r =>
      { h with
        head := r.before.head, tail := r.before.tail, states := stackOf (older records r) } := by
  rw [freeByStateIn]
  cases htarget : target tag records with
  | none =>
    rw [selected, hstack, selectState_none (target_none htarget)]
    rfl
  | some r =>
    obtain ⟨hsel, htake⟩ := selected_stackOf hstack hsort htarget
    rw [hsel, Option.map_some, Option.map_some, ← htake]
    rfl

end Stack

theorem allocateIn_keeps {size : UInt32} {alignment : Int32} {r : UInt64} {h' : HostFrmHeap}
    (ha : allocateIn h size alignment = some (r, h')) :
    h' = { h with head := h'.head, tail := h'.tail } := by
  simp only [allocateIn] at ha
  split at ha <;> split at ha <;> cases ha <;> rfl

theorem effect_alloc (h : HostFrmHeap) (size : UInt32) (alignment : Int32) :
    ∃ head tail, effect h (.alloc size alignment) = { h with head := head, tail := tail } := by
  simp only [effect]
  cases ha : allocateIn h (requested size) alignment with
  | none => exact ⟨h.head, h.tail, rfl⟩
  | some found => exact ⟨_, _, allocateIn_keeps ha⟩

theorem effect_fixed (h : HostFrmHeap) (c : Call) :
    (effect h c).live = h.live ∧ (effect h c).dataStart = h.dataStart := by
  cases c with
  | create | destroy | record => exact ⟨rfl, rfl⟩
  | alloc size alignment =>
    obtain ⟨head, tail, heq⟩ := effect_alloc h size alignment
    rw [heq]
    exact ⟨rfl, rfl⟩
  | free mode =>
    simp only [effect, freeIn]
    split <;> split <;> split <;> exact ⟨rfl, rfl⟩
  | freeByState tag =>
    simp only [effect, freeByStateIn]
    cases selected h tag <;> exact ⟨rfl, rfl⟩
  | adjust =>
    simp only [effect]
    split <;> exact ⟨rfl, rfl⟩

theorem states_freeIn (h : HostFrmHeap) (mode : UInt32) :
    (freeIn h mode).states =
      if mode &&& memFrmHeapFreeAll = memFrmHeapFreeAll then [] else h.states := by
  simp only [freeIn]
  split <;> split <;> split <;> rfl

section Trace

variable {past : List Past} {p : Past} {s' : FrmHeaps}

theorem standing_elsewhere (hp : p.heap ≠ heap) :
    standing heap (p :: past) = standing heap past := by
  rw [standing, if_pos hp]

theorem standing_of_nil (hnil : standing heap past = [])
    (hrecord : ∀ tag, p.call = .record tag → p.result ≠ 1) : standing heap (p :: past) = [] := by
  obtain ⟨k, c, before, result⟩ := p
  rw [standing]
  split
  next => exact hnil
  next =>
    cases c with
    | create | destroy => exact ite_eq_left_iff.2 fun _ => hnil
    | free mode => exact ite_eq_left_iff.2 fun _ => hnil
    | record tag =>
      refine (if_neg (hrecord tag rfl)).trans hnil
    | freeByState tag =>
      simp only [hnil]
      rfl
    | alloc | adjust => exact hnil

theorem Traced.keep (ht : Traced heap past s) (hstanding : standing heap (p :: past) = standing heap past)
    (hstates : (s'.heaps.view heap).states = (s.heaps.view heap).states)
    (hlive : (s'.heaps.view heap).live = (s.heaps.view heap).live) : Traced heap (p :: past) s' := by
  constructor <;> rw [hstanding]
  · exact hstates.trans ht.stack
  · rw [hlive]
    exact ht.dead
  · exact ht.sorted
  · exact fun r hr => (ht.recent r hr).trans (Nat.lt_succ_self _)
  · exact ht.before

theorem traced_empty (hstanding : standing heap past = [])
    (hstates : (s.heaps.view heap).states = []) : Traced heap past s := by
  constructor <;> rw [hstanding]
  · exact hstates
  · exact fun _ => rfl
  · exact .nil
  · exact nofun
  · exact nofun

theorem Traced.push (ht : Traced heap past s) {r : Recorded}
    (hstanding : standing heap (p :: past) = r :: standing heap past)
    (hr : r = ⟨past.length, tag, s.heaps.view heap⟩)
    (hview : s'.heaps.view heap = effect (s.heaps.view heap) (.record tag)) (hz : heap ≠ 0)
    (hl : (s.heaps.view heap).live = true) : Traced heap (p :: past) s' := by
  have hsort : (r :: standing heap past).Pairwise fun x y => y.position < x.position := by
    refine List.pairwise_cons.2 ⟨fun q hq => ?_, ht.sorted⟩
    rw [hr]
    exact ht.recent q hq
  constructor <;> rw [hstanding]
  · rw [hview, stackOf_cons, hr]
    exact congrArg (· ++ _) ht.stack
  · rw [hview, (effect_fixed _ _).1, hl]
    exact fun h => h.elim (fun h => absurd h hz) nofun
  · exact hsort
  · intro q hq
    rcases List.mem_cons.1 hq with rfl | hq
    · rw [hr]
      exact Nat.lt_succ_self _
    · exact (ht.recent q hq).trans (Nat.lt_succ_self _)
  · intro q hq
    rcases List.mem_cons.1 hq with rfl | hq
    · rw [show older (q :: standing heap past) q = standing heap past from
        older_eq [] hsort, hr]
      exact ht.stack
    · have hlt : ¬r.position < q.position := by
        rw [hr]
        exact (ht.recent q hq).not_gt
      rw [older, List.filter_cons_of_neg (by simpa using hlt)]
      exact ht.before q hq

theorem Traced.rollback (ht : Traced heap past s) {r : Recorded}
    (hstanding : standing heap (p :: past) = older (standing heap past) r)
    (hview : s'.heaps.view heap = { s.heaps.view heap with
      head := r.before.head, tail := r.before.tail,
      states := stackOf (older (standing heap past) r) })
    (hz : heap ≠ 0) (hl : (s.heaps.view heap).live = true) : Traced heap (p :: past) s' := by
  have hsub : ∀ q ∈ older (standing heap past) r, q ∈ standing heap past := fun q hq =>
    (List.mem_filter.1 hq).1
  constructor <;> rw [hstanding]
  · rw [hview]
  · rw [hview]
    exact fun h => h.elim (fun h => absurd h hz) fun h => by simp [hl] at h
  · exact ht.sorted.filter _
  · exact fun q hq => (ht.recent q (hsub q hq)).trans (Nat.lt_succ_self _)
  · intro q hq
    have hqr : q.position < r.position := by simpa using (List.mem_filter.1 hq).2
    rw [ht.before q (hsub q hq), older, older, older, List.filter_filter]
    refine congrArg stackOf (List.filter_congr fun x _ => ?_)
    by_cases hx : x.position < q.position
    · simp [hx, hx.trans hqr]
    · simp [hx]

theorem memFreeByState_none (hz : heap ≠ 0) (hl : (s.heaps.view heap).live = true)
    (hf : freeByStateIn (s.heaps.view heap) tag = none) :
    memFreeByStateToFrmHeap s heap tag = (0, (live s heap).2) := by
  rw [memFreeByStateToFrmHeap, live_of_live hz hl]
  simp only [hf]

theorem memFreeByState_some {h' : HostFrmHeap} (hz : heap ≠ 0)
    (hl : (s.heaps.view heap).live = true)
    (hf : freeByStateIn (s.heaps.view heap) tag = some h') :
    (memFreeByStateToFrmHeap s heap tag).1 = 1 ∧
      (memFreeByStateToFrmHeap s heap tag).2.heaps.view heap = h' := by
  rw [memFreeByStateToFrmHeap, live_of_live hz hl]
  simp only [hf, true_and]
  exact HandleTable.view_store_same _ _ _

theorem record_result (hz : heap ≠ 0) (hl : (s.heaps.view heap).live = true) :
    (exec s heap (.record tag)).1 = 1 := by
  rw [exec, memRecordStateForFrmHeap, live_of_live hz hl]
  rfl

theorem record_dead (hdead : heap = 0 ∨ (s.heaps.view heap).live = false) :
    (exec s heap (.record tag)).1 = 0 := by
  rw [exec, memRecordStateForFrmHeap, live_of_dead hdead]
  rfl

theorem Traced.create (ht : Traced heap past s) (size flags : UInt32) :
    Traced heap (⟨heap, .create size flags, s.heaps.view heap,
      (exec s heap (.create size flags)).1⟩ :: past) (exec s heap (.create size flags)).2 := by
  have hstanding (r : UInt64) : standing heap
      (⟨heap, .create size flags, s.heaps.view heap, r⟩ :: past) =
        if r ≠ 0 then [] else standing heap past := by
    rw [standing, if_neg (by simp)]
  rcases memCreate_view s heap size flags with hsame | ⟨-, hmoved | hfresh⟩
  · obtain ⟨-, hr, hview⟩ := hsame
    refine ht.keep ((hstanding _).trans (if_neg (not_not.2 hr))) ?_ ?_ <;> rw [exec, hview]
  · obtain ⟨-, hr, hview⟩ := hmoved
    refine ht.keep ((hstanding _).trans (if_neg (not_not.2 hr))) ?_ ?_ <;> rw [exec, hview]
  · obtain ⟨-, hr, hview⟩ := hfresh
    refine traced_empty ((hstanding _).trans (if_pos hr)) ?_
    rw [exec, hview]

theorem Traced.dead_call (ht : Traced heap past s) {c : Call}
    (hdead : heap = 0 ∨ (s.heaps.view heap).live = false)
    (hc : ∀ size flags, c ≠ .create size flags) :
    Traced heap (⟨heap, c, s.heaps.view heap, (exec s heap c).1⟩ :: past) (exec s heap c).2 := by
  have hnil := ht.dead hdead
  refine traced_empty (standing_of_nil hnil ?_) ?_
  · rintro tag rfl
    simp only [record_dead hdead]
    decide
  · rw [exec_dead hdead hc, ht.stack, hnil]
    rfl

theorem traced_destroy (hz : heap ≠ 0) (hl : (s.heaps.view heap).live = true) :
    Traced heap (⟨heap, .destroy, s.heaps.view heap, (exec s heap .destroy).1⟩ :: past)
      (exec s heap .destroy).2 := by
  refine traced_empty ?_ (by rw [exec, memDestroy_view hz hl])
  rw [standing, if_neg (by simp)]
  refine if_pos ?_
  rw [exec, memDestroyFrmHeap, live_of_live hz hl]
  exact hz

theorem Traced.live_call (ht : Traced heap past s) {c : Call} (hz : heap ≠ 0)
    (hl : (s.heaps.view heap).live = true) (hk : c.keepsHeap = true) :
    Traced heap (⟨heap, c, s.heaps.view heap, (exec s heap c).1⟩ :: past) (exec s heap c).2 := by
  have hhere (r : UInt64) (d : Call) : ¬(Past.mk heap d (s.heaps.view heap) r).heap ≠ heap := by simp
  have hview := exec_view hz hl hk
  have hlive : ((exec s heap c).2.heaps.view heap).live = (s.heaps.view heap).live := by
    rw [hview, (effect_fixed _ _).1]
  cases c with
  | create | destroy => cases hk
  | alloc size alignment =>
    obtain ⟨head, tail, heq⟩ := effect_alloc (s.heaps.view heap) size alignment
    refine ht.keep ?_ (by rw [hview, heq]) hlive
    rw [standing, if_neg (hhere _ _)]
  | free mode =>
    have hstates : ((exec s heap (.free mode)).2.heaps.view heap).states = _ :=
      (congrArg HostFrmHeap.states hview).trans (states_freeIn _ mode)
    by_cases hall : mode &&& memFrmHeapFreeAll = memFrmHeapFreeAll
    · refine traced_empty ?_ (hstates.trans (if_pos hall))
      rw [standing, if_neg (hhere _ _)]
      exact if_pos hall
    · refine ht.keep ?_ (hstates.trans (if_neg hall)) hlive
      rw [standing, if_neg (hhere _ _)]
      exact if_neg hall
  | record tag =>
    refine ht.push ?_ rfl hview hz hl
    rw [standing, if_neg (hhere _ _)]
    exact if_pos (record_result hz hl)
  | freeByState tag =>
    have hfree := freeByStateIn_eq ht.stack ht.sorted tag
    cases htarget : target tag (standing heap past) with
    | none =>
      rw [htarget, Option.map_none] at hfree
      refine ht.keep ?_ (by simp only [hview, effect, hfree, Option.getD_none]) hlive
      rw [standing, if_neg (hhere _ _)]
      simp only [htarget]
    | some r =>
      rw [htarget, Option.map_some] at hfree
      refine ht.rollback (r := r) ?_ (by simp only [hview, effect, hfree, Option.getD_some]) hz hl
      rw [standing, if_neg (hhere _ _)]
      simp only [htarget]
      rfl
  | adjust =>
    refine ht.keep ?_ ?_ hlive
    · rw [standing, if_neg (hhere _ _)]
    · rw [hview]
      simp only [effect]
      split <;> rfl

end Trace

theorem History.traced {past : List Past} (hh : History past s) (heap : UInt64) :
    Traced heap past s := by
  induction hh with
  | start memory => exact traced_empty rfl rfl
  | @call past s k c _ ih =>
    by_cases hk : k = heap
    · subst hk
      rcases call_cases s k c with ⟨size, flags, rfl⟩ | ⟨hc, hdead⟩ | ⟨rfl, hz, hl⟩ | ⟨hkeep, hz, hl⟩
      · exact ih.create size flags
      · exact ih.dead_call hdead hc
      · exact traced_destroy hz hl
      · exact ih.live_call hz hl hkeep
    · have hview := exec_elsewhere s c hk
      exact ih.keep (standing_elsewhere hk) (by rw [hview]) (by rw [hview])

def after (s : FrmHeaps) (steps : List Step) : FrmHeaps :=
  steps.foldl (fun s st => (exec s st.1 st.2).2) s

-- Allocations, and records each closed by a free by state of its tag or of tag 0.
inductive Nested (heap : UInt64) : List Step → Prop
  | nil : Nested heap []
  | elsewhere {k : UInt64} (c : Call) : k ≠ heap → Nested heap [(k, c)]
  | alloc (size : UInt32) (alignment : Int32) : Nested heap [(heap, .alloc size alignment)]
  | append {first second : List Step} : Nested heap first → Nested heap second →
      Nested heap (first ++ second)
  | block {body : List Step} {tag t : UInt32} : Nested heap body → t = tag ∨ t = 0 →
      Nested heap ((heap, .record tag) :: body ++ [(heap, .freeByState t)])

theorem selectState_concat (states : List State) {st : State} {t : UInt32}
    (ht : t = st.tag ∨ t = 0) : selectState (states ++ [st]) t = some states.length := by
  have hne : states ++ [st] ≠ [] := List.append_ne_nil_of_right_ne_nil _ (List.cons_ne_nil _ _)
  rw [selectState, if_neg hne, List.length_append, List.length_singleton]
  by_cases hz : t = 0
  · rw [if_pos hz]
    rfl
  · have htag : st.tag = t := (ht.resolve_right hz).symm
    rw [if_neg hz, findBelow, List.getElem?_concat_length, Option.map_some,
      if_pos (congrArg some htag)]

-- The two ends may be anywhere by the time the record on top is freed.
theorem freeByStateIn_top (h : HostFrmHeap) (head tail : UInt64) {t : UInt32}
    (ht : t = tag ∨ t = 0) :
    freeByStateIn { effect h (.record tag) with head := head, tail := tail } t = some h := by
  have hget : (h.states ++ [⟨tag, h.head, h.tail⟩])[h.states.length]? =
      some ⟨tag, h.head, h.tail⟩ := List.getElem?_concat_length
  have hsel : selectState (h.states ++ [⟨tag, h.head, h.tail⟩]) t = some h.states.length :=
    selectState_concat _ ht
  simp only [freeByStateIn, selected, effect, hsel, Option.bind_some, hget, Option.map_some,
    List.take_left]

theorem after_block {body : List Step} {t : UInt32} (hz : heap ≠ 0)
    (hl : (s.heaps.view heap).live = true) (ht : t = tag ∨ t = 0)
    (hbody : ∀ s : FrmHeaps, (s.heaps.view heap).live = true → ∃ head tail,
      (after s body).heaps.view heap = { s.heaps.view heap with head := head, tail := tail }) :
    (after s ((heap, .record tag) :: body ++ [(heap, .freeByState t)])).heaps.view heap =
        s.heaps.view heap ∧
      (exec (after s ((heap, .record tag) :: body)) heap (.freeByState t)).1 = 1 := by
  have hrecord : (exec s heap (.record tag)).2.heaps.view heap =
      effect (s.heaps.view heap) (.record tag) := exec_view hz hl rfl
  obtain ⟨head, tail, hview⟩ := hbody (exec s heap (.record tag)).2 (by rw [hrecord]; exact hl)
  have hmid : (after s ((heap, .record tag) :: body)).heaps.view heap =
      { effect (s.heaps.view heap) (.record tag) with head := head, tail := tail } :=
    hview.trans (by rw [hrecord])
  have hfree := freeByStateIn_top (s.heaps.view heap) head tail ht
  rw [← hmid] at hfree
  obtain ⟨hone, hback⟩ := memFreeByState_some hz (by rw [hmid]; exact hl) hfree
  constructor
  · rw [after, List.foldl_append]
    exact hback
  · change (memFreeByStateToFrmHeap _ heap t).1.toUInt32.toUInt64 = 1
    rw [hone]
    rfl

theorem Nested.restores {steps : List Step} (hn : Nested heap steps) (hz : heap ≠ 0) :
    ∀ s : FrmHeaps, (s.heaps.view heap).live = true →
      ∃ head tail, (after s steps).heaps.view heap =
        { s.heaps.view heap with head := head, tail := tail } := by
  induction hn with
  | nil => exact fun s _ => ⟨_, _, rfl⟩
  | elsewhere c hk => exact fun s _ => ⟨_, _, exec_elsewhere s c hk⟩
  | alloc size alignment =>
    intro s hl
    obtain ⟨head, tail, heq⟩ := effect_alloc (s.heaps.view heap) size alignment
    exact ⟨head, tail, (exec_view hz hl rfl).trans heq⟩
  | append _ _ ih ih' =>
    intro s hl
    obtain ⟨head, tail, hfirst⟩ := ih s hl
    obtain ⟨head', tail', hsecond⟩ := ih' (after s _) (by rw [hfirst]; exact hl)
    refine ⟨head', tail', ?_⟩
    rw [after, List.foldl_append]
    exact hsecond.trans (by rw [hfirst])
  | @block body tag t _ ht ih =>
    exact fun s hl => ⟨(s.heaps.view heap).head, (s.heaps.view heap).tail,
      (after_block hz hl ht ih).1⟩

theorem standing_subset {past : List Past} {p : Past} {r : Recorded}
    (hr : r ∈ standing heap (p :: past)) :
    r ∈ standing heap past ∨
      p = ⟨heap, .record r.tag, r.before, 1⟩ ∧ r.position = past.length := by
  obtain ⟨k, c, before, result⟩ := p
  rw [standing] at hr
  split at hr
  next => exact .inl hr
  next hk =>
    rw [not_not] at hk
    cases c with
    | create | destroy | free =>
      simp only at hr
      split at hr
      next => exact absurd hr List.not_mem_nil
      next => exact .inl hr
    | record tag =>
      simp only at hr
      split at hr
      next hone =>
        rcases List.mem_cons.1 hr with rfl | hr
        · exact .inr ⟨by rw [hone, ← hk], rfl⟩
        · exact .inl hr
      next => exact .inl hr
    | freeByState tag =>
      simp only at hr
      split at hr
      next => exact .inl hr
      next => exact .inl (List.mem_filter.1 hr).1
    | alloc | adjust => exact .inl hr

theorem standing_recorded {past : List Past} {r : Recorded} (hr : r ∈ standing heap past) :
    past.reverse[r.position]? = some ⟨heap, .record r.tag, r.before, 1⟩ := by
  induction past with
  | nil => cases hr
  | cons p past ih =>
    rw [List.reverse_cons]
    rcases standing_subset hr with hr | ⟨rfl, hpos⟩
    · have hget := ih hr
      obtain ⟨hlt, -⟩ := List.getElem?_eq_some_iff.1 hget
      rw [List.getElem?_append_left hlt, hget]
    · rw [hpos, ← List.length_reverse]
      exact List.getElem?_concat_length

theorem freeByState_target {past : List Past} (ht : Traced heap past s) (tag : UInt32) :
    match target tag (standing heap past) with
    | none => (memFreeByStateToFrmHeap s heap tag).1 = 0 ∧
        ∀ k, (memFreeByStateToFrmHeap s heap tag).2.heaps.view k = s.heaps.view k
    | some r => (memFreeByStateToFrmHeap s heap tag).1 = 1 ∧
        (memFreeByStateToFrmHeap s heap tag).2.heaps.view heap = { s.heaps.view heap with
          head := r.before.head, tail := r.before.tail, states := r.before.states } ∧
        ∀ alignment, (memGetAllocatableSizeForFrmHeapEx (memFreeByStateToFrmHeap s heap tag).2 heap
          alignment).1 = allocatable r.before alignment := by
  rcases dead_or_live s heap with hdead | ⟨hz, hl⟩
  · have hnone : target tag (standing heap past) = none := by
      rw [ht.dead hdead]
      rfl
    rw [hnone, memFreeByStateToFrmHeap, live_of_dead hdead]
    exact ⟨rfl, fun k => live_view s heap k⟩
  · have hfree := freeByStateIn_eq ht.stack ht.sorted tag
    cases htarget : target tag (standing heap past) with
    | none =>
      rw [htarget, Option.map_none] at hfree
      rw [memFreeByState_none hz hl hfree]
      exact ⟨rfl, fun k => live_view s heap k⟩
    | some r =>
      rw [htarget, Option.map_some, ← ht.before r (List.mem_of_find?_eq_some htarget)] at hfree
      obtain ⟨hone, hview⟩ := memFreeByState_some hz hl hfree
      refine ⟨hone, hview, fun alignment => ?_⟩
      rw [memGetAllocatable_live hz (by rw [hview]; exact hl), hview]
      rfl

theorem frm_states_nest {past : List Past} (hh : History past s) (heap : UInt64) :
    (s.heaps.view heap).states = stackOf (standing heap past) ∧
      (∀ r ∈ standing heap past,
        past.reverse[r.position]? = some ⟨heap, .record r.tag, r.before, 1⟩) ∧
      (standing heap past).Pairwise (fun newer older => older.position < newer.position) ∧
      (∀ tag, match target tag (standing heap past) with
        | none => (memFreeByStateToFrmHeap s heap tag).1 = 0 ∧
            ∀ k, (memFreeByStateToFrmHeap s heap tag).2.heaps.view k = s.heaps.view k
        | some r => (memFreeByStateToFrmHeap s heap tag).1 = 1 ∧
            (memFreeByStateToFrmHeap s heap tag).2.heaps.view heap = { s.heaps.view heap with
              head := r.before.head, tail := r.before.tail, states := r.before.states } ∧
            ∀ alignment, (memGetAllocatableSizeForFrmHeapEx (memFreeByStateToFrmHeap s heap tag).2
              heap alignment).1 = allocatable r.before alignment) ∧
      (∀ body tag t, (exec s heap (.record tag)).1 = 1 → Nested heap body → t = tag ∨ t = 0 →
        let s' := after s ((heap, .record tag) :: body ++ [(heap, .freeByState t)])
        (exec (after s ((heap, .record tag) :: body)) heap (.freeByState t)).1 = 1 ∧
          s'.heaps.view heap = s.heaps.view heap ∧
          ∀ alignment, (memGetAllocatableSizeForFrmHeapEx s' heap alignment).1 =
            (memGetAllocatableSizeForFrmHeapEx s heap alignment).1) := by
  have ht := hh.traced heap
  refine ⟨ht.stack, fun r hr => standing_recorded hr, ht.sorted, freeByState_target ht,
    fun body tag t hrecord hbody htag => ?_⟩
  have hlive : ¬(heap = 0 ∨ (s.heaps.view heap).live = false) := by
    intro hdead
    rw [record_dead hdead] at hrecord
    cases hrecord
  rw [not_or, Bool.not_eq_false] at hlive
  obtain ⟨hz, hl⟩ := hlive
  obtain ⟨hview, hone⟩ := after_block hz hl htag (hbody.restores hz)
  refine ⟨hone, hview, fun alignment => ?_⟩
  rw [memGetAllocatable_live hz (by rw [hview]; exact hl), memGetAllocatable_live hz hl, hview]

-- Two records of one tag and a third between them that the outer free drops.
theorem frm_states_nest_repeated_tag :
    let steps : List Step := [(0x1000, .create 0x200 0), (0x1000, .alloc 16 4),
      (0x1000, .record 7), (0x1000, .alloc 32 (-8)), (0x1000, .record 9), (0x1000, .alloc 8 4)]
    let s := after ⟨HandleTable.empty, fun _ => 0⟩ steps
    (memFreeByStateToFrmHeap s 0x1000 7).1 = 1 ∧
      (memGetAllocatableSizeForFrmHeapEx (memFreeByStateToFrmHeap s 0x1000 7).2 0x1000 4).1 = 420 := by
  intro steps s
  have hrun : History _ s := .call 0x1000 (.alloc 8 4) (.call 0x1000 (.record 9)
    (.call 0x1000 (.alloc 32 (-8)) (.call 0x1000 (.record 7) (.call 0x1000 (.alloc 16 4)
      (.call 0x1000 (.create 0x200 0) (.start fun _ => 0))))))
  have hfree := (frm_states_nest hrun 0x1000).2.2.2.1 7
  exact ⟨hfree.1, hfree.2.2 4⟩

end CoreinitNx.FrmHeap
