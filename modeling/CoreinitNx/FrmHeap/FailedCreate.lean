import CoreinitNx.FrmHeap.Allocatable
import CoreinitNx.FrmHeap.Recorded

namespace CoreinitNx.FrmHeap

variable {s : FrmHeaps} {heap k : UInt64} {h : HostFrmHeap} {size flags : UInt32} {c : Call}

-- No call moves the start of a region: what a create finds at a live address is its own start.
def Started (s : FrmHeaps) : Prop :=
  ∀ k, (s.heaps.view k).live = true → (s.heaps.view k).dataStart = regionStart k

theorem Started.exec (hs : Started s) (heap : UInt64) (c : Call) : Started (exec s heap c).2 := by
  intro k hl
  by_cases hk : heap = k
  · subst hk
    rcases call_cases s heap c with ⟨size, flags, rfl⟩ | ⟨hc, hdead⟩ | ⟨rfl, hz, hl'⟩ | ⟨hkeep, hz, hl'⟩
    · rw [FrmHeap.exec] at hl ⊢
      rcases memCreate_view s heap size flags with
        ⟨-, -, hview⟩ | ⟨-, ⟨-, -, hview⟩ | ⟨-, -, hview⟩⟩
      · rw [hview] at hl ⊢
        exact hs heap hl
      · rw [hview]
      · rw [hview]
    · rw [exec_dead hdead hc] at hl ⊢
      exact hs heap hl
    · rw [FrmHeap.exec, memDestroy_view hz hl'] at hl
      cases hl
    · rw [exec_view hz hl' hkeep, (effect_fixed _ _).2]
      exact hs heap hl'
  · rw [exec_elsewhere s c hk] at hl ⊢
    exact hs k hl

theorem Started.after (hs : Started s) (steps : List Step) : Started (after s steps) := by
  induction steps generalizing s with
  | nil => exact hs
  | cons st steps ih => exact ih (hs.exec st.1 st.2)

def FailsClean (s : FrmHeaps) (heap : UInt64) (size flags : UInt32) : Prop :=
  (memCreateFrmHeapEx s heap size flags).1 = 0 →
    ∀ k, (s.heaps.view k).live = true →
      (memCreateFrmHeapEx s heap size flags).2.heaps.view k = s.heaps.view k

-- A create that fails leaves every live heap alone, unless it is the second check that fails and
-- the end of the heap living there is another one.
theorem frm_failed_create_iff (memory : Memory) (steps : List Step) (heap : UInt64)
    (size flags : UInt32) :
    let s := after ⟨HandleTable.empty, memory⟩ steps
    FailsClean s heap size flags ↔
      heap = 0 ∨ size ≤ memFrmHeapSize ∨ regionStart heap < regionEnd heap size ∨
        (s.heaps.view heap).live = false ∨ (s.heaps.view heap).dataEnd = regionEnd heap size := by
  intro s
  have hstarted : Started s := Started.after (fun k hl => by cases hl) steps
  have hcases := memCreate_view s heap size flags
  constructor
  · intro hclean
    by_contra hno
    simp only [not_or, UInt64.not_lt, Bool.not_eq_false] at hno
    obtain ⟨hz, hsize, hend, hl, hne⟩ := hno
    rcases hcases with ⟨hargs, -⟩ | ⟨-, ⟨-, hnull, hview⟩ | ⟨hlt, -⟩⟩
    · exact not_or.2 ⟨hz, hsize⟩ hargs
    · have hsame := hclean hnull heap hl
      rw [hview] at hsame
      exact hne (congrArg HostFrmHeap.dataEnd hsame).symm
    · exact UInt64.not_lt.2 hend hlt
  · intro hcond hnull k hl
    by_cases hk : heap = k
    · subst hk
      rcases hcases with ⟨-, -, hview⟩ | ⟨⟨hz, hsize⟩, ⟨hend, -, hview⟩ | ⟨-, hok, -⟩⟩
      · exact hview
      · have hdataEnd : (s.heaps.view heap).dataEnd = regionEnd heap size := by
          rcases hcond with h | h | h | h | h
          · exact absurd h hz
          · exact absurd (UInt32.le_iff_toNat_le.1 h) (Nat.not_le.2 hsize)
          · exact absurd h (UInt64.not_lt.2 hend)
          · rw [h] at hl
            cases hl
          · exact h
        rw [hview, ← hdataEnd, ← hstarted heap hl]
      · exact absurd hnull hok
    · exact exec_elsewhere s (.create size flags) hk

theorem frm_failed_create_clobbers :
    let s := after ⟨HandleTable.empty, fun _ => 0⟩ [(0x1001, .create 0x200 0)]
    ¬FailsClean s 0x1001 0x4D 0 ∧ (s.heaps.view 0x1001).dataEnd = 0x1201 ∧
      ((memCreateFrmHeapEx s 0x1001 0x4D 0).2.heaps.view 0x1001).dataEnd = 0x104E := by
  intro s
  refine ⟨fun hclean => ?_, by decide, by decide⟩
  exact absurd (hclean (by decide) 0x1001 (by decide)) (by decide)

end CoreinitNx.FrmHeap
