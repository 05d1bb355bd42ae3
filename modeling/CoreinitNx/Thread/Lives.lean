import CoreinitNx.Thread.Terminated

namespace CoreinitNx.Thread

open Slots

variable {s s' : State} {e : Event} {h : HostThread} {k k' : KernelThread} {i : Nat}

def Event.enters : Event → Option Nat
  | .enter id _ _ _ => some id
  | _ => none

-- A step leaves the kernel threads, adds a new one, or moves one on that has not ended.
theorem Step.kernel_cases (hs : Step s e s') :
    (s'.kernel = s.kernel ∧ e.enters = none) ∨
    (∃ new, s'.kernel = s.kernel ++ [new] ∧ new.life = .ready ∧ e.enters = none) ∨
    ∃ i k k', s.kernel[i]? = some k ∧ s'.kernel = s.kernel.set i k' ∧ k.life ≠ .exited ∧
      (k.life = .ready ∧ k'.life = .started ∧ e.enters = none ∨
        k.life = .started ∧ k'.life = .entry ∧ e.enters = some i ∨
        k.life.Begun ∧ k'.life.Begun ∧ e.enters = none) := by
  have hbegun {k : KernelThread} {life : Life} (h : k.life = life) (hready : life ≠ .ready)
      (hstarted : life ≠ .started) : k.life.Begun := by
    rw [h]
    exact ⟨hready, hstarted⟩
  have hlive {k : KernelThread} (hin : k.life.inGuest) : k.life ≠ .exited := by
    intro heq
    rw [heq] at hin
    exact hin
  have hguest {k : KernelThread} {life : Life} (h : k.life = life) (hin : life.inGuest) :
      k.life.inGuest := by rwa [h]
  cases hs with
  | @call caller op =>
    rcases op_cases op with ⟨thread, args, answers, rfl⟩ | ⟨thread, willing, rfl⟩ | hedit
    · cases hcpu : createdCpu args.attributes answers with
      | none =>
        refine .inl ⟨?_, rfl⟩
        simp only [Thread.call, osCreateThread_none hcpu, Prod.map, id]
      | some cpu =>
        refine .inr (.inl ⟨newKernelThread thread args answers.processPrio cpu, ?_, rfl, rfl⟩)
        simp only [Thread.call, osCreateThread_some hcpu, Prod.map, id]
    · obtain ⟨-, ⟨heq, -⟩ | ⟨i, k, -, hstart, heq⟩⟩ := osResumeThread_cases s thread willing
      · refine .inl ⟨?_, rfl⟩
        simp only [Thread.call, heq, Prod.map, id]
      · refine .inr (.inr ⟨i, k, { k with life := .started }, hstart.kernel, ?_, ?_,
          .inl ⟨hstart.ready, rfl, rfl⟩⟩)
        · simp only [Thread.call, heq, Prod.map, id]
        · rw [hstart.ready]
          rintro ⟨⟩
    · refine .inl ⟨?_, rfl⟩
      rw [hedit]
      cases op.edit (s.current caller) s.mainThread <;> rfl
  | enter hk hlife =>
    refine .inr (.inr ⟨_, _, _, hk, rfl, ?_, .inr (.inl ⟨hlife, rfl, rfl⟩)⟩)
    rw [hlife]
    rintro ⟨⟩
  | entryReturned hk hlife =>
    have hin := hguest hlife trivial
    exact .inr (.inr ⟨_, _, _, hk, rfl, hlive hin,
      .inr (.inr ⟨begun_of_inGuest hin, returned_begun, rfl⟩)⟩)
  | cleanupReturned hk hlife =>
    have hin := hguest hlife trivial
    exact .inr (.inr ⟨_, _, _, hk, rfl, hlive hin,
      .inr (.inr ⟨begun_of_inGuest hin, deallocate_begun, rfl⟩)⟩)
  | deallocatorReturned hk hlife =>
    have hin := hguest hlife trivial
    exact .inr (.inr ⟨_, _, _, hk, rfl, hlive hin,
      .inr (.inr ⟨begun_of_inGuest hin, ⟨(by rintro ⟨⟩), (by rintro ⟨⟩)⟩, rfl⟩)⟩)
  | exitThread hk hin =>
    exact .inr (.inr ⟨_, _, _, hk, rfl, hlive hin,
      .inr (.inr ⟨begun_of_inGuest hin, ⟨(by rintro ⟨⟩), (by rintro ⟨⟩)⟩, rfl⟩)⟩)
  | @testCancel i k hk hin =>
    rw [osTestThreadCancel]
    split
    next =>
      exact .inr (.inr ⟨_, _, _, hk, rfl, hlive hin,
        .inr (.inr ⟨begun_of_inGuest hin, ⟨(by rintro ⟨⟩), (by rintro ⟨⟩)⟩, rfl⟩)⟩)
    next => exact .inl ⟨rfl, rfl⟩
  | joinStarts => exact .inl ⟨joinStarts_kernel, rfl⟩
  | joinFails => exact .inl ⟨rfl, rfl⟩
  | joinSucceeds => exact .inl ⟨rfl, rfl⟩

def BegunAt (s : State) (i : Nat) : Prop := ∃ k, s.kernel[i]? = some k ∧ k.life.Begun

theorem Step.begunAt (hs : Step s e s') : BegunAt s' i ↔ BegunAt s i ∨ e.enters = some i := by
  rcases hs.kernel_cases with ⟨heq, hnone⟩ | ⟨new, heq, hready, hnone⟩ | ⟨j, k, k', hk, heq, -, hmove⟩
  · rw [hnone, BegunAt, BegunAt, heq]
    simp
  · rw [hnone, BegunAt, BegunAt, heq]
    simp only [reduceCtorEq, or_false]
    constructor
    · rintro ⟨k, hk, hbegun⟩
      rcases concat_eq_some_iff.1 hk with hold | ⟨-, rfl⟩
      · exact ⟨k, hold, hbegun⟩
      · exact absurd hready hbegun.1
    · rintro ⟨k, hk, hbegun⟩
      obtain ⟨hi, -⟩ := List.getElem?_eq_some_iff.1 hk
      exact ⟨k, (List.getElem?_append_left hi).trans hk, hbegun⟩
  · rw [BegunAt, BegunAt, heq]
    simp only [list_set hk]
    by_cases hj : j = i
    · subst hj
      rw [if_pos rfl]
      simp only [Option.some.injEq, exists_eq_left', hk]
      rcases hmove with ⟨hready, hstarted, hnone⟩ | ⟨hstarted, hentry, hsome⟩ |
        ⟨hbegun, hbegun', hnone⟩
      · rw [hnone, hready, hstarted]
        exact iff_of_false (fun h => h.2 rfl) (fun h => h.elim (fun h => h.1 rfl) nofun)
      · rw [hsome, hentry]
        exact iff_of_true ⟨nofun, nofun⟩ (.inr rfl)
      · exact iff_of_true hbegun' (.inl hbegun)
    · simp only [if_neg hj]
      refine (or_iff_left ?_).symm
      rcases hmove with ⟨-, -, hnone⟩ | ⟨-, -, hsome⟩ | ⟨-, -, hnone⟩
      · rw [hnone]
        nofun
      · rw [hsome]
        exact fun h => hj (Option.some.inj h)
      · rw [hnone]
        nofun

theorem Step.exited (hs : Step s e s') (hk : s.kernel[i]? = some k) (hexited : k.life = .exited) :
    s'.kernel[i]? = some k := by
  obtain ⟨hi, -⟩ := List.getElem?_eq_some_iff.1 hk
  rcases hs.kernel_cases with ⟨heq, -⟩ | ⟨new, heq, -⟩ | ⟨j, k₀, k', hk₀, heq, hlive, -⟩
  · rw [heq, hk]
  · rw [heq, List.getElem?_append_left hi, hk]
  · rw [heq, list_set hk₀]
    split
    next hj =>
      subst hj
      rw [hk] at hk₀
      cases hk₀
      exact absurd hexited hlive
    next => exact hk

end CoreinitNx.Thread
