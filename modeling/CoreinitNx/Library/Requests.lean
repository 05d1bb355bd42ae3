import Mathlib.Logic.Basic

namespace Requests

variable {σ ρ : Type} (next : σ → ρ → σ)

-- In every state that the requests lead through, the first and the last among them.
def EveryState (p : σ → Prop) : σ → List ρ → Prop
  | s, [] => p s
  | s, r :: rs => p s ∧ EveryState p (next s r) rs

-- For every request, in the state it is made in.
def EveryRequest (p : σ → ρ → Prop) : σ → List ρ → Prop
  | _, [] => True
  | s, r :: rs => p s r ∧ EveryRequest p (next s r) rs

instance decidableEveryRequest (p : σ → ρ → Prop) [∀ s r, Decidable (p s r)] :
    (s : σ) → (rs : List ρ) → Decidable (EveryRequest next p s rs)
  | _, [] => isTrue trivial
  | s, r :: rs =>
    have := decidableEveryRequest p (next s r) rs
    inferInstanceAs (Decidable (_ ∧ _))

variable {next} {s : σ} {r : ρ} {rs : List ρ} {good : σ → Prop}
  {legal does meets : σ → ρ → Prop}

theorem EveryState.start (h : EveryState next good s rs) : good s := by
  cases rs with
  | nil => exact h
  | cons r rs => exact h.1

theorem everyRequest_true : EveryRequest next (fun _ _ => True) s rs := by
  induction rs generalizing s with
  | nil => trivial
  | cons r rs ih => exact ⟨trivial, ih⟩

-- From an invariant that the requests keep: what it says of each state, and of each request.
theorem every_of (inv : σ → Prop) (hgood : ∀ s, inv s → good s)
    (hstep : ∀ s r, inv s → legal s r → inv (next s r) ∧ does s r) (hi : inv s)
    (hlegal : EveryRequest next legal s rs) :
    EveryState next good s rs ∧ EveryRequest next does s rs := by
  induction rs generalizing s with
  | nil => exact ⟨hgood s hi, trivial⟩
  | cons r rs ih =>
    obtain ⟨hi', hdoes⟩ := hstep s r hi hlegal.1
    obtain ⟨hstates, hrest⟩ := ih hi' hlegal.2
    exact ⟨⟨hgood s hi, hstates⟩, hdoes, hrest⟩

theorem everyState_of (inv : σ → Prop) (hinv : ∀ s r, inv s → legal s r → inv (next s r))
    (hgood : ∀ s, inv s → good s) (hi : inv s) (hlegal : EveryRequest next legal s rs) :
    EveryState next good s rs :=
  have hall : EveryState next good s rs ∧ EveryRequest next (fun _ _ => True) s rs :=
    every_of inv hgood (fun s r hi hr => ⟨hinv s r hi hr, trivial⟩) hi hlegal
  hall.1

-- `meets` says of a request exactly what keeps `good` and makes the request do what it has to.
theorem every_iff (inv : σ → Prop) (hinv : ∀ s r, inv s → legal s r → inv (next s r))
    (hstep : ∀ s r, inv s → legal s r → good s → (good (next s r) ∧ does s r ↔ meets s r))
    (hi : inv s) (h : good s) (hlegal : EveryRequest next legal s rs) :
    EveryState next good s rs ∧ EveryRequest next does s rs ↔ EveryRequest next meets s rs := by
  induction rs generalizing s with
  | nil => exact iff_of_true ⟨h, trivial⟩ trivial
  | cons r rs ih =>
    obtain ⟨hr, hrs⟩ := hlegal
    have hstep := hstep s r hi hr h
    have hi' := hinv s r hi hr
    constructor
    · rintro ⟨⟨-, hgood⟩, hdoes, hrest⟩
      have hnext := hgood.start
      exact ⟨hstep.1 ⟨hnext, hdoes⟩, (ih hi' hnext hrs).1 ⟨hgood, hrest⟩⟩
    · rintro ⟨hmeets, hrest⟩
      obtain ⟨hnext, hdoes⟩ := hstep.2 hmeets
      obtain ⟨hgood, hall⟩ := (ih hi' hnext hrs).2 hrest
      exact ⟨⟨h, hgood⟩, hdoes, hall⟩

theorem everyState_iff (hstep : ∀ s r, good s → (good (next s r) ↔ meets s r)) (h : good s) :
    EveryState next good s rs ↔ EveryRequest next meets s rs := by
  have hall : EveryState next good s rs ∧ EveryRequest next (fun _ _ => True) s rs ↔
      EveryRequest next meets s rs := by
    refine every_iff (fun _ => True) (fun _ _ _ _ => trivial) (fun s r _ _ hgood => ?_) trivial h
      everyRequest_true
    rw [and_iff_left trivial]
    exact hstep s r hgood
  rwa [and_iff_left everyRequest_true] at hall

end Requests
