import Mathlib.Logic.Function.Basic
import CoreinitNx.Library.Transition

namespace Contents

open Transition

variable {σ ε α β : Type} (written : ε → α → Option β)

-- The last value that the events wrote at `x`.
def lastWrite (x : α) (es : List ε) : Option β :=
  es.foldl (fun last e => (written e x).or last) none

theorem lastWrite_concat (x : α) (es : List ε) (e : ε) :
    lastWrite written x (es ++ [e]) = (written e x).or (lastWrite written x es) := by
  rw [lastWrite, List.foldl_append]
  rfl

variable {written} {step : σ → ε → σ → Prop} {m : σ → α → β} {I : σ → Prop} {start s : σ}
  {es : List ε} {x : α}

-- A cell that each step leaves alone, but for what it writes there, holds the last write.
theorem run_cell (h : Run step start es s) (h0 : I start)
    (hstep : ∀ {a e b}, I a → step a e b → I b ∧ m b x = (written e x).getD (m a x)) :
    I s ∧ m s x = (lastWrite written x es).getD (m start x) := by
  induction h with
  | nil => exact ⟨h0, rfl⟩
  | @snoc es s s' e _ hs ih =>
    obtain ⟨hi, hmem⟩ := ih
    obtain ⟨hi', hmem'⟩ := hstep hi hs
    refine ⟨hi', ?_⟩
    rw [hmem', lastWrite_concat]
    cases written e x with
    | none => rw [Option.none_or, Option.getD_none, hmem]
    | some v => rw [Option.some_or, Option.getD_some, Option.getD_some]

end Contents
