import CoreinitNx.Library.Transition

namespace Transition

variable {σ ε σ' ε' : Type}

-- Seen through `view`, a step of the first system is one of the second or none at all.
structure Simulates (step : σ → ε → σ → Prop) (step' : σ' → ε' → σ' → Prop) (view : σ → σ')
    (label : ε → Option ε') (I : σ → Prop) : Prop where
  keeps : ∀ {s e s'}, I s → step s e s' → I s'
  moves : ∀ {s e s' e'}, I s → step s e s' → label e = some e' → step' (view s) e' (view s')
  stutters : ∀ {s e s'}, I s → step s e s' → label e = none → view s' = view s

variable {step : σ → ε → σ → Prop} {step' : σ' → ε' → σ' → Prop} {view : σ → σ'}
  {label : ε → Option ε'} {I : σ → Prop} {start s : σ} {es : List ε}

theorem Simulates.run (sim : Simulates step step' view label I) (h0 : I start)
    (h : Run step start es s) :
    I s ∧ Run step' (view start) (es.filterMap label) (view s) := by
  induction h with
  | nil => exact ⟨h0, .nil⟩
  | @snoc es s s' e _ hs ih =>
    obtain ⟨hi, hrun⟩ := ih
    refine ⟨sim.keeps hi hs, ?_⟩
    rw [List.filterMap_append]
    cases hl : label e with
    | none =>
      rw [List.filterMap_cons_none hl, List.filterMap_nil, List.append_nil, sim.stutters hi hs hl]
      exact hrun
    | some e' =>
      rw [List.filterMap_cons_some hl, List.filterMap_nil]
      exact hrun.snoc (sim.moves hi hs hl)

-- A step of the first system is a run of the second in which as much is seen.
structure Refines {ο : Type} (step : σ → ε → σ → Prop) (step' : σ' → ε' → σ' → Prop)
    (view : σ → σ') (seen : ε → Option ο) (seen' : ε' → Option ο) (I : σ → Prop) : Prop where
  keeps : ∀ {s e s'}, I s → step s e s' → I s'
  moves : ∀ {s e s'}, I s → step s e s' →
    ∃ es', Run step' (view s) es' (view s') ∧ es'.filterMap seen' = (seen e).toList

theorem Refines.run {ο : Type} {seen : ε → Option ο} {seen' : ε' → Option ο}
    (ref : Refines step step' view seen seen' I) (h0 : I start) (h : Run step start es s) :
    I s ∧ ∃ es', Run step' (view start) es' (view s) ∧
      es'.filterMap seen' = es.filterMap seen := by
  induction h with
  | nil => exact ⟨h0, [], .nil, rfl⟩
  | @snoc es s s' e _ hs ih =>
    obtain ⟨hi, es', hrun, hseen⟩ := ih
    obtain ⟨es'', hrun', hseen'⟩ := ref.moves hi hs
    refine ⟨ref.keeps hi hs, es' ++ es'', hrun.append hrun', ?_⟩
    rw [List.filterMap_append, List.filterMap_append, hseen, hseen']
    cases hsee : seen e <;> simp [hsee]

end Transition
