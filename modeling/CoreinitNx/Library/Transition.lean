import Mathlib.Data.List.Induction

namespace Transition

variable {σ ε : Type} {step : σ → ε → σ → Prop} {start s s' : σ} {es es' : List ε} {e : ε}

inductive Run (step : σ → ε → σ → Prop) (start : σ) : List ε → σ → Prop
  | nil : Run step start [] start
  | snoc {es : List ε} {s s' : σ} {e : ε} :
      Run step start es s → step s e s' → Run step start (es ++ [e]) s'

namespace Run

theorem single (h : step start e s) : Run step start [e] s := .snoc .nil h

theorem append (h : Run step start es s) (h' : Run step s es' s') :
    Run step start (es ++ es') s' := by
  induction h' with
  | nil => rwa [List.append_nil]
  | snoc _ hs ih =>
    rw [← List.append_assoc]
    exact ih.snoc hs

theorem cons (h : step start e s) (h' : Run step s es s') : Run step start (e :: es) s' :=
  (single h).append h'

theorem mono {step' : σ → ε → σ → Prop} (h : Run step start es s)
    (hsub : ∀ s e s', step s e s' → step' s e s') : Run step' start es s := by
  induction h with
  | nil => exact .nil
  | snoc _ hs ih => exact ih.snoc (hsub _ _ _ hs)

theorem of_nil (h : Run step start [] s) : s = start := by
  generalize hes : ([] : List ε) = all at h
  cases h with
  | nil => rfl
  | snoc _ _ => exact absurd hes.symm (List.append_ne_nil_of_right_ne_nil _ (List.cons_ne_nil _ _))

theorem of_snoc (h : Run step start (es ++ [e]) s) : ∃ m, Run step start es m ∧ step m e s := by
  generalize hes : es ++ [e] = all at h
  cases h with
  | nil => exact absurd hes (List.append_ne_nil_of_right_ne_nil es (List.cons_ne_nil e []))
  | snoc h hs =>
    obtain ⟨rfl, hlast⟩ := List.append_inj' hes rfl
    cases hlast
    exact ⟨_, h, hs⟩

theorem of_append (h : Run step start (es ++ es') s) :
    ∃ m, Run step start es m ∧ Run step m es' s := by
  induction es' using List.reverseRecOn generalizing s with
  | nil => exact ⟨s, by rwa [List.append_nil] at h, .nil⟩
  | append_singleton es' e ih =>
    rw [← List.append_assoc] at h
    obtain ⟨m, h, hs⟩ := h.of_snoc
    obtain ⟨m', h, h'⟩ := ih h
    exact ⟨m', h, h'.snoc hs⟩

theorem of_cons (h : Run step start (e :: es) s) : ∃ m, step start e m ∧ Run step m es s := by
  rw [← List.singleton_append] at h
  obtain ⟨m, h, h'⟩ := h.of_append
  rw [← List.nil_append [e]] at h
  obtain ⟨m', hnil, hs⟩ := h.of_snoc
  rw [hnil.of_nil] at hs
  exact ⟨m, hs, h'⟩

-- What holds at the start and is kept by each step with an event of `ok` holds of a run of them,
-- and so does what each such step says of its event.
theorem guarantee {I : σ → Prop} {ok good : ε → Prop} (h : Run step start es s)
    (hok : ∀ e ∈ es, ok e) (h0 : I start)
    (hstep : ∀ s e s', ok e → I s → step s e s' → I s' ∧ good e) : I s ∧ ∀ e ∈ es, good e := by
  induction h with
  | nil => exact ⟨h0, fun e he => nomatch he⟩
  | @snoc es s s' e _ hs ih =>
    obtain ⟨hi, hgood⟩ := ih fun e he => hok e (List.mem_append_left _ he)
    have hlast := hok e (List.mem_append_right _ (List.mem_singleton_self e))
    obtain ⟨hi', hgood'⟩ := hstep _ _ _ hlast hi hs
    refine ⟨hi', fun e' he' => ?_⟩
    rcases List.mem_append.1 he' with hold | hnew
    · exact hgood e' hold
    · rw [List.mem_singleton.1 hnew]
      exact hgood'

theorem invariant_of {I : σ → Prop} {ok : ε → Prop} (h : Run step start es s)
    (hok : ∀ e ∈ es, ok e) (h0 : I start)
    (hstep : ∀ s e s', ok e → I s → step s e s' → I s') : I s :=
  (h.guarantee hok h0 fun s e s' he hi hs => ⟨hstep s e s' he hi hs, trivial⟩).1

end Run

end Transition
