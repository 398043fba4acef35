/-
Forward simulation between two observed systems.

A system is a partial step function that consumes an input, shows an
observation and moves to the next state; `none` is a step that is not
taken. `observeAll` collects what a list of inputs shows. A relation
that every step of the first system can be matched in the second, with
the same observation, carries whole runs over (`observeAll_simulate`):
this is the only induction over runs a refinement needs.
-/
import Mathlib.Data.List.Basic

namespace Lib

variable {ι ω σ τ : Type}

/-- The observations of a run over the inputs, or `none` when a step is
not taken. -/
def observeAll (step : ι → σ → Option (ω × σ)) :
    List ι → σ → Option (List ω)
  | [], _ => some []
  | i :: is, s =>
      (step i s).bind fun r => (observeAll step is r.2).map (r.1 :: ·)

/-- A forward simulation carries observations over: what the first
system shows on a run, the second shows too. -/
theorem observeAll_simulate {step₁ : ι → σ → Option (ω × σ)}
    {step₂ : ι → τ → Option (ω × τ)} {R : σ → τ → Prop}
    (hstep : ∀ {i s t o s'}, R s t → step₁ i s = some (o, s') →
      ∃ t', step₂ i t = some (o, t') ∧ R s' t') (is : List ι) :
    ∀ {s t os}, R s t → observeAll step₁ is s = some os →
      observeAll step₂ is t = some os := by
  induction is with
  | nil =>
      intro s t os _ h
      exact h
  | cons i is ih =>
      intro s t os hR h
      simp only [observeAll, Option.bind_eq_some_iff,
        Option.map_eq_some_iff] at h
      obtain ⟨⟨o, s'⟩, hs, os', hos, rfl⟩ := h
      obtain ⟨t', ht, hR'⟩ := hstep hR hs
      simp only [observeAll, ht, Option.bind_some, ih hR' hos,
        Option.map_some]

end Lib
