/-
Runs that come to an end.

A measure from which every step takes something away, until the run is
done, bounds the steps there are before that. `Q` is what is known of all
states, and `Ok` what the steps of the run have to fulfil.
-/
import TinyServer.Lib.Run

namespace Lib

variable {ι σ : Type} {step : σ → ι → Option σ} {Q Done : σ → Prop}
  {Ok : ι → Prop} {μ : σ → Int}

/-- A run is done, or it has taken from the measure what it is long. -/
theorem run_measure
    (hQ : ∀ {s i s'}, Q s → step s i = some s' → Q s')
    (hdone : ∀ {s i s'}, Q s → Done s → step s i = some s' → Done s')
    (hless : ∀ {s i s'}, Q s → Ok i → step s i = some s' →
      Done s' ∨ μ s' < μ s) (is : List ι) :
    ∀ {s s'}, Q s → (∀ i ∈ is, Ok i) → is.foldlM step s = some s' →
      Done s' ∨ is.length + μ s' ≤ μ s := by
  induction is with
  | nil =>
      intro s s' _ _ h
      cases h
      exact .inr (by simp)
  | cons i is ih =>
      intro s s' hs hok h
      obtain ⟨t, ht, hrest⟩ := run_cons.mp h
      have hok' : ∀ j ∈ is, Ok j :=
        fun j hj => hok j (List.mem_cons_of_mem i hj)
      rcases hless hs (hok i List.mem_cons_self) ht with hd | hless
      · have hkeep : ∀ {s i s'}, Q s ∧ Done s → step s i = some s' →
            Q s' ∧ Done s' := fun hq hst => ⟨hQ hq.1 hst, hdone hq.1 hq.2 hst⟩
        exact .inl (run_inv hkeep is ⟨hQ hs ht, hd⟩ hrest).2
      · refine (ih (hQ hs ht) hok' hrest).imp_right fun hle => ?_
        rw [List.length_cons]
        omega

end Lib
