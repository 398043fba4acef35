/-
Runs of a partial step function.

A run over the inputs `is` is `is.foldlM step s` in `Option`: it ends in
a state, or a step was not taken. `Visits` names the states a run passes
through. The rules are the ones an invariant proof uses:

- `run_inv`: what one step preserves, a run preserves;
- `run_inv_visits`: and then it holds in every state the run visits;
- `visits_inv`: what the steps that a run takes preserve holds in every
  state of that run;
- `takes_of_checks`: `checks` evaluates a property at every step that a
  given run takes;
- `run_rel`: a preorder that every step of a run respects relates each
  state of the run to all later ones;
- `visits_inv_iff`: when every step either keeps the property or, being
  of a known bad kind, breaks it at once, the property holds in all
  states of a run exactly when the run takes no bad step;
- `visits_takes_iff`: the same where the steps themselves have something
  to fulfil.
-/
import Mathlib.Data.List.Basic

namespace Lib

variable {ι σ : Type}

/-- The run over `is` from `s₀` passes through `s`. -/
def Visits (step : σ → ι → Option σ) (s₀ : σ) (is : List ι) (s : σ) :
    Prop :=
  ∃ pre post, is = pre ++ post ∧ pre.foldlM step s₀ = some s

/-- The run over `is` from `s₀` takes the input `i` in state `s`. -/
def Takes (step : σ → ι → Option σ) (s₀ : σ) (is : List ι) (s : σ)
    (i : ι) : Prop :=
  ∃ pre post, is = pre ++ i :: post ∧ pre.foldlM step s₀ = some s

/-- The run over `is` from `s₀` passes through `s` and then, possibly at
once, through `t`. -/
def Later (step : σ → ι → Option σ) (s₀ : σ) (is : List ι) (s t : σ) :
    Prop :=
  ∃ pre mid post, is = pre ++ (mid ++ post)
    ∧ pre.foldlM step s₀ = some s ∧ mid.foldlM step s = some t

variable {step : σ → ι → Option σ} {P : σ → Prop}

theorem run_cons {i : ι} {is : List ι} {s s' : σ} :
    (i :: is).foldlM step s = some s'
      ↔ ∃ t, step s i = some t ∧ is.foldlM step t = some s' := by
  rw [List.foldlM_cons]
  exact Option.bind_eq_some_iff

theorem run_append {is js : List ι} {s s' : σ} :
    (is ++ js).foldlM step s = some s'
      ↔ ∃ t, is.foldlM step s = some t ∧ js.foldlM step t = some s' := by
  rw [List.foldlM_append]
  exact Option.bind_eq_some_iff

/-- A run passes through its last state. -/
theorem visits_last {is : List ι} {s₀ s : σ}
    (h : is.foldlM step s₀ = some s) : Visits step s₀ is s :=
  ⟨is, [], (List.append_nil is).symm, h⟩

/-- A run that goes through takes the step after each of its parts. -/
theorem run_next {is js : List ι} {i : ι} {s₀ s s₁ : σ}
    (hrun : (is ++ i :: js).foldlM step s₀ = some s₁)
    (hs : is.foldlM step s₀ = some s) : ∃ t, step s i = some t := by
  obtain ⟨t, ht, hrest⟩ := run_append.mp hrun
  rw [hs] at ht
  cases ht
  obtain ⟨u, hu, -⟩ := run_cons.mp hrest
  exact ⟨u, hu⟩

theorem Takes.mem {is : List ι} {s₀ s : σ} {i : ι}
    (h : Takes step s₀ is s i) : i ∈ is := by
  obtain ⟨pre, post, rfl, -⟩ := h
  exact List.mem_append_right pre List.mem_cons_self

theorem Takes.visits {is : List ι} {s₀ s : σ} {i : ι}
    (h : Takes step s₀ is s i) : Visits step s₀ is s := by
  obtain ⟨pre, post, heq, hpre⟩ := h
  exact ⟨pre, i :: post, heq, hpre⟩

/-- A run that goes through takes each of its inputs. -/
theorem takes_of_mem {is : List ι} {s₀ s₁ : σ} {i : ι}
    (hrun : is.foldlM step s₀ = some s₁) (hi : i ∈ is) :
    ∃ s, Takes step s₀ is s i := by
  obtain ⟨pre, post, rfl⟩ := List.append_of_mem hi
  obtain ⟨s, hs, -⟩ := run_append.mp hrun
  exact ⟨s, pre, post, rfl, hs⟩

/-- What one step preserves, a run preserves. -/
theorem run_inv (hstep : ∀ {s i s'}, P s → step s i = some s' → P s')
    (is : List ι) :
    ∀ {s s'}, P s → is.foldlM step s = some s' → P s' := by
  induction is with
  | nil =>
      intro s s' hs h
      cases h
      exact hs
  | cons i is ih =>
      intro s s' hs h
      obtain ⟨t, ht, hrest⟩ := run_cons.mp h
      exact ih (hstep hs ht) hrest

/-- What one step preserves holds in every state of a run. -/
theorem run_inv_visits
    (hstep : ∀ {s i s'}, P s → step s i = some s' → P s') {is : List ι}
    {s₀ s : σ} (h₀ : P s₀) (h : Visits step s₀ is s) : P s := by
  obtain ⟨pre, post, -, hrun⟩ := h
  exact run_inv hstep pre h₀ hrun

/-- What every step that the run takes preserves holds in all its
states. -/
theorem visits_inv {Ok : σ → ι → Prop}
    (hstep : ∀ {s i s'}, P s → Ok s i → step s i = some s' → P s')
    {is : List ι} {s₀ s : σ} (h₀ : P s₀)
    (hok : ∀ s i, Takes step s₀ is s i → Ok s i)
    (h : Visits step s₀ is s) : P s := by
  obtain ⟨pre, post, rfl, hrun⟩ := h
  induction pre generalizing s₀ with
  | nil =>
      cases hrun
      exact h₀
  | cons i pre ih =>
      obtain ⟨t, ht, hrest⟩ := run_cons.mp hrun
      have hfirst : Ok s₀ i := hok s₀ i ⟨[], pre ++ post, rfl, rfl⟩
      refine ih (hstep h₀ hfirst ht) hrest ?_
      intro u j hsome
      obtain ⟨p, q, hpq, hp⟩ := hsome
      refine hok u j ⟨i :: p, q, ?_, run_cons.mpr ⟨t, ht, hp⟩⟩
      rw [List.cons_append, hpq, List.cons_append]

/-- The steps that a run takes: the first, and those of the rest. -/
theorem forall_takes_cons {Ok : σ → ι → Prop} {i : ι} {is : List ι}
    {s₀ : σ} (hfirst : Ok s₀ i)
    (hrest : ∀ t, step s₀ i = some t → ∀ s j, Takes step t is s j → Ok s j)
    (s : σ) (j : ι) (h : Takes step s₀ (i :: is) s j) : Ok s j := by
  obtain ⟨pre, post, heq, hrun⟩ := h
  cases pre with
  | nil =>
      cases heq
      cases hrun
      exact hfirst
  | cons k pre =>
      cases heq
      obtain ⟨t, ht, hpre⟩ := run_cons.mp hrun
      exact hrest t ht s j ⟨pre, post, rfl, hpre⟩

theorem forall_takes_nil {Ok : σ → ι → Prop} {s₀ : σ} (s : σ) (j : ι)
    (h : Takes step s₀ [] s j) : Ok s j := by
  cases h.mem

/-- `ok` holds at every step of the run, as far as it goes. -/
def checks (step : σ → ι → Option σ) (ok : σ → ι → Bool) :
    σ → List ι → Bool
  | _, [] => true
  | s, i :: is => ok s i && (step s i).all fun t => checks step ok t is

theorem takes_of_checks (ok : σ → ι → Bool) {is : List ι} {s₀ s : σ} {i : ι}
    (hc : checks step ok s₀ is = true) (h : Takes step s₀ is s i) :
    ok s i = true := by
  obtain ⟨pre, post, rfl, hrun⟩ := h
  induction pre generalizing s₀ with
  | nil =>
      cases hrun
      exact (Bool.and_eq_true_iff.mp hc).1
  | cons j pre ih =>
      obtain ⟨t, ht, hrest⟩ := run_cons.mp hrun
      have hall := (Bool.and_eq_true_iff.mp hc).2
      rw [ht, Option.all_some] at hall
      exact ih hrest hall

/-- A preorder that every step of a run respects relates each of its
states to all later ones. -/
theorem run_rel {R : σ → σ → Prop} (hrefl : ∀ s, R s s)
    (htrans : ∀ {s t u}, R s t → R t u → R s u) {is : List ι} {s₀ : σ}
    (hstep : ∀ {s i s'}, Takes step s₀ is s i → step s i = some s' → R s s')
    {s t : σ} (h : Later step s₀ is s t) : R s t := by
  obtain ⟨pre, mid, post, rfl, hpre, hmid⟩ := h
  induction mid generalizing pre s with
  | nil =>
      cases hmid
      exact hrefl _
  | cons i mid ih =>
      obtain ⟨u, hu, hrest⟩ := run_cons.mp hmid
      have hsu : R s u := hstep ⟨pre, mid ++ post, rfl, hpre⟩ hu
      refine htrans hsu (ih (pre ++ [i]) ?_ ?_ hrest)
      · intro s i s' ht
        rw [List.append_assoc] at ht
        exact hstep ht
      · exact run_append.mpr ⟨s, hpre, run_cons.mpr ⟨u, hu, rfl⟩⟩

/-- A property that good steps keep and bad steps break at once holds in
all states of a run exactly when the run takes no bad step. `Q` is what
is known of all states anyway. -/
theorem visits_inv_iff {Q : σ → Prop} {Bad : σ → ι → Prop}
    (hQ : ∀ {s i s'}, Q s → step s i = some s' → Q s')
    (hgood : ∀ {s i s'}, Q s → P s → ¬ Bad s i → step s i = some s' → P s')
    (hbad : ∀ {s i s'}, Q s → P s → Bad s i → step s i = some s' → ¬ P s')
    {is : List ι} {s₀ s₁ : σ} (hQ₀ : Q s₀) (hP₀ : P s₀)
    (hrun : is.foldlM step s₀ = some s₁) :
    (∀ s, Visits step s₀ is s → P s)
      ↔ ∀ s i, Takes step s₀ is s i → ¬ Bad s i := by
  constructor
  · intro hall s i hsome hb
    obtain ⟨pre, post, rfl, hpre⟩ := hsome
    obtain ⟨u, hu⟩ := run_next hrun hpre
    have hs : P s := hall s ⟨pre, i :: post, rfl, hpre⟩
    have hu' : P u := by
      refine hall u ⟨pre ++ [i], post, by simp, ?_⟩
      exact run_append.mpr ⟨s, hpre, run_cons.mpr ⟨u, hu, rfl⟩⟩
    exact hbad (run_inv hQ pre hQ₀ hpre) hs hb hu hu'
  · intro hno t ht
    have hstep : ∀ {s i s'}, Q s ∧ P s → ¬ Bad s i → step s i = some s' →
        Q s' ∧ P s' := fun hs hb hstep =>
      ⟨hQ hs.1 hstep, hgood hs.1 hs.2 hb hstep⟩
    exact (visits_inv hstep ⟨hQ₀, hP₀⟩ hno ht).2

/-- When a step from a good state is right and leads to a good state
exactly if it is fine, all states of a run are good and all its steps
right exactly if it starts in a good state and all its steps are fine. -/
theorem visits_takes_iff {Q : σ → Prop} {Right Fine : σ → ι → Prop}
    (hQ : ∀ {s i s'}, Q s → step s i = some s' → Q s')
    (hiff : ∀ {s i s'}, Q s → P s → step s i = some s' →
      (Right s i ∧ P s' ↔ Fine s i))
    {is : List ι} {s₀ s₁ : σ} (hQ₀ : Q s₀)
    (hrun : is.foldlM step s₀ = some s₁) :
    ((∀ s, Visits step s₀ is s → P s)
        ∧ ∀ s i, Takes step s₀ is s i → Right s i)
      ↔ P s₀ ∧ ∀ s i, Takes step s₀ is s i → Fine s i := by
  have hnext : ∀ {s i}, Takes step s₀ is s i → ∃ u, step s i = some u
      ∧ Visits step s₀ is u := by
    rintro s i ⟨pre, post, rfl, hpre⟩
    obtain ⟨u, hu⟩ := run_next hrun hpre
    refine ⟨u, hu, pre ++ [i], post, by simp, ?_⟩
    exact run_append.mpr ⟨s, hpre, run_cons.mpr ⟨u, hu, rfl⟩⟩
  constructor
  · rintro ⟨hall, hright⟩
    refine ⟨hall s₀ ⟨[], is, rfl, rfl⟩, fun s i ht => ?_⟩
    obtain ⟨u, hu, hvisit⟩ := hnext ht
    have hs : Q s := run_inv_visits hQ hQ₀ ht.visits
    exact (hiff hs (hall s ht.visits) hu).mp ⟨hright s i ht, hall u hvisit⟩
  · rintro ⟨hP₀, hfine⟩
    have hstep : ∀ {s i s'}, Q s ∧ P s → Fine s i → step s i = some s' →
        Q s' ∧ P s' := fun hs hf hstep =>
      ⟨hQ hs.1 hstep, ((hiff hs.1 hs.2 hstep).mpr hf).2⟩
    have hall : ∀ s, Visits step s₀ is s → Q s ∧ P s := fun s ht =>
      visits_inv hstep ⟨hQ₀, hP₀⟩ hfine ht
    refine ⟨fun s ht => (hall s ht).2, fun s i ht => ?_⟩
    obtain ⟨u, hu, -⟩ := hnext ht
    obtain ⟨hs, hp⟩ := hall s ht.visits
    exact ((hiff hs hp hu).mpr (hfine s i ht)).1

end Lib
