/-
What the observers of a `ConfigVar` have been told, and its value.

Two calls can run their callbacks in one order and assign in the other.
The observers are then told the value of the call that assigned first.
`Stale` is the assignment that comes too late: the value told last is
another one, and no call is left that is going to assign it.
-/
import Mathlib.Data.List.Induction
import TinyServer.Config.Basic
import TinyServer.Lib.Run

namespace TinyServer

open Lib

namespace ConfigRun

variable {T : Type} {s s' : ConfigRun T} {i : ConfigStep T}

/-- No `setValue` is in progress. -/
def Quiet (s : ConfigRun T) : Prop := ∀ t, s.pending t = none

/-- The value told last, if any, is the stored one. -/
def Agrees (s : ConfigRun T) : Prop :=
  ∀ v, s.observed = some v → v = s.var.val

/-- The step assigns a value that is not the one told last, and no call
in progress is going to assign that one. -/
def Stale (s : ConfigRun T) : ConfigStep T → Prop
  | .compare _ _ => False
  | .assign t => ∃ v w, s.pending t = some v ∧ s.observed = some w
      ∧ v ≠ w ∧ ∀ u, s.pending u ≠ some w

/-- The value told last is stored or is going to be; without callbacks
none was told. -/
private def Tracked (s : ConfigRun T) : Prop :=
  (s.var.callbacks = [] → s.observed = none)
    ∧ ∀ w, s.observed = some w → w = s.var.val ∨ ∃ u, s.pending u = some w

theorem setPending_self {t : Nat} {v : Option T} :
    (s.setPending t v).pending t = v :=
  if_pos rfl

theorem setPending_ne {t u : Nat} {v : Option T} (h : u ≠ t) :
    (s.setPending t v).pending u = s.pending u :=
  if_neg h

variable [DecidableEq T]

/-- What a section can do. -/
theorem step_cases (hs : s.step i = some s') :
    (∃ t value, i = .compare t value ∧ s.pending t = none
        ∧ s' = s.compare t value)
      ∨ ∃ t value, i = .assign t ∧ s.pending t = some value
        ∧ s' = { s with var := { s.var with val := value } }.setPending t
            none := by
  cases i with
  | compare t value =>
      simp only [step] at hs
      split at hs
      next => cases hs
      next ht =>
          cases hs
          exact .inl ⟨t, value, rfl, ht, rfl⟩
  | assign t =>
      simp only [step] at hs
      split at hs
      next => cases hs
      next value ht =>
          cases hs
          exact .inr ⟨t, value, rfl, ht, rfl⟩

/-- The first section tells every callback the new value. -/
theorem observed_compare {t : Nat} {value : T} (hne : s.var.val ≠ value) :
    (s.compare t value).observed
      = if s.var.callbacks = [] then s.observed else some value := by
  unfold compare
  rw [if_neg hne]
  cases hcb : s.var.callbacks using List.reverseRecOn with
  | nil =>
      simp only [observed, setPending, List.map_nil, List.append_nil,
        if_true]
  | append_singleton keys key =>
      simp only [observed, setPending, List.map_append, List.map_cons,
        List.map_nil, ← List.append_assoc, List.getLast?_concat,
        Option.map_some, List.append_eq_nil_iff, List.cons_ne_nil, and_false,
        if_false]

private theorem compare_tracked (h : s.Tracked) (t : Nat) (value : T) :
    (s.compare t value).Tracked := by
  by_cases hval : s.var.val = value
  · unfold compare
    rw [if_pos hval]
    exact h
  · have hobs := observed_compare (t := t) hval
    have hcb : (s.compare t value).var = s.var := by
      unfold compare
      rw [if_neg hval]
      rfl
    have hpend : (s.compare t value).pending t = some value := by
      unfold compare
      rw [if_neg hval]
      exact setPending_self
    unfold Tracked
    rw [hcb, hobs]
    by_cases hnil : s.var.callbacks = []
    · rw [if_pos hnil, h.1 hnil]
      exact ⟨fun _ => rfl, fun w hw => by cases hw⟩
    · rw [if_neg hnil]
      refine ⟨fun hcb => absurd hcb hnil, fun w hw => .inr ⟨t, ?_⟩⟩
      rw [hpend, hw]

private theorem step_tracked (h : s.Tracked) (hno : ¬ s.Stale i)
    (hs : s.step i = some s') : s'.Tracked := by
  rcases step_cases hs with ⟨t, value, rfl, -, rfl⟩ |
    ⟨t, value, rfl, ht, rfl⟩
  · exact compare_tracked h t value
  · refine ⟨h.1, fun w hw => ?_⟩
    have hw' : s.observed = some w := hw
    by_cases hvw : value = w
    · exact .inl hvw.symm
    · -- another call is still going to assign `w`
      have hsome : ∃ u, s.pending u = some w := by
        by_contra hnone
        exact hno ⟨value, w, ht, hw', hvw, fun u hu => hnone ⟨u, hu⟩⟩
      obtain ⟨u, hu⟩ := hsome
      have hut : u ≠ t := by
        intro heq
        subst heq
        rw [ht] at hu
        exact hvw (Option.some.inj hu)
      exact .inr ⟨u, (setPending_ne hut).trans hu⟩

/-- In a run without a stale assignment, whenever no `setValue` is in
progress the value told last is the stored one. -/
theorem observers_agree {val : T} {callbacks : List Nat}
    {is : List (ConfigStep T)}
    (hno : ∀ s i, Takes step (new val callbacks) is s i → ¬ s.Stale i)
    {s : ConfigRun T} (h : Visits step (new val callbacks) is s)
    (hquiet : s.Quiet) : s.Agrees := by
  have hnew : (new val callbacks).Tracked :=
    ⟨fun _ => rfl, fun w hw => by cases hw⟩
  intro w hw
  rcases (visits_inv step_tracked hnew hno h).2 w hw with hval | ⟨u, hu⟩
  · exact hval
  · rw [hquiet u] at hu
    cases hu

/-- Two calls that assign in the order of their notifications. -/
def inOrder : List (ConfigStep Nat) :=
  [.compare 0 1, .compare 1 2, .assign 0, .assign 1]

/-- The assigned value is the one told last, or thread 1 is going to
assign that one. -/
private def timely (s : ConfigRun Nat) : ConfigStep Nat → Bool
  | .compare _ _ => true
  | .assign t => s.pending t = s.observed || s.pending 1 = s.observed

theorem observers_agree_in_order :
    ∃ s, inOrder.foldlM step (new 0 [7]) = some s ∧ s.observed = some 2
      ∧ s.Agrees := by
  have hno : ∀ s i, Takes step (new 0 [7]) inOrder s i → ¬ s.Stale i := by
    intro s i ht hstale
    have hok := takes_of_checks timely (by decide) ht
    cases i with
    | compare t value => exact hstale
    | assign t =>
        obtain ⟨v, w, hv, hw, hne, hnone⟩ := hstale
        simp only [timely, hv, hw, Bool.or_eq_true, decide_eq_true_eq] at hok
        rcases hok with hok | hok
        · exact hne (Option.some.inj hok)
        · exact hnone 1 hok
  refine ⟨_, rfl, rfl, observers_agree hno (visits_last rfl) fun t => ?_⟩
  show (if t = 1 then none else if t = 0 then none
    else if t = 1 then some 2 else if t = 0 then some 1 else none) = none
  by_cases h1 : t = 1
  · rw [if_pos h1]
  · rw [if_neg h1, if_neg h1]
    split <;> rfl

/-- Two calls notify in one order and assign in the other: the observers
are left with the value that was overwritten. -/
theorem crossed_assignments :
    ¬ ∀ (val : Nat) (callbacks : List Nat) (is : List (ConfigStep Nat))
      (s : ConfigRun Nat), Visits step (new val callbacks) is s → s.Quiet →
        s.Agrees := by
  intro hall
  have hagrees := hall 0 [7]
    [.compare 0 1, .compare 1 2, .assign 1, .assign 0] _ (visits_last rfl) ?_
  · exact absurd (hagrees 2 rfl) (by decide)
  · intro t
    show (if t = 0 then none else if t = 1 then none
      else if t = 1 then some 2 else if t = 0 then some 1 else none) = none
    by_cases h0 : t = 0
    · rw [if_pos h0]
    · rw [if_neg h0, if_neg h0]
      split <;> rfl

end ConfigRun

end TinyServer
