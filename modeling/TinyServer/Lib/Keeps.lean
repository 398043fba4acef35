/-
Invariants of computations that change a state and may raise.

A computation in `EStateM ε σ` ends in a state on either way out, and
the caller that handles an exception goes on with that state. `Keeps`
is the invariant rule for such a computation: started in `P` it ends in
`P`, on a normal return and on every exception of the class `live` that
a caller can survive. The other exceptions end the run, so nothing is
asked of the state they leave.

The rules follow the constructors of the monad, so that the invariant
of a derived operation is assembled from the invariants of the
operations it calls, without unfolding them. `surviveAll` runs a list
of operations and is what a statement about whole runs is about.
-/
import Mathlib.Data.List.Basic

namespace Lib

variable {ε σ α β : Type}

/-- Started in `P`, `m` ends in `P`: on return, and on every exception
that `live` admits. -/
def Keeps (live : ε → Prop) (P : σ → Prop) (m : EStateM ε σ α) : Prop :=
  ∀ s, P s → match m s with
    | .ok _ s' => P s'
    | .error e s' => live e → P s'

namespace Keeps

variable {live : ε → Prop} {P : σ → Prop}

/-- A return leaves the state alone. -/
theorem pure (a : α) : Keeps live P (Pure.pure a : EStateM ε σ α) :=
  fun _ hs => hs

/-- So does a raise. -/
theorem throw (e : ε) : Keeps live P (throw e : EStateM ε σ α) :=
  fun _ hs _ => hs

/-- Looking at the state leaves it alone. -/
theorem get : Keeps live P (get : EStateM ε σ σ) :=
  fun _ hs => hs

/-- What both parts keep, one after the other keeps. -/
theorem bind {m : EStateM ε σ α} {f : α → EStateM ε σ β}
    (hm : Keeps live P m) (hf : ∀ a, Keeps live P (f a)) :
    Keeps live P (m >>= f) := by
  intro s hs
  have hms := hm s hs
  show match EStateM.bind m f s with
    | .ok _ s' => P s'
    | .error e s' => live e → P s'
  unfold EStateM.bind
  cases hr : m s with
  | ok a s' =>
      rw [hr] at hms
      exact hf a s' hms
  | error e s' =>
      rw [hr] at hms
      exact hms

/-- A function of the result does not touch the state. -/
theorem map {m : EStateM ε σ α} (f : α → β) (hm : Keeps live P m) :
    Keeps live P (f <$> m) := by
  intro s hs
  have hms := hm s hs
  show match EStateM.map f m s with
    | .ok _ s' => P s'
    | .error e s' => live e → P s'
  unfold EStateM.map
  cases hr : m s with
  | ok a s' => rw [hr] at hms; exact hms
  | error e s' => rw [hr] at hms; exact hms

/-- A branch keeps what both of its arms keep. -/
theorem ite {c : Prop} [Decidable c] {m n : EStateM ε σ α}
    (hm : Keeps live P m) (hn : Keeps live P n) :
    Keeps live P (if c then m else n) := by
  split
  · exact hm
  · exact hn

/-- Nor does dropping the result. -/
theorem discard {m : EStateM ε σ α} (hm : Keeps live P m) :
    Keeps live P (discard m) :=
  hm.map _

/-- Fewer exceptions to survive ask for less. -/
theorem imp {live' : ε → Prop} {m : EStateM ε σ α} (hm : Keeps live P m)
    (h : ∀ e, live' e → live e) : Keeps live' P m := by
  intro s hs
  have hms := hm s hs
  cases hr : m s with
  | ok a s' => rw [hr] at hms; exact hms
  | error e s' => rw [hr] at hms; exact fun he => hms (h e he)

/-- The invariant after a normal return. -/
theorem of_ok {m : EStateM ε σ α} (hm : Keeps live P m) {s s' : σ} {a : α}
    (hs : P s) (h : m s = .ok a s') : P s' := by
  have hms := hm s hs
  rw [h] at hms
  exact hms

/-- The invariant after an exception that is survived. -/
theorem of_error {m : EStateM ε σ α} (hm : Keeps live P m) {s s' : σ} {e : ε}
    (hs : P s) (h : m s = .error e s') (he : live e) : P s' := by
  have hms := hm s hs
  rw [h] at hms
  exact hms he

end Keeps

-- =========================================================== one way out

section WaysOut

variable {m : EStateM ε σ α} {f : α → EStateM ε σ β} {g : α → β}
  {s s' : σ} {a : α} {e : ε}

/-- What follows a return starts in the state that it left. -/
theorem bind_ok (h : m s = .ok a s') : (m >>= f) s = f a s' := by
  show EStateM.bind m f s = _
  unfold EStateM.bind
  rw [h]

/-- An exception passes over what follows. -/
theorem bind_error (h : m s = .error e s') : (m >>= f) s = .error e s' := by
  show EStateM.bind m f s = _
  unfold EStateM.bind
  rw [h]

/-- A return with a function of its result. -/
theorem map_ok (h : m s = .ok a s') : (g <$> m) s = .ok (g a) s' := by
  show EStateM.map g m s = _
  unfold EStateM.map
  rw [h]

/-- An exception passes over the function. -/
theorem map_error (h : m s = .error e s') : (g <$> m) s = .error e s' := by
  show EStateM.map g m s = _
  unfold EStateM.map
  rw [h]

end WaysOut

-- ============================================================= observers

/-- `m` changes nothing, whether it returns or raises. -/
def Observes (m : EStateM ε σ α) : Prop :=
  ∀ s, match m s with
    | .ok _ s' => s' = s
    | .error _ s' => s' = s

namespace Observes

/-- A return changes nothing. -/
theorem pure (a : α) : Observes (Pure.pure a : EStateM ε σ α) :=
  fun _ => rfl

/-- Nor does a raise. -/
theorem throw (e : ε) : Observes (throw e : EStateM ε σ α) :=
  fun _ => rfl

/-- A function of the state observes when its values do. -/
theorem get_bind {f : σ → EStateM ε σ β} (hf : ∀ s, Observes (f s)) :
    Observes (get >>= f) :=
  fun s => hf s s

/-- A branch of two observers observes. -/
theorem ite {c : Prop} [Decidable c] {m n : EStateM ε σ α}
    (hm : Observes m) (hn : Observes n) :
    Observes (if c then m else n) := by
  split
  · exact hm
  · exact hn

/-- An observer keeps everything. -/
theorem keeps {m : EStateM ε σ α} (hm : Observes m) (live : ε → Prop)
    (P : σ → Prop) : Keeps live P m := by
  intro s hs
  have hms := hm s
  cases hr : m s with
  | ok a s' => rw [hr] at hms; exact hms ▸ hs
  | error e s' => rw [hr] at hms; exact fun _ => hms ▸ hs

end Observes

-- ============================================================ whole runs

/-- The state after one operation, when the caller survives it: the
operation returns, or raises an exception of the class `live`. -/
def survive (live : ε → Bool) (m : EStateM ε σ α) (s : σ) : Option σ :=
  match m s with
  | .ok _ s' => some s'
  | .error e s' => if live e then some s' else none

/-- The state after a list of operations, each of which the caller
survives. -/
def surviveAll (live : ε → Bool) {ι : Type} (op : ι → EStateM ε σ α) :
    List ι → σ → Option σ
  | [], s => some s
  | i :: is, s => (survive live (op i) s).bind (surviveAll live op is)

/-- What an operation keeps, it keeps when it is survived. -/
theorem Keeps.survive {live : ε → Bool} {P : σ → Prop}
    {m : EStateM ε σ α} (hm : Keeps (fun e => live e = true) P m)
    {s s' : σ} (hs : P s) (hrun : survive live m s = some s') : P s' := by
  have hms := hm s hs
  unfold Lib.survive at hrun
  cases hr : m s with
  | ok a t =>
      rw [hr] at hms hrun
      simp only [Option.some.injEq] at hrun
      exact hrun ▸ hms
  | error e t =>
      rw [hr] at hms hrun
      simp only at hrun
      split at hrun
      next he =>
        simp only [Option.some.injEq] at hrun
        exact hrun ▸ hms he
      next => cases hrun

/-- What every operation keeps, every run keeps. -/
theorem Keeps.surviveAll {live : ε → Bool} {P : σ → Prop} {ι : Type}
    {op : ι → EStateM ε σ α}
    (hop : ∀ i, Keeps (fun e => live e = true) P (op i)) (is : List ι) :
    ∀ {s s' : σ}, P s → surviveAll live op is s = some s' → P s' := by
  induction is with
  | nil =>
      intro s s' hs hrun
      simp only [Lib.surviveAll, Option.some.injEq] at hrun
      exact hrun ▸ hs
  | cons i is ih =>
      intro s s' hs hrun
      simp only [Lib.surviveAll, Option.bind_eq_some_iff] at hrun
      obtain ⟨t, ht, hrest⟩ := hrun
      exact ih ((hop i).survive hs ht) hrest

end Lib
