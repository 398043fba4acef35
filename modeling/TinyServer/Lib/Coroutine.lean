/-
Asymmetric coroutines.

Each coroutine has a point where it goes on, or none when it is over. The
chain holds the ones that execute: the first has control, and each of the
others waits for the one in front of it. `resume` hands control to a
coroutine outside the chain, `leave` gives it back. No operation moves a
coroutine that has no control, but `place`, which starts one anew.
-/
import Mathlib.Logic.Function.Basic

namespace Lib

variable {ι π : Type} [DecidableEq ι]

/-- The points at which they go on, and the chain of those that wait for
one another, with the running one first. -/
structure Coroutines (ι π : Type) where
  point : ι → Option π
  chain : List ι

namespace Coroutines

/-- A coroutine, new or over, is put at a point. -/
def place (c : Coroutines ι π) (i : ι) (p : π) : Option (Coroutines ι π) :=
  if i ∈ c.chain then none
  else some { c with point := Function.update c.point i (some p) }

/-- The first goes on to `p`. -/
def goto (c : Coroutines ι π) (p : π) : Option (Coroutines ι π) :=
  match c.chain with
  | i :: _ => some { c with point := Function.update c.point i (some p) }
  | [] => none

/-- The first hands control to `j`, to go on at `p` itself. -/
def resume (c : Coroutines ι π) (j : ι) (p : π) : Option (Coroutines ι π) :=
  match c.chain with
  | i :: rest =>
      if j ∈ c.chain ∨ c.point j = none then none
      else some ⟨Function.update c.point i (some p), j :: i :: rest⟩
  | [] => none

/-- The first gives control back, to go on at `p`, or not at all. -/
def leave (c : Coroutines ι π) (p : Option π) : Option (Coroutines ι π) :=
  match c.chain with
  | i :: j :: rest => some ⟨Function.update c.point i p, j :: rest⟩
  | _ => none

variable {c c' : Coroutines ι π} {i j : ι} {rest : List ι} {p : π}

/-- Outside of the chain a coroutine can be placed. -/
theorem place_eq (h : i ∉ c.chain) :
    c.place i p = some { c with point := Function.update c.point i (some p) } :=
  if_neg h

/-- The running coroutine goes on to another point. -/
theorem goto_eq (h : c.chain = i :: rest) :
    c.goto p = some { c with point := Function.update c.point i (some p) } := by
  rw [goto, h]

/-- A coroutine outside of the chain is put in front of it. -/
theorem resume_eq (h : c.chain = i :: rest) (hj : j ∉ c.chain)
    (hp : c.point j ≠ none) :
    c.resume j p
      = some ⟨Function.update c.point i (some p), j :: c.chain⟩ := by
  rw [resume, h]
  dsimp only
  rw [← h, if_neg (not_or.mpr ⟨hj, hp⟩)]

/-- The running one goes, and the next is resumed. -/
theorem leave_eq (h : c.chain = i :: j :: rest) (p : Option π) :
    c.leave p = some ⟨Function.update c.point i p, j :: rest⟩ := by
  rw [leave, h]

/-- What moves when control is given back. -/
theorem point_leave {p : Option π} (h : c.chain = i :: rest)
    (hl : c.leave p = some c') : c'.point = Function.update c.point i p := by
  rw [leave, h] at hl
  cases rest with
  | nil => cases hl
  | cons j rest =>
      cases hl
      rfl

/-- What moves when control is handed on. -/
theorem point_resume (h : c.chain = i :: rest) (hr : c.resume j p = some c') :
    c'.point = Function.update c.point i (some p) ∧ j ≠ i := by
  rw [resume, h] at hr
  obtain ⟨hout, heq⟩ := Option.ite_none_left_eq_some.mp hr
  cases heq
  exact ⟨rfl, fun hji => hout (.inl (hji ▸ List.mem_cons_self))⟩

end Coroutines

end Lib
