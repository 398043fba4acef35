/-
Sums and counts over `List.range`, when one place changes.

A table of `n` places is a function on numbers below `n`; an invariant
that adds up over the places is kept by a step that changes one place and
the total by the same amount.
-/
import Mathlib.Algebra.BigOperators.Group.List.Basic
import Mathlib.Algebra.Ring.Int.Defs

namespace Lib

/-- Changing the place `p` changes the sum by what it changes there. -/
theorem sum_range_update {f g : Nat → Int} {p n : Nat}
    (hp : p < n) (h : ∀ q, q ≠ p → g q = f q) :
    ((List.range n).map g).sum = ((List.range n).map f).sum + (g p - f p) := by
  induction n with
  | zero => omega
  | succ n ih =>
      simp only [List.range_succ, List.map_append, List.sum_append,
        List.map_cons, List.map_nil, List.sum_cons, List.sum_nil]
      by_cases hn : p = n
      · subst hn
        have hmap : (List.range p).map g = (List.range p).map f :=
          List.map_congr_left fun q hq =>
            h q (Nat.ne_of_lt (List.mem_range.mp hq))
        rw [hmap]
        omega
      · rw [ih (by omega), h n (Ne.symm hn)]
        omega

/-- Places that contribute nothing can be added. -/
theorem sum_range_add_zero (f : Nat → Int) (n k : Nat)
    (h : ∀ q, n ≤ q → q < n + k → f q = 0) :
    ((List.range (n + k)).map f).sum = ((List.range n).map f).sum := by
  induction k with
  | zero => rfl
  | succ k ih =>
      rw [← Nat.add_assoc, List.range_succ, List.map_append,
        List.sum_append, ih fun q h1 h2 => h q h1 (by omega)]
      simp [h (n + k) (by omega) (by omega)]

/-- Changing the place `p` changes the count by what it changes there. -/
theorem countP_range_update {f g : Nat → Bool} {p n : Nat}
    (hp : p < n) (h : ∀ q, q ≠ p → g q = f q) :
    (List.range n).countP g + (f p).toNat
      = (List.range n).countP f + (g p).toNat := by
  induction n with
  | zero => omega
  | succ n ih =>
      rw [List.range_succ, List.countP_append, List.countP_append,
        List.countP_singleton, List.countP_singleton]
      by_cases hn : p = n
      · subst hn
        have hcount : (List.range p).countP g = (List.range p).countP f :=
          List.countP_congr fun q hq => by
            rw [h q (Nat.ne_of_lt (List.mem_range.mp hq))]
        rw [hcount]
        cases f p <;> cases g p <;> simp
      · have := ih (by omega)
        rw [h n (Ne.symm hn)]
        omega

end Lib
