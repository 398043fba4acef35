/-
Cutting a list in front of the first element without a property.

`takeWhile` and `dropWhile` give the two pieces (`cut`), and there is no
other way to cut (`Cut.takeWhile_eq`, `Cut.dropWhile_eq`).

Where a property of an element is one of all elements before it (`Front`),
the first piece is a filter over the whole list; and a second piece may be
cut off with a property that only matters once the first has failed
(`front_then`).
-/
import Mathlib.Data.List.TakeWhile

namespace Lib

variable {α : Type} {p : α → Bool} {s t rest : List α}

/-- `s` is `t` and `rest`, where `t` has the property all through and
`rest` does not begin with it. -/
structure Cut (p : α → Bool) (s t rest : List α) : Prop where
  eq : s = t ++ rest
  all : ∀ a ∈ t, p a = true
  stop : ∀ a as, rest = a :: as → p a = false

/-- Every list is cut where the property first fails. -/
theorem cut (p : α → Bool) (s : List α) :
    Cut p s (s.takeWhile p) (s.dropWhile p) where
  eq := List.takeWhile_append_dropWhile.symm
  all _ ha := List.mem_takeWhile_imp ha
  stop a as h := by
    have hhead := List.head?_dropWhile_not p s
    rw [h] at hhead
    exact hhead

/-- What is left behind a first piece. -/
theorem drop_of_append (h : s = t ++ rest) : s.drop t.length = rest := by
  rw [h, List.drop_left]

namespace Cut

/-- There is only one such cut: its first part, -/
theorem takeWhile_eq (h : Cut p s t rest) : s.takeWhile p = t := by
  rw [h.eq, List.takeWhile_append_of_pos h.all]
  cases hrest : rest with
  | nil => exact List.append_nil t
  | cons a as =>
      rw [List.takeWhile_cons_of_neg (by rw [h.stop a as hrest]; decide),
        List.append_nil]

/-- and its second. -/
theorem dropWhile_eq (h : Cut p s t rest) : s.dropWhile p = rest := by
  rw [h.eq, List.dropWhile_append_of_pos h.all]
  cases hrest : rest with
  | nil => rfl
  | cons a as =>
      exact List.dropWhile_cons_of_neg (by rw [h.stop a as hrest]; decide)

end Cut

-- ================================================================= fronts

/-- The elements with the property come first. -/
def Front (p : α → Bool) (s : List α) : Prop :=
  s.Pairwise fun a b => p b = true → p a = true

/-- When the property fails from some place on, filtering is cutting. -/
theorem Front.takeWhile_eq (h : Front p s) : s.takeWhile p = s.filter p := by
  induction s with
  | nil => rfl
  | cons a s ih =>
      obtain ⟨hfirst, hrest⟩ := List.pairwise_cons.mp h
      by_cases ha : p a = true
      · rw [List.takeWhile_cons_of_pos ha, List.filter_cons_of_pos ha,
          ih hrest]
      · have hnone : s.filter p = [] := by
          rw [List.filter_eq_nil_iff]
          exact fun b hb hpb => ha (hfirst b hb hpb)
        rw [List.takeWhile_cons_of_neg ha, List.filter_cons_of_neg ha, hnone]

/-- Cut off the elements with `p`, then those with `q`. -/
theorem front_then {q : α → Bool} (hp : Front p s)
    (hpq : Front (fun a => p a || q a) s) :
    s.takeWhile p ++ (s.dropWhile p).takeWhile q
      = s.filter fun a => p a || q a := by
  induction s with
  | nil => rfl
  | cons a s ih =>
      by_cases ha : p a = true
      · rw [List.takeWhile_cons_of_pos ha, List.dropWhile_cons_of_pos ha,
          List.filter_cons_of_pos (by rw [ha]; rfl), List.cons_append,
          ih (List.pairwise_cons.mp hp).2 (List.pairwise_cons.mp hpq).2]
      · -- no element has `p` any more
        have hno : ∀ b ∈ a :: s, (p b || q b) = q b := by
          intro b hb
          have hpb : ¬ p b = true := by
            rcases List.mem_cons.mp hb with rfl | hb
            · exact ha
            · exact fun hpb => ha ((List.pairwise_cons.mp hp).1 b hb hpb)
          rw [Bool.eq_false_iff.mpr hpb, Bool.false_or]
        have hq : Front q (a :: s) := by
          refine List.Pairwise.imp_of_mem ?_ hpq
          intro b c hb hc h
          simp only [hno b hb, hno c hc] at h
          exact h
        rw [List.takeWhile_cons_of_neg ha, List.dropWhile_cons_of_neg ha,
          List.nil_append, hq.takeWhile_eq]
        exact (List.filter_congr hno).symm

end Lib
