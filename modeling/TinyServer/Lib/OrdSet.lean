/-
A set kept as a list in the order of a comparison: the operations of an
ordered set in terms of its lower bound.

The comparison is a function that may change from one operation to the
next; every lemma is about one comparison. `StrictTotal` is what a
comparison must be for the operations to mean what they say: an element
that is neither less nor greater than a key is the key.
-/
import Mathlib.Data.List.Basic

namespace Lib

variable {α : Type} {lt : α → α → Bool} {xs : List α} {a b : α}

/-- A strict total order, as a decision function. -/
structure StrictTotal (lt : α → α → Bool) : Prop where
  irrefl : ∀ a, lt a a = false
  trans : ∀ {a b c}, lt a b = true → lt b c = true → lt a c = true
  total : ∀ {a b}, a ≠ b → lt a b = true ∨ lt b a = true

/-- The elements in strictly increasing order. -/
def Ascending (lt : α → α → Bool) (xs : List α) : Prop :=
  xs.Pairwise fun a b => lt a b = true

/-- The elements from the first one on that is not less than `a`. -/
def lowerBound (lt : α → α → Bool) (a : α) (xs : List α) : List α :=
  xs.dropWhile (lt · a)

/-- The element equivalent to `a`, if there is one. -/
def setFind (lt : α → α → Bool) (a : α) (xs : List α) : Option α :=
  match lowerBound lt a xs with
  | [] => none
  | b :: _ => if lt a b then none else some b

/-- Insert `a` at its lower bound, unless an equivalent element is
there. -/
def setInsert (lt : α → α → Bool) (a : α) (xs : List α) : List α :=
  match setFind lt a xs with
  | some _ => xs
  | none => xs.takeWhile (lt · a) ++ a :: lowerBound lt a xs

theorem setFind_cons (x : α) :
    setFind lt a (x :: xs)
      = if lt x a then setFind lt a xs
        else if lt a x then none else some x := by
  rw [setFind, lowerBound, List.dropWhile_cons]
  by_cases hxa : lt x a = true
  · rw [if_pos hxa, if_pos hxa]
    rfl
  · rw [if_neg hxa, if_neg hxa]

theorem setInsert_cons (x : α) :
    setInsert lt a (x :: xs)
      = if lt x a then x :: setInsert lt a xs
        else if lt a x then a :: x :: xs else x :: xs := by
  rw [setInsert, setInsert, setFind_cons, lowerBound, lowerBound,
    List.takeWhile_cons, List.dropWhile_cons]
  by_cases hxa : lt x a = true
  · simp only [hxa, if_true]
    split <;> rfl
  · by_cases hax : lt a x = true
    · simp only [hxa, hax, if_true, if_false, Bool.false_eq_true]
      rfl
    · simp only [hxa, hax, if_false, Bool.false_eq_true]

-- ==================================================================== finding

theorem ascending_nodup (h : StrictTotal lt) (hx : Ascending lt xs) :
    xs.Nodup := by
  refine hx.imp fun {a b} hab heq => ?_
  rw [heq, h.irrefl] at hab
  cases hab

/-- A key that is in the set is found. -/
theorem setFind_mem (h : StrictTotal lt) (hx : Ascending lt xs)
    (ha : a ∈ xs) : setFind lt a xs = some a := by
  have hirr : ¬ lt a a = true := by
    rw [h.irrefl]
    exact Bool.false_ne_true
  induction xs with
  | nil => cases ha
  | cons x xs ih =>
      obtain ⟨hlt, hx⟩ := List.pairwise_cons.mp hx
      rw [setFind_cons]
      rcases List.mem_cons.mp ha with rfl | ha
      · rw [if_neg hirr, if_neg hirr]
      · rw [if_pos (hlt a ha)]
        exact ih hx ha

-- ================================================================== inserting

theorem mem_setInsert (h : StrictTotal lt) :
    b ∈ setInsert lt a xs ↔ b = a ∨ b ∈ xs := by
  induction xs with
  | nil => exact List.mem_cons
  | cons x xs ih =>
      rw [setInsert_cons]
      split
      next =>
          rw [List.mem_cons, ih, List.mem_cons]
          tauto
      next hxa =>
          split
          next => exact List.mem_cons
          next hax =>
              have heq : x = a := by
                by_contra hne
                exact (h.total hne).elim hxa hax
              rw [heq, List.mem_cons]
              tauto

theorem setInsert_ascending (h : StrictTotal lt) (hx : Ascending lt xs) :
    Ascending lt (setInsert lt a xs) := by
  induction xs with
  | nil => exact List.pairwise_singleton _ _
  | cons x xs ih =>
      obtain ⟨hlt, hx'⟩ := List.pairwise_cons.mp hx
      rw [setInsert_cons]
      split
      next hxa =>
          refine List.pairwise_cons.mpr ⟨fun b hb => ?_, ih hx'⟩
          rcases (mem_setInsert h).mp hb with rfl | hb
          · exact hxa
          · exact hlt b hb
      next =>
          split
          next hax =>
              refine List.pairwise_cons.mpr ⟨fun b hb => ?_, hx⟩
              rcases List.mem_cons.mp hb with rfl | hb
              · exact hax
              · exact h.trans hax (hlt b hb)
          next => exact hx

/-- The inserted element comes first if it is less than all others. -/
theorem head_setInsert (h : StrictTotal lt) (hx : Ascending lt xs) :
    (setInsert lt a xs).head? = some a
      ↔ ∀ b ∈ xs, b ≠ a → lt a b = true := by
  cases xs with
  | nil => exact iff_of_true rfl fun b hb => by cases hb
  | cons x xs =>
      obtain ⟨hlt, -⟩ := List.pairwise_cons.mp hx
      rw [setInsert_cons]
      split
      next hxa =>
          refine iff_of_false (fun hhead => ?_) (fun hall => ?_)
          · rw [Option.some.inj hhead, h.irrefl] at hxa
            cases hxa
          · have hne : x ≠ a := by
              intro heq
              rw [heq, h.irrefl] at hxa
              cases hxa
            have hxx := h.trans hxa (hall x List.mem_cons_self hne)
            rw [h.irrefl] at hxx
            cases hxx
      next hxa =>
          have hfirst : x ≠ a → lt a x = true := fun hne =>
            (h.total hne).resolve_left hxa
          refine iff_of_true ?_ (fun b hb hne => ?_)
          · split
            next => rfl
            next hax =>
                have heq : x = a := by
                  by_contra hne
                  exact hax (hfirst hne)
                rw [heq]
                rfl
          · rcases List.mem_cons.mp hb with rfl | hb
            · exact hfirst hne
            · by_cases heq : x = a
              · exact heq ▸ hlt b hb
              · exact h.trans (hfirst heq) (hlt b hb)

/-- Only the comparisons between elements matter for the order. -/
theorem ascending_congr {lt' : α → α → Bool}
    (hsame : ∀ a ∈ xs, ∀ b ∈ xs, lt' a b = lt a b) (hx : Ascending lt xs) :
    Ascending lt' xs := by
  refine List.Pairwise.imp_of_mem (fun {a b} ha hb hab => ?_) hx
  rw [hsame a ha b hb]
  exact hab

end Lib
