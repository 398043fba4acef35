/-
Which bytes a row of a machine has a range for.

`covers` goes once through the ranges of a row, so that a check of a
whole class of bytes costs as much as the row is long.
-/
import TinyServer.Lib.Machine

namespace Lib

variable {L : Type}

/-- The ranges of the row, in their order, have all bytes from `lo` to
`hi`. -/
def covers : List (Range L) → Nat → Nat → Bool
  | [], lo, hi => decide (hi < lo)
  | r :: row, lo, hi =>
      if hi < lo then true
      else if r.hi < lo then covers row lo hi
      else decide (r.lo ≤ lo) && covers row (r.hi + 1) hi

/-- In a row that covers a range every number of it has a label. -/
theorem rowLookup_covers {row : List (Range L)} :
    ∀ {lo hi n : Nat}, covers row lo hi = true → lo ≤ n → n ≤ hi →
      ∃ l, rowLookup row n = some l := by
  induction row with
  | nil =>
      intro lo hi n h hlo hhi
      rw [covers, decide_eq_true_eq] at h
      omega
  | cons r row ih =>
      intro lo hi n h hlo hhi
      rw [covers, if_neg (by omega)] at h
      unfold rowLookup
      rw [List.find?_cons]
      split
      next => exact ⟨r.label, rfl⟩
      next hout =>
        -- the byte is not in the first range
        rw [Bool.and_eq_false_iff, decide_eq_false_iff_not,
          decide_eq_false_iff_not] at hout
        split at h
        next => exact ih h hlo hhi
        next =>
          rw [Bool.and_eq_true, decide_eq_true_eq] at h
          exact ih h.2 (by omega) hhi

end Lib
