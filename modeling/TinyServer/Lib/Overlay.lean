/-
Overwriting and slicing flat sequences: the vocabulary in which a store
that keeps its elements in pieces is compared with one flat list.

`overlay xs k ys` is `xs` with `ys` written over it from index `k` on,
extending `xs` when `ys` reaches past its end; `slice xs k n` is the `n`
elements of `xs` from index `k` on. The append lemmas are the ones a
copy loop consumes: a write (a read) that stays in the first piece, one
that starts in a later piece, and one that straddles the border.
-/
import Mathlib.Data.List.Basic

namespace Lib

variable {α : Type*}

/-- `xs` with `ys` written over it from index `k` on. -/
def overlay (xs : List α) (k : Nat) (ys : List α) : List α :=
  xs.take k ++ ys ++ xs.drop (k + ys.length)

/-- The `n` elements of `xs` from index `k` on. -/
def slice (xs : List α) (k n : Nat) : List α :=
  (xs.drop k).take n

-- ============================================================= lengths

theorem length_overlay {xs ys : List α} {k : Nat} (hk : k ≤ xs.length) :
    (overlay xs k ys).length = max xs.length (k + ys.length) := by
  simp only [overlay, List.length_append, List.length_take, List.length_drop]
  omega

theorem length_overlay_of_le {xs ys : List α} {k : Nat}
    (h : k + ys.length ≤ xs.length) :
    (overlay xs k ys).length = xs.length := by
  rw [length_overlay (by omega)]
  omega

theorem length_slice {xs : List α} {k n : Nat} (h : k + n ≤ xs.length) :
    (slice xs k n).length = n := by
  simp only [slice, List.length_take, List.length_drop]
  omega

-- ========================================================= overlay, append

/-- A write that ends inside the first piece leaves the second alone. -/
theorem overlay_append_left {xs zs ys : List α} {k : Nat}
    (h : k + ys.length ≤ xs.length) :
    overlay (xs ++ zs) k ys = overlay xs k ys ++ zs := by
  simp only [overlay]
  rw [List.take_append_of_le_length (by omega),
    List.drop_append_of_le_length h]
  simp only [List.append_assoc]

/-- A write that starts past the first piece leaves it alone. -/
theorem overlay_append_right {xs zs ys : List α} (k : Nat) :
    overlay (xs ++ zs) (xs.length + k) ys = xs ++ overlay zs k ys := by
  simp only [overlay]
  rw [List.take_length_add_append,
    show xs.length + k + ys.length = xs.length + (k + ys.length) by omega,
    List.drop_length_add_append]
  simp only [List.append_assoc]

/-- A write across the border: the part `as` that fits fills the first
piece to its end, the part `bs` that is left starts the second piece. -/
theorem overlay_append_cross {xs zs as bs : List α} {k : Nat}
    (h : k + as.length = xs.length) :
    overlay (xs ++ zs) k (as ++ bs) = overlay xs k as ++ overlay zs 0 bs := by
  have hdrop : (xs ++ zs).drop (k + (as ++ bs).length)
      = zs.drop (0 + bs.length) := by
    rw [List.length_append,
      show k + (as.length + bs.length) = xs.length + bs.length by omega,
      List.drop_length_add_append, Nat.zero_add]
  simp only [overlay]
  rw [hdrop, List.take_append_of_le_length (by omega), h,
    List.drop_length, List.take_zero]
  simp only [List.append_assoc, List.append_nil, List.nil_append]

/-- Two writes in a row are one. -/
theorem overlay_overlay {xs as bs : List α} {k : Nat} (hk : k ≤ xs.length) :
    overlay (overlay xs k as) (k + as.length) bs = overlay xs k (as ++ bs) := by
  have hlen : (xs.take k ++ as).length = k + as.length := by
    rw [List.length_append, List.length_take, Nat.min_eq_left hk]
  simp only [overlay]
  rw [← hlen, List.take_left, List.drop_append, List.drop_drop, hlen,
    List.length_append, List.append_assoc (xs.take k) as bs]
  have hdrop : (xs.take k ++ as).drop (k + as.length + bs.length) = [] := by
    rw [List.drop_eq_nil_iff, hlen]
    exact Nat.le_add_right _ _
  rw [hdrop, List.nil_append, Nat.add_sub_cancel_left, Nat.add_assoc]

/-- Overwriting a prefix of a sequence: the visible part grows to the
end of the write. -/
theorem take_overlay {xs ys : List α} {k m : Nat} (hkm : k ≤ m)
    (hy : k + ys.length ≤ xs.length) :
    (overlay xs k ys).take (max m (k + ys.length))
      = overlay (xs.take m) k ys := by
  have hlen : (xs.take k).length = k := by
    rw [List.length_take]
    omega
  have hfront : (xs.take k ++ ys).length = k + ys.length := by
    rw [List.length_append, hlen]
  simp only [overlay, List.take_take, Nat.min_eq_left hkm, List.drop_take]
  rw [show max m (k + ys.length)
      = (xs.take k ++ ys).length + (m - (k + ys.length)) by omega,
    List.take_length_add_append]

-- ========================================================== slice, append

/-- A read that ends inside the first piece sees only that piece. -/
theorem slice_append_left {xs zs : List α} {k n : Nat}
    (h : k + n ≤ xs.length) :
    slice (xs ++ zs) k n = slice xs k n := by
  simp only [slice]
  rw [List.drop_append_of_le_length (by omega),
    List.take_append_of_le_length (by rw [List.length_drop]; omega)]

/-- A read that starts past the first piece sees only the second. -/
theorem slice_append_right (xs : List α) {zs : List α} (k n : Nat) :
    slice (xs ++ zs) (xs.length + k) n = slice zs k n := by
  simp only [slice, List.drop_length_add_append]

/-- A read across the border is the rest of the first piece followed by
the beginning of the second. -/
theorem slice_append_cross {xs zs : List α} {k m n : Nat}
    (h : k + m = xs.length) :
    slice (xs ++ zs) k (m + n) = slice xs k m ++ slice zs 0 n := by
  have hm : (xs.drop k).length = m := by
    rw [List.length_drop]
    omega
  simp only [slice, List.drop_zero]
  rw [List.drop_append_of_le_length (by omega), ← hm,
    List.take_length_add_append, List.take_length]

/-- What was written is read. -/
theorem slice_overlay {xs ys : List α} {k : Nat} (hk : k ≤ xs.length) :
    slice (overlay xs k ys) k ys.length = ys := by
  have hlen : (xs.take k).length = k := by
    rw [List.length_take, Nat.min_eq_left hk]
  simp only [slice, overlay]
  rw [List.append_assoc]
  nth_rewrite 1 [← hlen]
  rw [List.drop_left, List.take_left]

theorem slice_add (xs : List α) (k m n : Nat) :
    slice xs k (m + n) = slice xs k m ++ slice xs (k + m) n := by
  simp only [slice]
  rw [List.take_add, List.drop_drop]

/-- Slicing inside a prefix of a sequence. -/
theorem slice_take {xs : List α} {k n m : Nat} (h : k + n ≤ m) :
    slice (xs.take m) k n = slice xs k n := by
  simp only [slice, List.drop_take, List.take_take]
  rw [Nat.min_eq_left (by omega)]

end Lib
