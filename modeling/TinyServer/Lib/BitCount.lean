/-
The ones of a word: `BitVec.cpop` counts them.

`clear` takes the lowest one out of a word, and nothing else: there is one
less of them (`cpop_clear`). So `clear` leads to 0 after as many rounds as
there are ones, and not before (`clear_iterate`). A word of `p` ones and
then zeros, from the highest bit on, has `p` ones (`cpop_of_leading`).
-/
import Mathlib.Logic.Function.Iterate

namespace Lib.BitCount

variable {w p : Nat} {v : BitVec w}

/-- Without the lowest one. -/
def clear (v : BitVec w) : BitVec w := v &&& (v - 1)

-- ==================================================================== clearing

/-- There is no bit to clear in 0. -/
@[simp] theorem clear_zero : clear (0 : BitVec w) = 0 := BitVec.zero_and

/-- A word that is not 0 is not the number 0. -/
theorem toNat_ne_zero (hv : v ≠ 0) : v.toNat ≠ 0 :=
  fun h => hv (BitVec.eq_of_toNat_eq h)

/-- So taking 1 from it does not wrap. -/
theorem toNat_sub_one (hv : v ≠ 0) : (v - 1).toNat = v.toNat - 1 := by
  have hpos := Nat.one_le_iff_ne_zero.mpr (toNat_ne_zero hv)
  have hone : (1 : BitVec w).toNat = 1 :=
    Nat.mod_eq_of_lt (Nat.lt_of_le_of_lt hpos v.isLt)
  have hle : 1 ≤ v := by
    rw [BitVec.le_def, hone]
    exact hpos
  rw [BitVec.toNat_sub_of_le hle, hone]

/-- The lowest bit is a one: it is the one that goes. -/
theorem clear_concat_true : clear (v.concat true) = v.concat false := by
  have hsub : v.concat true - 1 = v.concat false := by
    apply BitVec.eq_of_toNat_eq
    rw [toNat_sub_one (fun h => ?_), BitVec.toNat_concat, BitVec.toNat_concat]
    · rfl
    · have hbit := congrArg (BitVec.getLsbD · 0) h
      simp at hbit
  rw [clear, hsub, BitVec.concat_and_concat, BitVec.and_self, Bool.and_false]

/-- The lowest bit is a zero: the one that goes is among the others. -/
theorem clear_concat_false :
    clear (v.concat false) = (clear v).concat false := by
  by_cases hv : v = 0
  · have hzero : (0 : BitVec w).concat false = 0 := BitVec.zero_concat_false
    rw [hv, clear_zero, hzero, clear_zero]
  · have hsub : v.concat false - 1 = (v - 1).concat true := by
      apply BitVec.eq_of_toNat_eq
      have hpos := toNat_ne_zero hv
      rw [toNat_sub_one (fun h => ?_), BitVec.toNat_concat,
        BitVec.toNat_concat, toNat_sub_one hv, Bool.toNat_false,
        Bool.toNat_true]
      · omega
      · apply hpos
        have hnat := congrArg BitVec.toNat h
        rw [BitVec.toNat_concat] at hnat
        simp at hnat
        omega
    rw [clear, hsub, BitVec.concat_and_concat, Bool.false_and, clear]

/-- There is one less of them. -/
theorem cpop_clear (hv : v ≠ 0) :
    (clear v).cpop.toNat + 1 = v.cpop.toNat := by
  induction v using BitVec.concat_induction with
  | nil => exact absurd rfl hv
  | concat v b ih =>
      cases b with
      | true =>
          rw [clear_concat_true, BitVec.toNat_cpop_concat,
            BitVec.toNat_cpop_concat, Bool.toNat_false, Bool.toNat_true]
          omega
      | false =>
          have hne : v ≠ 0 := by
            rintro rfl
            exact hv BitVec.zero_concat_false
          rw [clear_concat_false, BitVec.toNat_cpop_concat,
            BitVec.toNat_cpop_concat, Nat.add_assoc, ih hne]

/-- Clearing a bit lowers the count. -/
theorem cpop_clear_lt (hv : v ≠ 0) :
    (clear v).cpop.toNat < v.cpop.toNat :=
  Nat.lt_of_succ_le (Nat.le_of_eq (cpop_clear hv))

/-- A word that is not 0 has a bit. -/
theorem cpop_pos (hv : v ≠ 0) : 0 < v.cpop.toNat :=
  Nat.zero_lt_of_lt (cpop_clear_lt hv)

/-- Each round takes a one, and the last one leaves 0. -/
theorem clear_iterate (v : BitVec w) :
    clear^[v.cpop.toNat] v = 0 ∧ ∀ k < v.cpop.toNat, clear^[k] v ≠ 0 := by
  generalize hn : v.cpop.toNat = n
  induction n generalizing v with
  | zero =>
      constructor
      · by_contra hv
        have hpos := cpop_pos hv
        rw [Function.iterate_zero, id] at hpos
        omega
      · exact fun k hk => absurd hk (Nat.not_lt_zero k)
  | succ n ih =>
      have hv : v ≠ 0 := by
        rintro rfl
        have hnone : (0 : BitVec w).cpop.toNat = 0 := by
          rw [BitVec.ofNat_eq_ofNat, BitVec.cpop_zero]
          rfl
        omega
      have hclear := cpop_clear hv
      obtain ⟨hzero, hbefore⟩ := ih (clear v) (by omega)
      refine ⟨hzero, fun k hk => ?_⟩
      cases k with
      | zero => exact hv
      | succ k => exact hbefore k (by omega)

-- ================================================================ leading ones

/-- The ones among the `n` lowest bits, when the lowest `p` are ones. -/
theorem cpopNatRec_of_trailing {n : Nat}
    (h : ∀ i < n, v.getLsbD i = decide (i < p)) :
    v.cpopNatRec n 0 = min n p := by
  induction n with
  | zero => rw [BitVec.cpopNatRec_zero_self, Nat.zero_min]
  | succ n ih =>
      have hrec := ih fun i hi => h i (by omega)
      rw [BitVec.cpopNatRec_succ, BitVec.cpopNatRec_eq, hrec, h n (by omega)]
      by_cases hp : n < p
      · rw [decide_eq_true hp, Nat.zero_add, Bool.toNat_true]
        omega
      · rw [decide_eq_false hp, Nat.zero_add, Bool.toNat_false]
        omega

/-- A word of `p` leading ones has `p` bits. -/
theorem cpop_of_leading (h : ∀ i < w, v.getMsbD i = decide (i < p)) :
    v.cpop.toNat = min w p := by
  rw [← BitVec.cpop_reverse, BitVec.toNat_cpop]
  apply cpopNatRec_of_trailing
  intro i hi
  rw [BitVec.getLsbD_reverse]
  exact h i hi

end Lib.BitCount
