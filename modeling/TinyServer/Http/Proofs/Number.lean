/-
`strtol`, and numbers written in decimal.

`strtol` reads the digits at the front of a text (`strtol_digits`), and so
reads back what `toDecimal` writes (`strtol_toDecimal`).
-/
import Mathlib.Algebra.Group.Nat.Defs
import TinyServer.Http.ResponseParser

namespace TinyServer.Http

variable {base acc n : Nat} {b : UInt8} {ds rest : Bytes}

/-- A digit is no white space, sign or `x`. -/
theorem digit_plain (h : (digitVal base b).isSome = true) :
    isSpace b = false ∧ b ≠ 45 ∧ b ≠ 43 ∧ b ≠ 120 ∧ b ≠ 88 := by
  have hall : ∀ n < 256, ((48 ≤ n ∧ n ≤ 57) ∨ (65 ≤ n ∧ n ≤ 70)
      ∨ (97 ≤ n ∧ n ≤ 102)) → isSpace (UInt8.ofNat n) = false
      ∧ n ≠ 45 ∧ n ≠ 43 ∧ n ≠ 120 ∧ n ≠ 88 := by
    decide +kernel
  have hrange : (48 ≤ b.toNat ∧ b.toNat ≤ 57) ∨ (65 ≤ b.toNat ∧ b.toNat ≤ 70)
      ∨ (97 ≤ b.toNat ∧ b.toNat ≤ 102) := by
    unfold digitVal at h
    dsimp only at h
    split at h
    next hd => exact .inl hd
    next =>
      split at h
      next hd => exact .inr (.inl hd)
      next =>
        split at h
        next hd => exact .inr (.inr hd)
        next => nomatch h
  obtain ⟨hspace, h⟩ := hall b.toNat b.toNat_lt hrange
  rw [UInt8.ofNat_toNat] at hspace
  refine ⟨hspace, ?_, ?_, ?_, ?_⟩ <;> intro hb <;> rw [hb] at h <;> simp at h

/-- The digits in front of a byte that is none. -/
theorem digitsValue_append (hds : ∀ d ∈ ds, (digitVal base d).isSome = true)
    (hrest : ∀ b bs, rest = b :: bs → digitVal base b = none) :
    digitsValue base acc (ds ++ rest) = digitsValue base acc ds := by
  induction ds generalizing acc with
  | nil =>
      cases rest with
      | nil => rfl
      | cons b bs =>
          rw [List.nil_append]
          unfold digitsValue
          rw [hrest b bs rfl]
  | cons d ds ih =>
      obtain ⟨hd, hds⟩ := List.forall_mem_cons.mp hds
      obtain ⟨v, hv⟩ := Option.isSome_iff_exists.mp hd
      rw [List.cons_append]
      unfold digitsValue
      rw [hv]
      exact ih hds

/-- `strtol` of digits that no other digit follows. -/
theorem strtol_digits (hne : ds ≠ [])
    (hds : ∀ d ∈ ds, (digitVal base d).isSome = true)
    (hrest : ∀ b bs, rest = b :: bs → digitVal base b = none)
    (hmark : dropHexMark base (ds ++ rest) = ds ++ rest) :
    strtol base (ds ++ rest)
      = min (digitsValue base 0 ds : Int) (2 ^ 63 - 1) := by
  have hval : digitsValue base 0 (ds ++ rest) = digitsValue base 0 ds :=
    digitsValue_append hds hrest
  obtain ⟨d, ds', rfl⟩ := List.exists_cons_of_ne_nil hne
  obtain ⟨hspace, hminus, hplus, -, -⟩ :=
    digit_plain (hds d List.mem_cons_self)
  have hhead : ((d :: ds' ++ rest).dropWhile isSpace) = d :: ds' ++ rest := by
    rw [List.cons_append, List.dropWhile_cons, if_neg (by rw [hspace]; decide)]
  have hsign : ∀ b : UInt8, d ≠ b → ¬ (d :: ds' ++ rest).head? = some b := by
    intro b hb h
    exact hb (Option.some.inj h)
  unfold strtol
  rw [hhead]
  simp only [hsign 45 hminus, hsign 43 hplus, or_self, if_false]
  rw [hmark, hval]

/-- A number that an `int` can hold. -/
theorem toInt_of_lt (h : n < 2 ^ 31) : toInt n = n := by
  unfold toInt
  omega

-- ==================================================================== decimal

/-- The decimal digits. -/
theorem digitVal_ten : (digitVal 10 b).isSome = true ↔ 48 ≤ b ∧ b ≤ 57 := by
  unfold digitVal
  dsimp only
  constructor
  · intro h
    split at h
    next hd => exact hd
    next =>
      split at h
      next hd =>
        have hge : 65 ≤ b.toNat := hd.1
        rw [Option.filter_some, if_neg (by simp; omega)] at h
        nomatch h
      next =>
        split at h
        next hd =>
          have hge : 97 ≤ b.toNat := hd.1
          rw [Option.filter_some, if_neg (by simp; omega)] at h
          nomatch h
        next => nomatch h
  · intro hd
    have hle : b.toNat ≤ 57 := hd.2
    rw [if_pos hd, Option.filter_some, if_pos (by simp; omega)]
    rfl

/-- A digit as a character and as a byte. -/
theorem digitVal_char {c : Char} (hc : c.isDigit = true) :
    digitVal 10 (UInt8.ofNat c.toNat) = some (c.toNat - '0'.toNat) := by
  have hrange : 48 ≤ c.toNat ∧ c.toNat ≤ 57 := by
    unfold Char.isDigit at hc
    rw [Bool.and_eq_true, decide_eq_true_eq, decide_eq_true_eq] at hc
    exact ⟨hc.1, hc.2⟩
  have hall : ∀ n < 58, 48 ≤ n → digitVal 10 (UInt8.ofNat n)
      = some (n - 48) := by
    decide
  exact hall c.toNat (by omega) hrange.1

/-- The value of digits is that of their characters. -/
theorem digitsValue_chars {cs : List Char} (hcs : ∀ c ∈ cs, c.isDigit = true) :
    digitsValue 10 acc (cs.map fun c => UInt8.ofNat c.toNat)
      = Nat.ofDigitChars 10 cs acc := by
  induction cs generalizing acc with
  | nil => rfl
  | cons c cs ih =>
      obtain ⟨hc, hcs⟩ := List.forall_mem_cons.mp hcs
      rw [List.map_cons, Nat.ofDigitChars_cons]
      unfold digitsValue
      rw [digitVal_char hc, Nat.mul_comm]
      exact ih hcs

/-- A number is written as its digits. -/
theorem toDecimal_eq (n : Nat) :
    toDecimal n = (Nat.toDigits 10 n).map fun c => UInt8.ofNat c.toNat := by
  unfold toDecimal ascii
  rw [← Nat.toList_repr]
  rfl

/-- There is at least one. -/
theorem toDecimal_ne_nil (n : Nat) : toDecimal n ≠ [] := by
  rw [toDecimal_eq]
  exact fun h => Nat.toDigits_ne_nil (List.map_eq_nil_iff.mp h)

/-- And there is nothing else. -/
theorem toDecimal_digit (n : Nat) : ∀ b ∈ toDecimal n, 48 ≤ b ∧ b ≤ 57 := by
  intro b hb
  rw [toDecimal_eq] at hb
  obtain ⟨c, hc, rfl⟩ := List.mem_map.mp hb
  have hdigit := Nat.isDigit_of_mem_toDigits (by decide) (by decide) hc
  refine digitVal_ten.mp ?_
  rw [digitVal_char hdigit]
  rfl

/-- The digits have the value of the number. -/
theorem digitsValue_toDecimal (n : Nat) :
    digitsValue 10 0 (toDecimal n) = n := by
  rw [toDecimal_eq, digitsValue_chars fun c hc =>
    Nat.isDigit_of_mem_toDigits (by decide) (by decide) hc]
  exact Nat.ofDigitChars_ten_toDigits

/-- There is no `0x` in base 10. -/
theorem dropHexMark_ten (s : Bytes) : dropHexMark 10 s = s := by
  unfold dropHexMark
  split
  next => exact if_neg (by simp)
  next => rfl

/-- `strtol` of a number in front of anything but a digit. -/
theorem strtol_toDecimal (hn : n < 2 ^ 63)
    (hrest : ∀ b bs, rest = b :: bs → ¬(48 ≤ b ∧ b ≤ 57)) :
    strtol 10 (toDecimal n ++ rest) = n := by
  rw [strtol_digits (toDecimal_ne_nil n)
    (fun d hd => digitVal_ten.mpr (toDecimal_digit n d hd))
    (fun b bs hb => Option.not_isSome_iff_eq_none.mp fun h =>
      hrest b bs hb (digitVal_ten.mp h)) (dropHexMark_ten _),
        digitsValue_toDecimal]
  omega

end TinyServer.Http
