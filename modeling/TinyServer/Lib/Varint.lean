/-
Base-128 varints: a number as groups of seven bits, the lowest first,
with the high bit set on every byte but the last.

An encoding ends at its first byte below 128, so no encoding is a proper
prefix of another (`eq_of_prefix`), and `n` below `128 ^ k` takes at most
`k` bytes (`length_encode_le`).
-/
import Mathlib.Data.List.Basic
import Mathlib.Algebra.Group.Nat.Defs

namespace Lib.Varint

variable {m n k : Nat}

/-- The bytes of `n`. -/
def encode (n : Nat) : List UInt8 :=
  if n < 128 then [UInt8.ofNat n]
  else UInt8.ofNat (n % 128 + 128) :: encode (n / 128)
termination_by n

/-- A number below 128 is its own byte. -/
theorem encode_small (h : n < 128) : encode n = [UInt8.ofNat n] := by
  unfold encode
  rw [if_pos h]

/-- A larger one has its seven lowest bits first, marked by the eighth
bit. -/
theorem encode_large (h : 128 ≤ n) :
    encode n = UInt8.ofNat (n % 128 + 128) :: encode (n / 128) := by
  rw [encode, if_neg (Nat.not_lt.mpr h)]

/-- A byte keeps a number that fits. -/
theorem toNat_ofNat (h : n < 256) : (UInt8.ofNat n).toNat = n :=
  UInt8.toNat_ofNat_of_lt' h

/-- There is at least one byte. -/
theorem encode_ne_nil (n : Nat) : encode n ≠ [] := by
  by_cases h : n < 128
  · rw [encode_small h]
    exact List.cons_ne_nil _ _
  · rw [encode_large (Nat.le_of_not_lt h)]
    exact List.cons_ne_nil _ _

/-- One byte for every seven bits. -/
theorem length_encode_le (h : n < 128 ^ (k + 1)) :
    (encode n).length ≤ k + 1 := by
  induction k generalizing n with
  | zero =>
      rw [encode_small (by omega)]
      exact Nat.le_refl 1
  | succ k ih =>
      by_cases hn : n < 128
      · rw [encode_small hn]
        exact Nat.succ_le_succ (Nat.zero_le _)
      · have hdiv : n / 128 < 128 ^ (k + 1) := by
          rw [Nat.div_lt_iff_lt_mul (by decide), ← Nat.pow_succ]
          exact h
        rw [encode_large (Nat.le_of_not_lt hn), List.length_cons]
        exact Nat.succ_le_succ (ih hdiv)

/-- `k` groups of seven bits. -/
theorem lt_pow_length_encode (n : Nat) : n < 128 ^ (encode n).length := by
  induction n using Nat.strongRecOn with
  | ind n ih =>
      by_cases hn : n < 128
      · rw [encode_small hn]
        exact hn
      · have hdiv := ih (n / 128) (by omega)
        rw [encode_large (Nat.le_of_not_lt hn), List.length_cons,
          Nat.pow_succ, ← Nat.div_lt_iff_lt_mul (by decide)]
        exact hdiv

/-- An encoding that begins another one is that one. -/
theorem eq_of_prefix (h : encode m <+: encode n) : m = n := by
  induction m using Nat.strongRecOn generalizing n with
  | ind m ih =>
      have hlast : (UInt8.ofNat (n % 128 + 128)).toNat = n % 128 + 128 :=
        toNat_ofNat (by omega)
      have hmore : (UInt8.ofNat (m % 128 + 128)).toNat = m % 128 + 128 :=
        toNat_ofNat (by omega)
      by_cases hm : m < 128 <;> by_cases hn : n < 128
      · rw [encode_small hm, encode_small hn, List.cons_prefix_cons] at h
        have hbyte := congrArg UInt8.toNat h.1
        rwa [toNat_ofNat (by omega), toNat_ofNat (by omega)] at hbyte
      · rw [encode_small hm, encode_large (Nat.le_of_not_lt hn),
          List.cons_prefix_cons] at h
        have hbyte := congrArg UInt8.toNat h.1
        rw [toNat_ofNat (by omega), hlast] at hbyte
        omega
      · rw [encode_large (Nat.le_of_not_lt hm), encode_small hn,
          List.cons_prefix_cons] at h
        have hbyte := congrArg UInt8.toNat h.1
        rw [toNat_ofNat (by omega : n < 256), hmore] at hbyte
        omega
      · rw [encode_large (Nat.le_of_not_lt hm),
          encode_large (Nat.le_of_not_lt hn), List.cons_prefix_cons] at h
        have hbyte := congrArg UInt8.toNat h.1
        rw [hmore, hlast] at hbyte
        have hrest := ih (m / 128) (by omega) h.2
        omega

end Lib.Varint
