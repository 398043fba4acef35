/-
The varints of `ByteArray`.

`writeUint32` and `writeUint64` write the bytes of `Lib.Varint.encode`. The
loop of the readers gathers the groups of a number in a `uint32_t`, so it
returns the number modulo `2 ^ 32` (`readVarint_encode`), for 64-bit
varints too. `EncodeZigzag32` and the two decoders are described on the
integers; they undo each other, for `INT32_MIN` as well.
-/
import Mathlib.Algebra.Group.Int.Defs
import TinyServer.ByteArray.Proofs.Wire
import TinyServer.Lib.Varint

namespace TinyServer

open Lib

-- ======================================================================= bytes

/-- The bytes that the writers leave in `tmp`. -/
theorem varint_eq (n : Nat) : varint n = Varint.encode n := by
  induction n using Nat.strongRecOn with
  | ind n ih =>
      by_cases hn : n < 128
      · unfold varint
        rw [if_neg (by omega), Varint.encode_small hn]
      · have hlow : n &&& 0x7F = n % 128 := Nat.and_two_pow_sub_one_eq_mod n 7
        have hbyte : n % 128 ||| 0x80 = n % 128 + 128 := by
          have hor := Nat.two_pow_add_eq_or_of_lt (i := 7)
            (Nat.mod_lt n (by decide : 128 > 0)) 1
          rw [Nat.or_comm, Nat.add_comm]
          exact hor.symm
        have hshift : n >>> 7 = n / 128 := Nat.shiftRight_eq_div_pow n 7
        unfold varint
        rw [if_pos (by omega), Varint.encode_large (by omega), hlow,
          hbyte, hshift, ih (n / 128) (by omega)]

/-- One round of the readers: a group goes in above what was gathered. -/
theorem gather {acc d i : Nat} (h : acc < 2 ^ i) :
    (acc % 2 ^ 32 ||| (d <<< i)) % 2 ^ 32 = (acc + d * 2 ^ i) % 2 ^ 32 := by
  have hor := Nat.two_pow_add_eq_or_of_lt h d
  rw [Nat.or_mod_two_pow, Nat.mod_mod, ← Nat.or_mod_two_pow, Nat.shiftLeft_eq,
    Nat.mul_comm d, Nat.add_comm, hor, Nat.or_comm]

namespace ByteArray

variable {b p : Nat} {e : Endian} {s : ByteArray}

/-- The loop of the readers over the bytes of `u`, with shifts for all its
groups still to come. -/
theorem readVarint_encode (hb : 0 < b) (hs : Inv b s) {k i u a : Nat}
    (hu : u < 128 ^ (k + 1)) (hacc : a < 2 ^ i)
    (hat : At s p (Varint.encode u)) :
    readVarint (List.range' i (k + 1) 7) (a % 2 ^ 32) (s.moved e p)
      = .ok ((a + u * 2 ^ i) % 2 ^ 32)
        (s.moved e (p + (Varint.encode u).length)) := by
  induction k generalizing i u a p with
  | zero =>
      have hlt : u < 128 := by omega
      rw [Varint.encode_small hlt] at hat ⊢
      have hbyte : (UInt8.ofNat u).toNat = u := Varint.toNat_ofNat (by omega)
      have hsmall : UInt8.ofNat u < 0x80 := by
        rw [UInt8.lt_iff_toNat_lt, hbyte]
        exact hlt
      show readVarint [i] _ _ = _
      unfold readVarint
      rw [bind_ok (readFuint8_moved hb hs hat), if_pos hsmall, hbyte,
        gather hacc]
      rfl
  | succ k ih =>
      rw [List.range'_succ]
      unfold readVarint
      by_cases hlt : u < 128
      · rw [Varint.encode_small hlt] at hat ⊢
        have hbyte : (UInt8.ofNat u).toNat = u := Varint.toNat_ofNat (by omega)
        have hsmall : UInt8.ofNat u < 0x80 := by
          rw [UInt8.lt_iff_toNat_lt, hbyte]
          exact hlt
        rw [bind_ok (readFuint8_moved hb hs hat), if_pos hsmall, hbyte,
          gather hacc]
        rfl
      · rw [Varint.encode_large (Nat.le_of_not_lt hlt)] at hat ⊢
        have hbyte : (UInt8.ofNat (u % 128 + 128)).toNat = u % 128 + 128 :=
          Varint.toNat_ofNat (by omega)
        have hlarge : ¬ UInt8.ofNat (u % 128 + 128) < 0x80 := by
          rw [UInt8.lt_iff_toNat_lt, hbyte]
          exact Nat.not_lt.mpr (Nat.le_add_left 128 _)
        have hgroup : (UInt8.ofNat (u % 128 + 128) &&& 0x7f).toNat
            = u % 128 := by
          rw [UInt8.toNat_and, hbyte]
          exact (Nat.and_two_pow_sub_one_eq_mod _ 7).trans (by omega)
        obtain ⟨hfirst, hrest⟩ : At s p [UInt8.ofNat (u % 128 + 128)]
            ∧ At s (p + 1) (Varint.encode (u / 128)) :=
          At.append (by rwa [List.singleton_append])
        have hpow : 2 ^ (i + 7) = 128 * 2 ^ i := by
          rw [Nat.pow_add]
          omega
        have hacc' : a + u % 128 * 2 ^ i < 2 ^ (i + 7) := by
          have hgr : u % 128 * 2 ^ i ≤ 127 * 2 ^ i :=
            Nat.mul_le_mul_right _ (by omega)
          omega
        have hdiv : u / 128 < 128 ^ (k + 1) := by
          rw [Nat.div_lt_iff_lt_mul (by decide), ← Nat.pow_succ]
          exact hu
        have hsum : a + u % 128 * 2 ^ i + u / 128 * 2 ^ (i + 7)
            = a + u * 2 ^ i := by
          rw [hpow, ← Nat.mul_assoc, Nat.add_assoc, ← Nat.add_mul]
          congr 2
          omega
        rw [bind_ok (readFuint8_moved hb hs hfirst), if_neg hlarge, hgroup,
          gather hacc, ih hdiv hacc' hrest, hsum, List.length_cons,
          Nat.add_assoc, Nat.add_comm 1]

/-- `readUint32` takes the bytes of a number for the number. -/
theorem decodes_uint32 (v : UInt32) :
    Decodes readUint32 e e (varint v.toNat) v := by
  intro b s p hb hs hat
  have hlt := v.toNat_lt
  rw [varint_eq] at hat ⊢
  have hrun := readVarint_encode (e := e) (k := 4) (i := 0) (a := 0) hb hs
    (by omega) (by decide) hat
  rw [Nat.zero_add, Nat.pow_zero, Nat.mul_one, Nat.mod_eq_of_lt hlt] at hrun
  refine (map_ok hrun).trans ?_
  rw [UInt32.ofNat_toNat]

/-- `readUint64` takes them for the number modulo `2 ^ 32`. -/
theorem decodes_uint64 (v : UInt64) :
    Decodes readUint64 e e (varint v.toNat)
      (UInt64.ofNat (v.toNat % 2 ^ 32)) := by
  intro b s p hb hs hat
  have hlt := v.toNat_lt
  rw [varint_eq] at hat ⊢
  have hrun := readVarint_encode (e := e) (k := 9) (i := 0) (a := 0) hb hs
    (by omega) (by decide) hat
  rw [Nat.zero_add, Nat.pow_zero, Nat.mul_one] at hrun
  exact map_ok hrun

end ByteArray

-- ====================================================================== zigzag

theorem toInt_toInt32 (u : UInt32) : u.toInt32.toInt
    = if u.toNat < 2 ^ 31 then (u.toNat : Int) else u.toNat - 2 ^ 32 := by
  have hcond := BitVec.toInt_eq_toNat_cond u.toBitVec
  rw [show u.toBitVec.toNat = u.toNat from rfl] at hcond
  show u.toBitVec.toInt = _
  rw [hcond]
  split <;> split <;> omega

/-- `EncodeZigzag32` on the integers. -/
theorem toNat_encodeZigzag32 (w : Int32) : ((encodeZigzag32 w).toNat : Int)
    = if w.toInt < 0 then -2 * w.toInt - 1 else 2 * w.toInt := by
  have hw := toInt_toInt32 w.toUInt32
  have hlt := w.toUInt32.toNat_lt
  rw [Int32.toInt32_toUInt32] at hw
  have hneg : w < 0 ↔ w.toInt < 0 := Int32.lt_iff_toInt_lt
  have hone : (1 : UInt32).toNat = 1 := rfl
  have htwo : (2 : UInt32).toNat = 2 := rfl
  have htwo' : (2 : Int32).toUInt32.toNat = 2 := rfl
  have hsize : UInt32.size = 2 ^ 32 := rfl
  unfold encodeZigzag32
  by_cases h : w.toInt < 0
  · rw [if_pos (hneg.mpr h), if_pos h, Int32.toUInt32_neg, UInt32.toNat_sub,
      UInt32.toNat_mul, UInt32.toNat_neg, hone, htwo, hsize]
    split at hw <;> omega
  · rw [if_neg (fun hcon => h (hneg.mp hcon)), if_neg h, Int32.toUInt32_mul,
      UInt32.toNat_mul, htwo']
    split at hw <;> omega

/-- The decoders on the integers: the lowest bit is the sign. -/
def unzigzag (n : Nat) : Int :=
  if n % 2 = 0 then ((n / 2 : Nat) : Int) else -((n / 2 : Nat) : Int) - 1

/-- `(value >> 1) ^ -(value & 1)`, at any width. -/
theorem toInt_zigzag {k : Nat} (x : BitVec (k + 2)) :
    ((x >>> 1) ^^^ (-(x &&& 1#(k + 2)))).toInt = unzigzag x.toNat := by
  have hlt := x.isLt
  have hpow : 2 ^ (k + 2) = 2 * 2 ^ (k + 1) := Nat.pow_succ'
  have hone : (1#(k + 2)).toNat = 1 := BitVec.toNat_one (Nat.succ_pos _)
  have hshift : (x >>> 1).toNat = x.toNat / 2 := by
    rw [BitVec.toNat_ushiftRight]
    exact Nat.shiftRight_eq_div_pow x.toNat 1
  have hbit : (x &&& 1#(k + 2)).toNat = x.toNat % 2 := by
    rw [BitVec.toNat_and, hone]
    exact Nat.and_one_is_mod x.toNat
  rw [BitVec.toInt_eq_toNat_cond]
  unfold unzigzag
  rcases Nat.mod_two_eq_zero_or_one x.toNat with h | h
  · have hzero : x &&& 1#(k + 2) = 0#(k + 2) :=
      BitVec.eq_of_toNat_eq (hbit.trans h)
    rw [if_pos h, hzero, BitVec.neg_zero, BitVec.xor_zero, hshift,
      if_pos (by omega)]
  · have hodd : ¬ x.toNat % 2 = 0 := by omega
    have hx : x &&& 1#(k + 2) = 1#(k + 2) :=
      BitVec.eq_of_toNat_eq ((hbit.trans h).trans hone.symm)
    have hnot : ((x >>> 1) ^^^ (-1#(k + 2))).toNat
        = 2 ^ (k + 2) - 1 - x.toNat / 2 := by
      rw [BitVec.neg_one_eq_allOnes, BitVec.xor_allOnes, BitVec.toNat_not,
        hshift]
    rw [if_neg hodd, hx, hnot, if_neg (by omega)]
    omega

theorem toInt_decodeZigzag32 (v : UInt32) :
    (decodeZigzag32 v).toInt = unzigzag v.toNat :=
  toInt_zigzag (k := 30) v.toBitVec

theorem toInt_decodeZigzag64 (v : UInt64) :
    (decodeZigzag64 v).toInt = unzigzag v.toNat :=
  toInt_zigzag (k := 62) v.toBitVec

theorem unzigzag_encodeZigzag32 (w : Int32) :
    unzigzag (encodeZigzag32 w).toNat = w.toInt := by
  have hval := toNat_encodeZigzag32 w
  unfold unzigzag
  split at hval
  next hneg =>
    rw [if_neg (by omega)]
    omega
  next hpos =>
    rw [if_pos (by omega)]
    omega

theorem decodeZigzag32_encodeZigzag32 (w : Int32) :
    decodeZigzag32 (encodeZigzag32 w) = w :=
  Int32.toInt_inj.mp
    ((toInt_decodeZigzag32 _).trans (unzigzag_encodeZigzag32 w))

/-- The 64-bit decoder on a number of the 32-bit encoder. -/
theorem decodeZigzag64_encodeZigzag32 (w : Int32) :
    decodeZigzag64 (UInt64.ofNat (encodeZigzag32 w).toNat) = w.toInt64 := by
  have hlt := (encodeZigzag32 w).toNat_lt
  refine Int64.toInt_inj.mp ?_
  rw [toInt_decodeZigzag64, UInt64.toNat_ofNat_of_lt' (by
    show _ < 2 ^ 64
    omega), unzigzag_encodeZigzag32, Int32.toInt_toInt64]

end TinyServer
