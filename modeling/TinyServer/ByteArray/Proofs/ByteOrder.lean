/-
The bytes of a fixed-width value, and their order.

Reading and writing `n` bytes are inverse to each other in either order,
and `byteswap` turns the value of a byte sequence into that of the
reversed one. So the swaps of `writeF` and `readF` cancel the byte order
of the host: the bytes in the array are those of the array's own order
(`writeF_eq`).
-/
import Mathlib.Algebra.Group.Nat.Defs
import TinyServer.ByteArray.Proofs.Runs

namespace TinyServer

variable {e : Endian} {n v : Nat} {bs : List UInt8}

/-- A number has as many bytes as it is given. -/
theorem length_bytesLE (n v : Nat) : (bytesLE n v).length = n := by
  induction n generalizing v with
  | zero => rfl
  | succ n ih =>
      unfold bytesLE
      rw [List.length_cons, ih]

/-- In either order. -/
theorem length_toMem (e : Endian) (n v : Nat) : (toMem e n v).length = n := by
  cases e with
  | little => exact length_bytesLE n v
  | big => exact (List.length_reverse).trans (length_bytesLE n v)

/-- The low `n` bytes of a value make the value modulo `256 ^ n`. -/
theorem ofBytesLE_bytesLE (n v : Nat) :
    ofBytesLE (bytesLE n v) = v % 256 ^ n := by
  induction n generalizing v with
  | zero => exact (Nat.mod_one v).symm
  | succ n ih =>
      unfold bytesLE ofBytesLE
      rw [ih, UInt8.toNat_ofNat_of_lt' (Nat.mod_lt v (by decide)),
        Nat.pow_succ', Nat.mod_mul]

/-- The bytes of the number that bytes denote are these bytes. -/
theorem bytesLE_ofBytesLE (bs : List UInt8) :
    bytesLE bs.length (ofBytesLE bs) = bs := by
  induction bs with
  | nil => rfl
  | cons b bs ih =>
      have hb := b.toNat_lt
      have hlow : (b.toNat + 256 * ofBytesLE bs) % 256 = b.toNat := by omega
      have hhigh : (b.toNat + 256 * ofBytesLE bs) / 256 = ofBytesLE bs := by
        omega
      rw [List.length_cons]
      unfold ofBytesLE bytesLE
      rw [hlow, hhigh, ih, UInt8.ofNat_toNat]

/-- Bytes denote a number of their width. -/
theorem ofBytesLE_lt (bs : List UInt8) : ofBytesLE bs < 256 ^ bs.length := by
  have hmod := ofBytesLE_bytesLE bs.length (ofBytesLE bs)
  rw [bytesLE_ofBytesLE] at hmod
  rw [hmod]
  exact Nat.mod_lt _ (Nat.pow_pos (by decide))

/-- The bytes that come later weigh more. -/
theorem ofBytesLE_append (bs cs : List UInt8) :
    ofBytesLE (bs ++ cs) = ofBytesLE bs + 256 ^ bs.length * ofBytesLE cs := by
  induction bs with
  | nil =>
      rw [List.nil_append, List.length_nil, Nat.pow_zero, Nat.one_mul]
      exact (Nat.zero_add _).symm
  | cons b bs ih =>
      show b.toNat + 256 * ofBytesLE (bs ++ cs)
        = b.toNat + 256 * ofBytesLE bs + 256 ^ (bs.length + 1) * ofBytesLE cs
      rw [ih, Nat.pow_succ', Nat.mul_add, Nat.mul_assoc, Nat.add_assoc]

/-- A value that fits is read back from its bytes. -/
theorem ofMem_toMem (e : Endian) (h : v < 256 ^ n) :
    ofMem e (toMem e n v) = v := by
  cases e with
  | little => exact (ofBytesLE_bytesLE n v).trans (Nat.mod_eq_of_lt h)
  | big =>
      unfold ofMem toMem
      rw [List.reverse_reverse]
      exact (ofBytesLE_bytesLE n v).trans (Nat.mod_eq_of_lt h)

/-- A swapped number has its bytes in reverse. -/
theorem bytesLE_byteswap (n v : Nat) :
    bytesLE n (byteswap n v) = (bytesLE n v).reverse := by
  have hbytes := bytesLE_ofBytesLE (bytesLE n v).reverse
  rw [List.length_reverse, length_bytesLE] at hbytes
  exact hbytes

/-- A swapped value in the one order lies in memory as the value in the
other. -/
theorem toMem_byteswap {e e' : Endian} (h : e ≠ e') (n v : Nat) :
    toMem e' n (byteswap n v) = toMem e n v := by
  cases e <;> cases e'
  case little.little | big.big => exact absurd rfl h
  case little.big =>
    unfold toMem
    rw [bytesLE_byteswap, List.reverse_reverse]
  case big.little =>
    unfold toMem
    rw [bytesLE_byteswap]

/-- Read in the wrong order and swapped is read in the right one. -/
theorem byteswap_ofMem {e e' : Endian} (h : e ≠ e') (bs : List UInt8) :
    byteswap bs.length (ofMem e' bs) = ofMem e bs := by
  cases e <;> cases e'
  case little.little | big.big => exact absurd rfl h
  case little.big =>
    have hbytes := bytesLE_ofBytesLE bs.reverse
    rw [List.length_reverse] at hbytes
    unfold byteswap ofMem
    rw [hbytes, List.reverse_reverse]
  case big.little =>
    unfold byteswap ofMem
    rw [bytesLE_ofBytesLE]

namespace ByteArray

/-- A fixed-width value is written in the order of the array, whatever
the order of the host. -/
theorem writeF_eq (host : Host) (n v : Nat) (s : ByteArray) :
    writeF host n v s = write (toMem s.endian n v) s := by
  show write (toMem host.byteOrder n
    (if s.endian ≠ host.byteOrder then byteswap n v else v)) s = _
  split
  next h => rw [toMem_byteswap h]
  next h => rw [not_not.mp h]

end ByteArray

end TinyServer
