/-
Messages of numbers.

A `Scalar` is a value with the writer it is meant for. Each has its bytes
on the wire and a reader that takes exactly these (`decodes_scalar`); what
the reader returns is `Scalar.stored`, which is the value itself but for
the 64-bit varints, of which 32 bits come back. A message is a list of
scalars with changes of the byte order in between, and what holds of its
scalars holds of the message (`message_trips_iff`).
-/
import TinyServer.ByteArray.Proofs.Varints

namespace TinyServer

open Lib

-- ================================================================== the values

/-- A number, by the writer and the reader it goes through. -/
inductive Scalar
  | fint8 (value : Int8)
  | fuint8 (value : UInt8)
  | fint16 (value : Int16)
  | fuint16 (value : UInt16)
  | fint32 (value : Int32)
  | fuint32 (value : UInt32)
  | fint64 (value : Int64)
  | fuint64 (value : UInt64)
  | int32 (value : Int32)
  | uint32 (value : UInt32)
  | int64 (value : Int64)
  | uint64 (value : UInt64)
  | float (value : BitVec 32)
  deriving DecidableEq

namespace Scalar

/-- The writer. -/
def write (host : Host) : Scalar → BA Unit
  | fint8 value => ByteArray.writeFint8 value
  | fuint8 value => ByteArray.writeFuint8 value
  | fint16 value => ByteArray.writeFint16 host value
  | fuint16 value => ByteArray.writeFuint16 host value
  | fint32 value => ByteArray.writeFint32 host value
  | fuint32 value => ByteArray.writeFuint32 host value
  | fint64 value => ByteArray.writeFint64 host value
  | fuint64 value => ByteArray.writeFuint64 host value
  | int32 value => ByteArray.writeInt32 value
  | uint32 value => ByteArray.writeUint32 value
  | int64 value => ByteArray.writeInt64 value
  | uint64 value => ByteArray.writeUint64 value
  | float value => ByteArray.writeFloat host value

/-- The reader that matches the writer, whatever the value. -/
def read (host : Host) : Scalar → BA Scalar
  | fint8 _ => fint8 <$> ByteArray.readFint8
  | fuint8 _ => fuint8 <$> ByteArray.readFuint8
  | fint16 _ => fint16 <$> ByteArray.readFint16 host
  | fuint16 _ => fuint16 <$> ByteArray.readFuint16 host
  | fint32 _ => fint32 <$> ByteArray.readFint32 host
  | fuint32 _ => fuint32 <$> ByteArray.readFuint32 host
  | fint64 _ => fint64 <$> ByteArray.readFint64 host
  | fuint64 _ => fuint64 <$> ByteArray.readFuint64 host
  | int32 _ => int32 <$> ByteArray.readInt32
  | uint32 _ => uint32 <$> ByteArray.readUint32
  | int64 _ => int64 <$> ByteArray.readInt64
  | uint64 _ => uint64 <$> ByteArray.readUint64
  | float _ => float <$> ByteArray.readFloat host

/-- The bytes on the wire: two's complement in the byte order `e`, or a
varint. -/
def bytes (e : Endian) : Scalar → List UInt8
  | fint8 value => [value.toUInt8]
  | fuint8 value => [value]
  | fint16 value => toMem e 2 value.toUInt16.toNat
  | fuint16 value => toMem e 2 value.toNat
  | fint32 value => toMem e 4 value.toUInt32.toNat
  | fuint32 value => toMem e 4 value.toNat
  | fint64 value => toMem e 8 value.toUInt64.toNat
  | fuint64 value => toMem e 8 value.toNat
  | int32 value => varint (encodeZigzag32 value).toNat
  | uint32 value => varint value.toNat
  | int64 value => varint (encodeZigzag32 value.toInt32).toNat
  | uint64 value => varint value.toNat
  | float value => toMem e 4 value.toNat

/-- What comes back: of the 64-bit varints only 32 bits do. -/
def stored : Scalar → Scalar
  | int64 value => int64 value.toInt32.toInt64
  | uint64 value => uint64 (UInt64.ofNat (value.toNat % 2 ^ 32))
  | x => x

variable {e : Endian}

theorem write_eq (host : Host) (x : Scalar) (s : ByteArray) :
    x.write host s = ByteArray.write (x.bytes s.endian) s := by
  cases x with
  | fint8 value => rfl
  | fuint8 value => rfl
  | fint16 value => exact ByteArray.writeF_eq host _ _ s
  | fuint16 value => exact ByteArray.writeF_eq host _ _ s
  | fint32 value => exact ByteArray.writeF_eq host _ _ s
  | fuint32 value => exact ByteArray.writeF_eq host _ _ s
  | fint64 value => exact ByteArray.writeF_eq host _ _ s
  | fuint64 value => exact ByteArray.writeF_eq host _ _ s
  | int32 value => rfl
  | uint32 value => rfl
  | int64 value =>
      show ByteArray.write
        (varint (encodeZigzag32 value.toInt32).toUInt64.toNat) s = _
      rw [UInt32.toNat_toUInt64]
      rfl
  | uint64 value => rfl
  | float value => exact ByteArray.writeF_eq host _ _ s

theorem writes {b : Nat} (hb : 0 < b) (host : Host) (x : Scalar) :
    ByteArray.Writes b (x.write host) e e [(x.bytes e).length]
      (x.bytes e) := by
  intro s hs he
  rw [write_eq, he]
  exact ByteArray.Writes.write hb (x.bytes e) s hs he

end Scalar

namespace ByteArray

variable {e e₁ : Endian} {n v : Nat} {bs : List UInt8}
  {α β : Type}

theorem Decodes.map {r : BA α} {y : α} (h : Decodes r e e₁ bs y)
    (f : α → β) : Decodes (f <$> r) e e₁ bs (f y) :=
  fun b s p hb hs hat => map_ok (h b s p hb hs hat)

/-- A fixed-width value that fits is read back. -/
theorem decodes_readF (host : Host) (hn : 0 < n) (hv : v < 256 ^ n) :
    Decodes (readF host n) e e (toMem e n v) v := by
  intro b s p hb hs hat
  have hlen := length_toMem e n v
  have hrun : readF host _ (s.moved e p) = _ := readF_moved hb hs hat
    (List.ne_nil_of_length_pos (by omega))
  rw [ofMem_toMem e hv, hlen] at hrun
  rw [hlen]
  exact hrun

/-- The same under the type `g` of the reader and the kind `f` of the
number. -/
theorem decodes_fixed (host : Host) {g : Nat → α} {f : α → β} {a : α}
    (hn : 0 < n) (hv : v < 256 ^ n) (hg : g v = a) :
    Decodes (f <$> g <$> readF host n) e e (toMem e n v) (f a) := by
  subst hg
  exact ((decodes_readF host hn hv).map g).map f

theorem decodes_readFuint8 (c : UInt8) : Decodes readFuint8 e e [c] c :=
  fun _ _ _ hb hs hat => readFuint8_moved hb hs hat

theorem decodes_float (host : Host) (f : BitVec 32) :
    Decodes (readFloat host) e e (toMem e 4 f.toNat) f := by
  have hval : UInt32.ofNat f.toNat = UInt32.ofBitVec f := UInt32.ofNat_toNat
  exact decodes_fixed host (by decide) f.isLt hval

/-- The reader takes the bytes of its writer. -/
theorem decodes_scalar (host : Host) (x : Scalar) :
    Decodes (x.read host) e e (x.bytes e) x.stored := by
  cases x with
  | fint8 value => exact ((decodes_readFuint8 _).map _).map _
  | fuint8 value => exact (decodes_readFuint8 _).map _
  | fint16 value =>
      exact decodes_fixed host (by decide) value.toUInt16.toNat_lt
        (congrArg UInt16.toInt16 UInt16.ofNat_toNat)
  | fuint16 value =>
      exact decodes_fixed host (by decide) value.toNat_lt UInt16.ofNat_toNat
  | fint32 value =>
      exact decodes_fixed host (by decide) value.toUInt32.toNat_lt
        (congrArg UInt32.toInt32 UInt32.ofNat_toNat)
  | fuint32 value =>
      exact decodes_fixed host (by decide) value.toNat_lt UInt32.ofNat_toNat
  | fint64 value =>
      exact decodes_fixed host (by decide) value.toUInt64.toNat_lt
        (congrArg UInt64.toInt64 UInt64.ofNat_toNat)
  | fuint64 value =>
      exact decodes_fixed host (by decide) value.toNat_lt UInt64.ofNat_toNat
  | int32 value =>
      have h := ((decodes_uint32 (e := e) (encodeZigzag32 value)).map
        decodeZigzag32).map Scalar.int32
      rwa [decodeZigzag32_encodeZigzag32] at h
  | uint32 value => exact (decodes_uint32 value).map _
  | int64 value =>
      have hlt := (encodeZigzag32 value.toInt32).toNat_lt
      have h := ((decodes_uint64 (e := e)
        (encodeZigzag32 value.toInt32).toUInt64).map decodeZigzag64).map
          Scalar.int64
      rwa [UInt32.toNat_toUInt64, Nat.mod_eq_of_lt hlt,
        decodeZigzag64_encodeZigzag32] at h
  | uint64 value => exact (decodes_uint64 value).map _
  | float value => exact (decodes_float host value).map _

end ByteArray

-- ================================================================ the messages

/-- A change of the byte order, or a number. -/
inductive Item
  | order (little : Bool)
  | scalar (x : Scalar)

namespace Item

/-- `TINY_LITTLE_ENDIAN` or `TINY_BIG_ENDIAN`, as `setIsLittleEndian` sets
it. -/
def orderOf (little : Bool) : Endian := if little then .little else .big

def write (host : Host) : Item → BA Unit
  | order little => ByteArray.setIsLittleEndian little
  | scalar x => x.write host

/-- The items, one after the other. -/
def writeAll (host : Host) : List Item → BA Unit
  | [] => pure ()
  | i :: is => do
      i.write host
      writeAll host is

/-- The matching reads, under the same changes of the byte order. -/
def readAll (host : Host) : List Item → BA (List Scalar)
  | [] => pure []
  | order little :: is => do
      ByteArray.setIsLittleEndian little
      readAll host is
  | scalar x :: is => do
      let y ← x.read host
      let ys ← readAll host is
      pure (y :: ys)

/-- The numbers of a message. -/
def scalars : List Item → List Scalar
  | [] => []
  | order _ :: is => scalars is
  | scalar x :: is => x :: scalars is

/-- The bytes of a message that begins in the byte order `e`. -/
def encode : Endian → List Item → List UInt8
  | _, [] => []
  | _, order little :: is => encode (orderOf little) is
  | e, scalar x :: is => x.bytes e ++ encode e is

/-- The sizes of the calls of `write`. -/
def sizes : Endian → List Item → List Nat
  | _, [] => []
  | _, order little :: is => sizes (orderOf little) is
  | e, scalar x :: is => (x.bytes e).length :: sizes e is

/-- The byte order in the end. -/
def lastOrder : Endian → List Item → Endian
  | e, [] => e
  | _, order little :: is => lastOrder (orderOf little) is
  | e, scalar _ :: is => lastOrder e is

theorem sum_sizes (e : Endian) (is : List Item) :
    (sizes e is).sum = (encode e is).length := by
  induction is generalizing e with
  | nil => rfl
  | cons i is ih =>
      cases i with
      | order little => exact ih _
      | scalar x =>
          unfold sizes encode
          rw [List.sum_cons, List.length_append, ih]

end Item

namespace ByteArray

variable {b : Nat} {host : Host} {s : ByteArray}

theorem writes_items (host : Host) (hb : 0 < b) (is : List Item)
    (e : Endian) :
    Writes b (Item.writeAll host is) e (Item.lastOrder e is)
      (Item.sizes e is) (Item.encode e is) := by
  induction is generalizing e with
  | nil => exact Writes.pure
  | cons i is ih =>
      cases i with
      | order little => exact (Writes.order little).bind (ih _)
      | scalar x => exact (x.writes hb host).bind (ih e)

theorem decodes_items (is : List Item) (e : Endian) :
    Decodes (Item.readAll host is) e (Item.lastOrder e is)
      (Item.encode e is) ((Item.scalars is).map Scalar.stored) := by
  induction is generalizing e with
  | nil => exact fun _ _ _ _ _ _ => rfl
  | cons i is ih =>
      cases i with
      | order little => exact fun b s p hb hs hat => ih _ b s p hb hs hat
      | scalar x =>
          intro b s p hb hs hat
          obtain ⟨hfirst, hrest⟩ : At s p (x.bytes e)
              ∧ At s (p + (x.bytes e).length) (Item.encode e is) :=
            At.append hat
          unfold Item.readAll
          rw [bind_ok (decodes_scalar host x b s p hb hs hfirst),
            bind_ok (ih e b s _ hb hs hrest), Nat.add_assoc,
            ← List.length_append]
          rfl

/-- A message comes back exactly when every growth on its way suffices and
each of its numbers is what comes back of it. -/
theorem message_trips_iff (host : Host) (hb : 0 < b) (hs : Inv b s)
    (is : List Item) :
    Trips (Item.writeAll host is) (Item.readAll host is) (Item.scalars is) [] s
      ↔ Fits b s.getCurCapacity (Item.sizes s.endian is)
        ∧ ∀ x ∈ Item.scalars is, x.stored = x := by
  rw [trips_iff hb hs (writes_items host hb is _) (decodes_items is _),
    fits_nil_behind]
  have hall := List.map_eq_map_iff (f := Scalar.stored) (g := id)
    (l := Item.scalars is)
  rw [List.map_id] at hall
  exact and_congr_right fun _ => hall

end ByteArray

end TinyServer
