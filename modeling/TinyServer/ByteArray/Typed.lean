/-
The typed writers and readers of `ByteArray` (bytearray.cpp, lines 58 to
395, and myendian.h), all built from `write` and `read`.

A fixed-width value is laid out in memory in the byte order of the host
and swapped first when the array's order differs; a varint is a run of
7-bit groups; a string is a length followed by its bytes. A float or a
double is its bit pattern.

Four of the readers do not mirror their writer in the source, and the
model keeps them as they are: `writeInt64` zigzag-encodes through
`EncodeZigzag32`, `readUint64` gathers its groups in a 32-bit variable,
`readDouble` reads 32 bits and `readStringVint` reads a fixed 64-bit
length.
-/
import TinyServer.ByteArray.Basic
import Mathlib.Data.Nat.Bitwise

namespace TinyServer

/-- What the typed operations take from the machine they run on. -/
structure Host where
  /-- `TINY_BYTE_ORDER` -/
  byteOrder : Endian
  /-- the longest string `std::string::resize` can provide -/
  maxString : Nat
  /-- the conversion of a `float` to a `double`, on bit patterns -/
  widen : BitVec 32 → BitVec 64

-- ====================================================== bytes of a value

/-- The low `n` bytes of `v`, least significant first. -/
def bytesLE : (n v : Nat) → List UInt8
  | 0, _ => []
  | n + 1, v => UInt8.ofNat (v % 256) :: bytesLE n (v / 256)

/-- The value of a byte sequence, least significant byte first. -/
def ofBytesLE : List UInt8 → Nat
  | [] => 0
  | b :: bs => b.toNat + 256 * ofBytesLE bs

/-- The `n` bytes of an `n`-byte value as they lie in memory. -/
def toMem (order : Endian) (n v : Nat) : List UInt8 :=
  match order with
  | .little => bytesLE n v
  | .big => (bytesLE n v).reverse

/-- The value whose memory image is `bs`. -/
def ofMem (order : Endian) (bs : List UInt8) : Nat :=
  match order with
  | .little => ofBytesLE bs
  | .big => ofBytesLE bs.reverse

/-- `byteswap` of an `n`-byte value (`bswap_16`, `bswap_32`,
`bswap_64`). -/
def byteswap (n v : Nat) : Nat :=
  ofBytesLE (bytesLE n v).reverse

/-- `EncodeZigzag32`, with the wrap-around of the machine. -/
def encodeZigzag32 (value : Int32) : UInt32 :=
  if value < 0 then (-value).toUInt32 * 2 - 1 else (2 * value).toUInt32

/-- `DecodeZigzag32`. -/
def decodeZigzag32 (value : UInt32) : Int32 :=
  ((value >>> 1) ^^^ (-(value &&& 1))).toInt32

/-- `DecodeZigzag64`. -/
def decodeZigzag64 (value : UInt64) : Int64 :=
  ((value >>> 1) ^^^ (-(value &&& 1))).toInt64

/-- The bytes the loop of `writeUint32` and `writeUint64` leaves in
`tmp`. -/
def varint (value : Nat) : List UInt8 :=
  if value ≥ 0x80 then
    UInt8.ofNat ((value &&& 0x7F) ||| 0x80) :: varint (value >>> 7)
  else [UInt8.ofNat value]
termination_by value
decreasing_by
  rw [Nat.shiftRight_eq_div_pow]
  omega

namespace ByteArray

variable (host : Host)

-- ================================================================= writers

/-- `writeFint16` .. `writeFuint64`: an `n`-byte value in the array's
byte order. -/
def writeF (n v : Nat) : BA Unit := do
  let s ← get
  let v := if s.endian ≠ host.byteOrder then byteswap n v else v
  write (toMem host.byteOrder n v)

def writeFint8 (value : Int8) : BA Unit := write [value.toUInt8]
def writeFuint8 (value : UInt8) : BA Unit := write [value]
def writeFint16 (value : Int16) : BA Unit :=
  writeF host 2 value.toUInt16.toNat
def writeFuint16 (value : UInt16) : BA Unit := writeF host 2 value.toNat
def writeFint32 (value : Int32) : BA Unit :=
  writeF host 4 value.toUInt32.toNat
def writeFuint32 (value : UInt32) : BA Unit := writeF host 4 value.toNat
def writeFint64 (value : Int64) : BA Unit :=
  writeF host 8 value.toUInt64.toNat
def writeFuint64 (value : UInt64) : BA Unit := writeF host 8 value.toNat

def writeUint32 (value : UInt32) : BA Unit := write (varint value.toNat)
def writeInt32 (value : Int32) : BA Unit :=
  writeUint32 (encodeZigzag32 value)
def writeUint64 (value : UInt64) : BA Unit := write (varint value.toNat)

/-- `writeInt64`: the argument of `EncodeZigzag32` is an `int32_t`. -/
def writeInt64 (value : Int64) : BA Unit :=
  writeUint64 (encodeZigzag32 value.toInt32).toUInt64

def writeFloat (value : BitVec 32) : BA Unit :=
  writeFuint32 host (UInt32.ofBitVec value)
def writeDouble (value : BitVec 64) : BA Unit :=
  writeFuint64 host (UInt64.ofBitVec value)

def writeStringF16 (value : List UInt8) : BA Unit := do
  writeFuint16 host (UInt16.ofNat value.length)
  write value
def writeStringF32 (value : List UInt8) : BA Unit := do
  writeFuint32 host (UInt32.ofNat value.length)
  write value
def writeStringF64 (value : List UInt8) : BA Unit := do
  writeFuint64 host (UInt64.ofNat value.length)
  write value
def writeStringVint (value : List UInt8) : BA Unit := do
  writeUint64 (UInt64.ofNat value.length)
  write value
def writeStringWithoutLength (value : List UInt8) : BA Unit := write value

-- ================================================================= readers

/-- `readFint16` .. `readFuint64` (the macro `XX`): an `n`-byte value in
the array's byte order. -/
def readF (n : Nat) : BA Nat := do
  let bs ← read n
  let s ← get
  let v := ofMem host.byteOrder bs
  pure (if s.endian = host.byteOrder then v else byteswap n v)

def readFuint8 : BA UInt8 := do
  let bs ← read 1
  pure (UInt8.ofNat (ofBytesLE bs))
def readFint8 : BA Int8 := UInt8.toInt8 <$> readFuint8
def readFuint16 : BA UInt16 := UInt16.ofNat <$> readF host 2
def readFint16 : BA Int16 :=
  (fun v => (UInt16.ofNat v).toInt16) <$> readF host 2
def readFuint32 : BA UInt32 := UInt32.ofNat <$> readF host 4
def readFint32 : BA Int32 :=
  (fun v => (UInt32.ofNat v).toInt32) <$> readF host 4
def readFuint64 : BA UInt64 := UInt64.ofNat <$> readF host 8
def readFint64 : BA Int64 :=
  (fun v => (UInt64.ofNat v).toInt64) <$> readF host 8

/-- The loop of `readUint32` and `readUint64` over the shifts still to
come; `result` is a `uint32_t` in both. -/
def readVarint : (shifts : List Nat) → (result : Nat) → BA Nat
  | [], result => pure result
  | i :: is, result => do
      let b ← readFuint8
      if b < 0x80 then
        pure ((result ||| (b.toNat <<< i)) % 2 ^ 32)
      else
        readVarint is ((result ||| ((b &&& 0x7f).toNat <<< i)) % 2 ^ 32)

def readUint32 : BA UInt32 :=
  UInt32.ofNat <$> readVarint [0, 7, 14, 21, 28] 0
def readInt32 : BA Int32 := decodeZigzag32 <$> readUint32
def readUint64 : BA UInt64 :=
  UInt64.ofNat <$> readVarint [0, 7, 14, 21, 28, 35, 42, 49, 56, 63] 0
def readInt64 : BA Int64 := decodeZigzag64 <$> readUint64

def readFloat : BA (BitVec 32) := UInt32.toBitVec <$> readFuint32 host

/-- `readDouble`: 32 bits are read and widened to 64, the first four
bytes of which become the `float` that is returned as a `double`. -/
def readDouble : BA (BitVec 64) := do
  let v ← readFuint32 host
  let mem := toMem host.byteOrder 8 v.toNat
  pure (host.widen (BitVec.ofNat 32 (ofMem host.byteOrder (mem.take 4))))

/-- `buff.resize(len); read(&buff[0], len)`. -/
def readString (len : Nat) : BA (List UInt8) :=
  if len > host.maxString then throw .lengthError else read len

def readStringF16 : BA (List UInt8) := do
  let len ← readFuint16 host
  readString host len.toNat
def readStringF32 : BA (List UInt8) := do
  let len ← readFuint32 host
  readString host len.toNat
def readStringF64 : BA (List UInt8) := do
  let len ← readFuint64 host
  readString host len.toNat

/-- `readStringVint`: the length is read with `readFuint64`. -/
def readStringVint : BA (List UInt8) := do
  let len ← readFuint64 host
  readString host len.toNat

end ByteArray

-- ============================================================ public calls

/-- The public operations of a `ByteArray`, with their arguments. -/
inductive Op
  | write (buf : List UInt8)
  | read (size : Nat)
  | readAt (size position : Nat)
  | setPosition (pos : Nat)
  | clear
  | setIsLittleEndian (val : Bool)
  | getReadBuffers (len : Nat)
  | getReadBuffersAt (len position : Nat)
  | getWriteBuffers (len : Nat)
  | toString
  | writeFint8 (value : Int8)
  | writeFuint8 (value : UInt8)
  | writeFint16 (value : Int16)
  | writeFuint16 (value : UInt16)
  | writeFint32 (value : Int32)
  | writeFuint32 (value : UInt32)
  | writeFint64 (value : Int64)
  | writeFuint64 (value : UInt64)
  | writeInt32 (value : Int32)
  | writeUint32 (value : UInt32)
  | writeInt64 (value : Int64)
  | writeUint64 (value : UInt64)
  | writeFloat (value : BitVec 32)
  | writeDouble (value : BitVec 64)
  | writeStringF16 (value : List UInt8)
  | writeStringF32 (value : List UInt8)
  | writeStringF64 (value : List UInt8)
  | writeStringVint (value : List UInt8)
  | writeStringWithoutLength (value : List UInt8)
  | readFint8
  | readFuint8
  | readFint16
  | readFuint16
  | readFint32
  | readFuint32
  | readFint64
  | readFuint64
  | readInt32
  | readUint32
  | readInt64
  | readUint64
  | readFloat
  | readDouble
  | readStringF16
  | readStringF32
  | readStringF64
  | readStringVint

/-- The call `op`, with its result dropped. -/
def Op.call (host : Host) : Op → BA Unit
  | .write buf => ByteArray.write buf
  | .read size => discard (ByteArray.read size)
  | .readAt size position => discard (ByteArray.readAt size position)
  | .setPosition pos => ByteArray.setPosition pos
  | .clear => ByteArray.clear
  | .setIsLittleEndian val => ByteArray.setIsLittleEndian val
  | .getReadBuffers len => discard (ByteArray.getReadBuffers len)
  | .getReadBuffersAt len position =>
      discard (ByteArray.getReadBuffersAt len position)
  | .getWriteBuffers len => discard (ByteArray.getWriteBuffers len)
  | .toString => discard ByteArray.toString
  | .writeFint8 value => ByteArray.writeFint8 value
  | .writeFuint8 value => ByteArray.writeFuint8 value
  | .writeFint16 value => ByteArray.writeFint16 host value
  | .writeFuint16 value => ByteArray.writeFuint16 host value
  | .writeFint32 value => ByteArray.writeFint32 host value
  | .writeFuint32 value => ByteArray.writeFuint32 host value
  | .writeFint64 value => ByteArray.writeFint64 host value
  | .writeFuint64 value => ByteArray.writeFuint64 host value
  | .writeInt32 value => ByteArray.writeInt32 value
  | .writeUint32 value => ByteArray.writeUint32 value
  | .writeInt64 value => ByteArray.writeInt64 value
  | .writeUint64 value => ByteArray.writeUint64 value
  | .writeFloat value => ByteArray.writeFloat host value
  | .writeDouble value => ByteArray.writeDouble host value
  | .writeStringF16 value => ByteArray.writeStringF16 host value
  | .writeStringF32 value => ByteArray.writeStringF32 host value
  | .writeStringF64 value => ByteArray.writeStringF64 host value
  | .writeStringVint value => ByteArray.writeStringVint value
  | .writeStringWithoutLength value =>
      ByteArray.writeStringWithoutLength value
  | .readFint8 => discard ByteArray.readFint8
  | .readFuint8 => discard ByteArray.readFuint8
  | .readFint16 => discard (ByteArray.readFint16 host)
  | .readFuint16 => discard (ByteArray.readFuint16 host)
  | .readFint32 => discard (ByteArray.readFint32 host)
  | .readFuint32 => discard (ByteArray.readFuint32 host)
  | .readFint64 => discard (ByteArray.readFint64 host)
  | .readFuint64 => discard (ByteArray.readFuint64 host)
  | .readInt32 => discard ByteArray.readInt32
  | .readUint32 => discard ByteArray.readUint32
  | .readInt64 => discard ByteArray.readInt64
  | .readUint64 => discard ByteArray.readUint64
  | .readFloat => discard (ByteArray.readFloat host)
  | .readDouble => discard (ByteArray.readDouble host)
  | .readStringF16 => discard (ByteArray.readStringF16 host)
  | .readStringF32 => discard (ByteArray.readStringF32 host)
  | .readStringF64 => discard (ByteArray.readStringF64 host)
  | .readStringVint => discard (ByteArray.readStringVint host)

/-- The states an array of base size `b` can be in: a caller goes on after
every call that returned or threw, and can store bytes in the nodes
through the `iovec`s of `getWriteBuffers` (`SocketStream::read`). -/
inductive ByteArray.Reachable (host : Host) (b : Nat) : ByteArray → Prop
  | new (heap : Nat → UInt8) : Reachable host b (ByteArray.new b heap)
  | returned {s s' : ByteArray} {op : Op} (h : Reachable host b s)
      (hcall : op.call host s = .ok () s') : Reachable host b s'
  | threw {s s' : ByteArray} {op : Op} {e : Err} (h : Reachable host b s)
      (hcall : op.call host s = .error e s') (he : e ≠ .nullDeref) :
      Reachable host b s'
  | stored {s : ByteArray} {i off : Nat} {n : Node} {data : List UInt8}
      (h : Reachable host b s) (hn : s.root[i]? = some n)
      (hfit : off + data.length ≤ n.size) :
      Reachable host b
        { s with root := s.root.set i
                   { n with ptr := Lib.overlay n.ptr off data } }

end TinyServer
