/-
`Stream` (stream.h, stream.cpp) and `SocketStream` (socket_stream.cpp):
transfers of a fixed size, and the calls on a socket under them.

# The fixed-size loop

The four `readFixSize` and `writeFixSize` are one loop around one call,
on a buffer at an offset or on a `ByteArray` at its cursor. It does not
check what the call returns against what it asked for, so `left -= len`
is arithmetic of `size_t`, and the loop is run with fuel: `none` is a loop
that is still running.

# A buffer

A caller's buffer is memory: a byte for every offset from the pointer on.
`Transfer.calls` is the history of the calls, for the theorems only.

# A socket

The results of `recv` and `send` are the peer's: `limit k` says what the
call number `k` does. Is it positive, the call moves that many bytes, or
all there are; otherwise it is the result of a call that moves nothing.
-/
import Mathlib.Algebra.Group.Int.Defs
import Mathlib.Algebra.GroupWithZero.Nat
import TinyServer.ByteArray.Iovecs

namespace TinyServer

-- ====================================================== the fixed-size loop

/-- The loop of `readFixSize` and `writeFixSize` for `length` bytes around
`call`, which is given the offset and the number of bytes left. -/
def fixSizeLoop {m : Type → Type} [Monad m]
    (call : (offset left : Nat) → m Int) (length : Nat) :
    (fuel offset left : Nat) → m (Option Int)
  | 0, _, _ => pure none
  | fuel + 1, offset, left =>
      if left = 0 then
        -- `return length` keeps the low 32 bits
        pure (some ((length : Int).bmod 0x100000000))
      else do
        let len ← call offset left
        if len ≤ 0 then pure (some len)
        else
          fixSizeLoop call length fuel (offset + len.toNat)
            (((left : Int) - len) % 0x10000000000000000).toNat

-- ================================================================== a buffer

/-- `data` stored in memory from the offset `off` on. -/
def store (buffer : Nat → UInt8) (off : Nat) (data : List UInt8) :
    Nat → UInt8 :=
  fun i => if off ≤ i then (data[i - off]?).getD (buffer i) else buffer i

/-- The `n` bytes in memory from the offset `off` on. -/
def fetch (buffer : Nat → UInt8) (off n : Nat) : List UInt8 :=
  (List.range' off n).map buffer

/-- `Stream::read(buffer, length)` and `Stream::write(buffer, length)` of
a derived class with the state `σ`. A read returns its result and the
bytes it stored. -/
structure Stream (σ : Type) where
  read : (length : Nat) → σ → (Int × List UInt8) × σ
  write : (data : List UInt8) → σ → Int × σ

/-- One call of `read` or `write`: where in the buffer, how many bytes
were asked for, the result, and the bytes that were moved. -/
structure Call where
  offset : Nat
  left : Nat
  res : Int
  data : List UInt8
  deriving DecidableEq, Repr

/-- A transfer between a stream and a buffer. -/
structure Transfer (σ : Type) where
  stream : σ
  buffer : Nat → UInt8
  calls : List Call

namespace Stream

variable {σ : Type} (d : Stream σ)

/-- `read((char*)buffer + offset, left)`. -/
def readAt (offset left : Nat) : StateM (Transfer σ) Int := fun t =>
  let ((res, data), stream) := d.read left t.stream
  (res, { stream := stream
          buffer := store t.buffer offset data
          calls := t.calls ++ [⟨offset, left, res, data⟩] })

/-- `write((const char*)buffer + offset, left)`. -/
def writeAt (offset left : Nat) : StateM (Transfer σ) Int := fun t =>
  let data := fetch t.buffer offset left
  let (res, stream) := d.write data t.stream
  (res, { stream := stream
          buffer := t.buffer
          calls := t.calls ++ [⟨offset, left, res, data.take res.toNat⟩] })

/-- `Stream::readFixSize(buffer, length)`. -/
def readFixSize (fuel length : Nat) : StateM (Transfer σ) (Option Int) :=
  fixSizeLoop d.readAt length fuel 0 length

/-- `Stream::writeFixSize(buffer, length)`. -/
def writeFixSize (fuel length : Nat) : StateM (Transfer σ) (Option Int) :=
  fixSizeLoop d.writeAt length fuel 0 length

end Stream

-- ================================================================== a socket

/-- What of a `Socket` the stream uses: the bytes that have arrived, those
that were accepted for sending, and what the next calls will do. -/
structure Socket where
  connected : Bool
  limit : Nat → Int
  calls : Nat
  incoming : List UInt8
  sent : List UInt8

namespace Socket

/-- `Socket::recv` into `n` bytes. -/
def recv (n : Nat) (k : Socket) : (Int × List UInt8) × Socket :=
  if k.connected then
    if k.limit k.calls ≤ 0 then
      ((k.limit k.calls, []), { k with calls := k.calls + 1 })
    else
      let data := k.incoming.take (min (k.limit k.calls).toNat n)
      ((data.length, data), { k with
        calls := k.calls + 1
        incoming := k.incoming.drop data.length })
  else ((-1, []), k)

/-- `Socket::send` of the bytes offered. -/
def send (data : List UInt8) (k : Socket) : Int × Socket :=
  if k.connected then
    if k.limit k.calls ≤ 0 then
      (k.limit k.calls, { k with calls := k.calls + 1 })
    else
      let n := min (k.limit k.calls).toNat data.length
      (n, { k with calls := k.calls + 1, sent := k.sent ++ data.take n })
  else (-1, k)

end Socket

/-- A computation on a `ByteArray` and the socket of the stream. -/
abbrev SocketBA (α : Type) := EStateM Err (ByteArray × Socket) α

namespace SocketStream

/-- `SocketStream::read(buffer, length)` and `write(buffer, length)`. -/
def buffered : Stream Socket where
  read length k := if k.connected then k.recv length else ((-1, []), k)
  write data k := if k.connected then k.send data else (-1, k)

/-- A call of a member function of the array. -/
def onArray {α : Type} (m : BA α) : SocketBA α := fun (s, k) =>
  match m s with
  | .ok a s' => .ok a (s', k)
  | .error e s' => .error e (s', k)

/-- A call of a member function of the socket. -/
def onSocket {α : Type} (f : Socket → α × Socket) : SocketBA α :=
  fun (s, k) => .ok (f k).1 (s, (f k).2)

/-- `ba->setPosition(ba->getPosition() + res)` for a positive `res`. -/
def advance (res : Int) : SocketBA Unit :=
  if res > 0 then do
    let (s, _) ← get
    onArray (ByteArray.setPosition (s.getPosition + res.toNat))
  else pure ()

/-- `SocketStream::read(ba, length)`. -/
def read (length : Nat) : SocketBA Int := do
  let (_, k) ← get
  if k.connected then
    let (_, iovs) ← onArray (ByteArray.getWriteBuffers length)
    let (res, data) ← onSocket (Socket.recv (iovs.map Iovec.len).sum)
    onArray (modify fun s =>
      { s with root := ByteArray.scatter s.root iovs data })
    advance res
    pure res
  else pure (-1)

/-- `SocketStream::write(ba, length)`: asks for `iovs.size()` bytes of the
empty `iovs`, and not for `length`. -/
def write (_length : Nat) : SocketBA Int := do
  let (_, k) ← get
  if k.connected then
    let (_, iovs) ← onArray (ByteArray.getReadBuffers 0)
    let (s, _) ← get
    let res ← onSocket (Socket.send (ByteArray.gathered s.root iovs))
    advance res
    pure res
  else pure (-1)

/-- `Stream::readFixSize(ba, length)`. -/
def readFixSize (fuel length : Nat) : SocketBA (Option Int) :=
  fixSizeLoop (fun _ left => read left) length fuel 0 length

/-- `Stream::writeFixSize(ba, length)`. -/
def writeFixSize (fuel length : Nat) : SocketBA (Option Int) :=
  fixSizeLoop (fun _ left => write left) length fuel 0 length

end SocketStream

end TinyServer
