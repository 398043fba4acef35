/-
`Socket` (socket.cpp): `bind`, `connect`, `listen`, `close` and `init`, with
the addresses it keeps.

# The kernel

What the system calls answer is an input of each operation. `sockname` and
`peername` are what `getsockname` and `getpeername` would give of `m_sock`;
none is a call that fails. An address of the kernel is the bytes of a
`sockaddr`. `listening` is that `listen` has gone well on `m_sock`.

# Addresses

An `Address` is the memory of its `sockaddr` and what `getAddrLen` says.
The calls write to it no more than it says it has room for, and its length
is set to that of the kernel's address for a `UnixAddress` only. What is
sent and received is in `Stream/Basic.lean`.
-/
import TinyServer.Address.Unix

namespace TinyServer.Net

open Http (Bytes)

-- =================================================================== addresses

/-- The memory of an `Address`, and `getAddrLen`. -/
structure SockAddr where
  memory : Bytes
  addrLen : Nat
  deriving DecidableEq, Repr

/-- The bytes of the address. -/
def SockAddr.bytes (a : SockAddr) : Bytes := a.memory.take a.addrLen

/-- A `sa_family` in memory. -/
def familyBytes (e : Endian) (family : BitVec 16) : Bytes :=
  let low := UInt8.ofBitVec (family.extractLsb' 0 8)
  let high := UInt8.ofBitVec (family.extractLsb' 8 8)
  match e with
  | .little => [low, high]
  | .big => [high, low]

/-- A `sockaddr` of which only the family is not zero. -/
def blank (e : Endian) (family : BitVec 16) (size addrLen : Nat) : SockAddr :=
  ⟨familyBytes e family ++ List.replicate (size - 2) 0, addrLen⟩

namespace Socket

/-- The new address of `getRemoteAddress` and `getLocalAddress`. -/
def newAddress (e : Endian) (family : BitVec 32) : SockAddr :=
  if family = AF_INET.setWidth 32 then blank e AF_INET 16 16
  else if family = AF_INET6.setWidth 32 then blank e AF_INET6 28 28
  else if family = AF_UNIX.setWidth 32 then
    blank e AF_UNIX 110 UnixAddress.unnamed.getAddrLen
  else blank e (family.setWidth 16) 16 16

/-- The new address after the call that has `k` to give. -/
def readBack (e : Endian) (family : BitVec 32) (k : Bytes) : SockAddr :=
  let a := newAddress e family
  let written := k.take a.addrLen
  { memory := written ++ a.memory.drop written.length
    addrLen := if family = AF_UNIX.setWidth 32 then k.length else a.addrLen }

end Socket

-- ===================================================================== sockets

/-- A `Socket`, and what the kernel has of `m_sock`. -/
structure Socket where
  family : BitVec 32
  /-- `m_sock`; none is `-1`. -/
  sock : Option Nat
  isConnected : Bool
  localAddress : Option SockAddr
  remoteAddress : Option SockAddr
  sockname : Option Bytes
  peername : Option Bytes
  listening : Bool
  deriving DecidableEq, Repr

namespace Socket

/-- `Socket::Socket`. -/
def new (family : BitVec 32) : Socket :=
  ⟨family, none, false, none, none, none, none, false⟩

/-- `isValid`. -/
def isValid (s : Socket) : Bool := s.sock.isSome

/-- `newSock`, where `socket` gives a descriptor and the address it has. -/
def newSock (fd : Option (Nat × Bytes)) (s : Socket) : Socket :=
  { s with sock := fd.map (·.1), sockname := fd.map (·.2), peername := none,
           listening := false }

/-- `getRemoteAddress`. -/
def getRemoteAddress (e : Endian) (s : Socket) : SockAddr × Socket :=
  match s.remoteAddress with
  | some a => (a, s)
  | none =>
      match s.peername with
      | none => (blank e (s.family.setWidth 16) 16 16, s)
      | some k =>
          let a := readBack e s.family k
          (a, { s with remoteAddress := some a })

/-- `getLocalAddress`. -/
def getLocalAddress (e : Endian) (s : Socket) : SockAddr × Socket :=
  match s.localAddress with
  | some a => (a, s)
  | none =>
      match s.sockname with
      | none => (blank e (s.family.setWidth 16) 16 16, s)
      | some k =>
          let a := readBack e s.family k
          (a, { s with localAddress := some a })

/-- `close`. -/
def close (s : Socket) : Bool × Socket :=
  if s.isConnected = false ∧ s.sock = none then (true, s)
  else
    (false, { s with isConnected := false, sock := none, sockname := none,
                     peername := none, listening := false })

/-- `bind` to an address of this family. `bound` is the address that the
socket has then, if `::bind` goes well. -/
def bind (e : Endian) (addrFamily : BitVec 16) (fd : Option (Nat × Bytes))
    (bound : Option Bytes) (s : Socket) : Bool × Socket :=
  let s := if s.isValid then s else s.newSock fd
  if s.isValid = false then (false, s)
  else if addrFamily.setWidth 32 ≠ s.family then (false, s)
  else
    match bound with
    | none => (false, s)
    | some k => (true, (({ s with sockname := some k }).getLocalAddress e).2)

/-- `connect` to an address of this family. `names` are the addresses of
both ends, if `::connect` goes well. -/
def connect (e : Endian) (addrFamily : BitVec 16) (fd : Option (Nat × Bytes))
    (names : Option (Bytes × Bytes)) (s : Socket) : Bool × Socket :=
  let s := if s.isValid then s else s.newSock fd
  if s.isValid = false then (false, s)
  else if addrFamily.setWidth 32 ≠ s.family then (false, s)
  else
    match names with
    | none => (false, s.close.2)
    | some (here, there) =>
        let s := { s with sockname := some here, peername := some there,
                          isConnected := true }
        (true, ((s.getRemoteAddress e).2.getLocalAddress e).2)

/-- `listen`. -/
def listen (ok : Bool) (s : Socket) : Bool × Socket :=
  if s.isValid = false then (false, s)
  else if ok = false then (false, s)
  else (true, { s with listening := true })

/-- `init` of an accepted descriptor. `known` is that `FdMgr` has an open
socket under it. -/
def init (e : Endian) (fd : Nat) (known : Bool) (here there : Bytes)
    (s : Socket) : Bool × Socket :=
  if known then
    let s := { s with sock := some fd, sockname := some here,
                      peername := some there, listening := false,
                      isConnected := true }
    (true, ((s.getLocalAddress e).2.getRemoteAddress e).2)
  else (false, s)

-- ======================================================================= steps

/-- An operation on a socket, with what the kernel answers. -/
inductive Op
  | bind (addrFamily : BitVec 16) (fd : Option (Nat × Bytes))
      (bound : Option Bytes)
  | connect (addrFamily : BitVec 16) (fd : Option (Nat × Bytes))
      (names : Option (Bytes × Bytes))
  | close
  | init (fd : Nat) (known : Bool) (here there : Bytes)

def step (e : Endian) (s : Socket) : Op → Socket
  | .bind f fd bound => (s.bind e f fd bound).2
  | .connect f fd names => (s.connect e f fd names).2
  | .close => s.close.2
  | .init fd known here there => (s.init e fd known here there).2

end Socket

end TinyServer.Net
