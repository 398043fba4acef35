/-
`IPv4Address` and `IPv6Address` (address.h, address.cpp).

`sin_port` and `sin_addr.s_addr` are the numbers that the host reads in
memory that is in network order; `s6_addr` is the bytes themselves.

# Undefined operations

An operation that C++ leaves undefined ends a function with `Undefined`:
a shift of an `int` by 32 or more, a subtraction that leaves the range of
`int`, and an access outside of `s6_addr`. `1 << 31` is the least `int`.
-/
import Mathlib.Data.Nat.Bitwise
import TinyServer.ByteArray.Basic

namespace TinyServer

/-- What C++ leaves undefined. -/
inductive Undefined
  | shift
  | overflow
  | bounds
  deriving DecidableEq, Repr

-- ======================================================================= words

/-- `bswap_16`. -/
def bswap16 (v : BitVec 16) : BitVec 16 :=
  v.extractLsb' 0 8 ++ v.extractLsb' 8 8

/-- `bswap_32`. -/
def bswap32 (v : BitVec 32) : BitVec 32 :=
  v.extractLsb' 0 8 ++ v.extractLsb' 8 8 ++ v.extractLsb' 16 8
    ++ v.extractLsb' 24 8

/-- `byteswapOnLittleEndian` of a `uint16_t`. -/
def byteswapOnLittleEndian16 (e : Endian) (v : BitVec 16) : BitVec 16 :=
  match e with
  | .little => bswap16 v
  | .big => v

/-- `byteswapOnLittleEndian` of a `uint32_t`. -/
def byteswapOnLittleEndian32 (e : Endian) (v : BitVec 32) : BitVec 32 :=
  match e with
  | .little => bswap32 v
  | .big => v

/-- `1 << n`, an `int`. -/
def shiftOne (n : Nat) : Except Undefined Int :=
  if 32 ≤ n then .error .shift else .ok (Int.bmod (2 ^ n) (2 ^ 32))

/-- `x - 1`, an `int`. -/
def minusOne (x : Int) : Except Undefined Int :=
  if x = -2 ^ 31 then .error .overflow else .ok (x - 1)

/-- `CreateMask<T>`, for a `T` of `w` bits. The amount of the shift is a
`size_t`. -/
def createMask (w bits : Nat) : Except Undefined (BitVec w) := do
  let x ← shiftOne ((w + 2 ^ 64 - bits) % 2 ^ 64)
  pure (BitVec.ofInt w (← minusOne x))

-- ======================================================================== IPv4

/-- `AF_INET`. -/
def AF_INET : BitVec 16 := 2

/-- `AF_INET6`. -/
def AF_INET6 : BitVec 16 := 10

/-- `IPv4Address`: a `sockaddr_in`. -/
structure IPv4Address where
  family : BitVec 16
  port : BitVec 16
  sAddr : BitVec 32
  deriving DecidableEq, Repr

namespace IPv4Address

variable (e : Endian) (a : IPv4Address) (prefixLen : UInt32)

/-- `IPv4Address::broadcastAddress`; `none` is null. -/
def broadcastAddress : Except Undefined (Option IPv4Address) := do
  if prefixLen > 32 then pure none
  else
    let mask ← createMask 32 prefixLen.toNat
    pure (some { a with sAddr := a.sAddr ||| byteswapOnLittleEndian32 e mask })

/-- `IPv4Address::netWordAddress`. -/
def netWordAddress : Except Undefined (Option IPv4Address) := do
  if prefixLen > 32 then pure none
  else
    let mask ← createMask 32 prefixLen.toNat
    pure (some { a with sAddr := a.sAddr &&& byteswapOnLittleEndian32 e mask })

/-- `IPv4Address::subnetMask`, which looks at nothing of the address. -/
def subnetMask : Except Undefined (Option IPv4Address) := do
  let mask ← createMask 32 prefixLen.toNat
  pure (some ⟨AF_INET, 0, ~~~byteswapOnLittleEndian32 e mask⟩)

/-- `IPv4Address::getPort`. -/
def getPort : BitVec 32 := (byteswapOnLittleEndian16 e a.port).setWidth 32

/-- `IPv4Address::setPort`. -/
def setPort (port : BitVec 16) : IPv4Address :=
  { a with port := byteswapOnLittleEndian16 e port }

/-- Bit `i` of the address, from the first bit of the first byte on. -/
def bit (i : Nat) : Bool := (byteswapOnLittleEndian32 e a.sAddr).getMsbD i

end IPv4Address

-- ======================================================================== IPv6

/-- `IPv6Address`: a `sockaddr_in6`. -/
structure IPv6Address where
  family : BitVec 16
  port : BitVec 16
  flowinfo : BitVec 32
  s6Addr : Vector (BitVec 8) 16
  scopeId : BitVec 32
  deriving DecidableEq, Repr

/-- `s6_addr[i] = f(s6_addr[i])`. -/
def assign (i : Nat) (f : BitVec 8 → BitVec 8) (v : Vector (BitVec 8) 16) :
    Except Undefined (Vector (BitVec 8) 16) :=
  if h : i < 16 then .ok (v.set i (f v[i])) else .error .bounds

/-- `for (i = lo; i < hi; ++i) s6_addr[i] = 0xff`. -/
def fill (lo hi : Nat) (v : Vector (BitVec 8) 16) :
    Except Undefined (Vector (BitVec 8) 16) :=
  (List.range' lo (hi - lo)).foldlM (fun v i => assign i (fun _ => 0xff) v) v

namespace IPv6Address

variable (e : Endian) (a : IPv6Address) (prefixLen : UInt32)

/-- `IPv6Address::broadcastAddress`. -/
def broadcastAddress : Except Undefined (Option IPv6Address) := do
  let mask ← createMask 8 (prefixLen % 8).toNat
  let v ← assign (prefixLen / 8).toNat (· ||| mask) a.s6Addr
  let v ← fill ((prefixLen / 8).toNat + 1) 16 v
  pure (some { a with s6Addr := v })

/-- `IPv6Address::netWordAddress`. -/
def netWordAddress : Except Undefined (Option IPv6Address) := do
  let mask ← createMask 8 (prefixLen % 8).toNat
  let v ← assign (prefixLen / 8).toNat (· &&& mask) a.s6Addr
  pure (some { a with s6Addr := v })

/-- `IPv6Address::subnetMask`. -/
def subnetMask : Except Undefined (Option IPv6Address) := do
  let mask ← createMask 8 (prefixLen % 8).toNat
  let v ← assign (prefixLen / 8).toNat (fun _ => ~~~mask) (.replicate 16 0)
  let v ← fill 0 (prefixLen / 8).toNat v
  pure (some ⟨AF_INET6, 0, 0, v, 0⟩)

/-- `IPv6Address::getPort`. -/
def getPort : BitVec 32 := (byteswapOnLittleEndian16 e a.port).setWidth 32

/-- `IPv6Address::setPort`. -/
def setPort (port : BitVec 16) : IPv6Address :=
  { a with port := byteswapOnLittleEndian16 e port }

/-- Bit `i` of the address, from the first bit of the first byte on. -/
def bit (i : Nat) : Bool := (a.s6Addr[i / 8]?.getD 0).getMsbD (i % 8)

end IPv6Address

-- ================================================================== IPAddress

/-- `IPAddress`, an object of one of the two classes. -/
inductive IPAddress
  | v4 (a : IPv4Address)
  | v6 (a : IPv6Address)
  deriving DecidableEq, Repr

namespace IPAddress

variable (e : Endian)

def broadcastAddress (a : IPAddress) (prefixLen : UInt32) :
    Except Undefined (Option IPAddress) :=
  match a with
  | v4 a => (·.map v4) <$> a.broadcastAddress e prefixLen
  | v6 a => (·.map v6) <$> a.broadcastAddress prefixLen

def netWordAddress (a : IPAddress) (prefixLen : UInt32) :
    Except Undefined (Option IPAddress) :=
  match a with
  | v4 a => (·.map v4) <$> a.netWordAddress e prefixLen
  | v6 a => (·.map v6) <$> a.netWordAddress prefixLen

def subnetMask (a : IPAddress) (prefixLen : UInt32) :
    Except Undefined (Option IPAddress) :=
  match a with
  | v4 _ => (·.map v4) <$> IPv4Address.subnetMask e prefixLen
  | v6 _ => (·.map v6) <$> IPv6Address.subnetMask prefixLen

def getPort : IPAddress → BitVec 32
  | v4 a => a.getPort e
  | v6 a => a.getPort e

def setPort (a : IPAddress) (port : BitVec 16) : IPAddress :=
  match a with
  | v4 a => v4 (a.setPort e port)
  | v6 a => v6 (a.setPort e port)

def width : IPAddress → Nat
  | v4 _ => 32
  | v6 _ => 128

def bit : IPAddress → Nat → Bool
  | v4 a => a.bit e
  | v6 a => a.bit

/-- Two objects that differ in the bits of their addresses at most. -/
def SameRest : IPAddress → IPAddress → Prop
  | v4 a, v4 b => b = { a with sAddr := b.sAddr }
  | v6 a, v6 b => b = { a with s6Addr := b.s6Addr }
  | _, _ => False

end IPAddress

end TinyServer
