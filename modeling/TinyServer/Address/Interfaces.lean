/-
`CountBytes` and `Address::GetInterfaceAddress` (address.cpp).

The list of `getifaddrs` is a parameter; `none` is a call that fails. The
pointers in its entries may be null. The code does not look, so that a
function is `none` where it reads through one of these.

A `std::multimap` is a function, to the values under a key in the order in
which they were inserted. An allocation does not fail.
-/
import TinyServer.Address.Basic
import TinyServer.Http.Basic
import TinyServer.Lib.BitCount

namespace TinyServer

open Http (Bytes ascii)
open Lib.BitCount (cpop_clear_lt)

-- ==================================================================== counting

/-- The loop of `CountBytes<T>`, for an unsigned `T` of `w` bits. Where `T` is
promoted to `int`, the value that is stored is the same. -/
def countLoop {w : Nat} (value : BitVec w) (result : UInt32) : UInt32 :=
  if value = 0 then result
  else countLoop (value &&& (value - 1)) (result + 1)
termination_by value.cpop.toNat
decreasing_by exact cpop_clear_lt ‹_›

/-- `CountBytes`. -/
def countBytes {w : Nat} (value : BitVec w) : UInt32 := countLoop value 0

-- ================================================================== interfaces

/-- `AF_UNSPEC`. -/
def AF_UNSPEC : BitVec 16 := 0

/-- What `ifa_addr` points to, as its `sa_family` tells. -/
inductive Sockaddr
  | inet (a : IPv4Address) (h : a.family = AF_INET)
  | inet6 (a : IPv6Address) (h : a.family = AF_INET6)
  | other (family : BitVec 16) (h : family ≠ AF_INET ∧ family ≠ AF_INET6)
  deriving DecidableEq, Repr

/-- `sa_family`. -/
def Sockaddr.saFamily : Sockaddr → BitVec 16
  | inet a _ => a.family
  | inet6 a _ => a.family
  | other family _ => family

/-- What `ifa_netmask` points to, read as a `sockaddr_in` and as a
`sockaddr_in6`. -/
structure Netmask where
  sockaddrIn : IPv4Address
  sockaddrIn6 : IPv6Address
  deriving DecidableEq, Repr

/-- `ifaddrs`; `none` is null. -/
structure Ifaddrs where
  ifaName : Bytes
  ifaAddr : Option Sockaddr
  ifaNetmask : Option Netmask
  deriving DecidableEq, Repr

/-- `std::multimap<std::string, std::pair<Ref<Address>, uint32_t>>`. -/
abbrev Interfaces := Bytes → List (IPAddress × UInt32)

/-- `insert`. -/
def Interfaces.insert (key : Bytes) (value : IPAddress × UInt32)
    (result : Interfaces) : Interfaces :=
  Function.update result key (result key ++ [value])

namespace Address

/-- The loop over the bytes of an IPv6 mask. -/
def countAll (s6Addr : Vector (BitVec 8) 16) : UInt32 :=
  s6Addr.toList.foldl (fun prefixLen byte => prefixLen + countBytes byte) 0

/-- A round of the loop, and what it inserts under `ifa_name`. -/
def round (family : BitVec 32) (next : Ifaddrs) :
    Option (Option (IPAddress × UInt32)) :=
  match next.ifaAddr with
  | none => none
  | some addr =>
      if family ≠ AF_UNSPEC.setWidth 32
        ∧ family ≠ addr.saFamily.setWidth 32 then
        some none
      else
        match addr, next.ifaNetmask with
        | .inet a _, some netmask =>
            some (some (.v4 a, countBytes netmask.sockaddrIn.sAddr))
        | .inet6 a _, some netmask =>
            some (some (.v6 a, countAll netmask.sockaddrIn6.s6Addr))
        | .other _ _, _ => some none
        | _, none => none

/-- The loop over the list. -/
def walk (family : BitVec 32) : List Ifaddrs → Interfaces → Option Interfaces
  | [], result => some result
  | next :: rest, result =>
      match round family next with
      | none => none
      | some none => walk family rest result
      | some (some value) => walk family rest (result.insert next.ifaName value)

variable (getifaddrs : Option (List Ifaddrs))

/-- `Address::GetInterfaceAddress` of a multimap. -/
def getInterfaceAddress (family : BitVec 32) (result : Interfaces) :
    Option (Bool × Interfaces) :=
  match getifaddrs with
  | none => some (false, result)
  | some results => (walk family results result).map fun result =>
    (true, result)

/-- `Address::GetInterfaceAddress` of a vector. -/
def getInterfaceAddressOf (iface : Bytes) (family : BitVec 32)
    (result : List (IPAddress × UInt32)) :
    Option (Bool × List (IPAddress × UInt32)) :=
  if iface = [] ∨ iface = ascii "*" then
    let v4 := if family = AF_INET.setWidth 32
      ∨ family = AF_UNSPEC.setWidth 32 then
      [(IPAddress.v4 ⟨AF_INET, 0, 0⟩, 0)] else []
    let v6 := if family = AF_INET6.setWidth 32
      ∨ family = AF_UNSPEC.setWidth 32 then
      [(IPAddress.v6 ⟨AF_INET6, 0, 0, .replicate 16 0, 0⟩, 0)] else []
    some (true, result ++ v4 ++ v6)
  else
    match getInterfaceAddress getifaddrs family fun _ => [] with
    | none => none
    | some (false, _) => some (false, result)
    | some (true, results) => some (true, result ++ results iface)

end Address

end TinyServer
