/-
`Address::Lookup` and `Address::LookupIPAddress` (address.cpp).

A pointer into `host.c_str()` is an offset; there is a NUL behind the last
byte. `getaddrinfo` is a parameter: it gets the node and the service as C
strings and gives the addresses, in order, or an error.
-/
import TinyServer.Address.Basic
import TinyServer.Http.Basic

namespace TinyServer

open Http (Bytes cStr)

namespace Address

/-- `memchr`, from the beginning of `s`. -/
def memchr (s : Bytes) (c : UInt8) : Option Nat :=
  if c ∈ s then some (s.takeWhile (· ≠ c)).length else none

/-- `node` and `service` after the look at a host in brackets. -/
def scanBrackets (host : Bytes) : Bytes × Option Nat :=
  if host.head? = some 91 then
    match memchr host.tail 93 with
    | some k =>
        (host.tail.take k,
          if (host ++ [0])[k + 2]? = some 58 then some (k + 3) else none)
    | none => ([], none)
  else ([], none)

/-- `node` and `service` after the look at a `:`, for an empty `node`. -/
def scanColon (host : Bytes) : Bytes × Option Nat :=
  match memchr host 58 with
  | some k =>
      match memchr (host.drop (k + 1)) 58 with
      | some _ => ([], some k)
      | none => (host.take k, some (k + 1))
  | none => ([], none)

/-- `node` and `service` before the call of `getaddrinfo`. -/
def scanHost (host : Bytes) : Bytes × Option Nat :=
  let (node, service) := scanBrackets host
  let (node, service) := if node = [] then scanColon host else (node, service)
  (if node = [] then host else node, service)

/-- What `getaddrinfo` gets for them. -/
def nodeAndService (host : Bytes) : Bytes × Option Bytes :=
  (cStr (scanHost host).1,
    (scanHost host).2.map fun k => cStr (host.drop k))

section

variable (getaddrinfo : Bytes → Option Bytes → Option (List (Option IPAddress)))

/-- `Address::Lookup`. An address of a family that is neither IPv4 nor IPv6
is an `UnknowAddress`: `none`. -/
def lookup (host : Bytes) : Option (List (Option IPAddress)) :=
  getaddrinfo (nodeAndService host).1 (nodeAndService host).2

/-- `Address::LookupIPAddress`; `none` is null. -/
def lookupIPAddress (host : Bytes) : Option IPAddress :=
  (lookup getaddrinfo host).bind fun result => result.findSome? id

end

end Address

end TinyServer
