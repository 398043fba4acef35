/-
`Uri::createAddress` (uri.rl).

`getaddrinfo` is a parameter, as for `Address::LookupIPAddress`. `setPort`
takes a `uint16_t`, so that the number of `getPort` is cut off.
-/
import TinyServer.Address.Lookup
import TinyServer.Uri.Basic

namespace TinyServer.Uri

open Http (Bytes)

variable (e : Endian)
  (getaddrinfo : Bytes → Option Bytes → Option (List (Option IPAddress)))

/-- `Uri::createAddress`; `none` is null. -/
def createAddress (u : Uri) : Option IPAddress :=
  (Address.lookupIPAddress getaddrinfo u.host).map fun addr =>
    addr.setPort e (BitVec.ofInt 16 u.getPort)

end TinyServer.Uri
