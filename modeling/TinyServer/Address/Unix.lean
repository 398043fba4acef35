/-
`UnixAddress` (address.cpp), and what is read of it.

`sun_path` has room for 108 bytes, and is behind the two bytes of
`sun_family`. `m_length` is a `socklen_t` of 32 bits, so that the size of a
path is cut off in it.

`insert` gives the text and how many bytes of the address it has read,
from the first on. An access behind `sun_path` is undefined.
-/
import TinyServer.Address.Basic
import TinyServer.Http.Basic

namespace TinyServer

open Http (Bytes ascii cStr)

/-- `AF_UNIX`. -/
def AF_UNIX : BitVec 16 := 1

/-- `UnixAddress`: a `sockaddr_un`, and `m_length`. -/
structure UnixAddress where
  family : BitVec 16
  sunPath : Vector UInt8 108
  length : UInt32
  deriving DecidableEq

/-- `offsetof(sockaddr_un, sun_path)`. -/
def sunPathOffset : Nat := 2

namespace UnixAddress

/-- `sun_path` with these bytes in front, and zeros behind them. -/
def zeroed (bs : Bytes) : Vector UInt8 108 :=
  ⟨((bs ++ List.replicate 108 0).take 108).toArray, by simp⟩

/-- `UnixAddress::UnixAddress()`. -/
def unnamed : UnixAddress := ⟨AF_UNIX, zeroed [], 2 + 107⟩

/-- `UnixAddress::UnixAddress(path)`, which may throw. -/
def create (path : Bytes) : Except String UnixAddress :=
  let length := UInt32.ofNat (path.length + 1)
  let length := if path.head? = some 0 then length - 1 else length
  if 108 < length then .error "path too long"
  else .ok ⟨AF_UNIX, zeroed ((path ++ [0]).take length.toNat), length + 2⟩

/-- `UnixAddress::getAddrLen`. -/
def getAddrLen (a : UnixAddress) : Nat := a.length.toNat

/-- `std::string(sun_path + first, n)`. -/
def readBytes (a : UnixAddress) (first n : Nat) :
    Except Undefined (Bytes × Nat) :=
  if first + n ≤ 108 then
    .ok ((a.sunPath.toList.drop first).take n, sunPathOffset + first + n)
  else .error .bounds

/-- The text of `sun_path` up to its NUL. -/
def readText (a : UnixAddress) : Except Undefined (Bytes × Nat) :=
  let text := cStr a.sunPath.toList
  if text.length < 108 then .ok (text, sunPathOffset + text.length + 1)
  else .error .bounds

/-- `UnixAddress::insert`. -/
def insert (a : UnixAddress) : Except Undefined (Bytes × Nat) := do
  let (front, r) ←
    if sunPathOffset < a.getAddrLen ∧ a.sunPath[0] = 0 then do
      let (name, r) ← a.readBytes 1 (a.getAddrLen - sunPathOffset)
      pure (ascii "\\0" ++ name, r)
    else pure ([], 0)
  let (text, r') ← a.readText
  pure (front ++ text, max r r')

end UnixAddress

end TinyServer
