/-
The text of an IPv6 address: how `IPv6Address::insert` (address.cpp)
writes it, and how it is read after RFC 4291.

# Writing

`words` is `addr`, the array of `uint16_t` over the sixteen bytes; its
elements are in the byte order of the host. In `insertLoop`, `prev` is
`addr[i - 1]`, and none for `i = 0`. The stream has its default format.

# Reading

Up to eight groups of one to four hexadecimal digits stand between
colons. A `::` stands for one or more groups of zeros, so that there are
eight.
-/
import TinyServer.Address.Basic
import TinyServer.Http.ResponseParser

namespace TinyServer

open Http (Bytes ascii toDecimal digitVal digitsValue)

-- ===================================================================== writing

/-- A number written to a stream after `std::hex`. -/
def toHex (n : Nat) : Bytes :=
  (Nat.toDigits 16 n).map fun c => UInt8.ofNat c.toNat

namespace IPv6Address

variable (e : Endian) (a : IPv6Address)

theorem first_lt (i : Fin 8) : 2 * i.val < 16 := by omega

theorem second_lt (i : Fin 8) : 2 * i.val + 1 < 16 := by omega

/-- The first byte of a group. -/
def first (i : Fin 8) : BitVec 8 := a.s6Addr.get ⟨2 * i.val, first_lt i⟩

/-- The second byte of a group. -/
def second (i : Fin 8) : BitVec 8 := a.s6Addr.get ⟨2 * i.val + 1, second_lt i⟩

/-- `addr[i]`. -/
def word (i : Fin 8) : BitVec 16 :=
  match e with
  | .little => a.second i ++ a.first i
  | .big => a.first i ++ a.second i

def words : List (BitVec 16) := (List.finRange 8).map (a.word e)

/-- The loop, from some `i` on, and `used_zero` after it. -/
def insertLoop (prev : Option (BitVec 16)) (usedZero : Bool) :
    List (BitVec 16) → Bytes × Bool
  | [] => ([], usedZero)
  | w :: ws =>
      if w = 0 ∧ usedZero = false then insertLoop (some w) usedZero ws
      else
        let first := prev = some 0 ∧ usedZero = false
        let (rest, used) := insertLoop (some w) (usedZero || first) ws
        ((if first then ascii ":" else []) ++ (if prev.isSome then ascii ":"
          else [])
          ++ toHex (byteswapOnLittleEndian16 e w).toNat ++ rest, used)

/-- `IPv6Address::insert`. -/
def insert : Bytes :=
  let (text, usedZero) := insertLoop e none false (a.words e)
  ascii "[" ++ text
    ++ (if usedZero = false ∧ a.word e 7 = 0 then ascii "::" else [])
    ++ ascii "]:" ++ toDecimal (byteswapOnLittleEndian16 e a.port).toNat

/-- The eight groups of 16 bits of the address. -/
def groups : List Nat :=
  (List.finRange 8).map fun i => (a.first i ++ a.second i).toNat

end IPv6Address

-- ===================================================================== reading

namespace Rfc4291

/-- A group: one to four hexadecimal digits. -/
def readGroup (t : Bytes) : Option Nat :=
  if t ≠ [] ∧ t.length ≤ 4 ∧ t.all fun b => (digitVal 16 b).isSome then
    some (digitsValue 16 0 t)
  else none

/-- Groups with colons between them, or nothing. -/
def readGroups (t : Bytes) : Option (List Nat) :=
  if t = [] then some [] else (t.splitOn 58).mapM readGroup

/-- The text before the first `::`, and behind it. -/
def cutDouble : Bytes → Option (Bytes × Bytes)
  | 58 :: 58 :: t => some ([], t)
  | b :: t => (cutDouble t).map fun (l, r) => (b :: l, r)
  | [] => none

/-- The groups of an address. -/
def readAddress (t : Bytes) : Option (List Nat) :=
  match cutDouble t with
  | none => (readGroups t).filter fun gs => gs.length = 8
  | some (l, r) => do
      let left ← readGroups l
      let right ← readGroups r
      if left.length + right.length < 8 then
        some (left ++ List.replicate (8 - (left.length + right.length)) 0
          ++ right)
      else none

/-- The number of places at which there is a `::`. -/
def doubleColons : Bytes → Nat
  | 58 :: 58 :: t => doubleColons (58 :: t) + 1
  | _ :: t => doubleColons t
  | [] => 0

end Rfc4291

end TinyServer
