/-
What is done with the `iovec`s of a `ByteArray` outside of it.

`getReadBuffers` and `getWriteBuffers` hand out pointers into the nodes;
`sendmsg` gathers the bytes they point to and `recvmsg` scatters what
arrived over them, both in the order of the array. `scatterInput` is the
sequence that `SocketStream::read(ByteArray)` runs around `recvmsg`.
-/
import TinyServer.ByteArray.Basic

namespace TinyServer.ByteArray

open Lib (overlay slice)

/-- The bytes that `iovec`s into the chain point to, in order. -/
def gathered (root : List Node) (iovs : List Iovec) : List UInt8 :=
  iovs.flatMap fun v =>
    slice ((root[v.node]?.map Node.ptr).getD []) v.off v.len

/-- Bytes stored from `iov_base` on. -/
def storeAt (root : List Node) (v : Iovec) (data : List UInt8) : List Node :=
  match root[v.node]? with
  | none => root
  | some n => root.set v.node { n with ptr := overlay n.ptr v.off data }

/-- `data` stored over the `iovec`s: each is filled to its end before the
next one. -/
def scatter (root : List Node) : List Iovec → List UInt8 → List Node
  | [], _ => root
  | v :: vs, data =>
      scatter (storeAt root v (data.take v.len)) vs (data.drop v.len)

/-- Room for `n` bytes is laid out, `data` arrives in it, and the cursor
moves behind it. -/
def scatterInput (n : Nat) (data : List UInt8) : BA Unit := do
  let (_, iovs) ← getWriteBuffers n
  modify fun s => { s with root := scatter s.root iovs data }
  let s ← get
  setPosition (s.getPosition + data.length)

end TinyServer.ByteArray
