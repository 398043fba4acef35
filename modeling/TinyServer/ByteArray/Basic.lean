/-
`ByteArray` (bytearray.h, bytearray.cpp): the node chain, the cursor and
the untyped operations.

# The representation

The chain hanging off `m_root` is the list `root`; `n->next` is the next
list element. A node pointer is an index into the chain, and `none` is
the null pointer, so `m_cur` is `cur : Option Nat`. A node is born with
the indeterminate bytes that `new char[s]` hands out: `heap` is the
(arbitrary) supply they are taken from, and no result may depend on it.

Sizes and positions are natural numbers: `size_t` arithmetic here never
leaves the range of the memory that was allocated.

# The ways out of a call

A call returns, throws one of the two C++ exceptions the class can
raise, or dereferences a null node pointer, which ends the process
(`Err.nullDeref`). An exception leaves the object as it is at the throw,
so the computations carry the state out on both ways: `EStateM`.

# The copy loops

`write`, `read` and the iovec builders share one loop: work on the
current node from offset `npos`, where `ncap` bytes are left; when more
than `ncap` bytes remain, step to the next node and go on at offset 0.
The loops below recurse on the chain from the current node on, and
return how many times the loop stepped `m_cur = m_cur->next`.
-/
import TinyServer.Lib.Overlay

namespace TinyServer

open Lib (overlay slice)

-- ================================================================ the data

/-- `TINY_LITTLE_ENDIAN`, `TINY_BIG_ENDIAN`. -/
inductive Endian
  | little
  | big
  deriving DecidableEq, Repr

/-- What a call can end with instead of returning. -/
inductive Err
  /-- `std::out_of_range` -/
  | outOfRange
  /-- `std::length_error` or `std::bad_alloc` of `std::string::resize` -/
  | lengthError
  /-- a null `Node*` is dereferenced: the process dies -/
  | nullDeref
  deriving DecidableEq, Repr

/-- `ByteArray::Node`; `next` is the next element of the chain. -/
structure Node where
  size : Nat
  ptr : List UInt8
  deriving DecidableEq, Repr

/-- `iovec`: `iov_base` is the byte `off` of the buffer of node `node`. -/
structure Iovec where
  node : Nat
  off : Nat
  len : Nat
  deriving DecidableEq, Repr

/-- `ByteArray`. -/
structure ByteArray where
  baseSize : Nat
  position : Nat
  capacity : Nat
  size : Nat
  endian : Endian
  root : List Node
  cur : Option Nat
  heap : Nat → UInt8

/-- A member function of `ByteArray`. -/
abbrev BA (α : Type) := EStateM Err ByteArray α

/-- `Node::Node(size_t s)`: the buffer holds whatever the heap held. -/
def Node.new (s : Nat) (heap : Nat → UInt8) : Node :=
  ⟨s, (List.range s).map heap⟩

/-- `ByteArray::ByteArray(size_t base_size)`. -/
def ByteArray.new (baseSize : Nat) (heap : Nat → UInt8) : ByteArray where
  baseSize := baseSize
  position := 0
  capacity := baseSize
  size := 0
  endian := .big
  root := [Node.new baseSize heap]
  cur := some 0
  heap := fun j => heap (baseSize + j)

namespace ByteArray

/-- The node pointer at chain index `i`: null past the end. -/
def nodeAt (chain : List Node) (i : Nat) : Option Nat :=
  if i < chain.length then some i else none

/-- The bytes of the whole chain, in order. -/
def flat (chain : List Node) : List UInt8 :=
  (chain.map Node.ptr).flatten

def getPosition (s : ByteArray) : Nat := s.position

def getSize (s : ByteArray) : Nat := s.size

def getReadSize (s : ByteArray) : Nat := s.size - s.position

def getCurCapacity (s : ByteArray) : Nat := s.capacity - s.position

def isLittleEndian (s : ByteArray) : Bool := s.endian = .little

/-- `setIsLittleEndian`. -/
def setIsLittleEndian (val : Bool) : BA Unit :=
  modify fun s => { s with endian := if val then .little else .big }

/-- `m_cur->size`: the size of the current node and the chain from it
on, or the end of the process when `m_cur` is null. -/
def derefCur (s : ByteArray) : Option (Nat × Nat × List Node) :=
  match s.cur with
  | none => none
  | some i =>
      match s.root.drop i with
      | [] => none
      | n :: ns => some (i, n.size, n :: ns)

-- =============================================================== capacity

/-- `count` times `tmp->next = new Node(b)`, with what is left of the
heap. -/
def newNodes (b : Nat) (heap : Nat → UInt8) :
    Nat → List Node × (Nat → UInt8)
  | 0 => ([], heap)
  | count + 1 =>
      let (ns, heap') := newNodes b (fun j => heap (b + j)) count
      (Node.new b heap :: ns, heap')

/-- `ByteArray::addCapacity`. -/
def addCapacity (size : Nat) : BA Unit := fun s =>
  if size = 0 then .ok () s
  else
    let oldCap := s.getCurCapacity
    if oldCap ≥ size then .ok () s
    else
      let size := size - oldCap
      let count := size / s.baseSize
        + (if size % s.baseSize > oldCap then 1 else 0)
      let (ns, heap) := newNodes s.baseSize s.heap count
      -- `first` stays null when the loop does not run
      let first := if count = 0 then none else some s.root.length
      .ok () { s with
        root := s.root ++ ns
        capacity := s.capacity + count * s.baseSize
        cur := if oldCap = 0 then first else s.cur
        heap := heap }

-- ============================================================= copy loops

/-- The loop of `write`: store `buf` from offset `npos` of the first
node on. `none` is `m_cur->size` on a null `m_cur`. -/
def writeLoop : List Node → (npos ncap : Nat) → List UInt8 →
    Option (List Node × Nat)
  | [], _, _, _ => none
  | n :: ns, npos, ncap, buf =>
      if ncap ≥ buf.length then
        some ({ n with ptr := overlay n.ptr npos buf } :: ns,
          if n.size = npos + buf.length then 1 else 0)
      else
        match ns with
        | [] => none
        | m :: ms =>
            (writeLoop (m :: ms) 0 m.size (buf.drop ncap)).map fun r =>
              ({ n with ptr := overlay n.ptr npos (buf.take ncap) } :: r.1,
                r.2 + 1)

/-- The loop of `read`: fetch `size` bytes from offset `npos` of the
first node on. -/
def readLoop : List Node → (npos ncap size : Nat) →
    Option (List UInt8 × Nat)
  | [], _, _, _ => none
  | n :: ns, npos, ncap, size =>
      if ncap ≥ size then
        some (slice n.ptr npos size, if n.size = npos + size then 1 else 0)
      else
        match ns with
        | [] => none
        | m :: ms =>
            (readLoop (m :: ms) 0 m.size (size - ncap)).map fun r =>
              (slice n.ptr npos ncap ++ r.1, r.2 + 1)

/-- The loop of the iovec builders, on the chain from node `i` on. -/
def iovLoop : List Node → (i npos ncap len : Nat) → Option (List Iovec)
  | [], _, _, _, _ => none
  | _ :: ns, i, npos, ncap, len =>
      if ncap ≥ len then some [⟨i, npos, len⟩]
      else
        match ns with
        | [] => none
        | m :: ms =>
            (iovLoop (m :: ms) (i + 1) 0 m.size (len - ncap)).map
              (⟨i, npos, ncap⟩ :: ·)

-- ============================================================== operations

/-- `ByteArray::clear`. -/
def clear : BA Unit :=
  modify fun s => { s with
    position := 0
    size := 0
    capacity := s.baseSize
    root := s.root.take 1
    cur := some 0 }

/-- `ByteArray::write(buf, size)`. -/
def write (buf : List UInt8) : BA Unit :=
  if buf.length = 0 then pure ()
  else do
    addCapacity buf.length
    let s ← get
    let npos := s.position % s.baseSize
    match derefCur s with
    | none => throw .nullDeref
    | some (i, size, chain) =>
        match writeLoop chain npos (size - npos) buf with
        | none => throw .nullDeref
        | some (chain', moves) =>
            let root := s.root.take i ++ chain'
            let position := s.position + buf.length
            set { s with
              root := root
              cur := nodeAt root (i + moves)
              position := position
              size := if position > s.size then position else s.size }

/-- `ByteArray::read(buf, size)`. -/
def read (size : Nat) : BA (List UInt8) := do
  let s ← get
  if size > s.getReadSize then throw .outOfRange
  else
    let npos := s.position % s.baseSize
    match derefCur s with
    | none => throw .nullDeref
    | some (i, nsize, chain) =>
        -- the loop does not run for an empty read
        if size = 0 then pure []
        else
          match readLoop chain npos (nsize - npos) size with
          | none => throw .nullDeref
          | some (bytes, moves) => do
              set { s with
                cur := nodeAt s.root (i + moves)
                position := s.position + size }
              pure bytes

/-- `ByteArray::read(buf, size, position) const`: starts in `m_cur`,
whatever `position` is. -/
def readAt (size position : Nat) : BA (List UInt8) := do
  let s ← get
  if size > s.getReadSize then throw .outOfRange
  else
    let npos := position % s.baseSize
    match derefCur s with
    | none => throw .nullDeref
    | some (_, nsize, chain) =>
        if size = 0 then pure []
        else
          match readLoop chain npos (nsize - npos) size with
          | none => throw .nullDeref
          | some (bytes, _) => pure bytes

/-- The walk of `setPosition`: how many nodes from the root the cursor
ends; `none` is a null `m_cur`. -/
def seek : List Node → (pos : Nat) → Option Nat
  | [], _ => none
  | n :: ns, pos =>
      if pos > n.size then (seek ns (pos - n.size)).map (· + 1)
      else if pos = n.size then some 1
      else some 0

/-- `ByteArray::setPosition`. -/
def setPosition (pos : Nat) : BA Unit := do
  let s ← get
  if pos > s.capacity then throw .outOfRange
  else
    match seek s.root pos with
    | none => throw .nullDeref
    | some i =>
        set { s with
          position := pos
          size := if pos > s.size then pos else s.size
          cur := nodeAt s.root i }

/-- `ByteArray::toString`. -/
def toString : BA (List UInt8) := do
  let s ← get
  let n := s.getReadSize
  if n = 0 then pure [] else readAt n s.position

/-- `ByteArray::getReadBuffers(buffers, len)`: the returned length and
the iovecs pushed on `buffers`. -/
def getReadBuffers (len : Nat) : BA (Nat × List Iovec) := do
  let s ← get
  let len := if len > s.getReadSize then s.getReadSize else len
  if len = 0 then pure (0, [])
  else
    let npos := s.position % s.baseSize
    match derefCur s with
    | none => throw .nullDeref
    | some (i, nsize, chain) =>
        match iovLoop chain i npos (nsize - npos) len with
        | none => throw .nullDeref
        | some iovs => pure (len, iovs)

/-- `ByteArray::getReadBuffers(buffers, len, position)`: walks from the
root to the node of `position`, but takes `ncap` from `m_cur`. -/
def getReadBuffersAt (len position : Nat) : BA (Nat × List Iovec) := do
  let s ← get
  let len := if len > s.getReadSize then s.getReadSize else len
  if len = 0 then pure (0, [])
  else
    let npos := position % s.baseSize
    let count := position / s.baseSize
    -- `count` times `cur = cur->next` faults on the way to a missing node
    if count > s.root.length then throw .nullDeref
    else
      match derefCur s with
      | none => throw .nullDeref
      | some (_, nsize, _) =>
          match iovLoop (s.root.drop count) count npos (nsize - npos) len with
          | none => throw .nullDeref
          | some iovs => pure (len, iovs)

/-- `ByteArray::getWriteBuffers`. -/
def getWriteBuffers (len : Nat) : BA (Nat × List Iovec) :=
  if len = 0 then pure (0, [])
  else do
    addCapacity len
    let s ← get
    let npos := s.position % s.baseSize
    match derefCur s with
    | none => throw .nullDeref
    | some (i, nsize, chain) =>
        match iovLoop chain i npos (nsize - npos) len with
        | none => throw .nullDeref
        | some iovs => pure (len, iovs)

end ByteArray

end TinyServer
