/-
`writeToFile` and `readFromFile` (bytearray.cpp) and the streams they use.

# The output

What counts of `writeToFile` are the calls `ofs.write(cur->ptr + diff,
len)` it makes: a `FileChunk` is one of them, with `diff` and `len` as the
code computed them, `int` and `int64_t`. What arrives in the file is
`written`, as long as every chunk has a positive length and lies inside
its node; otherwise the stream fails or bytes outside of the node are
read, and nothing is said about the file.

# The input

An `Ifstream` is the bytes that the file still delivers, how it ends
behind them, and the state bits. A stream that is not `good()` delivers
nothing, whatever is left; `readFromFile` looks at `eof()` only. Its loop
need not end, so it is run with fuel: `none` is a loop that is still
running.
-/
import Mathlib.Algebra.Group.Int.Defs
import TinyServer.ByteArray.Iovecs

namespace TinyServer

-- =============================================================== writeToFile

/-- One call of `ofs.write`: `len` bytes from the byte `off` of the buffer
of node `node`. -/
structure FileChunk where
  node : Nat
  off : Int
  len : Int
  deriving DecidableEq, Repr

/-- The chunk as an `iovec`, when neither number is negative. -/
def FileChunk.toIovec (c : FileChunk) : Iovec :=
  ⟨c.node, c.off.toNat, c.len.toNat⟩

namespace ByteArray

/-- The loop of `writeToFile` on the chain from node `i` on; `none` is
`cur->ptr` on a null `cur`. -/
def writeToFileLoop (b : Nat) : List Node → (i : Nat) → (pos readSize : Int) →
    Option (List FileChunk)
  | [], _, _, readSize => if readSize > 0 then none else some []
  | _ :: ns, i, pos, readSize =>
      if readSize > 0 then
        -- `int diff` holds the low 32 bits
        let diff := (pos % b).bmod 0x100000000
        let len := (if readSize > b then (b : Int) else readSize) - diff
        (writeToFileLoop b ns (i + 1) (pos + len) (readSize - len)).map
          (⟨i, diff, len⟩ :: ·)
      else some []

/-- `ByteArray::writeToFile`: what is returned, and the calls that were
made on the stream. -/
def writeToFile (opens : Bool) : BA (Bool × List FileChunk) := do
  if opens then
    let s ← get
    let i := s.cur.getD s.root.length
    match writeToFileLoop s.baseSize (s.root.drop i) i s.position
      s.getReadSize with
    | none => throw .nullDeref
    | some chunks => pure (true, chunks)
  else pure (false, [])

/-- The contents of the file behind chunks that lie inside their nodes. -/
def written (root : List Node) (chunks : List FileChunk) : List UInt8 :=
  gathered root (chunks.map FileChunk.toIovec)

end ByteArray

-- ============================================================== readFromFile

/-- How a stream ends behind the last byte it delivers in full: at the end
of the file, or with an error in a read that still delivers `kept`
bytes. -/
inductive Ending
  | eof
  | error (kept : Nat)
  deriving DecidableEq, Repr

/-- `std::ifstream`, opened. -/
structure Ifstream where
  rest : List UInt8
  ending : Ending
  eof : Bool
  fail : Bool
  deriving DecidableEq, Repr

namespace Ifstream

/-- A stream that was opened: no bit is set. -/
def opened (content : List UInt8) (ending : Ending) : Ifstream :=
  ⟨content, ending, false, false⟩

/-- `ifs.read(buff, n)`: the `gcount()` bytes that were stored. -/
def read (f : Ifstream) (n : Nat) : List UInt8 × Ifstream :=
  if f.eof ∨ f.fail then ([], { f with fail := true })
  else if n ≤ f.rest.length then
    (f.rest.take n, { f with rest := f.rest.drop n })
  else
    match f.ending with
    | .eof => (f.rest, { f with rest := [], eof := true, fail := true })
    | .error kept =>
        (f.rest.take kept, { f with rest := f.rest.drop kept, fail := true })

end Ifstream

namespace ByteArray

/-- The loop of `readFromFile`. -/
def readFromFileLoop : (fuel : Nat) → Ifstream → ByteArray →
    Option (EStateM.Result Err ByteArray Bool)
  | 0, _, _ => none
  | fuel + 1, f, s =>
      if f.eof then some (.ok true s)
      else
        match write (f.read s.baseSize).1 s with
        | .ok () s' => readFromFileLoop fuel (f.read s.baseSize).2 s'
        | .error e s' => some (.error e s')

/-- `ByteArray::readFromFile`; `none` is a file that could not be
opened. -/
def readFromFile (fuel : Nat) (file : Option Ifstream) (s : ByteArray) :
    Option (EStateM.Result Err ByteArray Bool) :=
  match file with
  | none => some (.ok false s)
  | some f => readFromFileLoop fuel f s

end ByteArray

end TinyServer
