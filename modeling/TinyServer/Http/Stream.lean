/-
The byte stream under a session or a connection: `SocketStream::read`
(socket_stream.cpp) and `Stream::readFixSize` (stream.cpp).

What the peer sent arrives as a list of segments. A read returns bytes of
the first segment, at most as many as asked for. When no segment is left
a read fails (end of file, an error or a timeout: a result `<= 0`) or
waits for ever; `waits` says which.
-/
import TinyServer.Http.RequestParser

namespace TinyServer.Http

/-- The unread segments, and what a read does after the last one. -/
structure Conn where
  segs : List Bytes
  waits : Bool
  deriving DecidableEq, Repr

/-- How a call can end other than by returning. -/
inductive Halted
  | waiting
  | threw (e : Thrown)
  deriving DecidableEq, Repr

namespace Conn

/-- `read(buffer, n)`: the bytes; none of them for a result `<= 0`. -/
def read (c : Conn) (n : Nat) : Except Halted (Bytes × Conn) :=
  match c.segs with
  | [] => if c.waits then .error .waiting else .ok ([], c)
  | seg :: rest =>
      .ok (seg.take n,
        { c with segs := if seg.length ≤ n then rest else seg.drop n :: rest })

/-- `close()`. -/
def close (_ : Conn) : Conn := ⟨[], false⟩

/-- The bytes that have arrived and are not read. -/
def unread (c : Conn) : Bytes := c.segs.flatten

/-- `readFixSize(buffer, left)`, in at most `fuel` reads: `none` when a
read fails. -/
def readFixSize (fuel : Nat) (c : Conn) (left : Nat) :
    Except Halted (Option Bytes × Conn) :=
  match fuel with
  | 0 => .error .waiting
  | fuel + 1 =>
      if left = 0 then .ok (some [], c)
      else do
        let (bs, c) ← c.read left
        if bs = [] then pure (none, c)
        else
          let (r, c) ← readFixSize fuel c (left - bs.length)
          pure (r.map (bs ++ ·), c)

end Conn

end TinyServer.Http
