/-
`HttpConnection::recvResponse` (http_connection.cpp).

The bytes in use at the front of the buffer are a list; `len` and `left`
are the integers of the source. `append`, `memmove` and `read` say what
comes of a length that is not one: a negative length for `append` makes
`std::string` throw, and any other length that is negative or exceeds
the bytes there are is an access outside the buffer (`overrun`).
-/
import TinyServer.Http.ResponseParser

namespace TinyServer.Http

/-- What a connection depends on: `GetHttpResponseBufferSize()`, the cast
of `boost`, and the uninitialised `status` of a new parser. -/
structure ConnectionEnv where
  bufferSize : Nat
  lexicalCast : Bytes → Option Nat
  status : Int

/-- How `recvResponse` can end other than by returning. -/
inductive RecvFault
  | halted (h : Halted)
  | overrun
  | assertion
  deriving DecidableEq, Repr

namespace HttpConnection

/-- `read(data, n)`. -/
def read (c : Conn) (n : Int) : Except RecvFault (Bytes × Conn) :=
  if n < 0 then .error .overrun
  else
    match c.read n.toNat with
    | .error h => .error (.halted h)
    | .ok r => .ok r

/-- `body.append(data, n)`. -/
def append (body data : Bytes) (n : Int) : Except RecvFault Bytes :=
  if n < 0 then .error (.halted (.threw .lengthError))
  else if (data.length : Int) < n then .error .overrun
  else .ok (body ++ data.take n.toNat)

/-- `memmove(data, data + start, n)`: the `n` bytes moved. -/
def memmove (data : Bytes) (start n : Int) : Except RecvFault Bytes :=
  if start < 0 ∨ n < 0 ∨ (data.length : Int) < start + n then
    .error .overrun
  else .ok ((data.drop start.toNat).take n.toNat)

/-- The loop that reads and parses a header, or with `chunk` the size
line of a chunk: the parser, and what is in the buffer after the header.
Each iteration reads a byte or ends the loop, so `fuel` iterations
suffice when that many bytes are left. -/
def recvHeader (env : ConnectionEnv) (chunk : Bool) (fuel : Nat)
    (ps : HttpResponseParser) (kept : Bytes) (c : Conn) :
    Except RecvFault (Option (HttpResponseParser × Bytes) × Conn) :=
  match fuel with
  | 0 => .error (.halted .waiting)
  | fuel + 1 => do
      let (bs, c) ← read c (env.bufferSize - kept.length)
      if bs = [] then pure (none, c.close)
      else
        let data := kept ++ bs
        match ps.execute data chunk with
        | none => .error .assertion
        | some (n, ps) =>
            if ps.hasError then pure (none, c)
            else
              let kept := data.drop n
              if kept.length = env.bufferSize then pure (none, c)
              else if ps.isFinished ≠ 0 then pure (some (ps, kept), c)
              else recvHeader env chunk fuel ps kept c

/-- The loop over `left`: the body with the rest of a chunk. -/
def recvLeft (env : ConnectionEnv) (fuel : Nat) (body : Bytes) (left : Int)
    (c : Conn) : Except RecvFault (Option Bytes × Conn) :=
  match fuel with
  | 0 => .error (.halted .waiting)
  | fuel + 1 =>
      if 0 < left then do
        let (bs, c) ← read c
          (if (env.bufferSize : Int) < left then env.bufferSize else left)
        if bs = [] then pure (none, c.close)
        else
          let body ← append body bs bs.length
          recvLeft env fuel body (left - bs.length) c
      else .ok (some body, c)

/-- A chunk after its size line: the body with the chunk, and what is in
the buffer after it. -/
def recvChunk (env : ConnectionEnv) (contentLen : Int) (data body : Bytes)
    (c : Conn) : Except RecvFault (Option (Bytes × Bytes) × Conn) := do
  let len : Int := (data.length : Int) - 2
  if contentLen ≤ len then
    let body ← append body data contentLen
    let kept ← memmove data contentLen (len - contentLen)
    pure (some (body, kept), c)
  else
    let body ← append body data len
    let left := contentLen - len
    let (r, c) ← recvLeft env (left.toNat + 1) body left c
    pure (r.map fun body => (body, []), c)

/-- The loop over the chunks, with the body so far. -/
def recvChunks (env : ConnectionEnv) (fuel : Nat) (ps : HttpResponseParser)
    (kept body : Bytes) (c : Conn) :
    Except RecvFault (Option (HttpResponseParser × Bytes) × Conn) :=
  match fuel with
  | 0 => .error (.halted .waiting)
  | fuel + 1 => do
      let (r, c) ← recvHeader env true (c.unread.length + 1) ps kept c
      match r with
      | none => pure (none, c)
      | some (ps, data) =>
          let (r, c) ← recvChunk env ps.regs.contentLen data body c
          match r with
          | none => pure (none, c)
          | some (body, kept) =>
              if ps.regs.chunksDone then pure (some (ps, body), c)
              else recvChunks env fuel ps kept body c

/-- `int length = parser->getContentLength()`. -/
def contentLength (env : ConnectionEnv) (ps : HttpResponseParser) : Int :=
  toInt (ps.getContentLength env.lexicalCast)

/-- The response with its body. -/
def withBody (ps : HttpResponseParser) (body : Bytes) : HttpResponse :=
  { ps.regs.data with body := body }

/-- The body of a response that is not chunked, as in `recvRequest`. -/
def recvRest (length : Int) (ps : HttpResponseParser) (kept : Bytes)
    (c : Conn) : Except RecvFault (Option HttpResponse × Conn) :=
  if 0 < length then
    match HttpSession.recvBody length kept c with
    | .error h => .error (.halted h)
    | .ok (none, c) => .ok (none, c.close)
    | .ok (some body, c) => .ok (some (withBody ps body), c)
  else .ok (some ps.regs.data, c)

/-- `HttpConnection::recvResponse`. -/
def recvResponse (env : ConnectionEnv) (c : Conn) :
    Except RecvFault (Option HttpResponse × Conn) := do
  let (r, c) ← recvHeader env false (c.unread.length + 1)
    (HttpResponseParser.new env.status) [] c
  match r with
  | none => pure (none, c)
  | some (ps, kept) =>
      if ps.regs.chunked then
        let (r, c) ← recvChunks env (c.unread.length + 1) ps kept [] c
        pure (r.map fun r => withBody r.1 r.2, c)
      else recvRest (contentLength env ps) ps kept c

end HttpConnection

end TinyServer.Http
