/-
`HttpSession::recvRequest` (http_session.cpp) and the loop of
`HttpServer::handleClient` (http_server.cpp) around it.

The buffer is local to one call of `recvRequest`: what a read brought
beyond the request goes with it.
-/
import Mathlib.Algebra.Group.Int.Defs
import TinyServer.Http.Stream

namespace TinyServer.Http

/-- What a session depends on: `GetHttpRequestBufferSize()`, the cast of
`boost`, and the uninitialised fields of a new parser. -/
structure SessionEnv where
  bufferSize : Nat
  lexicalCast : Bytes → Option Nat
  uninit : Uninit

/-- A `uint64_t` or a `size_t` stored in an `int`. -/
def toInt (n : Int) : Int := (n + 2 ^ 31) % 2 ^ 32 - 2 ^ 31

namespace HttpSession

/-- The first loop of `recvRequest`: read and parse until the header is
complete. `kept` are the first `offset` bytes of the buffer. Each
iteration reads a byte or ends the loop, so `fuel` iterations suffice
when that many bytes are left. -/
def recvHeader (env : SessionEnv) (fuel : Nat) (ps : HttpRequestParser)
    (kept : Bytes) (c : Conn) :
    Except Halted (Option (HttpRequestParser × Bytes) × Conn) :=
  match fuel with
  | 0 => .error .waiting
  | fuel + 1 => do
      let (bs, c) ← c.read (env.bufferSize - kept.length)
      if bs = [] then pure (none, c.close)
      else
        let data := kept ++ bs
        match ps.execute env.uninit data with
        | .error e => .error (.threw e)
        | .ok (n, ps) =>
            if ps.hasError then pure (none, c)
            else
              let kept := data.drop n
              if kept.length = env.bufferSize then pure (none, c)
              else if ps.isFinished ≠ 0 then pure (some (ps, kept), c)
              else recvHeader env fuel ps kept c

/-- The body of the request: from the bytes already in the buffer, then
from the stream. -/
def recvBody (length : Int) (kept : Bytes) (c : Conn) :
    Except Halted (Option Bytes × Conn) :=
  let body := if (kept.length : Int) ≤ length then kept
    else kept.take length.toNat
  let left := length - kept.length
  if 0 < left then do
    let (r, c) ← c.readFixSize (left.toNat + 1) left.toNat
    pure (r.map (body ++ ·), c)
  else .ok (some body, c)

/-- The end of `recvRequest`: `Connection: keep-alive`. -/
def setClose (req : HttpRequest) : HttpRequest :=
  if strcasecmp (ascii "keep-alive")
      (req.headers.getHeader (ascii "Connection")) = .eq
  then { req with close := false } else req

/-- `int length = parser->getContentLength()`. -/
def contentLength (env : SessionEnv) (data : HttpRequest) : Int :=
  toInt (HttpRequestParser.getContentLength env.lexicalCast data)

/-- The rest of `recvRequest` after the header, with the length from it:
the body, then `Connection: keep-alive`. -/
def recvRest (length : Int) (req : HttpRequest) (kept : Bytes) (c : Conn) :
    Except Halted (Option HttpRequest × Conn) :=
  if 0 < length then do
    let (body, c) ← recvBody length kept c
    match body with
    | none => pure (none, c.close)
    | some body => pure (some (setClose { req with body := body }), c)
  else .ok (some (setClose req), c)

/-- `HttpSession::recvRequest`. -/
def recvRequest (env : SessionEnv) (c : Conn) :
    Except Halted (Option HttpRequest × Conn) := do
  let (r, c) ← recvHeader env (c.unread.length + 1)
    (HttpRequestParser.new env.uninit) [] c
  match r with
  | none => pure (none, c)
  | some (ps, kept) =>
      recvRest (contentLength env ps.regs.data) ps.regs.data kept c

end HttpSession

/-- The calls of `recvRequest` that `HttpServer::handleClient` makes, up
to `k` of them: the requests, each with the stream it left behind. The
loop ends with a null request, and after a request that closes or when
the server does not keep connections alive. -/
def handleClient (env : SessionEnv) (isKeepalive : Bool) :
    Nat → Conn → Except Halted (List (HttpRequest × Conn))
  | 0, _ => .ok []
  | k + 1, c => do
      let (r, c) ← HttpSession.recvRequest env c
      match r with
      | none => pure []
      | some req =>
          if !isKeepalive || req.close then pure [(req, c)]
          else
            let rest ← handleClient env isKeepalive k c
            pure ((req, c) :: rest)

end TinyServer.Http
