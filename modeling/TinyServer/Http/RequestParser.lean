/-
`http_parser` (http11_parser.h, http11_parser.rl) and
`HttpRequestParser` (http_parser.h, http_parser.cpp).

# The registers

`mark`, `field_start`, `field_len` and `query_start` are offsets into the
buffer of the current `http_parser_execute`. The first three are set to
zero on entry, `query_start` is not; `http_parser_init` sets neither
`query_start` nor `uri_relaxed`, so their first values are parameters
(`Uninit`).

A length `LEN(AT, FPC)` is an integer here. In the source it is a
`size_t`: a negative one is a length past `max_size()`, for which the
constructor of `std::string` throws `length_error`.

# Assertions

`body_start` is not reset on entry either. `http_parser_execute` asserts
at its end that it is at most the length of the buffer, and the program
aborts when it is not (`Thrown.assertion`). The other assertions there
are about `nread`, `mark`, `field_len` and `field_start`, which are taken
inside the buffer; they cannot fail and are left out. On entry it asserts
that the length is an `int`; that is in `executePiece`, as a session
parses what one read brought, and the length of that is an `int`.
-/
import TinyServer.Http.Basic
import TinyServer.Http.RequestTable

namespace TinyServer.Http

open Lib

/-- How a call ends that does not return: `std::length_error` out of a
callback, or a failed assertion. -/
inductive Thrown
  | lengthError
  | assertion
  deriving DecidableEq, Repr

/-- `std::string(buffer + start, n)`. -/
def stdString (buf : Bytes) (start : Nat) (n : Int) : Except Thrown Bytes :=
  if n < 0 then .error .lengthError
  else .ok ((buf.drop start).take n.toNat)

/-- `strncmp(a, b, n) == 0`. -/
def strncmpEq (a b : Bytes) (n : Int) : Bool :=
  (cStr a).take n.toNat = (cStr b).take n.toNat

/-- What `http_parser_init` leaves as it was in memory. -/
structure Uninit where
  uriRelaxed : Bool
  queryStart : Nat
  deriving DecidableEq, Repr

/-- The registers of `http_parser`, with `m_data` and `m_error` of the
`HttpRequestParser` that its callbacks write to. -/
structure RequestRegs where
  mark : Nat
  fieldStart : Nat
  fieldLen : Int
  queryStart : Nat
  bodyStart : Nat
  contentLen : Int
  xmlSent : Bool
  jsonSent : Bool
  data : HttpRequest
  error : Nat
  deriving DecidableEq, Repr

namespace RequestRegs

/-- `LEN(AT, FPC)`. -/
def len (start p : Nat) : Int := (p : Int) - start

/-- `on_request_method`. -/
def onRequestMethod (x : RequestRegs) (at_ : Bytes) : RequestRegs :=
  let hm := charsToHttpMethod at_
  if hm = .invalid then { x with error := 1000 }
  else { x with data := { x.data with method := hm } }

/-- `on_request_fragment`. -/
def onRequestFragment (x : RequestRegs) (v : Bytes) : RequestRegs :=
  { x with data := { x.data with fragment := v } }

/-- `on_request_path`. -/
def onRequestPath (x : RequestRegs) (v : Bytes) : RequestRegs :=
  { x with data := { x.data with path := v } }

/-- `on_request_query`. -/
def onRequestQuery (x : RequestRegs) (v : Bytes) : RequestRegs :=
  { x with data := { x.data with query := v } }

/-- `on_request_version`. -/
def onRequestVersion (x : RequestRegs) (at_ : Bytes) (length : Int) :
    RequestRegs :=
  if strncmpEq at_ (ascii "HTTP/1.1") length then
    { x with data := { x.data with version := 0x11 } }
  else if strncmpEq at_ (ascii "HTTP/1.0") length then
    { x with data := { x.data with version := 0x10 } }
  else { x with error := 1001 }

/-- `HttpRequest::setHeader`, from `on_request_http_field`. -/
def setHeader (x : RequestRegs) (key val : Bytes) : RequestRegs :=
  { x with data := { x.data with headers := x.data.headers.set key val } }

/-- The action `a` at offset `p` of the buffer. -/
def perform (buf : Bytes) (p : Nat) (a : HttpAction) (x : RequestRegs) :
    Except Thrown RequestRegs :=
  match a with
  | .mark => .ok { x with mark := p }
  | .startField => .ok { x with fieldStart := p }
  | .writeField => .ok { x with fieldLen := len x.fieldStart p }
  | .writeValue =>
      -- `on_request_http_field`: a field without a name is dropped
      if x.fieldLen = 0 then .ok x
      else do
        let key ← stdString buf x.fieldStart x.fieldLen
        let val ← stdString buf x.mark (len x.mark p)
        pure (x.setHeader key val)
  | .requestMethod => .ok (x.onRequestMethod (buf.drop x.mark))
  | .requestUri => .ok x
  | .fragment => x.onRequestFragment <$> stdString buf x.mark (len x.mark p)
  | .startQuery => .ok { x with queryStart := p }
  | .queryString =>
      x.onRequestQuery <$> stdString buf x.queryStart (len x.queryStart p)
  | .httpVersion =>
      .ok (x.onRequestVersion (buf.drop x.mark) (len x.mark p))
  | .requestPath => x.onRequestPath <$> stdString buf x.mark (len x.mark p)
  | .done =>
      if x.xmlSent || x.jsonSent then
        .ok { x with bodyStart := x.mark, contentLen := len x.mark p + 1 }
      else .ok { x with bodyStart := p + 1 }
  | .xml => .ok { x with xmlSent := true }
  | .json => .ok { x with jsonSent := true }

/-- The entry of `http_parser_execute`. -/
def rewind (x : RequestRegs) : RequestRegs :=
  { x with mark := 0, fieldLen := 0, fieldStart := 0 }

end RequestRegs

/-- The action leaves the loop (`fbreak`). -/
def HttpAction.isDone : HttpAction → Bool
  | .done => true
  | _ => false

/-- `HttpRequestParser`. -/
structure HttpRequestParser where
  cs : Nat
  regs : RequestRegs
  deriving DecidableEq, Repr

namespace HttpRequestParser

/-- `HttpRequestParser()`. -/
def new (u : Uninit) : HttpRequestParser :=
  ⟨RequestTable.start, ⟨0, 0, 0, u.queryStart, 0, 0, false, false,
    HttpRequest.new, 0⟩⟩

/-- `HttpRequestParser::execute`: the number of bytes consumed; what is
left of the data is moved to its front. -/
def execute (u : Uninit) (ps : HttpRequestParser) (data : Bytes) :
    Except Thrown (Nat × HttpRequestParser) :=
  if data = [] then .ok (0, ps)
  else do
    let s ← drive (RequestTable.transition u.uriRelaxed) HttpAction.isDone
      (RequestRegs.perform data) 0 data ps.cs ps.regs.rewind
    -- "body starts after buffer end"
    if s.regs.bodyStart ≤ data.length then
      pure (s.pos, ⟨if ps.cs = 0 then 0 else s.cs, s.regs⟩)
    else .error .assertion

/-- `isFinished`: `http_parser_finish`. -/
def isFinished (ps : HttpRequestParser) : Int :=
  if ps.cs = 0 then -1
  else if RequestTable.firstFinal ≤ ps.cs then 1
  else 0

/-- `hasError`. -/
def hasError (ps : HttpRequestParser) : Bool :=
  ps.regs.error ≠ 0 || ps.cs = 0

/-- `getContentLength`, of the request under construction. -/
def getContentLength (lexicalCast : Bytes → Option Nat)
    (data : HttpRequest) : Nat :=
  data.headers.getHeaderAs lexicalCast (ascii "content-length")

end HttpRequestParser

end TinyServer.Http
