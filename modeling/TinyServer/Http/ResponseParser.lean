/-
`httpclient_parser` (httpclient_parser.h, httpclient_parser.rl) and
`HttpResponseParser` (http_parser.h, http_parser.cpp).

# The registers

`mark`, `field_start` and `field_len` are offsets into the buffer of the
current `httpclient_parser_execute`, zero on entry. An offset is taken
before its length is, in the same buffer, so no length is negative. The
callbacks for the end of the header and for a chunk do nothing.

# Assertions

`body_start` is not reset on entry. `httpclient_parser_execute` asserts
that it is at most the length of the buffer; a call that fails this is
`none`. The other assertions and checks at the end compare offsets with
the length of the buffer they were taken in and are left out.
-/
import Mathlib.Algebra.Group.Int.Defs
import TinyServer.Http.ClientTable
import TinyServer.Http.Session

namespace TinyServer.Http

open Lib

-- ==================================================================== strtol

/-- `isspace` of the C locale. -/
def isSpace (b : UInt8) : Bool := (9 ≤ b && b ≤ 13) || b = 32

/-- The value of a digit in a base up to 16. -/
def digitVal (base : Nat) (b : UInt8) : Option Nat :=
  let v :=
    if 48 ≤ b ∧ b ≤ 57 then some (b.toNat - 48)
    else if 65 ≤ b ∧ b ≤ 70 then some (b.toNat - 55)
    else if 97 ≤ b ∧ b ≤ 102 then some (b.toNat - 87)
    else none
  v.filter (· < base)

/-- The number that the leading digits of a text spell, after `acc`. -/
def digitsValue (base acc : Nat) : Bytes → Nat
  | [] => acc
  | b :: bs =>
      match digitVal base b with
      | some d => digitsValue base (acc * base + d) bs
      | none => acc

/-- An optional `0x` in front of a hexadecimal digit. -/
def dropHexMark (base : Nat) : Bytes → Bytes
  | 48 :: x :: d :: bs =>
      if base = 16 ∧ (x = 120 ∨ x = 88) ∧ (digitVal 16 d).isSome then d :: bs
      else 48 :: x :: d :: bs
  | bs => bs

/-- `strtol(s, NULL, base)`, for a base of 10 or 16. -/
def strtol (base : Nat) (s : Bytes) : Int :=
  let s := s.dropWhile isSpace
  let negative := s.head? = some 45
  let s := if negative ∨ s.head? = some 43 then s.tail else s
  let n := digitsValue base 0 (dropHexMark base s)
  if negative then max (-(n : Int)) (-2 ^ 63) else min (n : Int) (2 ^ 63 - 1)

-- ================================================================== callbacks

/-- The registers of `httpclient_parser`, with `m_data` and `m_error` of
the `HttpResponseParser` that its callbacks write to. -/
structure ResponseRegs where
  mark : Nat
  fieldStart : Nat
  fieldLen : Nat
  bodyStart : Nat
  contentLen : Int
  status : Int
  chunked : Bool
  chunksDone : Bool
  close : Bool
  data : HttpResponse
  error : Nat
  deriving DecidableEq, Repr

namespace ResponseRegs

/-- `on_response_reason`. -/
def onResponseReason (x : ResponseRegs) (v : Bytes) : ResponseRegs :=
  { x with data := { x.data with reason := v } }

/-- `on_response_status`. -/
def onResponseStatus (x : ResponseRegs) (at_ : Bytes) : ResponseRegs :=
  { x with data := { x.data with status := toInt (strtol 10 at_) } }

/-- `on_response_version`: both tests are for `HTTP/1.0`. -/
def onResponseVersion (x : ResponseRegs) (at_ : Bytes) (length : Nat) :
    ResponseRegs :=
  if strncmpEq at_ (ascii "HTTP/1.0") length then
    { x with data := { x.data with version := 0x11 } }
  else if !strncmpEq at_ (ascii "HTTP/1.0") length then
    { x with data := { x.data with version := 0x10 } }
  else { x with error := 1001 }

/-- `on_response_http_field`: a field without a name is dropped. -/
def onResponseHttpField (x : ResponseRegs) (field : Bytes) (flen : Nat)
    (value : Bytes) : ResponseRegs :=
  if flen = 0 then x
  else { x with data := { x.data with
    headers := x.data.headers.set (field.take flen) value } }

/-- The action `a` at offset `p` of the buffer. -/
def perform (buf : Bytes) (p : Nat) (a : ClientAction) (x : ResponseRegs) :
    ResponseRegs :=
  let token := (buf.drop x.mark).take (p - x.mark)
  match a with
  | .mark => { x with mark := p }
  | .startField => { x with fieldStart := p }
  | .writeField => { x with fieldLen := p - x.fieldStart }
  | .writeContentLen =>
      { x with contentLen := toInt (strtol 10 (buf.drop x.mark)) }
  | .writeConnectionClose => { x with close := true }
  | .writeValue =>
      x.onResponseHttpField (buf.drop x.fieldStart) x.fieldLen token
  | .reasonPhrase => x.onResponseReason token
  | .statusCode =>
      { x with status := toInt (strtol 10 (buf.drop x.mark))
        }.onResponseStatus (buf.drop x.mark)
  | .httpVersion => x.onResponseVersion (buf.drop x.mark) (p - x.mark)
  | .chunkSize =>
      let n := toInt (strtol 16 (buf.drop x.mark))
      { x with
        chunked := true
        contentLen := n
        chunksDone := n ≤ 0 }
  | .transChunked => { x with chunked := true }
  | .done => { x with bodyStart := p + 1 }

/-- The entry of `httpclient_parser_execute`. -/
def rewind (x : ResponseRegs) : ResponseRegs :=
  { x with mark := 0, fieldLen := 0, fieldStart := 0 }

/-- `httpclient_parser_init`, of the registers. -/
def init (x : ResponseRegs) : ResponseRegs :=
  { x with
    bodyStart := 0
    contentLen := -1
    chunked := false
    chunksDone := false
    mark := 0
    fieldLen := 0
    fieldStart := 0
    close := false }

end ResponseRegs

-- ================================================================= the parser

/-- The action leaves the loop (`fbreak`). -/
def ClientAction.isDone : ClientAction → Bool
  | .done => true
  | _ => false

/-- `HttpResponseParser`. -/
structure HttpResponseParser where
  cs : Nat
  regs : ResponseRegs
  deriving DecidableEq, Repr

namespace HttpResponseParser

/-- `HttpResponseParser()`; `httpclient_parser_init` leaves `status` as it
was in memory. -/
def new (status : Int) : HttpResponseParser :=
  ⟨ClientTable.start,
    ⟨0, 0, 0, 0, -1, status, false, false, false, HttpResponse.new, 0⟩⟩

/-- `httpclient_parser_init`. -/
def init (ps : HttpResponseParser) : HttpResponseParser :=
  ⟨ClientTable.start, ps.regs.init⟩

/-- `HttpResponseParser::execute`: the number of bytes consumed; what is
left of the data is moved to its front. -/
def execute (ps : HttpResponseParser) (data : Bytes) (chunk : Bool) :
    Option (Nat × HttpResponseParser) :=
  let ps := if chunk then ps.init else ps
  let s := sweep ClientTable.transition ClientAction.isDone
    (ResponseRegs.perform data) 0 data ps.cs ps.regs.rewind
  if s.regs.bodyStart ≤ data.length then some (s.pos, ⟨s.cs, s.regs⟩)
  else none

/-- `isFinished`: `httpclient_parser_finish`. -/
def isFinished (ps : HttpResponseParser) : Int :=
  if ps.cs = 0 then -1
  else if ps.cs = ClientTable.firstFinal then 1
  else 0

/-- `hasError`. -/
def hasError (ps : HttpResponseParser) : Bool :=
  ps.regs.error ≠ 0 || ps.cs = 0

/-- `getContentLength`. -/
def getContentLength (lexicalCast : Bytes → Option Nat)
    (ps : HttpResponseParser) : Nat :=
  ps.regs.data.headers.getHeaderAs lexicalCast (ascii "content-length")

end HttpResponseParser

end TinyServer.Http
