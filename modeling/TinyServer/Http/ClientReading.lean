/-
What the parser of responses stores, without buffers and positions.

`readResponse` runs the machine of `httpclient_parser_execute` over a
text, as `read` does for requests. `strtol`, `strncmp` and the name of a
field look at the text from the start of a token on, so the actions get
the bytes from the current one on as well. Of a chunk only is recorded
that there is one.

For a header that arrives in one read this is what `recvResponse` does:
`Proofs/ClientReading.lean`.
-/
import TinyServer.Http.Connection

namespace TinyServer.Http

/-- The bytes since `mark` and `field_start`, the length of the name of
the last field, and the response. -/
structure ResponseReading where
  mark : Bytes
  field : Bytes
  fieldLen : Nat
  data : HttpResponse
  chunked : Bool
  deriving DecidableEq, Repr

namespace ResponseReading

def init : ResponseReading := ⟨[], [], 0, HttpResponse.new, false⟩

/-- The action `a`, with the bytes `ahead`. -/
def act (ahead : Bytes) (z : ResponseReading) (a : ClientAction) :
    ResponseReading :=
  match a with
  | .mark => { z with mark := [] }
  | .startField => { z with field := [] }
  | .writeField => { z with fieldLen := z.field.length }
  | .writeValue =>
      if z.fieldLen = 0 then z
      else { z with data := { z.data with
        headers := z.data.headers.set ((z.field ++ ahead).take z.fieldLen)
          z.mark } }
  | .reasonPhrase => { z with data := { z.data with reason := z.mark } }
  | .statusCode => { z with data := { z.data with
      status := toInt (strtol 10 (z.mark ++ ahead)) } }
  | .httpVersion => { z with data := { z.data with
      version :=
        if strncmpEq (z.mark ++ ahead) (ascii "HTTP/1.0") z.mark.length then
          0x11
        else 0x10 } }
  | .chunkSize | .transChunked => { z with chunked := true }
  | .writeContentLen | .writeConnectionClose | .done => z

/-- A byte has been read. -/
def push (z : ResponseReading) (b : UInt8) : ResponseReading :=
  { z with mark := z.mark ++ [b], field := z.field ++ [b] }

end ResponseReading

/-- The machine over a text, from a state on: where it is done, its state,
the registers and the bytes behind. -/
def readResponse (cs : Nat) (z : ResponseReading) :
    Bytes → Option (Nat × ResponseReading × Bytes)
  | [] => none
  | b :: bs =>
      match ClientTable.transition cs b with
      | none => none
      | some (acts, t) =>
          if acts.any ClientAction.isDone then
            some (t, acts.foldl (fun z a => z.act (b :: bs) a) z, bs)
          else
            readResponse t
              ((acts.foldl (fun z a => z.act (b :: bs) a) z).push b) bs

end TinyServer.Http
