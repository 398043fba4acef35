/-
What the parser of requests stores, without buffers and positions.

`read` runs the machine of `http_parser_execute` over a text. Instead of
the registers it has the bytes read since they were set, and instead of
the tokens what the callbacks store of them. The bytes behind the header
are returned with it.

For a text that arrives in one read this is what `recvRequest` does:
`Proofs/Reading.lean`.
-/
import TinyServer.Http.Tokens

namespace TinyServer.Http

open Lib

/-- The bytes since `mark`, `field_start` and `query_start`, the name of
the last field, and the request; `none` after an error. -/
structure Reading where
  mark : Bytes
  field : Bytes
  query : Bytes
  name : Bytes
  data : Option HttpRequest
  deriving DecidableEq, Repr

namespace Reading

def init : Reading := ⟨[], [], [], [], some HttpRequest.new⟩

/-- A callback changes the request, or reports an error. -/
def store (z : Reading) (f : HttpRequest → Option HttpRequest) : Reading :=
  { z with data := z.data.bind f }

/-- The action `a`. -/
def act (a : HttpAction) (z : Reading) : Reading :=
  match a with
  | .mark => { z with mark := [] }
  | .startField => { z with field := [] }
  | .writeField => { z with name := z.field }
  | .writeValue => z.store fun q =>
      if z.name = [] then some q
      else some { q with headers := q.headers.set z.name z.mark }
  | .requestMethod => z.store fun q =>
      if charsToHttpMethod z.mark = .invalid then none
      else some { q with method := charsToHttpMethod z.mark }
  | .fragment => z.store fun q => some { q with fragment := z.mark }
  | .startQuery => { z with query := [] }
  | .queryString => z.store fun q => some { q with query := z.query }
  | .httpVersion => z.store fun q =>
      (versionOf z.mark).map fun v => { q with version := v }
  | .requestPath => z.store fun q => some { q with path := z.mark }
  | .requestUri | .done | .xml | .json => z

/-- A byte has been read. -/
def push (b : UInt8) (z : Reading) : Reading :=
  { z with mark := z.mark ++ [b], field := z.field ++ [b],
           query := z.query ++ [b] }

end Reading

/-- The machine over a text, from a state on: the registers where it is
done, and the bytes behind. -/
def read (relaxed : Bool) (cs : Nat) (z : Reading) :
    Bytes → Option (Reading × Bytes)
  | [] => none
  | b :: bs =>
      match RequestTable.transition relaxed cs b with
      | none => none
      | some (acts, t) =>
          if acts.any HttpAction.isDone then
            some (acts.foldl (fun z a => z.act a) z, bs)
          else read relaxed t ((acts.foldl (fun z a => z.act a) z).push b) bs

end TinyServer.Http
