/-
The tokens of a request, apart from buffers and reads.

`scan` runs the machine of `http_parser_execute` over a whole text and
lists the tokens it delimits, by their positions in the text: the method,
the path, the query, the fragment, the version, and a name and a value
for each header field.

# Cuts

When the text arrives in pieces, a callback sees of a token that ends at
`e` only what stands in the piece that has position `e`; `base` is where
that piece starts. `seen` is the rest of the token from there on, and
`Token.write` what a callback stores of it. `query_start` survives the
beginning of a piece although it is an offset into the piece where it was
taken, so of a query other bytes are seen, or a negative number of them.

`replay` is the request that the callbacks build from a list of tokens.
-/
import TinyServer.Http.RequestParser
import TinyServer.Lib.Overlay

namespace TinyServer.Http

open Lib

/-- A token, from `s` up to `e`; a field has its name from `ns` up to
`ne`. -/
inductive Token
  | method (s e : Nat)
  | path (s e : Nat)
  | query (s e : Nat)
  | fragment (s e : Nat)
  | version (s e : Nat)
  | field (ns ne s e : Nat)
  deriving DecidableEq, Repr

/-- The registers of the scan: positions in the text, and the tokens so
far. -/
structure Scan where
  mark : Nat
  fieldStart : Nat
  fieldEnd : Nat
  queryStart : Nat
  tokens : List Token
  deriving DecidableEq, Repr

namespace Scan

def init : Scan := ⟨0, 0, 0, 0, []⟩

/-- The action `a` at position `p`. -/
def act (p : Nat) (a : HttpAction) (y : Scan) : Scan :=
  match a with
  | .mark => { y with mark := p }
  | .startField => { y with fieldStart := p }
  | .writeField => { y with fieldEnd := p }
  | .writeValue =>
      { y with tokens := y.tokens ++
          [.field y.fieldStart y.fieldEnd y.mark p] }
  | .requestMethod => { y with tokens := y.tokens ++ [.method y.mark p] }
  | .fragment => { y with tokens := y.tokens ++ [.fragment y.mark p] }
  | .startQuery => { y with queryStart := p }
  | .queryString =>
      { y with tokens := y.tokens ++ [.query y.queryStart p] }
  | .httpVersion => { y with tokens := y.tokens ++ [.version y.mark p] }
  | .requestPath => { y with tokens := y.tokens ++ [.path y.mark p] }
  | .requestUri | .done | .xml | .json => y

end Scan

/-- The machine over the whole text `r`. -/
def scan (relaxed : Bool) (r : Bytes) : Stop Scan :=
  sweep (RequestTable.transition relaxed) HttpAction.isDone Scan.act 0 r
    RequestTable.start Scan.init

-- ===================================================================== cuts

/-- The start of the piece that has position `q`. -/
def base : List Bytes → Nat → Nat
  | [], _ => 0
  | seg :: rest, q =>
      if q < seg.length then 0 else seg.length + base rest (q - seg.length)

/-- Of the token from `s` up to `e`, the part from `o` on. -/
def seen (r : Bytes) (o s e : Nat) : Bytes := slice r (max s o) (e - max s o)

/-- What `on_request_version` makes of a text. -/
def versionOf (t : Bytes) : Option Nat :=
  if strncmpEq t (ascii "HTTP/1.1") t.length then some 0x11
  else if strncmpEq t (ascii "HTTP/1.0") t.length then some 0x10
  else none

variable (r : Bytes) (B : Nat → Nat)

/-- What `on_request_http_field` makes of a field. -/
def Token.addField (h : Headers) : Token → Headers
  | .field ns ne s e =>
      if seen r (B e) ns ne = [] then h
      else h.set (seen r (B e) ns ne) (seen r (B e) s e)
  | _ => h

/-- What the callback of a token stores; `none` when it reports an error
or throws. -/
def Token.write (q : HttpRequest) (t : Token) : Option HttpRequest :=
  match t with
  | .method s e =>
      let hm := charsToHttpMethod (seen r (B e) s e)
      if hm = .invalid then none else some { q with method := hm }
  | .path s e => some { q with path := seen r (B e) s e }
  | .query s e =>
      let s' := B e + (s - B s)
      if e < s' then none else some { q with query := slice r s' (e - s') }
  | .fragment s e => some { q with fragment := seen r (B e) s e }
  | .version s e =>
      (versionOf (seen r (B e) s e)).map fun v => { q with version := v }
  | .field .. => some { q with headers := t.addField r B q.headers }

/-- The request that the callbacks build from the tokens. -/
def replay (ts : List Token) : Option HttpRequest :=
  ts.foldlM (Token.write r B) HttpRequest.new

/-- The headers that the callbacks build from the tokens. -/
def headersOf (ts : List Token) : Headers :=
  ts.foldl (Token.addField r B) []

/-- A cut leaves a token intact: there is none after the first byte and
up to the end of a path, a query or a fragment, and what it leaves of a
method or a version is taken for the same. -/
def Token.Intact : Token → Prop
  | .method s e =>
      charsToHttpMethod (seen r (B e) s e) = charsToHttpMethod (seen r 0 s e)
  | .path s e | .query s e | .fragment s e => B e ≤ s
  | .version s e => versionOf (seen r (B e) s e) = versionOf (seen r 0 s e)
  | .field .. => True

instance (t : Token) : Decidable (t.Intact r B) :=
  match t with
  | .method .. | .version .. => inferInstanceAs (Decidable (_ = _))
  | .path .. | .query .. | .fragment .. => inferInstanceAs (Decidable (_ ≤ _))
  | .field .. => inferInstanceAs (Decidable True)

/-- The cuts leave the request intact: its tokens, and the headers that
what is left of the fields gives. -/
structure Intact (ts : List Token) : Prop where
  tokens : ∀ t ∈ ts, t.Intact r B
  headers : headersOf r B ts = headersOf r (fun _ => 0) ts

instance (ts : List Token) : Decidable (Intact r B ts) :=
  decidable_of_iff ((∀ t ∈ ts, t.Intact r B)
      ∧ headersOf r B ts = headersOf r (fun _ => 0) ts)
    ⟨fun h => ⟨h.1, h.2⟩, fun h => ⟨h.tokens, h.headers⟩⟩

end TinyServer.Http
