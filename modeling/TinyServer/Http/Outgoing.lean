/-
The requests that `HttpConnection::DoRequest` and
`HttpConnectionPool::doRequest` build (http_connection.cpp).

The headers of the caller are an `std::map<std::string, std::string>`,
which is ordered by the bytes of the names: names in different spellings
are different keys. The headers of a request are ordered by `strcasecmp`.
-/
import TinyServer.Lib.AssocList
import TinyServer.Uri.Basic

namespace TinyServer.Http

open Lib

/-- `std::map<std::string, std::string>`. -/
structure HeaderMap where
  entries : List (Bytes × Bytes)
  sorted : Assoc.Sorted Ord.compare entries

/-- `req` and `has_host`. -/
structure Outgoing where
  req : HttpRequest
  hasHost : Bool
  deriving DecidableEq, Repr

/-- The body of the loop over the headers. -/
def Outgoing.add (o : Outgoing) (item : Bytes × Bytes) : Outgoing :=
  if strcasecmp item.1 (ascii "connection") = .eq then
    if strcasecmp item.2 (ascii "keep-alive") = .eq then
      { o with req := { o.req with close := false } }
    else o
  else
    { req := { o.req with headers := o.req.headers.set item.1 item.2 }
      hasHost :=
        if o.hasHost = false ∧ strcasecmp item.1 (ascii "host") = .eq then
          item.2 ≠ []
        else o.hasHost }

/-- The loop and what follows it; `host` is the value of `Host` where the
caller gives none. -/
def Outgoing.finish (req : HttpRequest) (header : HeaderMap)
    (host body : Bytes) : HttpRequest :=
  let o := header.entries.foldl Outgoing.add ⟨req, false⟩
  let headers :=
    if o.hasHost = false then o.req.headers.set (ascii "Host") host
    else o.req.headers
  { o.req with headers := headers, body := body }

/-- The request of `HttpConnection::DoRequest(method, uri, …)`. -/
def HttpConnection.doRequest (method : HttpMethod) (uri : Uri)
    (header : HeaderMap) (body : Bytes) : HttpRequest :=
  let req := { HttpRequest.new with
    path := uri.getPath, query := uri.query, fragment := uri.fragment
    method := method }
  Outgoing.finish req header uri.host body

/-- The request of `HttpConnectionPool::doRequest(method, url, …)`, for a
pool with the members `m_host` and `m_vhost`. -/
def HttpConnectionPool.doRequest (host vhost : Bytes) (method : HttpMethod)
    (url : Bytes) (header : HeaderMap) (body : Bytes) : HttpRequest :=
  let req := { HttpRequest.new with
    path := url, method := method, close := false }
  Outgoing.finish req header (if vhost = [] then host else vhost) body

/-- A name of the caller is that of the header `name`. -/
abbrev Spells (name : Bytes) (item : Bytes × Bytes) : Prop :=
  strcasecmp item.1 name = .eq

/-- One `Host` that is not empty, and under every other name but
`Connection` one of the values that the caller gives for it. -/
structure RequestUsable (header : HeaderMap) (req : HttpRequest) : Prop where
  host : ∃ item, req.headers.filter (Spells (ascii "host")) = [item]
    ∧ item.2 ≠ []
  others : ∀ item ∈ header.entries, ¬ Spells (ascii "connection") item →
    ¬ Spells (ascii "host") item →
    ∃ item' ∈ header.entries, Spells item.1 item'
      ∧ req.headers.find item.1 = some item'.2

/-- The caller gives only empty values for `Host`, or none, or the last
spelling in the order of the bytes has a value that is not empty. -/
def HostKept (header : HeaderMap) : Prop :=
  (∀ item ∈ header.entries, Spells (ascii "host") item → item.2 = [])
    ∨ ∃ item ∈ header.entries, Spells (ascii "host") item ∧ item.2 ≠ []
      ∧ ∀ item' ∈ header.entries, Spells (ascii "host") item' →
        Ord.compare item.1 item'.1 ≠ .lt

end TinyServer.Http
