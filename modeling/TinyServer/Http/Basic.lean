/-
The HTTP data types (http.h, http.cpp).

A `std::string` is a list of bytes. `std::map` with
`CaseInsensitiveLess` is a list of pairs in key order; as in the source,
the order is that of `strcasecmp` on the C strings, and assigning to a
present key keeps the spelling under which it was first inserted.

`boost::lexical_cast<uint64_t>` is a parameter of the functions that use
it: `none` where it throws.
-/
import Mathlib.Data.List.Basic

namespace TinyServer.Http

abbrev Bytes := List UInt8

/-- The bytes of an ASCII literal. -/
def ascii (s : String) : Bytes :=
  s.toList.map fun c => UInt8.ofNat c.toNat

/-- A number written to a stream, or `std::to_string`. -/
def toDecimal (n : Nat) : Bytes := ascii (toString n)

-- ================================================================== methods

/-- `HttpMethod`. -/
inductive HttpMethod
  | delete
  | get
  | head
  | post
  | put
  | connect
  | options
  | trace
  | copy
  | lock
  | mkcol
  | move
  | propfind
  | proppatch
  | search
  | unlock
  | bind
  | rebind
  | unbind
  | acl
  | report
  | mkactivity
  | checkout
  | merge
  | msearch
  | notify
  | subscribe
  | unsubscribe
  | patch
  | purge
  | mkcalendar
  | link
  | unlink
  | source
  | invalid
  deriving DecidableEq, Repr

/-- `HTTP_METHOD_MAP`, in its order. -/
def httpMethodMap : List (HttpMethod × Bytes) :=
  [(.delete, ascii "DELETE"), (.get, ascii "GET"), (.head, ascii "HEAD"),
    (.post, ascii "POST"), (.put, ascii "PUT"),
    (.connect, ascii "CONNECT"), (.options, ascii "OPTIONS"),
    (.trace, ascii "TRACE"), (.copy, ascii "COPY"), (.lock, ascii "LOCK"),
    (.mkcol, ascii "MKCOL"), (.move, ascii "MOVE"),
    (.propfind, ascii "PROPFIND"), (.proppatch, ascii "PROPPATCH"),
    (.search, ascii "SEARCH"), (.unlock, ascii "UNLOCK"),
    (.bind, ascii "BIND"), (.rebind, ascii "REBIND"),
    (.unbind, ascii "UNBIND"), (.acl, ascii "ACL"),
    (.report, ascii "REPORT"), (.mkactivity, ascii "MKACTIVITY"),
    (.checkout, ascii "CHECKOUT"), (.merge, ascii "MERGE"),
    (.msearch, ascii "M-SEARCH"), (.notify, ascii "NOTIFY"),
    (.subscribe, ascii "SUBSCRIBE"), (.unsubscribe, ascii "UNSUBSCRIBE"),
    (.patch, ascii "PATCH"), (.purge, ascii "PURGE"),
    (.mkcalendar, ascii "MKCALENDAR"), (.link, ascii "LINK"),
    (.unlink, ascii "UNLINK"), (.source, ascii "SOURCE")]

/-- `CharsToHttpMethod`: the first method whose name the characters at
`n` start with. -/
def charsToHttpMethod (n : Bytes) : HttpMethod :=
  match httpMethodMap.find? fun m => m.2.isPrefixOf n with
  | some m => m.1
  | none => .invalid

/-- `HttpMethodToString`. -/
def httpMethodToString (hm : HttpMethod) : Bytes :=
  match httpMethodMap.find? fun m => m.1 = hm with
  | some m => m.2
  | none => ascii "<unknow method>"

/-- `StringToHttpMethod`. The definition of `XX` ends in a backslash, so
it swallows the line `HTTP_METHOD_MAP(XX)` behind it, and what is left of
the body is the last `return`. -/
def stringToHttpMethod (_n : Bytes) : HttpMethod := .invalid

/-- `HTTP_STATUS_MAP`, in its order. -/
def httpStatusMap : List (Int × Bytes) :=
  [(100, ascii "Continue"), (101, ascii "Switching Protocols"),
    (102, ascii "Processing"), (200, ascii "OK"), (201, ascii "Created"),
    (202, ascii "Accepted"), (203, ascii "Non-Authoritative Information"),
    (204, ascii "No Content"), (205, ascii "Reset Content"),
    (206, ascii "Partial Content"), (207, ascii "Multi-Status"),
    (208, ascii "Already Reported"), (226, ascii "IM Used"),
    (300, ascii "Multiple Choices"), (301, ascii "Moved Permanently"),
    (302, ascii "Found"), (303, ascii "See Other"),
    (304, ascii "Not Modified"), (305, ascii "Use Proxy"),
    (307, ascii "Temporary Redirect"), (308, ascii "Permanent Redirect"),
    (400, ascii "Bad Request"), (401, ascii "Unauthorized"),
    (402, ascii "Payment Required"), (403, ascii "Forbidden"),
    (404, ascii "Not Found"), (405, ascii "Method Not Allowed"),
    (406, ascii "Not Acceptable"),
    (407, ascii "Proxy Authentication Required"),
    (408, ascii "Request Timeout"), (409, ascii "Conflict"),
    (410, ascii "Gone"), (411, ascii "Length Required"),
    (412, ascii "Precondition Failed"), (413, ascii "Payload Too Large"),
    (414, ascii "URI Too Long"), (415, ascii "Unsupported Media Type"),
    (416, ascii "Range Not Satisfiable"), (417, ascii "Expectation Failed"),
    (421, ascii "Misdirected Request"), (422, ascii "Unprocessable Entity"),
    (423, ascii "Locked"), (424, ascii "Failed Dependency"),
    (426, ascii "Upgrade Required"), (428, ascii "Precondition Required"),
    (429, ascii "Too Many Requests"),
    (431, ascii "Request Header Fields Too Large"),
    (451, ascii "Unavailable For Legal Reasons"),
    (500, ascii "Internal Server Error"), (501, ascii "Not Implemented"),
    (502, ascii "Bad Gateway"), (503, ascii "Service Unavailable"),
    (504, ascii "Gateway Timeout"), (505, ascii "HTTP Version Not Supported"),
    (506, ascii "Variant Also Negotiates"),
    (507, ascii "Insufficient Storage"), (508, ascii "Loop Detected"),
    (510, ascii "Not Extended"),
    (511, ascii "Network Authentication Required")]

/-- `HttpStatusToString`. -/
def httpStatusToString (hs : Int) : Bytes :=
  match httpStatusMap.find? fun m => m.1 = hs with
  | some m => m.2
  | none => ascii "<unknow status>"

-- ================================================================== headers

/-- `tolower` of the C locale. -/
def toLower (b : UInt8) : UInt8 :=
  if 65 ≤ b ∧ b ≤ 90 then b + 32 else b

/-- The C string of a `std::string`. -/
def cStr (s : Bytes) : Bytes := s.takeWhile (· ≠ 0)

/-- `strcasecmp` on lists without a NUL. -/
def caseCompare : Bytes → Bytes → Ordering
  | [], [] => .eq
  | [], _ :: _ => .lt
  | _ :: _, [] => .gt
  | a :: as, b :: bs =>
      if toLower a < toLower b then .lt
      else if toLower b < toLower a then .gt
      else caseCompare as bs

/-- `strcasecmp(lhs.c_str(), rhs.c_str())`. -/
def strcasecmp (lhs rhs : Bytes) : Ordering :=
  caseCompare (cStr lhs) (cStr rhs)

/-- `HttpRequest::MapType`. -/
abbrev Headers := List (Bytes × Bytes)

/-- `m_headers[key] = val`. -/
def Headers.set (key val : Bytes) : Headers → Headers
  | [] => [(key, val)]
  | (k, v) :: rest =>
      match strcasecmp key k with
      | .lt => (key, val) :: (k, v) :: rest
      | .eq => (k, val) :: rest
      | .gt => (k, v) :: Headers.set key val rest

/-- `m_headers.find(key)`. -/
def Headers.find (h : Headers) (key : Bytes) : Option Bytes :=
  (h.find? fun kv => strcasecmp kv.1 key = .eq).map Prod.snd

/-- `getHeader(key, "")`. -/
def Headers.getHeader (h : Headers) (key : Bytes) : Bytes :=
  (h.find key).getD []

/-- `getHeaderAs<uint64_t>(key, 0)`. -/
def Headers.getHeaderAs (lexicalCast : Bytes → Option Nat) (h : Headers)
    (key : Bytes) : Nat :=
  ((h.find key).bind lexicalCast).getD 0

-- ================================================================== messages

/-- `HttpRequest`. -/
structure HttpRequest where
  method : HttpMethod
  version : Nat
  close : Bool
  path : Bytes
  query : Bytes
  fragment : Bytes
  body : Bytes
  headers : Headers
  deriving DecidableEq, Repr

/-- `HttpRequest()`. -/
def HttpRequest.new : HttpRequest :=
  ⟨.get, 0x11, true, ascii "/", [], [], [], []⟩

/-- `\r\n` -/
def crlf : Bytes := [13, 10]

/-- The lines of `m_headers` in `HttpRequest::dump` and
`HttpResponse::dump`, without the one for the connection. -/
def Headers.dump (h : Headers) : Bytes :=
  h.flatMap fun kv =>
    if strcasecmp kv.1 (ascii "connection") = .eq then []
    else kv.1 ++ ascii ": " ++ kv.2 ++ crlf

/-- `HttpRequest::dump`, `toString`. -/
def HttpRequest.dump (q : HttpRequest) : Bytes :=
  httpMethodToString q.method ++ ascii " " ++ q.path
    ++ (if q.query = [] then [] else ascii "?") ++ q.query
    ++ (if q.fragment = [] then [] else ascii "#") ++ q.fragment
    ++ ascii " HTTP/" ++ toDecimal (q.version / 16) ++ ascii "."
    ++ toDecimal (q.version % 16) ++ crlf
    ++ ascii "connection: "
    ++ (if q.close then ascii "close" else ascii "keep-alive") ++ crlf
    ++ q.headers.dump
    ++ (if q.body = [] then crlf
      else ascii "content-length: " ++ toDecimal q.body.length ++ crlf ++ crlf
        ++ q.body)

/-- `HttpResponse`; `m_status` is the code. -/
structure HttpResponse where
  status : Int
  version : Nat
  body : Bytes
  reason : Bytes
  headers : Headers
  close : Bool
  deriving DecidableEq, Repr

/-- `HttpResponse()`. -/
def HttpResponse.new : HttpResponse := ⟨200, 0x11, [], [], [], true⟩

/-- `HttpResponse::dump`, `toString`. -/
def HttpResponse.dump (r : HttpResponse) : Bytes :=
  ascii "HTTP/" ++ toDecimal (r.version / 16) ++ ascii "."
    ++ toDecimal (r.version % 16) ++ ascii " "
    ++ toDecimal (r.status % 0x100000000).toNat ++ ascii " "
    ++ (if r.reason = [] then httpStatusToString r.status else r.reason)
    ++ crlf
    ++ r.headers.dump
    ++ ascii "connection: "
    ++ (if r.close then ascii "close" else ascii "keep-alive") ++ crlf
    ++ (if r.body = [] then crlf
      else ascii "content-length: " ++ toDecimal r.body.length ++ crlf ++ crlf
        ++ r.body)

end TinyServer.Http
