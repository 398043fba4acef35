/-
The sizes that the configuration sets for HTTP messages
(http_parser.cpp).

Each is a `ConfigVar` and a static variable, which a getter returns.
`RequestSizeIniter` copies the values into the statics before `main` and
registers one callback for each variable, which stores the new value.
The static of `http.response.max_body_size` is at first a copy of
`http.response.buffer_size`.
-/
import TinyServer.Config.Basic
import TinyServer.Http.Connection

namespace TinyServer.Http

/-- The configuration variables of http_parser.cpp. -/
inductive SizeVar
  /-- `http.request.buffer_size` -/
  | requestBufferSize
  /-- `http.response.buffer_size` -/
  | responseBufferSize
  /-- `http.request.max_body_size` -/
  | requestMaxBodySize
  /-- `http.response.max_body_size` -/
  | responseMaxBodySize
  deriving DecidableEq, Repr

/-- The default value in the call of `Config::Lookup`. -/
def SizeVar.lookup : SizeVar → Nat
  | .requestBufferSize => 4 * 1024
  | .responseBufferSize => 4 * 1024
  | .requestMaxBodySize => 64 * 1024 * 1024
  | .responseMaxBodySize => 64 * 1024 * 1024

/-- `RequestSizeIniter()`: the variable that the static of this one is
copied from. -/
def SizeVar.initer : SizeVar → SizeVar
  | .requestBufferSize => .requestBufferSize
  | .responseBufferSize => .responseBufferSize
  | .requestMaxBodySize => .requestMaxBodySize
  | .responseMaxBodySize => .responseBufferSize

/-- The variables, each with the calls of its callback so far. -/
structure HttpSizes where
  vars : SizeVar → ConfigRun Nat

namespace HttpSizes

/-- Behind the static initialisers. -/
def init : HttpSizes := ⟨fun v => .new v.lookup [0]⟩

/-- `setValue` on the variable `v`. -/
def setValue (s : HttpSizes) (v : SizeVar) (value : Nat) : HttpSizes :=
  ⟨fun u => if u = v then (s.vars u).setValue value else s.vars u⟩

/-- The static of a variable: what the callback stored last, and before
that what `RequestSizeIniter` did. -/
def static (s : HttpSizes) (v : SizeVar) : Nat :=
  (s.vars v).observed.getD v.initer.lookup

/-- `HttpRequestParser::GetHttpRequestBufferSize`. -/
def getHttpRequestBufferSize (s : HttpSizes) : Nat :=
  s.static .requestBufferSize

/-- `HttpRequestParser::GetHttpRequestMaxBodyLength`. -/
def getHttpRequestMaxBodyLength (s : HttpSizes) : Nat :=
  s.static .requestMaxBodySize

/-- `HttpResponseParser::GetHttpResponseBufferSize`. -/
def getHttpResponseBufferSize (s : HttpSizes) : Nat :=
  s.static .responseBufferSize

/-- `HttpResponseParser::GetHttpResponseMaxBodyLength`. -/
def getHttpResponseMaxBodyLength (s : HttpSizes) : Nat :=
  s.static .responseMaxBodySize

/-- What a session depends on. -/
def session (s : HttpSizes) (lexicalCast : Bytes → Option Nat)
    (uninit : Uninit) : SessionEnv :=
  ⟨s.getHttpRequestBufferSize, lexicalCast, uninit⟩

/-- What a connection depends on. -/
def connection (s : HttpSizes) (lexicalCast : Bytes → Option Nat)
    (status : Int) : ConnectionEnv :=
  ⟨s.getHttpResponseBufferSize, lexicalCast, status⟩

end HttpSizes

end TinyServer.Http
