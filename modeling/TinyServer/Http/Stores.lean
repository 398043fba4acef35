/-
The three stores of a request (http.h, http.cpp): headers, parameters and
cookies, with the accessors that convert what they find.

`boost::lexical_cast<T>` is a parameter, none where it throws. `val` of
the `check` functions is an argument and, as an out parameter, the first
part of the result.
-/
import TinyServer.Http.Basic
import TinyServer.Lib.LastSet

namespace TinyServer.Http

open Lib

/-- `m.erase(key)`. -/
def Headers.erase (key : Bytes) (h : Headers) : Headers :=
  h.filter fun kv => strcasecmp kv.1 key ≠ .eq

/-- `checkGetAs`. -/
def checkGetAs {T : Type} (lexicalCast : Bytes → Option T) (m : Headers)
    (key : Bytes) (val dflt : T) : T × Bool :=
  match m.find key with
  | none => (dflt, false)
  | some s =>
      match lexicalCast s with
      | some t => (t, true)
      | none => (val, false)

/-- `getAs`. -/
def getAs {T : Type} (lexicalCast : Bytes → Option T) (m : Headers)
    (key : Bytes) (dflt : T) : T :=
  match m.find key with
  | none => dflt
  | some s =>
      match lexicalCast s with
      | some t => t
      | none => dflt

/-- `HttpRequest` with all its maps. -/
structure StoredRequest extends HttpRequest where
  params : Headers
  cookies : Headers
  deriving DecidableEq, Repr

namespace StoredRequest

/-- `HttpRequest(version, close)`. -/
def new (version : Nat) (close : Bool) : StoredRequest :=
  { HttpRequest.new with
    version := version, close := close, params := [], cookies := [] }

variable (q : StoredRequest)

def getHeader (key dflt : Bytes) : Bytes :=
  match q.headers.find key with
  | none => dflt
  | some val => val

def getParma (key dflt : Bytes) : Bytes :=
  match q.params.find key with
  | none => dflt
  | some val => val

def getCookie (key dflt : Bytes) : Bytes :=
  match q.cookies.find key with
  | none => dflt
  | some val => val

def setHeader (key val : Bytes) : StoredRequest :=
  { q with headers := q.headers.set key val }

def setParam (key val : Bytes) : StoredRequest :=
  { q with params := q.params.set key val }

def setCookie (key val : Bytes) : StoredRequest :=
  { q with cookies := q.cookies.set key val }

def delHeader (key : Bytes) : StoredRequest :=
  { q with headers := q.headers.erase key }

def delParam (key : Bytes) : StoredRequest :=
  { q with params := q.params.erase key }

def delCookie (key : Bytes) : StoredRequest :=
  { q with cookies := q.cookies.erase key }

section

variable {T : Type} (lexicalCast : Bytes → Option T)

def checkHeaderAs (key : Bytes) (val dflt : T) : T × Bool :=
  checkGetAs lexicalCast q.headers key val dflt

def getHeaderAs (key : Bytes) (dflt : T) : T :=
  getAs lexicalCast q.headers key dflt

/-- It looks in `m_headers`. -/
def checkParamAs (key : Bytes) (val dflt : T) : T × Bool :=
  checkGetAs lexicalCast q.headers key val dflt

/-- It looks in `m_headers`. -/
def getParamAs (key : Bytes) (dflt : T) : T :=
  getAs lexicalCast q.headers key dflt

/-- It looks in `m_headers`. -/
def checkCookieAs (key : Bytes) (val dflt : T) : T × Bool :=
  checkGetAs lexicalCast q.headers key val dflt

/-- It looks in `m_headers`. -/
def getCookieAs (key : Bytes) (dflt : T) : T :=
  getAs lexicalCast q.headers key dflt

end

end StoredRequest

-- =============================================================== the stores

/-- The stores of a request. -/
inductive Store
  | headers
  | params
  | cookies
  deriving DecidableEq, Repr

namespace StoredRequest

variable (q : StoredRequest)

/-- `m_headers`, `m_params`, `m_cookies`. -/
def maps : Store → Headers
  | .headers => q.headers
  | .params => q.params
  | .cookies => q.cookies

/-- `getHeader`, `getParma`, `getCookie`. -/
def get : Store → Bytes → Bytes → Bytes
  | .headers => q.getHeader
  | .params => q.getParma
  | .cookies => q.getCookie

section

variable {T : Type} (lexicalCast : Bytes → Option T)

/-- `getHeaderAs`, `getParamAs`, `getCookieAs`. -/
def typed : Store → Bytes → T → T
  | .headers => q.getHeaderAs lexicalCast
  | .params => q.getParamAs lexicalCast
  | .cookies => q.getCookieAs lexicalCast

/-- `checkHeaderAs`, `checkParamAs`, `checkCookieAs`. -/
def check : Store → Bytes → T → T → T × Bool
  | .headers => q.checkHeaderAs lexicalCast
  | .params => q.checkParamAs lexicalCast
  | .cookies => q.checkCookieAs lexicalCast

end

end StoredRequest

/-- The calls that change a store. -/
inductive StoreCall
  | setHeader (key val : Bytes)
  | setParam (key val : Bytes)
  | setCookie (key val : Bytes)
  | delHeader (key : Bytes)
  | delParam (key : Bytes)
  | delCookie (key : Bytes)
  deriving DecidableEq, Repr

namespace StoreCall

def store : StoreCall → Store
  | setHeader _ _ => .headers
  | setParam _ _ => .params
  | setCookie _ _ => .cookies
  | delHeader _ => .headers
  | delParam _ => .params
  | delCookie _ => .cookies

def key : StoreCall → Bytes
  | setHeader key _ => key
  | setParam key _ => key
  | setCookie key _ => key
  | delHeader key => key
  | delParam key => key
  | delCookie key => key

/-- The value that the call leaves under its key. -/
def left : StoreCall → Option Bytes
  | setHeader _ val => some val
  | setParam _ val => some val
  | setCookie _ val => some val
  | delHeader _ => none
  | delParam _ => none
  | delCookie _ => none

/-- What the call does to the value in the store `s` under the keys that
are `k` up to the case of letters. -/
def under (s : Store) (k : Bytes) (c : StoreCall) : Option (Option Bytes) :=
  if c.store = s ∧ c.key.map toLower = k.map toLower then some c.left
  else none

end StoreCall

namespace StoredRequest

/-- The call on a request. -/
def call (q : StoredRequest) : StoreCall → StoredRequest
  | .setHeader key val => q.setHeader key val
  | .setParam key val => q.setParam key val
  | .setCookie key val => q.setCookie key val
  | .delHeader key => q.delHeader key
  | .delParam key => q.delParam key
  | .delCookie key => q.delCookie key

/-- Calls on a new request, one after the other. -/
def calls (version : Nat) (close : Bool) (cs : List StoreCall) :
    StoredRequest :=
  cs.foldl call (new version close)

/-- What the typed accessors of the store `s` give back is the conversion
of what is in it under `k`: the value `found`, none where there is none. -/
structure Converts (q : StoredRequest) (s : Store) (k : Bytes)
    (found : Bytes → Prop) {T : Type} (lexicalCast : Bytes → Option T)
    (val dflt : T) : Prop where
  converted : ∀ v t, found v → lexicalCast v = some t →
    q.typed lexicalCast s k dflt = t
      ∧ q.check lexicalCast s k val dflt = (t, true)
  thrown : ∀ v, found v → lexicalCast v = none →
    q.typed lexicalCast s k dflt = dflt
      ∧ q.check lexicalCast s k val dflt = (val, false)
  absent : (∀ v, ¬ found v) → q.typed lexicalCast s k dflt = dflt
    ∧ q.check lexicalCast s k val dflt = (dflt, false)

/-- The stores of `q`, after the calls `cs`, are maps up to the case of
letters: the accessors return what was set last in their own store. -/
structure StoresRight (q : StoredRequest) (cs : List StoreCall) (k : Bytes) :
    Prop where
  untyped : ∀ s dflt v, LastSet (StoreCall.under s k) cs v →
    q.get s k dflt = v
  absent : ∀ s dflt, (∀ v, ¬ LastSet (StoreCall.under s k) cs v) →
    q.get s k dflt = dflt
  independent : ∀ c : StoreCall, ∀ s dflt, c.store ≠ s →
    (q.call c).get s k dflt = q.get s k dflt
  typed : ∀ (s : Store) {T : Type} (lexicalCast : Bytes → Option T)
    (val dflt : T),
    q.Converts s k (LastSet (StoreCall.under s k) cs) lexicalCast val dflt

end StoredRequest

end TinyServer.Http
