/-
`HttpConnectionPool` (http_connection.h, http_connection.cpp).

# Calls

`getConnection` and `ReleasePtr` are called by any number of threads. A
`PoolPc` is a place in a call between two steps; `calls` has one for
every call so far. One step is one section under `m_mutex`, or what a
call does between two of these; a connection is created and counted, or
deleted and counted, in one step. The clock is that of `GetCurrentMs`,
and moves on between the steps.

# Connections

A connection is named by the number of its creation. `held` are the
references handed out and not yet released: `ReleasePtr` runs when the
last copy of a reference goes, once for each. Whether a connection is
connected, and whether a connect succeeds, is chosen by the environment.

# Ghost state

`made` and `handed` of a connection, the number of connections created,
those deleted, and the log of what the calls did.
-/
import Mathlib.Data.List.Basic

namespace TinyServer

/-- `HttpConnection`: `m_createTime` and `m_request`, with the time of its
creation and the number of times it was handed out. -/
structure PoolConn where
  createTime : Nat
  request : Nat
  made : Nat
  handed : Nat
  deriving DecidableEq, Repr

/-- `new HttpConnection(sock)` at the time `now`: the constructor leaves
the initialisers of the members as they are. -/
def PoolConn.new (now : Nat) : PoolConn := ⟨0, 0, now, 0⟩

/-- `++m_request`. -/
def PoolConn.used (k : PoolConn) : PoolConn :=
  { k with request := k.request + 1 }

/-- What becomes of a connect. -/
inductive Dial
  | noAddress
  | noSocket
  | refused
  | connected
  deriving DecidableEq, Repr

/-- A place in a call: `getConnection` has read the clock, has left the
lock with its `invalid_conns` and `ptr`, is about to connect; `ReleasePtr`
is about to take the lock. -/
inductive PoolPc
  | entered (currentMS : Nat)
  | taken (invalid : List Nat) (ptr : Option Nat)
  | connecting
  | releasing (c : Nat)
  | done
  deriving DecidableEq, Repr

/-- The connections that a call has in its hands. -/
def PoolPc.objects : PoolPc → List Nat
  | .taken invalid ptr => invalid ++ ptr.toList
  | .releasing c => [c]
  | _ => []

/-- What the calls did: a connection handed out, or released at the time
`now`, connected or not, with its `m_request`, and put back or not. -/
inductive PoolEvent
  | handedOut (c : Nat)
  | released (c now : Nat) (connected : Bool) (request : Nat) (kept : Bool)
  deriving DecidableEq, Repr

structure HttpConnectionPool where
  maxSize : Nat
  maxAliveTime : Nat
  maxRequest : Nat
  conns : List Nat
  total : UInt32
  heap : Nat → PoolConn
  held : List Nat
  calls : List PoolPc
  clock : Nat
  created : Nat
  deleted : List Nat
  log : List PoolEvent

/-- The steps: the clock moves on, a call of `getConnection` and its
sections, a call of `ReleasePtr` and its section. -/
inductive PoolAct
  | tick (now : Nat)
  | getConnection
  | take (i : Nat) (isConnected : Nat → Bool)
  | dispose (i : Nat)
  | connect (i : Nat) (dial : Dial)
  | releasePtr (c : Nat) (isConnected : Bool)
  | pushBack (i : Nat)

namespace HttpConnectionPool

/-- `HttpConnectionPool(host, vhost, port, maxSize, maxAliveTime,
maxRequest)` at the time `now`. -/
def new (maxSize maxAliveTime maxRequest now : Nat) : HttpConnectionPool :=
  ⟨maxSize, maxAliveTime, maxRequest, [], 0, fun _ => .new now, [], [], now, 0,
    [], []⟩

def setConn (s : HttpConnectionPool) (c : Nat) (k : PoolConn) :
    HttpConnectionPool :=
  { s with heap := fun d => if d = c then k else s.heap d }

def setConns (s : HttpConnectionPool) (conns : List Nat) :
    HttpConnectionPool :=
  { s with conns := conns }

/-- A call begins. -/
def call (s : HttpConnectionPool) (pc : PoolPc) : HttpConnectionPool :=
  { s with calls := s.calls ++ [pc] }

def setCall (s : HttpConnectionPool) (i : Nat) (pc : PoolPc) :
    HttpConnectionPool :=
  { s with calls := s.calls.set i pc }

/-- The loop over `m_conns`: `invalid_conns`, `ptr`, and what is left. -/
def popFront (heap : Nat → PoolConn) (currentMS : Nat)
    (isConnected : Nat → Bool) : List Nat → List Nat × Option Nat × List Nat
  | [] => ([], none, [])
  | c :: conns =>
      let (invalid, ptr, rest) := popFront heap currentMS isConnected conns
      if !isConnected c then (c :: invalid, ptr, rest)
      else if currentMS ≤ (heap c).createTime then (c :: invalid, ptr, rest)
      else ([], some c, conns)

/-- `delete` of each of `cs`, and `m_total -= cs.size()`. -/
def deleteAll (s : HttpConnectionPool) (cs : List Nat) : HttpConnectionPool :=
  { s with
    deleted := s.deleted ++ cs
    total := s.total - UInt32.ofNat cs.length }

/-- The reference that `getConnection` returns. -/
def handOut (s : HttpConnectionPool) (c : Nat) : HttpConnectionPool :=
  { s.setConn c { s.heap c with handed := (s.heap c).handed + 1 } with
    held := s.held ++ [c]
    log := s.log ++ [.handedOut c] }

/-- `new HttpConnection(sock)` and `++m_total`. -/
def create (s : HttpConnectionPool) : HttpConnectionPool :=
  { s.setConn s.created (.new s.clock) with
    created := s.created + 1
    total := s.total + 1 }

/-- `ReleasePtr`: the connection is deleted. -/
def expired (s : HttpConnectionPool) (k : PoolConn) (isConnected : Bool) :
    Bool :=
  !isConnected || k.createTime + s.maxAliveTime ≥ s.clock
    || k.request > s.maxRequest

/-- The reference to `c` is gone. -/
def unhold (s : HttpConnectionPool) (c : Nat) (isConnected kept : Bool) :
    HttpConnectionPool :=
  { s.setConn c (s.heap c).used with
    held := s.held.erase c
    log := s.log
      ++ [.released c s.clock isConnected (s.heap c).used.request kept] }

/-- `ReleasePtr`, up to the lock. -/
def releasePtr (s : HttpConnectionPool) (c : Nat) (isConnected : Bool) :
    HttpConnectionPool :=
  if s.expired (s.heap c).used isConnected then
    (s.unhold c isConnected false).deleteAll [c]
  else (s.unhold c isConnected true).call (.releasing c)

def step (s : HttpConnectionPool) : PoolAct → Option HttpConnectionPool
  | .tick now => if s.clock ≤ now then some { s with clock := now } else none
  | .getConnection => some (s.call (.entered s.clock))
  | .take i isConnected =>
      match s.calls[i]? with
      | some (.entered currentMS) =>
          let (invalid, ptr, rest) :=
            popFront s.heap currentMS isConnected s.conns
          some ((s.setCall i (.taken invalid ptr)).setConns rest)
      | _ => none
  | .dispose i =>
      match s.calls[i]? with
      | some (.taken invalid none) =>
          some ((s.setCall i .connecting).deleteAll invalid)
      | some (.taken invalid (some c)) =>
          some (((s.setCall i .done).deleteAll invalid).handOut c)
      | _ => none
  | .connect i dial =>
      match s.calls[i]? with
      | some .connecting =>
          if dial = .connected then
            some ((s.setCall i .done).create.handOut s.created)
          else some (s.setCall i .done)
      | _ => none
  | .releasePtr c isConnected =>
      if c ∈ s.held then some (s.releasePtr c isConnected) else none
  | .pushBack i =>
      match s.calls[i]? with
      | some (.releasing c) =>
          some ((s.setCall i .done).setConns (s.conns ++ [c]))
      | _ => none

/-- The connections created and not yet deleted. -/
def live (s : HttpConnectionPool) : List Nat :=
  (List.range s.created).filter (· ∉ s.deleted)

/-- The connections in the hands of the calls in progress. -/
def inHand (s : HttpConnectionPool) : List Nat :=
  s.calls.flatMap PoolPc.objects

end HttpConnectionPool

end TinyServer
