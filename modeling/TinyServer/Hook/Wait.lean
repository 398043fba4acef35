/-
The wait for a descriptor in `do_io` and `connect_with_timeout`
(hook.cpp), with the workers that run its timer.

# The fiber

A `WaitPc` is a place of the function between two steps, from the first
call of the system function on. `do_io` goes back to the call after each
wait; `connect_with_timeout` waits once.

# The timer

Each round arms a timer of its own with `addConditionTimer`. A worker's
`listExpireCB` takes it out (`collect`), and its callback then waits in
the queue of the scheduler until a worker runs it. `cancle` of a timer
that was collected has no effect, so callbacks of earlier rounds can
still be waiting (`stale`). All callbacks share the `timer_info` of the
call, which is gone when the function has returned. The callback is one
step: the test and the write of `cancelled`, and `cancelEvent`.

# The event

`registered` is that the event is registered for this fiber. A worker
that reports it (`deliver`), or `cancelEvent`, removes the registration
and schedules the fiber (`woken`); `fails` is that `epoll_ctl` fails.
-/
import TinyServer.Hook.Basic

namespace TinyServer

inductive WaitKind
  | doIo
  | connect
  deriving DecidableEq, Repr

/-- What the system function returned: success, `EAGAIN` (or
`EINPROGRESS`), `EINTR`, or another error. -/
inductive IoResult
  | ok
  | again
  | interrupted
  | failed
  deriving DecidableEq, Repr

inductive WaitPc
  /-- before the call of the system function -/
  | retry
  /-- in the loop of `do_io` on `EINTR` -/
  | interrupted
  | addTimer
  | addEvent
  /-- before `YieldToHold` -/
  | yield
  | parked
  /-- before `timer->cancle()` -/
  | cancle
  /-- before the test of `tinfo->cancelled` -/
  | check
  | returned
  deriving DecidableEq, Repr

/-- The timer of the current round. -/
inductive CondTimer
  | none
  | armed
  /-- collected; the callback waits to run -/
  | waiting
  /-- its callback has run, or it was cancelled -/
  | spent
  deriving DecidableEq, Repr

def ETIMEDOUT : Nat := 110

/-- A call of `do_io` or `connect_with_timeout`. -/
structure IoWait where
  kind : WaitKind
  timeout : Nat
  pc : WaitPc
  cancelled : Nat
  timer : CondTimer
  stale : Nat
  registered : Bool
  woken : Bool
  deriving DecidableEq, Repr

inductive WaitStep
  /-- the fiber -/
  | call (r : IoResult)
  | addTimer
  | addEvent (fails : Bool)
  | yield
  | resume
  | cancle
  | check
  /-- the other workers -/
  | collect
  | runCallback (fails : Bool)
  | runStale (fails : Bool)
  | deliver
  deriving DecidableEq, Repr

namespace IoWait

/-- Before the first call of the system function. -/
def start (kind : WaitKind) (timeout : Nat) : IoWait :=
  ⟨kind, timeout, .retry, 0, .none, 0, false, false⟩

/-- The place after the call of the system function. -/
def afterCall (kind : WaitKind) : IoResult → WaitPc
  | .ok => .returned
  | .again => .addTimer
  | .interrupted =>
      match kind with
      | .doIo => .interrupted
      | .connect => .returned
  | .failed => .returned

/-- The place after a call in the loop on `EINTR`. The result is not
assigned and a success leaves `errno` as it is, so the loop goes on. -/
def afterRepeat : IoResult → WaitPc
  | .ok => .interrupted
  | .again => .addTimer
  | .interrupted => .interrupted
  | .failed => .returned

/-- `cancelEvent`. -/
def cancelEvent (s : IoWait) (fails : Bool) : IoWait :=
  if s.registered && !fails then
    { s with
      registered := false
      woken := true }
  else s

/-- The callback of a timer of this call. -/
def callback (s : IoWait) (fails : Bool) : IoWait :=
  if s.pc = .returned ∨ s.cancelled ≠ 0 then s
  else { s with cancelled := ETIMEDOUT }.cancelEvent fails

/-- `timer->cancle()`. -/
def cancleTimer (s : IoWait) : IoWait :=
  if s.timer = .armed then { s with timer := .spent } else s

/-- `addConditionTimer`, for a finite timeout. -/
def armTimer (s : IoWait) : IoWait :=
  if s.timeout = infinite then { s with timer := .none }
  else
    { s with
      stale := if s.timer = .waiting then s.stale + 1 else s.stale
      timer := .armed }

def step (s : IoWait) : WaitStep → Option IoWait
  | .call r =>
      match s.pc with
      | .retry => some { s with pc := afterCall s.kind r }
      | .interrupted => some { s with pc := afterRepeat r }
      | _ => none
  | .addTimer =>
      if s.pc = .addTimer then some { s.armTimer with pc := .addEvent }
      else none
  | .addEvent fails =>
      if s.pc = .addEvent then
        if s.registered then none
        else if fails then some { s.cancleTimer with pc := .returned }
        else
          some { s with
            registered := true
            pc := .yield }
      else none
  | .yield => if s.pc = .yield then some { s with pc := .parked } else none
  | .resume =>
      if s.pc = .parked ∧ s.woken = true then
        some { s with
          woken := false
          pc := .cancle }
      else none
  | .cancle =>
      if s.pc = .cancle then some { s.cancleTimer with pc := .check }
      else none
  | .check =>
      if s.pc = .check then
        if s.cancelled ≠ 0 then some { s with pc := .returned }
        else
          match s.kind with
          | .doIo => some { s with pc := .retry }
          | .connect => some { s with pc := .returned }
      else none
  | .collect =>
      if s.timer = .armed then some { s with timer := .waiting } else none
  | .runCallback fails =>
      if s.timer = .waiting then
        some ({ s with timer := .spent }.callback fails)
      else none
  | .runStale fails =>
      if s.stale = 0 then none
      else some ({ s with stale := s.stale - 1 }.callback fails)
  | .deliver =>
      if s.registered then
        some { s with
          registered := false
          woken := true }
      else none

end IoWait

end TinyServer
