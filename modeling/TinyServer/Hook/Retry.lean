/-
The retries of `do_io` (hook.cpp) on a blocking socket without a timeout.

`IoWait` has the places of `do_io` and what the other workers do to it;
here the variables `n` and `errno` decide where the fiber goes after a
call of the original function, as in the source. In the loop on `EINTR`
the result is not assigned to `n`. An `errno` that is left by other
functions, or by other fibers of the thread while this one is parked, may
be anything.

`calls` is what the original function did so far; `delivered` counts the
deliveries of the event; `refused` is that `addEvent` failed.
-/
import TinyServer.Hook.Wait

namespace TinyServer

def EINTR : Nat := 4

def EAGAIN : Nat := 11

/-- What a call of the original function does. -/
inductive IoOutcome
  | success (v : Nat)
  | eintr
  | eagain
  | error (e : Nat) (hintr : e ≠ EINTR) (hagain : e ≠ EAGAIN)
  deriving DecidableEq

namespace IoOutcome

/-- The result. -/
def value : IoOutcome → Int
  | success v => v
  | eintr => -1
  | eagain => -1
  | error _ _ _ => -1

/-- `errno` after the call; a success leaves it as it is. -/
def errno (before : Nat) : IoOutcome → Nat
  | success _ => before
  | eintr => EINTR
  | eagain => EAGAIN
  | error e _ _ => e

/-- Neither `EINTR` nor `EAGAIN`. -/
def settled : IoOutcome → Bool
  | success _ => true
  | eintr => false
  | eagain => false
  | error _ _ _ => true

end IoOutcome

/-- A call of `do_io`. -/
structure DoIo where
  wait : IoWait
  n : Int
  errno : Nat
  calls : List IoOutcome
  delivered : Nat
  refused : Bool

inductive DoIoStep
  /-- The fiber calls the original function. -/
  | call (o : IoOutcome)
  /-- Another step of the fiber, which leaves `errno` so. -/
  | fiber (i : WaitStep) (errno : Nat)
  /-- A step of another worker. -/
  | worker (i : WaitStep)

/-- A step of the fiber between two calls. -/
def WaitStep.ofFiber : WaitStep → Bool
  | .addTimer => true
  | .addEvent _ => true
  | .yield => true
  | .resume => true
  | .cancle => true
  | .check => true
  | _ => false

/-- A step of another worker. -/
def WaitStep.ofWorker : WaitStep → Bool
  | .collect => true
  | .runCallback _ => true
  | .runStale _ => true
  | .deliver => true
  | _ => false

namespace DoIo

/-- Before the first call, without a timeout. -/
def start (errno : Nat) : DoIo :=
  ⟨.start .doIo infinite, 0, errno, [], 0, false⟩

/-- The place after the tests of `n` and `errno`. -/
def place (n : Int) (errno : Nat) : WaitPc :=
  if n = -1 && errno = EINTR then .interrupted
  else if n = -1 && errno = EAGAIN then .addTimer
  else .returned

/-- After a call that leaves `n` so. -/
def called (s : DoIo) (o : IoOutcome) (n : Int) : DoIo :=
  { s with
    wait := { s.wait with pc := place n (o.errno s.errno) }
    n := n
    errno := o.errno s.errno
    calls := s.calls ++ [o] }

def step (s : DoIo) : DoIoStep → Option DoIo
  | .call o =>
      match s.wait.pc with
      | .retry => some (s.called o o.value)
      | .interrupted => some (s.called o s.n)
      | _ => none
  | .fiber i errno =>
      if i.ofFiber then
        (s.wait.step i).map fun w =>
          { s with
            wait := w
            errno := errno
            refused := s.refused || decide (i = .addEvent true) }
      else none
  | .worker i =>
      if i.ofWorker then
        (s.wait.step i).map fun w =>
          { s with
            wait := w
            delivered :=
              if i = .deliver then s.delivered + 1 else s.delivered }
      else none

/-- The fiber is about to call the original function. -/
def Calling (s : DoIo) : Prop :=
  s.wait.pc = .retry ∨ s.wait.pc = .interrupted

/-- What `do_io` returns is what the original function did: the first
outcome that is neither `EINTR` nor `EAGAIN` ends it. -/
def Right (s : DoIo) : Prop :=
  if s.wait.pc = .returned then
    ∃ pre o, s.calls = pre ++ [o] ∧ (∀ p ∈ pre, p.settled = false)
      ∧ o.settled = true ∧ s.n = o.value ∧ s.errno = o.errno s.errno
  else ∀ o ∈ s.calls, o.settled = false

/-- The first outcome that is neither `EINTR` nor `EAGAIN` is a success
after `EINTR`. -/
def Dropped (calls : List IoOutcome) : Prop :=
  ∃ pre v post, calls = pre ++ .eintr :: .success v :: post
    ∧ ∀ o ∈ pre, o.settled = false

end DoIo

end TinyServer
