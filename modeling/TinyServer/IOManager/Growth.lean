/-
`addEvent` on several threads: the growth of the table.

A call of `addEvent` takes three locks one after the other, and each
lock-protected section is one step here:

- `lookup`: the read-locked size test, which finds the `FdEvent` or finds
  the table too short;
- `grow`: the write-locked `eventResize(fd * 1.5)` and lookup, by a thread
  whose test failed, whatever the table looks like by then;
- `register`: the section under the mutex of the `FdEvent` found.

Between its steps a thread holds only what it has read. Any number of
threads take their steps in any order.
-/
import TinyServer.IOManager.Basic

namespace TinyServer

/-- The arguments of a call of `addEvent`. -/
structure AddCall where
  fd : Nat
  et : EventType
  cb : Option Nat
  caller : Caller
  deriving DecidableEq, Repr

/-- Where a thread is in `addEvent`. -/
inductive AddPc
  | idle
  | short (call : AddCall)
  | found (p : Nat) (call : AddCall)
  deriving DecidableEq, Repr

/-- The shared state and every thread's place. -/
structure AddSys where
  io : IOManager
  pc : Nat → AddPc

/-- A step of a thread. -/
inductive AddAct
  | lookup (thread : Nat) (call : AddCall)
  | grow (thread : Nat)
  | register (thread : Nat) (ctlFails : Bool)
  deriving DecidableEq, Repr

namespace AddSys

def init : AddSys := ⟨IOManager.init, fun _ => .idle⟩

def setPc (s : AddSys) (thread : Nat) (pc : AddPc) : AddSys :=
  { s with pc := fun i => if i = thread then pc else s.pc i }

/-- A step, when the thread is where the step starts and the step
returns. -/
def step (s : AddSys) : AddAct → Option AddSys
  | .lookup i call =>
      match s.pc i with
      | .idle =>
          match s.io.fdEvents[call.fd]? with
          | some p => some (s.setPc i (.found p call))
          | none => some (s.setPc i (.short call))
      | _ => none
  | .grow i =>
      match s.pc i with
      | .short call =>
          let io := s.io.eventResize (call.fd * 3 / 2)
          match io.fdEvents[call.fd]? with
          | some p => some ({ s with io := io }.setPc i (.found p call))
          | none => none
      | _ => none
  | .register i ctlFails =>
      match s.pc i with
      | .found p call =>
          match s.io.addSection p call.fd call.et call.cb call.caller
              ctlFails with
          | .ok (_, io) => some ({ s with io := io }.setPc i .idle)
          | .error _ => none
      | _ => none

end AddSys

end TinyServer
