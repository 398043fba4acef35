/-
`Semaphore` and `Thread` (thread.h, thread.cpp).

The constructor makes the kernel's thread and waits until `Thread::run`,
on that thread, has taken what it needs of the object. One step of `run`
is one statement of it, but `t_name` and `m_id` are set in one. `C` is the
type of the callbacks and `R` that of the places in them: what a callback
does is up to its owner, who moves `calling` on.
-/
import TinyServer.Http.Basic

namespace TinyServer

open Http (Bytes ascii)

structure Semaphore where
  count : Nat
  deriving DecidableEq, Repr

/-- `sem_wait`, when there is something to take. -/
def Semaphore.wait (s : Semaphore) : Option Semaphore :=
  if s.count = 0 then none else some ⟨s.count - 1⟩

def Semaphore.notify (s : Semaphore) : Semaphore := ⟨s.count + 1⟩

/-- The places of `Thread::run`. -/
inductive ThreadPc (R : Type)
  /-- before `t_name` and `m_id` are set -/
  | entry
  /-- before `pthread_setname_np` -/
  | identified
  /-- before the swap with `m_callBack` -/
  | renamed
  /-- before `notify` -/
  | swapped
  /-- before `cb()` -/
  | notified
  | calling (pc : R)

/-- `Thread`, with what `run` has on its thread: `t_name`, the name in
the kernel and the local `cb`. -/
structure Thread (C R : Type) where
  id : Int
  callBack : Option C
  name : Bytes
  semaphore : Semaphore
  threadName : Bytes
  kernelName : Bytes
  cb : Option C
  pc : ThreadPc R

namespace Thread

variable {C R : Type}

/-- The constructor, up to `m_semaphore.wait()`. -/
def new (cb : C) (name : Bytes) : Thread C R :=
  { id := -1
    callBack := some cb
    name := if name = [] then ascii "UNKNOW" else name
    semaphore := ⟨0⟩
    threadName := ascii "UNKNOW"
    kernelName := []
    cb := none
    pc := .entry }

/-- A step of `run` on the thread with the id `tid`, up to the call of
`cb`, which begins at `first`. An empty `cb` throws. -/
def run (th : Thread C R) (tid : Int) (first : R) : Option (Thread C R) :=
  match th.pc with
  | .entry =>
      some { th with threadName := th.name, id := tid, pc := .identified }
  | .identified =>
      some { th with kernelName := th.name.take 15, pc := .renamed }
  | .renamed =>
      some { th with cb := th.callBack, callBack := th.cb, pc := .swapped }
  | .swapped =>
      some { th with semaphore := th.semaphore.notify, pc := .notified }
  | .notified => th.cb.map fun _ => { th with pc := .calling first }
  | .calling _ => none

end Thread

end TinyServer
