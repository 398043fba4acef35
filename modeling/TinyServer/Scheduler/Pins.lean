/-
The thread ids that a task was scheduled with, over its whole life.

`threadId` is kept in the queue entry; the fiber does not have it. A
`PinWatch` is the scheduler with, for every fiber, the thread ids that
the task in it was scheduled with: of a fiber from the time its entry is
taken from the queue, of a callback from the time it is put into the
worker's `cb_fiber`, and each until the task has ended.
-/
import TinyServer.Scheduler.Basic

namespace TinyServer

/-- The scheduler, and the thread ids of the task in each fiber. -/
structure PinWatch where
  sched : Scheduler
  pins : Nat → List Nat

namespace PinWatch

/-- The scheduler before anything was scheduled. -/
def init (threads : Nat) : PinWatch := ⟨Scheduler.init threads, fun _ => []⟩

def setPins (pins : Nat → List Nat) (f : Nat) (ts : List Nat) :
    Nat → List Nat :=
  fun g => if g = f then ts else pins g

/-- The thread ids after the section of `run` under the mutex. -/
def takePins (p : PinWatch) (w : Nat) : Nat → List Nat :=
  match Scheduler.scan p.sched.heap w p.sched.fibers with
  | none => p.pins
  | some (e, _) =>
      match e.task with
      | .fiber f =>
          if (p.sched.heap f).state.dead then p.pins
          else setPins p.pins f (e.threadId.toList ++ p.pins f)
      | .cb _ => p.pins

/-- The thread ids after the next step of worker `w`. -/
def runPins (p : PinWatch) (w : Nat) (b : Behaviour) : Nat → List Nat :=
  match (p.sched.workers w).pc with
  | .top => p.takePins w
  | .wrap e _ =>
      setPins p.pins ((p.sched.workers w).cbFiber.getD p.sched.nextFiber)
        e.threadId.toList
  | .inside f _ =>
      if b = .returns ∨ b = .throws then setPins p.pins f [] else p.pins
  | _ => p.pins

/-- The thread ids after a step. -/
def nextPins (p : PinWatch) : SchedAct → Nat → List Nat
  | .newFiber _ => setPins p.pins p.sched.nextFiber []
  | .schedule _ _ | .scheduleAll _ => p.pins
  | .run w b => p.runPins w b

def step (p : PinWatch) (a : SchedAct) : Option PinWatch :=
  (p.sched.step a).map fun s => ⟨s, p.nextPins a⟩

end PinWatch

end TinyServer
