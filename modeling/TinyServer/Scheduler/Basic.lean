/-
`Scheduler` (scheduler.h, scheduler.cpp) and the parts of `Fiber`
(fiber.h, fiber.cpp) that its workers use.

# Workers

Each worker runs `Scheduler::run` on a thread of its own; worker `w` has
the thread id `w`. A `WorkerPc` is a place in that function between two
steps. One step is one section under `m_mutex`, one update of an atomic
counter, or one access to a fiber; a worker's next step is determined by
its place, except inside a fiber, where the task chooses what it does.
Workers and callers of `schedule` take their steps in any order.

# Fibers

A fiber has its state, its callback and whether its context is parked at
the end of `MainFunc`; resuming such a context fails the `never reach`
assertion there. `YieldToReady` and `MainFunc` write the state before
`swapOut`, so there is a place (`leaving`) between the two. Reference
counts are not modelled: a fiber once made stays.

# Ghost state

Queue entries carry the number of the push that made them, and three
logs record the entries removed from the queue, executed (swapped in)
and dropped.

A step that fails an assertion is not taken.
-/
import Mathlib.Data.List.Basic

namespace TinyServer

-- ================================================================== fibers

/-- `Fiber::State`. -/
inductive FiberState
  | init
  | hold
  | exec
  | term
  | ready
  | except
  deriving DecidableEq, Repr

/-- `TERM` or `EXCEPT`. -/
def FiberState.dead : FiberState → Bool
  | .term => true
  | .except => true
  | _ => false

/-- `Fiber`: `m_state`, `m_cb`, and whether the saved context is the end
of `MainFunc`. -/
structure Fiber where
  state : FiberState
  cb : Option Nat
  finished : Bool
  deriving DecidableEq, Repr

/-- What a task does when it leaves the processor. -/
inductive Behaviour
  | returns
  | throws
  | yieldReady
  | yieldHold
  deriving DecidableEq, Repr

namespace Fiber

/-- `Fiber(cb)`. -/
def new (cb : Option Nat) : Fiber := ⟨.init, cb, false⟩

/-- `Fiber::reset`. -/
def reset (f : Fiber) (cb : Option Nat) : Option Fiber :=
  if f.state = .init ∨ f.state.dead = true then some (new cb) else none

/-- `Fiber::swapIn`, up to the context switch. -/
def swapIn (f : Fiber) : Option Fiber :=
  if f.state = .exec then none else some { f with state := .exec }

/-- The end of a task, or its yield, up to the context switch in
`swapOut`. -/
def leave (f : Fiber) (b : Behaviour) : Option Fiber :=
  if f.finished then none
  else
    match b with
    | .returns => some ⟨.term, none, true⟩
    | .throws => some ⟨.except, f.cb, true⟩
    | .yieldReady => some { f with state := .ready }
    | .yieldHold => if f.state = .exec then some f else none

end Fiber

-- =================================================================== the queue

/-- A unit of work for a scheduler. -/
inductive Task
  | fiber (id : Nat)
  | cb (id : Nat)
  deriving DecidableEq, Repr

/-- `FiberAndThread`, numbered; `threadId` is `none` for -1. -/
structure FiberAndThread where
  id : Nat
  task : Task
  threadId : Option Nat
  deriving DecidableEq, Repr

-- ================================================================= the workers

/-- The places of `Scheduler::run`. `viaCb` tells the `cb_fiber` branch
from the `ft.fiber` branch. -/
inductive WorkerPc
  /-- the head of the loop, before the section under the mutex -/
  | top
  /-- an entry was taken, before the test of `ft` -/
  | took (e : FiberAndThread)
  /-- before `cb_fiber` is reset or made -/
  | wrap (e : FiberAndThread) (c : Nat)
  /-- before `swapIn` -/
  | swapping (e : FiberAndThread) (f : Nat) (viaCb : Bool)
  /-- in the fiber -/
  | inside (f : Nat) (viaCb : Bool)
  /-- the fiber has written its state, before its `swapOut` is through -/
  | leaving (f : Nat) (viaCb : Bool)
  /-- `swapIn` is over, before `--m_activateThreadCount` -/
  | back (f : Nat) (viaCb : Bool)
  /-- before the state of the fiber is looked at -/
  | settled (f : Nat) (viaCb : Bool)
  /-- the state was `READY`, before `schedule` -/
  | requeue (f : Nat) (viaCb : Bool)
  /-- `cb_fiber` has ended, before `reset(nullptr)` -/
  | renew (f : Nat)
  /-- before `setState(HOLD)` -/
  | park (f : Nat) (viaCb : Bool)
  /-- the fiber taken was dead, before `--m_activateThreadCount` -/
  | drop
  /-- nothing was taken, before the test of `idle_fiber` -/
  | idleTest
  /-- in `idle_fiber` -/
  | idleInside
  /-- `idle_fiber` has left, before `--m_idleThreadCount` -/
  | idleBack
  /-- out of `run` -/
  | exited
  deriving DecidableEq, Repr

/-- The locals of `run`. -/
structure Worker where
  pc : WorkerPc
  cbFiber : Option Nat
  idleFiber : Fiber
  deriving DecidableEq, Repr

/-- `Scheduler` with the fibers, its workers and the logs. -/
structure Scheduler where
  threads : Nat
  fibers : List FiberAndThread
  activateThreadCount : Int
  idleThreadCount : Int
  heap : Nat → Fiber
  nextFiber : Nat
  workers : Nat → Worker
  pushed : Nat
  removed : List FiberAndThread
  executed : List FiberAndThread
  dropped : List FiberAndThread

/-- A step of the system. `run w b` is the next step of worker `w`, with
`b` for what the task does if the worker is inside a fiber. -/
inductive SchedAct
  | newFiber (cb : Nat)
  | schedule (task : Option Task) (threadId : Option Nat)
  | scheduleAll (tasks : List (Option Task))
  | run (w : Nat) (b : Behaviour)
  deriving DecidableEq, Repr

namespace Scheduler

/-- The scheduler with `threads` workers about to run, and no work. -/
def init (threads : Nat) : Scheduler :=
  { threads := threads
    fibers := []
    activateThreadCount := 0
    idleThreadCount := 0
    heap := fun _ => Fiber.new none
    nextFiber := 0
    workers := fun _ => ⟨.top, none, Fiber.new none⟩
    pushed := 0
    removed := []
    executed := []
    dropped := [] }

def setWorker (s : Scheduler) (w : Nat) (k : Worker) : Scheduler :=
  { s with workers := fun v => if v = w then k else s.workers v }

def setPc (s : Scheduler) (w : Nat) (pc : WorkerPc) : Scheduler :=
  s.setWorker w { s.workers w with pc := pc }

def setFiber (s : Scheduler) (f : Nat) (x : Fiber) : Scheduler :=
  { s with heap := fun g => if g = f then x else s.heap g }

/-- `scheduleNoLock`: a null fiber or callback is not queued. -/
def scheduleNoLock (s : Scheduler) (task : Option Task)
    (threadId : Option Nat) : Scheduler :=
  match task with
  | some t =>
      { s with
        fibers := s.fibers ++ [⟨s.pushed, t, threadId⟩]
        pushed := s.pushed + 1 }
  | none => s

/-- The entry is pinned to another thread than `w`. -/
def pinnedElsewhere (w : Nat) (e : FiberAndThread) : Bool :=
  e.threadId ≠ none && e.threadId ≠ some w

/-- The fiber of the entry is in state `EXEC`. -/
def executing (heap : Nat → Fiber) (e : FiberAndThread) : Bool :=
  match e.task with
  | .fiber f => (heap f).state = .exec
  | .cb _ => false

/-- The loop over `m_fibers` in `run`: the entry taken and the list with
it erased. -/
def scan (heap : Nat → Fiber) (w : Nat) :
    List FiberAndThread → Option (FiberAndThread × List FiberAndThread)
  | [] => none
  | e :: rest =>
      if pinnedElsewhere w e || executing heap e then
        (scan heap w rest).map fun r => (r.1, e :: r.2)
      else some (e, rest)

/-- The section of `run` under the mutex. -/
def dequeue (s : Scheduler) (w : Nat) : Scheduler :=
  match scan s.heap w s.fibers with
  | some (e, rest) =>
      { s with
        fibers := rest
        activateThreadCount := s.activateThreadCount + 1
        removed := s.removed ++ [e] }.setPc w (.took e)
  | none => s.setPc w .idleTest

/-- The next step of worker `w`. -/
def runStep (s : Scheduler) (w : Nat) (b : Behaviour) : Option Scheduler :=
  match (s.workers w).pc with
  | .top => some (s.dequeue w)
  | .took e =>
      match e.task with
      | .fiber f =>
          if (s.heap f).state.dead then
            some ({ s with dropped := s.dropped ++ [e] }.setPc w .drop)
          else some (s.setPc w (.swapping e f false))
      | .cb c => some (s.setPc w (.wrap e c))
  | .wrap e c =>
      match (s.workers w).cbFiber with
      | some f => do
          let x ← (s.heap f).reset (some c)
          pure ((s.setFiber f x).setPc w (.swapping e f true))
      | none =>
          let f := s.nextFiber
          some (({ s with nextFiber := f + 1 }.setFiber f
            (Fiber.new (some c))).setWorker w
              { s.workers w with pc := .swapping e f true, cbFiber := some f })
  | .swapping e f viaCb => do
      let x ← (s.heap f).swapIn
      pure (({ s with executed := s.executed ++ [e] }.setFiber f x).setPc w
        (.inside f viaCb))
  | .inside f viaCb => do
      let x ← (s.heap f).leave b
      pure ((s.setFiber f x).setPc w (.leaving f viaCb))
  | .leaving f viaCb => some (s.setPc w (.back f viaCb))
  | .back f viaCb =>
      some ({ s with
        activateThreadCount := s.activateThreadCount - 1 }.setPc w
          (.settled f viaCb))
  | .settled f viaCb =>
      if (s.heap f).state = .ready then some (s.setPc w (.requeue f viaCb))
      else if (s.heap f).state.dead then
        some (s.setPc w (if viaCb then .renew f else .top))
      else some (s.setPc w (.park f viaCb))
  | .requeue f viaCb =>
      -- `schedule(ft.fiber)` and `schedule(cb_fiber)`: not pinned
      let s := s.scheduleNoLock (some (.fiber f)) none
      some (s.setWorker w { s.workers w with
        pc := .top
        cbFiber := if viaCb then none else (s.workers w).cbFiber })
  | .renew f => do
      let x ← (s.heap f).reset none
      pure ((s.setFiber f x).setPc w .top)
  | .park f viaCb =>
      let s := s.setFiber f { s.heap f with state := .hold }
      some (s.setWorker w { s.workers w with
        pc := .top
        cbFiber := if viaCb then none else (s.workers w).cbFiber })
  | .drop =>
      some ({ s with
        activateThreadCount := s.activateThreadCount - 1 }.setPc w .top)
  | .idleTest =>
      if (s.workers w).idleFiber.state = .term then
        some (s.setPc w .exited)
      else do
        let x ← (s.workers w).idleFiber.swapIn
        pure ({ s with idleThreadCount := s.idleThreadCount + 1 }.setWorker w
          { s.workers w with pc := .idleInside, idleFiber := x })
  | .idleInside => do
      let x ← (s.workers w).idleFiber.leave b
      pure (s.setWorker w { s.workers w with pc := .idleBack, idleFiber := x })
  | .idleBack =>
      let x := (s.workers w).idleFiber
      some ({ s with idleThreadCount := s.idleThreadCount - 1 }.setWorker w
        { s.workers w with
          pc := .top
          idleFiber := if x.state.dead then x else { x with state := .hold } })
  | .exited => none

/-- A task can be scheduled: a fiber exists before it is scheduled. -/
def schedulable (s : Scheduler) : Option Task → Bool
  | some (.fiber f) => f < s.nextFiber
  | _ => true

/-- A step of the system, when it can be taken. -/
def step (s : Scheduler) : SchedAct → Option Scheduler
  | .newFiber cb =>
      some ({ s with nextFiber := s.nextFiber + 1 }.setFiber s.nextFiber
        (Fiber.new (some cb)))
  | .schedule task threadId =>
      if s.schedulable task then some (s.scheduleNoLock task threadId)
      else none
  | .scheduleAll tasks =>
      if tasks.all s.schedulable then
        some (tasks.foldl (fun s t => s.scheduleNoLock t none) s)
      else none
  | .run w b => if w < s.threads then s.runStep w b else none

end Scheduler

end TinyServer
