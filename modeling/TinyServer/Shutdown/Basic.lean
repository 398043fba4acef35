/-
The workers of an `IOManager` from the first task to the end of
`Scheduler::run` (scheduler.cpp, iomanager.cpp): the scheduler, the
timers and the event table together, with `IOManager::idle` as the idle
fiber of every worker.

# Steps

`Scheduler`, `TimerManager` and `IOManager` take the steps of their own
models. What is new here is `idle`. An `IdlePc` is a place in it between
two steps; the three reads of `IOManager::stopping` (the timers, the
pending count, and queue, active count and flags under `m_mutex`) are
three steps, and so are the two sections of `listExpireCB` and the
`schedule` of what it collected. A registered event that is triggered
puts its task into the queue in the same step (`idle` schedules before it
decrements the count).

# Who makes work

`stop` sets `m_autoStop` and `m_stopping`. Before it, every thread may
schedule tasks, add timers and register events; after it, only a worker
that is inside a fiber may (`task`). The worker of the calling thread is
one of the workers. The lookup and the section of `addEvent` are one
step; `Growth.lean` has them apart.

A step that fails an assertion, or that the library leaves undefined, is
not taken.
-/
import TinyServer.Timer.Basic
import TinyServer.IOManager.Basic

namespace TinyServer

/-- A call that makes or removes work. -/
inductive WorkCall
  | sched (a : SchedAct)
  | timer (c : TimerCall)
  | event (op : IoOp)
  deriving DecidableEq, Repr

/-- The calls that tasks make, as opposed to those of `run` and
`idle`. -/
def WorkCall.ofTask : WorkCall → Bool
  | .sched (.run _ _) => false
  | .timer (.getNextTimer _) => false
  | .timer (.listExpireCB _ _) => false
  | .event (.deliver _ _ _) => false
  | _ => true

/-- A reported event: the descriptor of its `FdEvent`, and the mask. -/
abbrev Reported := Nat × EpollMask

/-- The places of `IOManager::idle`. -/
inductive IdlePc
  /-- the head of the loop, before `getNextTimer` -/
  | check
  /-- `time_out == ~0ull`, before the test of `m_pendingEventCount` -/
  | timersRead
  /-- `m_pendingEventCount == 0`, before `Scheduler::stopping` -/
  | pendingRead
  /-- `stopping` was false, in `epoll_wait` -/
  | waiting
  /-- `epoll_wait` has returned, before `listExpireCB` -/
  | reported (events : List Reported)
  /-- in `listExpireCB`, after the test for emptiness -/
  | tested (now : Nat) (events : List Reported)
  /-- before `schedule` of the collected callbacks -/
  | collected (cbs : List (Nat × Option Nat)) (events : List Reported)
  /-- in the loop over the events -/
  | dispatching (events : List Reported)
  /-- `stopping` was true -/
  | ended
  deriving DecidableEq, Repr

/-- What a step of `idle` takes from outside: the clock, the address of a
temporary timer, what `epoll_wait` returns and whether `epoll_ctl`
fails. -/
structure IdleInput where
  now : Nat
  tmp : Nat
  events : List Reported
  ctlFails : Bool
  deriving DecidableEq, Repr

/-- `IOManager` with its scheduler, timers and workers; `idle w` is the
place of worker `w` in its idle fiber. -/
structure IoSystem where
  sched : Scheduler
  timers : TimerManager
  io : IOManager
  stopRequested : Bool
  idle : Nat → IdlePc

inductive IoAct
  | stop
  /-- a call by any thread, before `stop` -/
  | call (c : WorkCall)
  /-- a call by the task that worker `w` is inside -/
  | task (w : Nat) (c : WorkCall)
  /-- a step of worker `w` in `run`, outside `idle` -/
  | run (w : Nat) (b : Behaviour)
  /-- a step of worker `w` in `idle` -/
  | idle (w : Nat) (i : IdleInput)
  deriving DecidableEq, Repr

namespace IoSystem

/-- `threads` workers about to run, and no work. -/
def init (threads now : Nat) : IoSystem :=
  ⟨.init threads, .new now, .init, false, fun _ => .check⟩

def setIdle (s : IoSystem) (w : Nat) (pc : IdlePc) : IoSystem :=
  { s with idle := fun v => if v = w then pc else s.idle v }

/-- A step of the scheduler. -/
def schedStep (s : IoSystem) (a : SchedAct) : Option IoSystem :=
  (s.sched.step a).map fun sched => { s with sched := sched }

/-- An operation on the event table; what it triggers goes into the
queue. -/
def eventStep (s : IoSystem) (op : IoOp) : Option IoSystem :=
  match op.apply s.io with
  | .error _ => none
  | .ok io =>
      { s with io := io }.schedStep (.scheduleAll
        ((io.scheduled.drop s.io.scheduled.length).map
          fun t : Nat × Task => some t.2))

def workStep (s : IoSystem) : WorkCall → Option IoSystem
  | .sched a => s.schedStep a
  | .timer c => (s.timers.step c).map fun m => { s with timers := m }
  | .event op => s.eventStep op

/-- `Scheduler::stopping`. -/
def schedulerStopping (s : IoSystem) : Bool :=
  s.stopRequested && s.sched.fibers.isEmpty
    && s.sched.activateThreadCount = 0

/-- The next step of worker `w` in `IOManager::idle`. -/
def idleStep (s : IoSystem) (w : Nat) (i : IdleInput) : Option IoSystem :=
  match s.idle w with
  | .check =>
      let (timeOut, m) := s.timers.getNextTimer i.now
      some ({ s with timers := m }.setIdle w
        (if timeOut = noTimer then .timersRead else .waiting))
  | .timersRead =>
      some (s.setIdle w
        (if s.io.pendingEventCount = 0 then .pendingRead else .waiting))
  | .pendingRead =>
      some (s.setIdle w (if s.schedulerStopping then .ended else .waiting))
  | .waiting =>
      if 64 < i.events.length then none
      else some (s.setIdle w (.reported i.events))
  | .reported events =>
      some (s.setIdle w (if s.timers.timers = [] then .dispatching events
        else .tested i.now events))
  | .tested now events =>
      match s.timers.collect now i.tmp with
      | .error _ => none
      | .ok (cbs, m) =>
          some ({ s with timers := m }.setIdle w (.collected cbs events))
  | .collected cbs events =>
      (s.schedStep (.scheduleAll (cbs.map fun c => c.2.map Task.cb))).map
        fun s => s.setIdle w (.dispatching events)
  | .dispatching ((fd, mask) :: events) =>
      (s.eventStep (.deliver fd mask i.ctlFails)).map
        fun s => s.setIdle w (.dispatching events)
  | .dispatching [] =>
      -- `swapOut`: the loop goes on when the worker swaps in again
      (s.schedStep (.run w .yieldHold)).map fun s => s.setIdle w .check
  | .ended => s.schedStep (.run w .returns)

/-- Worker `w` is inside a fiber of a task. -/
def insideTask (s : IoSystem) (w : Nat) : Bool :=
  match (s.sched.workers w).pc with
  | .inside _ _ => decide (w < s.sched.threads)
  | _ => false

def step (s : IoSystem) : IoAct → Option IoSystem
  | .stop => some { s with stopRequested := true }
  | .call c =>
      if c.ofTask && !s.stopRequested then s.workStep c else none
  | .task w c => if c.ofTask && s.insideTask w then s.workStep c else none
  | .run w b =>
      if (s.sched.workers w).pc = .idleInside then none
      else s.schedStep (.run w b)
  | .idle w i =>
      if w < s.sched.threads ∧ (s.sched.workers w).pc = .idleInside then
        s.idleStep w i
      else none

end IoSystem

end TinyServer
