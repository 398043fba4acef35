/-
The life of a scheduler: its constructor, `start` and `stop`
(scheduler.cpp), with its threads.

# Steps

The thread that owns the scheduler calls `start` and later `stop`.
`start` keeps `m_mutex` over the constructors of all threads. Each of
these goes through `Thread::run` into `Scheduler::run`; with `use_call`
the owner itself executes `Scheduler::run` in `stop`, on the root fiber.
One step is a statement about a thread object, a wait for a semaphore or
a thread, a section under `m_mutex`, or a write of a flag.

`RunPc` is what the others see of `Scheduler::run`: its sections under
`m_mutex` and its end. What is found there is chosen by the run: an
entry for the worker, or, in `stopping`, that there is work left. The
flags are read and written whole.

`start` is called once, before `stop`. What `stop` asserts about
`t_scheduler` and the ticks are left out.
-/
import Mathlib.Algebra.Group.Nat.Defs
import Mathlib.Logic.Function.Basic
import TinyServer.Thread.Basic
import TinyServer.Scheduler.Basic

namespace TinyServer

open Http (Bytes ascii toDecimal)

/-- Places of `Scheduler::run`. `idleTerm` says that `idle_fiber` is in
`TERM`. -/
inductive RunPc
  /-- before `setThis` and `t_fiber` -/
  | enter
  /-- at the head of the loop -/
  | top (idleTerm : Bool)
  /-- with an entry, for the rest of the turn -/
  | busy (idleTerm : Bool)
  /-- in `idle`, before `stopping` -/
  | idle
  /-- out of `run` -/
  | left
  deriving DecidableEq, Repr

/-- A step of `Scheduler::run`. `free` says that `m_mutex` is, `ending`
that `m_autoStop` and `m_stopping` are set, and `found` that there is an
entry to take or work left. -/
def RunPc.step (free ending found : Bool) : RunPc → Option RunPc
  | .enter => some (.top false)
  | .top idleTerm =>
      if free then
        some (if found then .busy idleTerm else if idleTerm then .left
          else .idle)
      else none
  | .busy idleTerm => some (.top idleTerm)
  | .idle => if free then some (.top (ending && !found)) else none
  | .left => none

/-- The place of a worker of the queue (`Scheduler.runStep`). -/
def Worker.place (k : Worker) : RunPc :=
  match k.pc with
  | .top | .idleBack => .top (k.idleFiber.state = .term)
  | .idleTest => if k.idleFiber.state = .term then .left else .idle
  | .idleInside => .idle
  | .exited => .left
  | _ => .busy (k.idleFiber.state = .term)

/-- The places of the owner. -/
inductive OwnerPc
  /-- before `start` -/
  | start
  /-- in `start`, before the constructor of thread `i` -/
  | creating (i : Nat)
  /-- in the constructor, before `m_semaphore.wait()` -/
  | waiting (i : Nat)
  /-- before the thread and its id are pushed -/
  | recording (i : Nat)
  /-- `start` has returned, or thrown -/
  | between (ok : Bool)
  /-- in `stop`, after `m_autoStop = true` -/
  | asked
  /-- before `stopping`, without threads -/
  | early
  /-- after `m_stopping = true` -/
  | marked
  /-- in `m_rootFiber->call()` -/
  | calling
  /-- before `thrs.swap(m_threads)` -/
  | swapping
  /-- before the next `join` -/
  | joining (threads : List Nat)
  /-- `stop` has returned -/
  | stopped
  deriving DecidableEq, Repr

/-- `Scheduler` without its queue, its thread objects and its owner.
`locked` says that `start` holds `m_mutex`; `root` is `m_rootFiber`, by
its place in `Scheduler::run`. -/
structure SchedulerLife where
  name : Bytes
  threadCount : Nat
  root : Option RunPc
  threads : List Nat
  threadIds : List Int
  stopping : Bool
  autoStop : Bool
  locked : Bool
  thread : Nat → Thread Unit RunPc
  made : Nat
  pc : OwnerPc

/-- A step of the owner, with what `pthread_create` or a section comes
to, or of a thread, with what its section finds. -/
inductive LifeAct
  | owner (b : Bool)
  | thread (k : Nat) (found : Bool)
  deriving DecidableEq, Repr

namespace SchedulerLife

/-- `Scheduler(threads, use_call, name)` on the thread `rootTid`;
`--threads` is one of a `size_t`. -/
def new (threads : Nat) (useCall : Bool) (name : Bytes) (rootTid : Int) :
    SchedulerLife :=
  { name := name
    threadCount := if useCall then (threads + (2 ^ 64 - 1)) % 2 ^ 64
      else threads
    root := if useCall then some .enter else none
    threads := []
    threadIds := if useCall then [rootTid] else []
    stopping := true
    autoStop := false
    locked := false
    thread := fun _ => .new () []
    made := 0
    pc := .start }

def goto (s : SchedulerLife) (pc : OwnerPc) : SchedulerLife :=
  { s with pc := pc }

def setThread (s : SchedulerLife) (k : Nat) (th : Thread Unit RunPc) :
    SchedulerLife :=
  { s with thread := Function.update s.thread k th }

/-- `m_autoStop && m_stopping` -/
def ending (s : SchedulerLife) : Bool := s.autoStop && s.stopping

/-- `m_name + "_" + std::to_string(i)` -/
def threadName (s : SchedulerLife) (i : Nat) : Bytes :=
  s.name ++ ascii "_" ++ toDecimal i

/-- The thread has returned from `Thread::run`. -/
def ended (s : SchedulerLife) (k : Nat) : Bool :=
  match (s.thread k).pc with
  | .calling .left => true
  | _ => false

/-- The next step of the owner. -/
def ownerStep (s : SchedulerLife) (b : Bool) : Option SchedulerLife :=
  match s.pc with
  | .start =>
      if !s.stopping then some (s.goto (.between true))
      else if s.threads.isEmpty then
        some ({ s with locked := true, stopping := false }.goto (.creating 0))
      else none
  | .creating i =>
      if i < s.threadCount then
        if b then
          some (({ s with made := s.made + 1 }.setThread s.made
            (.new () (s.threadName i))).goto (.waiting i))
        else some ({ s with locked := false }.goto (.between false))
      else some ({ s with locked := false }.goto (.between true))
  | .waiting i => do
      let th := s.thread (s.made - 1)
      let semaphore ← th.semaphore.wait
      pure ((s.setThread (s.made - 1) { th with semaphore := semaphore }).goto
        (.recording i))
  | .recording i => do
      let threads := s.threads ++ [s.made - 1]
      let k ← threads[i]?
      pure ({ s with
        threads := threads
        threadIds := s.threadIds ++ [(s.thread k).id] }.goto
          (.creating (i + 1)))
  | .between _ => some ({ s with autoStop := true }.goto .asked)
  | .asked =>
      if s.threadCount = 0 ∧ (s.root = some .enter ∨ s.root = some .left) then
        some ({ s with stopping := true }.goto .early)
      else some ({ s with stopping := true }.goto .marked)
  | .early =>
      if s.ending && !b then some (s.goto .stopped) else some (s.goto .marked)
  | .marked =>
      if s.root.isSome && !(s.ending && !b) then some (s.goto .calling)
      else some (s.goto .swapping)
  | .calling =>
      match s.root with
      | some .left => some (s.goto .swapping)
      | some pc => (pc.step (!s.locked) s.ending b).map fun pc =>
          { s with root := some pc }
      | none => none
  | .swapping => some ({ s with threads := [] }.goto (.joining s.threads))
  | .joining [] => some (s.goto .stopped)
  | .joining (k :: ks) =>
      if s.ended k then some (s.goto (.joining ks)) else none
  | .stopped => none

/-- The next step of a thread, whose id is `tid`. -/
def threadStep (s : SchedulerLife) (tid : Int) (k : Nat) (found : Bool) :
    Option SchedulerLife :=
  if k < s.made then
    match (s.thread k).pc with
    | .calling pc => (pc.step (!s.locked) s.ending found).map fun pc =>
        s.setThread k { s.thread k with pc := .calling pc }
    | _ => ((s.thread k).run tid .enter).map (s.setThread k)
  else none

/-- A step; `tid k` is the id of the `k`-th thread that is made. -/
def step (tid : Nat → Int) (s : SchedulerLife) :
    LifeAct → Option SchedulerLife
  | .owner b => s.ownerStep b
  | .thread k found => s.threadStep (tid k) k found

end SchedulerLife

end TinyServer
