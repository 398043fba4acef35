/-
The two overloads of `Scheduler::schedule` (scheduler.h).

One takes a task by value, the other a range of them. Both make an entry
of a task in `scheduleNoLock`: the first copies the task, the second hands
over a pointer to the caller's, and the constructor swaps it out, which
leaves the caller's null. `tickles` counts the calls of `tickle`.
-/
import TinyServer.Scheduler.Basic

namespace TinyServer

/-- A `Ref<Fiber>` or a `std::function<void()>`; `none` is null. -/
inductive FiberOrCb
  | fiber (f : Option Nat)
  | cb (c : Option Nat)
  deriving DecidableEq, Repr

namespace FiberOrCb

/-- Neither a fiber nor a callback. -/
def isNull : FiberOrCb → Bool
  | .fiber f => f.isNone
  | .cb c => c.isNone

/-- What is left of a task that was swapped out. -/
def emptied : FiberOrCb → FiberOrCb
  | .fiber _ => .fiber none
  | .cb _ => .cb none

end FiberOrCb

/-- `FiberAndThread`, with both of its fields; `threadId` is `none` for
-1. -/
structure QueueEntry where
  fiber : Option Nat
  cb : Option Nat
  threadId : Option Nat
  deriving DecidableEq, Repr

namespace QueueEntry

/-- `FiberAndThread(Ref<Fiber>, int)` and
`FiberAndThread(std::function<void()>, int)`. -/
def copy (fc : FiberOrCb) (threadId : Option Nat) : QueueEntry :=
  match fc with
  | .fiber f => ⟨f, none, threadId⟩
  | .cb c => ⟨none, c, threadId⟩

/-- `FiberAndThread(Ref<Fiber>*, int)` and
`FiberAndThread(std::function<void()>*, int)`: the entry, and what the
pointer points to afterwards. -/
def swap (fc : FiberOrCb) (threadId : Option Nat) : QueueEntry × FiberOrCb :=
  match fc with
  | .fiber f => (⟨f, none, threadId⟩, .fiber none)
  | .cb c => (⟨none, c, threadId⟩, .cb none)

/-- `scheduleNoLock` with the entry it makes: `need_tickle` and
`m_fibers`. -/
def scheduleNoLock (fibers : List QueueEntry) (ft : QueueEntry) :
    Bool × List QueueEntry :=
  (fibers.isEmpty,
    if ft.fiber.isSome || ft.cb.isSome then fibers ++ [ft] else fibers)

end QueueEntry

/-- `m_fibers`, the caller's tasks and the calls of `tickle`. -/
structure Scheduled where
  fibers : List QueueEntry
  tasks : List FiberOrCb
  tickles : Nat
  deriving DecidableEq, Repr

namespace Scheduled

/-- `schedule(fc, threadId)`. The result of `scheduleNoLock` is not
used. -/
def schedule (s : Scheduled) (fc : FiberOrCb) (threadId : Option Nat) :
    Scheduled :=
  let need_tickle := false
  let (_, fibers) :=
    QueueEntry.scheduleNoLock s.fibers (QueueEntry.copy fc threadId)
  { s with
    fibers := fibers
    tickles := if need_tickle then s.tickles + 1 else s.tickles }

/-- `schedule(task)` for the tasks one after the other. -/
def scheduleEach (fibers : List QueueEntry) (tasks : List FiberOrCb) :
    Scheduled :=
  tasks.foldl (fun s fc => s.schedule fc none) ⟨fibers, tasks, 0⟩

/-- The loop of `schedule(begin, end)`: `m_fibers`, `need_tickle` and the
tasks that have been swapped out. -/
def rangeLoop (fibers : List QueueEntry) (need_tickle : Bool) :
    List FiberOrCb → List QueueEntry × Bool × List FiberOrCb
  | [] => (fibers, need_tickle, [])
  | fc :: rest =>
      let (ft, left) := QueueEntry.swap fc none
      let (need, fibers) := QueueEntry.scheduleNoLock fibers ft
      let (fibers, need_tickle, tasks) :=
        rangeLoop fibers (need || need_tickle) rest
      (fibers, need_tickle, left :: tasks)

/-- `schedule(begin, end)`. -/
def scheduleRange (fibers : List QueueEntry) (tasks : List FiberOrCb) :
    Scheduled :=
  let (fibers, need_tickle, tasks) := rangeLoop fibers false tasks
  ⟨fibers, tasks, if need_tickle then 1 else 0⟩

end Scheduled

/-- The task that a queue entry of the workers is made of. -/
def Task.fiberOrCb : Option Task → FiberOrCb
  | some (.fiber f) => .fiber (some f)
  | some (.cb c) => .cb (some c)
  | none => .cb none

/-- An entry of the workers' queue as it is made. -/
def FiberAndThread.queueEntry (e : FiberAndThread) : QueueEntry :=
  .copy (Task.fiberOrCb (some e.task)) e.threadId

end TinyServer
