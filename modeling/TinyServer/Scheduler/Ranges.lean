/-
The threads that call `schedule(begin, end)` (scheduler.h), step by step.

`Scheduled.scheduleRange` is a call in one. Here each look at
`m_fibers.empty()` and each `push_back` is a step of its own, between the
steps of the others, with the guard over `m_mutex` around them.
-/
import TinyServer.Thread.Lock
import TinyServer.Scheduler.Enqueue

namespace TinyServer

/-- A place in `schedule(begin, end)`: what is left of the range, and
`need_tickle`. `looked` is inside `scheduleNoLock`, with the `need_tickle`
there. -/
inductive SchedulePlace
  | entry (range : List FiberOrCb)
  | declared (range : List FiberOrCb) (needTickle : Bool)
  | loop (range : List FiberOrCb) (needTickle : Bool)
  | looked (fc : FiberOrCb) (range : List FiberOrCb) (needTickle empty : Bool)
  | left (needTickle : Bool)
  deriving DecidableEq, Repr

/-- `schedule` and in it `scheduleNoLock`, over `m_fibers`. -/
def scheduleCode : SchedulePlace → List QueueEntry →
    Option (GuardMove (List QueueEntry) SchedulePlace)
  | .entry range, fibers => some (.work fibers (.declared range false))
  | .declared range needTickle, _ =>
      some (.construct .write (.loop range needTickle))
  | .loop [] needTickle, _ => some (.destruct (.left needTickle))
  | .loop (fc :: range) needTickle, fibers =>
      some (.work fibers (.looked fc range needTickle fibers.isEmpty))
  | .looked fc range needTickle empty, fibers =>
      some (.work
        (QueueEntry.scheduleNoLock fibers (QueueEntry.swap fc none).1).2
        (.loop range (empty || needTickle)))
  | .left _, _ => none

/-- The guard at each place. -/
def SchedulePlace.guard : SchedulePlace → Option ScopeLock
  | .loop _ _ | .looked _ _ _ _ => some ⟨.write, true⟩
  | .entry _ | .declared _ _ | .left _ => none

end TinyServer
