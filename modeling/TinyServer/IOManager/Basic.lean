/-
`IOManager` (iomanager.h, iomanager.cpp): the table of registered
events, the operations on it and the dispatch loop of `idle`.

# The table

`m_fdEvents` is a vector of pointers to heap objects that are created by
`eventResize` and never freed before the destructor, so the table is a
list of object numbers and `objs` is the heap. `READ` and `WRITE` have
the numeric values of `EPOLLIN` and `EPOLLOUT`; an `et` or an interest
mask is the set of the two, without the constant `EPOLLET` flag.

# The kernel

The epoll instance is a map from descriptors to interest masks. `ADD`
fails on a present descriptor, `MOD` and `DEL` on an absent one, and any
call may fail for a reason of its own, which the caller of an operation
here chooses (`ctlFails`). The calls are logged together with the mask
the kernel held before.

# Sections

Every operation is a read-locked (for `addEvent` possibly write-locked)
lookup of the `FdEvent`, followed by one section under the mutex of that
`FdEvent`. The sections are functions of their own: the sequential
operations compose them, and the concurrent system (`Growth.lean`)
interleaves them.

# The ways out

An operation returns, or aborts: a failed `TINY_ASSERT`, a call through
a null `scheduler` pointer, or an index outside the vector. The counter
`m_pendingEventCount` is an integer: a count below zero would show.
-/
import TinyServer.Scheduler.Basic

namespace TinyServer

-- ================================================================== events

/-- `IOManager::EventType` as an argument: `READ` or `WRITE`. -/
inductive EventType
  | read
  | write
  deriving DecidableEq, Repr

/-- A set of event types: `FdEvent::et`, or an interest mask. -/
structure EventSet where
  read : Bool
  write : Bool
  deriving DecidableEq, Repr

namespace EventSet

/-- `NONE`. -/
def none : EventSet := ⟨false, false⟩

def has (m : EventSet) : EventType → Bool
  | .read => m.read
  | .write => m.write

/-- `m | t` -/
def insert (m : EventSet) : EventType → EventSet
  | .read => { m with read := true }
  | .write => { m with write := true }

/-- `m & ~t` -/
def erase (m : EventSet) : EventType → EventSet
  | .read => { m with read := false }
  | .write => { m with write := false }

/-- `m & n` -/
def inter (m n : EventSet) : EventSet := ⟨m.read && n.read, m.write && n.write⟩

/-- `m & ~n` -/
def diff (m n : EventSet) : EventSet :=
  ⟨m.read && !n.read, m.write && !n.write⟩

/-- The number of set bits. -/
def card (m : EventSet) : Int :=
  (if m.read then 1 else 0) + (if m.write then 1 else 0)

end EventSet

/-- The bits of `epoll_event::events` that `idle` looks at. -/
structure EpollMask where
  epollin : Bool
  epollout : Bool
  epollerr : Bool
  epollhup : Bool
  deriving DecidableEq, Repr

/-- `real_event_type`: what a reported mask stands for. -/
def EpollMask.realEventType (m : EpollMask) : EventSet :=
  let all := m.epollerr || m.epollhup
  ⟨m.epollin || all, m.epollout || all⟩

/-- `FdEvent::Event`. -/
structure Event where
  scheduler : Option Nat
  fiber : Option Nat
  cb : Option Nat
  deriving DecidableEq, Repr

/-- An `Event` with all three fields null. -/
def Event.empty : Event := ⟨none, none, none⟩

/-- `FdEvent`. -/
structure FdEvent where
  read : Event
  write : Event
  fd : Nat
  et : EventSet
  deriving DecidableEq, Repr

namespace FdEvent

/-- `new FdEvent()` with `fd` set. -/
def new (fd : Nat) : FdEvent := ⟨.empty, .empty, fd, .none⟩

/-- `FdEvent::getEvent`. -/
def getEvent (e : FdEvent) : EventType → Event
  | .read => e.read
  | .write => e.write

def setEvent (e : FdEvent) : EventType → Event → FdEvent
  | .read, slot => { e with read := slot }
  | .write, slot => { e with write := slot }

end FdEvent

-- ================================================================= the state

/-- The operation argument of `epoll_ctl`. -/
inductive CtlOp
  | add
  | mod
  | del
  deriving DecidableEq, Repr

/-- An `epoll_ctl` call, with the interest mask before it. -/
structure CtlCall where
  op : CtlOp
  fd : Nat
  before : Option EventSet
  deriving DecidableEq, Repr

/-- The kernel accepts `op`: `ADD` on an absent descriptor, `MOD` and
`DEL` on a present one. -/
def CtlCall.legal (c : CtlCall) : Bool :=
  match c.op with
  | .add => c.before.isNone
  | .mod => c.before.isSome
  | .del => c.before.isSome

/-- `IOManager`, with the kernel's interest list and two logs: the
`epoll_ctl` calls made, and the tasks handed to schedulers. -/
@[ext]
structure IOManager where
  fdEvents : List Nat
  objs : Nat → FdEvent
  nextObj : Nat
  pendingEventCount : Int
  kernel : Nat → Option EventSet
  calls : List CtlCall
  scheduled : List (Nat × Task)

/-- Why an operation did not return. -/
inductive Abort
  | assertion
  | nullDeref
  | badIndex
  deriving DecidableEq, Repr

/-- What `addEvent` takes from the thread that calls it:
`Scheduler::GetThis()`, `Fiber::GetThis()` and whether that fiber is in
state `EXEC`. -/
structure Caller where
  scheduler : Option Nat
  fiber : Nat
  exec : Bool
  deriving DecidableEq, Repr

namespace IOManager

/-- Overwrite the heap object `p`. -/
def setObj (s : IOManager) (p : Nat) (e : FdEvent) : IOManager :=
  { s with objs := fun q => if q = p then e else s.objs q }

/-- `IOManager::eventResize`: `resize` drops the entries past `size`, and
every null entry it appends becomes a new `FdEvent`. -/
def eventResize (s : IOManager) (size : Nat) : IOManager :=
  let n := s.fdEvents.length
  { s with
    fdEvents := s.fdEvents.take size
      ++ (List.range (size - n)).map (s.nextObj + ·)
    objs := fun q =>
      if s.nextObj ≤ q ∧ q < s.nextObj + (size - n)
      then FdEvent.new (n + (q - s.nextObj)) else s.objs q
    nextObj := s.nextObj + (size - n) }

/-- The table after the constructor: `eventResize(32)` on an empty
vector, nothing registered. -/
def init : IOManager :=
  eventResize ⟨[], fun q => FdEvent.new q, 0, 0, fun _ => none, [], []⟩ 32

/-- `epoll_ctl(m_epollfd, op, fd, mask)`: whether it succeeded, and the
state after it. -/
def epollCtl (s : IOManager) (op : CtlOp) (fd : Nat) (mask : EventSet)
    (ctlFails : Bool) : Bool × IOManager :=
  let call : CtlCall := ⟨op, fd, s.kernel fd⟩
  let s := { s with calls := s.calls ++ [call] }
  if ctlFails || !call.legal then (false, s)
  else
    let entry := match op with
      | .del => Option.none
      | _ => some mask
    (true, { s with kernel := fun f => if f = fd then entry else s.kernel f })

-- ================================================================== triggers

/-- `event.scheduler->schedule(&event.cb)` or `(&event.fiber)`: the
pointer is swapped out of the slot, and a null fiber is not queued. -/
def scheduleSlot (s : IOManager) (sched : Nat) (slot : Event) :
    IOManager × Event :=
  match slot.cb with
  | some c =>
      ({ s with scheduled := s.scheduled ++ [(sched, .cb c)] },
        { slot with cb := none })
  | none =>
      match slot.fiber with
      | some f =>
          ({ s with scheduled := s.scheduled ++ [(sched, .fiber f)] },
            { slot with fiber := none })
      | none => (s, slot)

/-- `FdEvent::triggerEvent` on the object `p`. -/
def triggerEvent (s : IOManager) (p : Nat) (et : EventType) :
    Except Abort IOManager :=
  let e := s.objs p
  if e.et.has et then
    let slot := e.getEvent et
    match slot.scheduler with
    | none => .error .nullDeref
    | some sched =>
        let r := s.scheduleSlot sched slot
        .ok (r.1.setObj p ({ e with et := e.et.erase et }.setEvent et
          { r.2 with scheduler := none }))
  else .error .assertion

/-- `triggerEvent(et); --m_pendingEventCount`. -/
def triggerAndCount (s : IOManager) (p : Nat) (et : EventType) :
    Except Abort IOManager := do
  let s ← s.triggerEvent p et
  pure { s with pendingEventCount := s.pendingEventCount - 1 }

/-- The same under `if (bits & et)`. -/
def triggerIf (s : IOManager) (bits : EventSet) (p : Nat)
    (et : EventType) : Except Abort IOManager :=
  if bits.has et then s.triggerAndCount p et else .ok s

-- ================================================================== sections

/-- The section of `addEvent` under the mutex of the `FdEvent` `p`;
returns 0 or -1. -/
def addSection (s : IOManager) (p fd : Nat) (et : EventType)
    (cb : Option Nat) (caller : Caller) (ctlFails : Bool) :
    Except Abort (Int × IOManager) :=
  let e := s.objs p
  if e.et.has et then .error .assertion
  else
    let op := if e.et = .none then CtlOp.add else CtlOp.mod
    let r := s.epollCtl op fd (e.et.insert et) ctlFails
    if r.1 then
      let s := { r.2 with pendingEventCount := r.2.pendingEventCount + 1 }
      let e := { e with et := e.et.insert et }
      if e.getEvent et ≠ Event.empty then .error .assertion
      else
        match cb with
        | some c =>
            .ok (0, s.setObj p (e.setEvent et ⟨caller.scheduler, none, c⟩))
        | none =>
            if caller.exec then
              .ok (0, s.setObj p
                (e.setEvent et ⟨caller.scheduler, caller.fiber, none⟩))
            else .error .assertion
    else .ok (-1, r.2)

/-- The section of `delEvent`. -/
def delSection (s : IOManager) (p fd : Nat) (et : EventType)
    (ctlFails : Bool) : Except Abort (Bool × IOManager) :=
  let e := s.objs p
  if e.et.has et then
    let newEvent := e.et.erase et
    let op := if newEvent = .none then CtlOp.del else CtlOp.mod
    let r := s.epollCtl op fd newEvent ctlFails
    if r.1 then
      let s := { r.2 with pendingEventCount := r.2.pendingEventCount - 1 }
      -- `resetEvent` takes its `Event` by value and clears the copy: the
      -- slot keeps its three fields
      .ok (true, s.setObj p { e with et := newEvent })
    else .ok (false, r.2)
  else .ok (false, s)

/-- The section of `cancelEvent`. -/
def cancelSection (s : IOManager) (p fd : Nat) (et : EventType)
    (ctlFails : Bool) : Except Abort (Bool × IOManager) :=
  let e := s.objs p
  if e.et.has et then
    let newEvent := e.et.erase et
    let op := if newEvent = .none then CtlOp.del else CtlOp.mod
    let r := s.epollCtl op fd newEvent ctlFails
    if r.1 then do
      let s ← r.2.triggerAndCount p et
      pure (true, s)
    else .ok (false, r.2)
  else .ok (false, s)

/-- The section of `cancelAll`. -/
def cancelAllSection (s : IOManager) (p fd : Nat) (ctlFails : Bool) :
    Except Abort (Bool × IOManager) :=
  let e := s.objs p
  if e.et = .none then .ok (false, s)
  else
    let r := s.epollCtl .del fd .none ctlFails
    if r.1 then do
      let s ← r.2.triggerIf e.et p .read
      let s ← s.triggerIf (s.objs p).et p .write
      if (s.objs p).et = .none then pure (true, s)
      else .error .assertion
    else .ok (false, r.2)

/-- One iteration of the dispatch loop of `idle`: the kernel reported
`mask` for the `FdEvent` `p`. -/
def dispatch (s : IOManager) (p : Nat) (mask : EpollMask)
    (ctlFails : Bool) : Except Abort IOManager :=
  let e := s.objs p
  let real := mask.realEventType
  if real.inter e.et = .none then .ok s
  else
    let left := e.et.diff real
    let op := if left = .none then CtlOp.del else CtlOp.mod
    let r := s.epollCtl op e.fd left ctlFails
    if r.1 then do
      let s ← r.2.triggerIf real p .read
      s.triggerIf real p .write
    else .ok r.2

-- ======================================================= sequential operations

/-- `addEvent`: `(int)m_fdEvents.size() > fd` decides between the
read-locked lookup and the write-locked `eventResize(fd * 1.5)`. -/
def addEvent (s : IOManager) (fd : Nat) (et : EventType)
    (cb : Option Nat) (caller : Caller) (ctlFails : Bool) :
    Except Abort (Int × IOManager) :=
  let s := if fd < s.fdEvents.length then s else s.eventResize (fd * 3 / 2)
  match s.fdEvents[fd]? with
  | none => .error .badIndex
  | some p => s.addSection p fd et cb caller ctlFails

/-- `delEvent`. -/
def delEvent (s : IOManager) (fd : Nat) (et : EventType)
    (ctlFails : Bool) : Except Abort (Bool × IOManager) :=
  match s.fdEvents[fd]? with
  | none => .ok (false, s)
  | some p => s.delSection p fd et ctlFails

/-- `cancelEvent`. -/
def cancelEvent (s : IOManager) (fd : Nat) (et : EventType)
    (ctlFails : Bool) : Except Abort (Bool × IOManager) :=
  match s.fdEvents[fd]? with
  | none => .ok (false, s)
  | some p => s.cancelSection p fd et ctlFails

/-- `cancelAll`. -/
def cancelAll (s : IOManager) (fd : Nat) (ctlFails : Bool) :
    Except Abort (Bool × IOManager) :=
  match s.fdEvents[fd]? with
  | none => .ok (false, s)
  | some p => s.cancelAllSection p fd ctlFails

end IOManager

/-- The calls a run is made of. `deliver` is the dispatch in `idle` of an
event whose `data.ptr` is the `FdEvent` of `fd`. -/
inductive IoOp
  | addEvent (fd : Nat) (et : EventType) (cb : Option Nat)
      (caller : Caller) (ctlFails : Bool)
  | delEvent (fd : Nat) (et : EventType) (ctlFails : Bool)
  | cancelEvent (fd : Nat) (et : EventType) (ctlFails : Bool)
  | cancelAll (fd : Nat) (ctlFails : Bool)
  | deliver (fd : Nat) (mask : EpollMask) (ctlFails : Bool)
  deriving DecidableEq, Repr

namespace IoOp

/-- Whether the `epoll_ctl` of the call is made to fail. -/
def ctlFails : IoOp → Bool
  | .addEvent _ _ _ _ f => f
  | .delEvent _ _ f => f
  | .cancelEvent _ _ f => f
  | .cancelAll _ f => f
  | .deliver _ _ f => f

/-- The state after the call, or why it did not return. -/
def apply (s : IOManager) : IoOp → Except Abort IOManager
  | .addEvent fd et cb caller f =>
      Prod.snd <$> s.addEvent fd et cb caller f
  | .delEvent fd et f => Prod.snd <$> s.delEvent fd et f
  | .cancelEvent fd et f => Prod.snd <$> s.cancelEvent fd et f
  | .cancelAll fd f => Prod.snd <$> s.cancelAll fd f
  | .deliver fd mask f =>
      match s.fdEvents[fd]? with
      | none => .ok s
      | some p => s.dispatch p mask f

end IoOp

end TinyServer
