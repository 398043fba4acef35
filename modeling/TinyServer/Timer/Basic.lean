/-
`Timer` and `TimerManager` (timer.h, timer.cpp).

# Timers and their order

A timer is known by its address. The allocator chooses the address, so
`addTimer` takes it as an argument; reference counts are not modelled, a
timer once made stays and its address is not used again. `m_timers` is a
list of addresses in the order of `Timer::Compare`, which compares the
current `m_next` of two timers and then their addresses. (Compare's
tests for a null pointer are left out: no null is ever in the set or
looked up.)

Times and periods are `uint64_t`: numbers modulo 2^64 (`wrap`).

# Calls

A reading of the clock is an argument of the operation that makes it.
Two calls can be undefined: `erase(end())` in `cancle` and `*begin()` of
an empty set in `listExpireCB`; these are the `TimerFault`s.

# Threads

An operation is one section under the lock, together with what it reads
before. `listExpireCB` tests for emptiness in a section of its own
before the one that collects. `TimerThreads` has the threads that are
between these two; all other calls, of any number of threads, come in
between as single steps.
-/
import Mathlib.Algebra.Group.Nat.Defs
import TinyServer.Lib.OrdSet

namespace TinyServer

open Lib

/-- `Timer`; `m_manager` is left out. -/
structure Timer where
  ms : Nat
  next : Nat
  cb : Option Nat
  recurring : Bool
  deriving DecidableEq, Repr

/-- A null timer, for the addresses that hold none. -/
def Timer.none : Timer := ⟨0, 0, Option.none, false⟩

/-- `TimerManager`, with the timers in memory and the addresses in
use. -/
structure TimerManager where
  heap : Nat → Timer
  made : List Nat
  timers : List Nat
  tickled : Bool
  previousTime : Nat

/-- What the library leaves undefined. -/
inductive TimerFault
  | eraseEnd
  | derefEnd
  deriving DecidableEq, Repr

/-- A number as a `uint64_t`. -/
def wrap (n : Nat) : Nat := n % 2 ^ 64

/-- `~0ull`. -/
def noTimer : Nat := 2 ^ 64 - 1

/-- `Timer::Compare`. -/
def compare (heap : Nat → Timer) (lhs rhs : Nat) : Bool :=
  if (heap lhs).next < (heap rhs).next then true
  else if (heap rhs).next < (heap lhs).next then false
  else lhs < rhs

namespace TimerManager

/-- `TimerManager()`, at the clock reading `now`. -/
def new (now : Nat) : TimerManager :=
  ⟨fun _ => Timer.none, [], [], false, now⟩

def setTimer (m : TimerManager) (a : Nat) (t : Timer) : TimerManager :=
  { m with heap := fun b => if b = a then t else m.heap b }

/-- `m_timers.insert(a)`. -/
def insert (m : TimerManager) (a : Nat) : TimerManager :=
  { m with timers := setInsert (compare m.heap) a m.timers }

/-- The iterator that `m_timers.insert(a)` returns is `begin()`. -/
def atBegin (m : TimerManager) (a : Nat) : Bool :=
  match m.timers with
  | [] => true
  | b :: _ => !compare m.heap b a

/-- `addTimer(timer, lock)`: whether it calls `onTimerInsertAtFront`. -/
def addLocked (m : TimerManager) (a : Nat) : Bool × TimerManager :=
  let atFront := m.atBegin a && !m.tickled
  (atFront, { m.insert a with tickled := m.tickled || atFront })

/-- `addTimer(ms, cb, recurring)` at the clock reading `now`, the timer
being allocated at `a`. -/
def addTimer (m : TimerManager) (a ms : Nat) (cb : Option Nat)
    (recurring : Bool) (now : Nat) : Bool × TimerManager :=
  ({ m with made := a :: m.made }.setTimer a
    ⟨ms, wrap (now + ms), cb, recurring⟩).addLocked a

/-- `Timer::cancle`. -/
def cancle (m : TimerManager) (a : Nat) :
    Except TimerFault (Bool × TimerManager) :=
  if (m.heap a).cb = none then .ok (false, m)
  else
    let m := m.setTimer a { m.heap a with cb := none }
    match setFind (compare m.heap) a m.timers with
    | none => .error .eraseEnd
    | some b => .ok (true, { m with timers := m.timers.erase b })

/-- `Timer::refresh` at the clock reading `now`. -/
def refresh (m : TimerManager) (a now : Nat) : Bool × TimerManager :=
  if (m.heap a).cb = none then (false, m)
  else
    match setFind (compare m.heap) a m.timers with
    | none => (false, m)
    | some b =>
        let m := { m with timers := m.timers.erase b }
        let t := m.heap a
        (true, (m.setTimer a { t with next := wrap (now + t.ms) }).insert a)

/-- `Timer::reset`; the last of the results is whether it calls
`onTimerInsertAtFront`. -/
def reset (m : TimerManager) (a ms : Nat) (fromNow : Bool) (now : Nat) :
    Bool × TimerManager × Bool :=
  if ms = (m.heap a).ms && !fromNow then (false, m, false)
  else if (m.heap a).cb = none then (false, m, false)
  else
    match setFind (compare m.heap) a m.timers with
    | none => (false, m, false)
    | some b =>
        let m := { m with timers := m.timers.erase b }
        let t := m.heap a
        let start := if fromNow then now else wrap (t.next + (2 ^ 64 - t.ms))
        let (announced, m) := (m.setTimer a { t with
          ms := ms
          next := wrap (start + ms) }).addLocked a
        (true, m, announced)

/-- `getNextTimer` at the clock reading `now`. -/
def getNextTimer (m : TimerManager) (now : Nat) : Nat × TimerManager :=
  let m := { m with tickled := true }
  match m.timers with
  | [] => (noTimer, m)
  | a :: _ =>
      (if (m.heap a).next < now then 0 else (m.heap a).next - now, m)

/-- `hasTimer`. -/
def hasTimer (m : TimerManager) : Bool := !m.timers.isEmpty

/-- `detectClockRollover`. -/
def detectClockRollover (m : TimerManager) (now : Nat) :
    Bool × TimerManager :=
  (now < m.previousTime
      && now < wrap (m.previousTime + (2 ^ 64 - 60 * 60 * 1000)),
    { m with previousTime := now })

/-- The timers in front of the iterator of `listExpireCB`. The key of
`lower_bound` is a timer at the address `tmp` with `m_next = now`. -/
def expired (m : TimerManager) (now tmp : Nat) : List Nat :=
  let front := m.timers.takeWhile fun a =>
    (m.heap a).next < now || ((m.heap a).next = now && a < tmp)
  front ++ (m.timers.drop front.length).takeWhile fun a =>
    (m.heap a).next = now

/-- One iteration of the last loop of `listExpireCB`. -/
def rearm (m : TimerManager) (now a : Nat) : TimerManager :=
  let t := m.heap a
  if t.recurring then
    (m.setTimer a { t with next := wrap (now + t.ms) }).insert a
  else m.setTimer a { t with cb := none }

/-- The last loop of `listExpireCB`: the timers with the callbacks
pushed. -/
def handOut (now : Nat) :
    List Nat → TimerManager → List (Nat × Option Nat) × TimerManager
  | [], m => ([], m)
  | a :: rest, m =>
      let (cbs, m') := handOut now rest (m.rearm now a)
      ((a, (m.heap a).cb) :: cbs, m')

/-- The section of `listExpireCB` under the write lock, for the clock
reading `now`. -/
def collect (m : TimerManager) (now tmp : Nat) :
    Except TimerFault (List (Nat × Option Nat) × TimerManager) :=
  let (rollover, m) := m.detectClockRollover now
  if rollover then
    .ok (handOut now m.timers { m with timers := [] })
  else
    match m.timers with
    | [] => .error .derefEnd
    | a :: _ =>
        if now < (m.heap a).next then .ok ([], m)
        else
          let expire := m.expired now tmp
          .ok (handOut now expire
            { m with timers := m.timers.drop expire.length })

/-- `listExpireCB`, without another call between its two sections. -/
def listExpireCB (m : TimerManager) (now tmp : Nat) :
    Except TimerFault (List (Nat × Option Nat) × TimerManager) :=
  if m.timers = [] then .ok ([], m) else m.collect now tmp

end TimerManager

-- ==================================================================== calls

/-- A call; addresses and clock readings as in `TimerManager`. -/
inductive TimerCall
  | addTimer (a ms : Nat) (cb : Option Nat) (recurring : Bool) (now : Nat)
  | cancle (a : Nat)
  | refresh (a now : Nat)
  | reset (a ms : Nat) (fromNow : Bool) (now : Nat)
  | getNextTimer (now : Nat)
  | listExpireCB (now tmp : Nat)
  deriving DecidableEq, Repr

/-- The timer whose member function a call is. -/
def TimerCall.timer : TimerCall → Option Nat
  | .cancle a => some a
  | .refresh a _ => some a
  | .reset a _ _ _ => some a
  | _ => none

/-- What a call returns, with the timers it handed out and whether it
called `onTimerInsertAtFront`. -/
structure TimerRet where
  flag : Bool
  handed : List (Nat × Option Nat)
  announced : Bool
  deriving DecidableEq, Repr

namespace TimerManager

/-- A call: a new timer's address is a new one, and nothing undefined
happens. -/
def call (m : TimerManager) : TimerCall → Option (TimerManager × TimerRet)
  | .addTimer a ms cb recurring now =>
      if a ∈ m.made then none
      else
        let (announced, m) := m.addTimer a ms cb recurring now
        some (m, ⟨true, [], announced⟩)
  | .cancle a =>
      match m.cancle a with
      | .error _ => none
      | .ok (flag, m) => some (m, ⟨flag, [], false⟩)
  | .refresh a now =>
      let (flag, m) := m.refresh a now
      some (m, ⟨flag, [], false⟩)
  | .reset a ms fromNow now =>
      let (flag, m, announced) := m.reset a ms fromNow now
      some (m, ⟨flag, [], announced⟩)
  | .getNextTimer now => some ((m.getNextTimer now).2, ⟨true, [], false⟩)
  | .listExpireCB now tmp =>
      match m.listExpireCB now tmp with
      | .error _ => none
      | .ok (cbs, m) => some (m, ⟨true, cbs, false⟩)

/-- The state after a call. -/
def step (m : TimerManager) (c : TimerCall) : Option TimerManager :=
  (m.call c).map Prod.fst

end TimerManager

-- =============================================================== recorded runs

/-- A call in the record of a run, with `m_timers` before and after. -/
structure TimerEvent where
  call : TimerCall
  ret : TimerRet
  before : List Nat
  after : List Nat
  deriving DecidableEq, Repr

/-- A manager with the record of the calls made so far. -/
structure TimerRun where
  m : TimerManager
  log : List TimerEvent

namespace TimerRun

def new (now : Nat) : TimerRun := ⟨.new now, []⟩

/-- Make a call and record it. -/
def step (s : TimerRun) (c : TimerCall) : Option TimerRun :=
  (s.m.call c).map fun (m, r) =>
    ⟨m, s.log ++ [⟨c, r, s.m.timers, m.timers⟩]⟩

end TimerRun

-- ================================================================== threads

/-- The manager with the threads inside `listExpireCB`: a thread that
has found `m_timers` non-empty and has not collected yet is there with
its clock reading. -/
structure TimerThreads where
  m : TimerManager
  tested : Nat → Option Nat

/-- A section of a thread. -/
inductive TimerStep
  /-- A call, without another section in between. -/
  | op (c : TimerCall)
  /-- The emptiness test of `listExpireCB`. -/
  | test (t now : Nat)
  /-- The collection of `listExpireCB`. -/
  | collect (t tmp : Nat)
  deriving DecidableEq, Repr

namespace TimerThreads

def new (now : Nat) : TimerThreads := ⟨.new now, fun _ => none⟩

def setTested (s : TimerThreads) (t : Nat) (r : Option Nat) : TimerThreads :=
  { s with tested := fun u => if u = t then r else s.tested u }

def step (s : TimerThreads) : TimerStep → Option TimerThreads
  | .op c => (s.m.step c).map fun m => { s with m := m }
  | .test t now =>
      if s.tested t ≠ none then none
      else if s.m.timers = [] then some s
      else some (s.setTested t (some now))
  | .collect t tmp =>
      match s.tested t with
      | none => none
      | some now =>
          match s.m.collect now tmp with
          | .error _ => none
          | .ok (_, m) => some ({ s with m := m }.setTested t none)

end TimerThreads

end TinyServer
