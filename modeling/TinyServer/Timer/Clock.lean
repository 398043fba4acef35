/-
What the timers are to do by the clock.

# Due timers

`due` is the timers that a collection is to hand out: the set itself is
searched with a probe (`expired`), here it is a filter over `m_timers`.

# Promises

A `Promise` is kept for each timer in unbounded numbers: when its current
period began, the period, and the time before which it is not to be
handed out. `addTimer`, `refresh` and `reset` make a promise; handing out
a timer begins a new period of it. `TimerWatch` is the threads with the
promises and the greatest reading of the clock so far; no reading is
below it. A thread that collects does so with the reading of its test.
-/
import TinyServer.Timer.Basic

namespace TinyServer

/-- The numbers of a call are `uint64_t`s. -/
def TimerCall.Typed : TimerCall → Prop
  | .addTimer _ ms _ _ now => ms < 2 ^ 64 ∧ now < 2 ^ 64
  | .cancle _ => True
  | .refresh _ now => now < 2 ^ 64
  | .reset _ ms _ now => ms < 2 ^ 64 ∧ now < 2 ^ 64
  | .getNextTimer now => now < 2 ^ 64
  | .listExpireCB now _ => now < 2 ^ 64

def TimerStep.Typed : TimerStep → Prop
  | .op c => c.Typed
  | .test _ now => now < 2 ^ 64
  | .collect _ _ => True

/-- What handing out at `now` makes of a timer. -/
def Timer.handOut (t : Timer) (now : Nat) : Timer :=
  if t.recurring then { t with next := wrap (now + t.ms) }
  else { t with cb := Option.none }

/-- The timers due at `now`; all of them when the clock has gone back by
more than an hour. -/
def TimerManager.due (m : TimerManager) (now : Nat) : List Nat :=
  if now + 3600000 < m.previousTime then m.timers
  else m.timers.filter fun a => (m.heap a).next ≤ now

-- ================================================================= readings

/-- The reading of the clock that a call makes. -/
def TimerCall.reading : TimerCall → Option Nat
  | .addTimer _ _ _ _ now => some now
  | .cancle _ => none
  | .refresh _ now => some now
  | .reset _ _ fromNow now => if fromNow then some now else none
  | .getNextTimer now => some now
  | .listExpireCB now _ => some now

def TimerStep.reading : TimerStep → Option Nat
  | .op c => c.reading
  | .test _ now => some now
  | .collect _ _ => none

/-- The call that a step completes, with what it returns. -/
def TimerThreads.performs (s : TimerThreads) :
    TimerStep → Option (TimerCall × TimerRet)
  | .op c => (s.m.call c).map fun (_, r) => (c, r)
  | .test _ _ => none
  | .collect t tmp =>
      match s.tested t with
      | none => none
      | some now =>
          match s.m.collect now tmp with
          | .error _ => none
          | .ok (cbs, _) => some (.listExpireCB now tmp, ⟨true, cbs, false⟩)

-- ================================================================= promises

/-- What is promised of a timer. -/
structure Promise where
  /-- The beginning of its current period. -/
  start : Nat
  period : Nat
  /-- It is not to be handed out before this time. -/
  due : Nat
  deriving DecidableEq, Repr

/-- The promise of the timer `b` after a call. -/
def Promise.after (p : Promise) (b : Nat) (c : TimerCall) (r : TimerRet) :
    Promise :=
  match c with
  | .addTimer a ms _ _ now => if a = b then ⟨now, ms, now + ms⟩ else p
  | .refresh a now =>
      if a = b && r.flag then ⟨now, p.period, now + p.period⟩ else p
  | .reset a ms fromNow now =>
      if a = b && r.flag then
        let start := if fromNow then now else p.start
        ⟨start, ms, start + ms⟩
      else p
  | .listExpireCB now _ =>
      if b ∈ r.handed.map Prod.fst then { p with start := now } else p
  | .cancle _ => p
  | .getNextTimer _ => p

/-- The threads with the clock and the promises. -/
structure TimerWatch where
  s : TimerThreads
  clock : Nat
  promise : Nat → Promise

namespace TimerWatch

def new (now : Nat) : TimerWatch :=
  ⟨.new now, now, fun _ => ⟨0, 0, 0⟩⟩

/-- The promises after a step. -/
def promised (w : TimerWatch) (i : TimerStep) : Nat → Promise :=
  match w.s.performs i with
  | none => w.promise
  | some (c, r) => fun b => (w.promise b).after b c r

/-- A step at a clock that does not go back. -/
def step (w : TimerWatch) (i : TimerStep) : Option TimerWatch :=
  match i.reading with
  | none => (w.s.step i).map fun s => ⟨s, w.clock, w.promised i⟩
  | some now =>
      if now < w.clock then none
      else (w.s.step i).map fun s => ⟨s, now, w.promised i⟩

/-- A thread collects with a reading that is more than an hour older than
that of another collection. -/
def Stale (w : TimerWatch) : TimerStep → Prop
  | .collect t _ => ∃ now, w.s.tested t = some now
      ∧ (w.s.m.detectClockRollover now).1 = true
  | _ => False

end TimerWatch

end TinyServer
