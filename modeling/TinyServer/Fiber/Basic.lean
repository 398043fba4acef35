/-
`Fiber` (fiber.h, fiber.cpp) with its contexts, on one thread.

A thread has its registers (`cpu`), `t_fiber` and `t_threadFiber` of
fiber.cpp, and the fiber that `Scheduler::GetMainFiber` returns on it. The
registers and every `m_context` hold whose stack they are on and the place
in the code there. `swapcontext` stores the registers in one context and
loads them from another, whoever calls it: nothing but the order of the
calls sees to it that a fiber comes back to where it left.

What the fibers execute is a parameter (`FiberCode`): places, and what the
code at a place does next. It may look at what it shares with the rest of
the program and at the states of the fibers.

Fiber 0 is the one that `GetThis` makes for the thread itself. The sizes
of stacks, reference counts and destructors are left out, and a call of
`std::function` that is empty throws.
-/
import Mathlib.Logic.Function.Basic
import TinyServer.Scheduler.Basic

namespace TinyServer

/-- What the code at a place does. -/
inductive FiberMove (P S : Type)
  | work (x : S) (p : P)
  | yieldToReady (p : P)
  | yieldToHold (p : P)
  | swapIn (f : Nat) (p : P)
  | call (f : Nat) (p : P)
  | setState (f : Nat) (state : FiberState) (p : P)
  | reset (f : Nat) (cb : Option Nat) (p : P)
  | new (cb : Nat) (useCall : Bool) (p : Nat → P)
  | returns
  | throws

/-- The code of the thread and of the callbacks: where a callback starts,
and what comes next. -/
structure FiberCode (P S : Type) where
  start : Nat → P
  next : P → S → (Nat → Option FiberState) → FiberMove P S

/-- A place on a stack: in the code of the thread, at the start of
`MainFunc` or `CallerMainFunc`, in the callback that one of them has called
(with its local `cur`), or behind its last switch. -/
inductive Place (P : Type)
  | thread (p : P)
  | entry (useCall : Bool)
  | callback (useCall : Bool) (cur : Nat) (p : P)
  | past

/-- Further on in the same function. -/
def Place.goto {P : Type} : Place P → P → Place P
  | .thread _, p => .thread p
  | .callback useCall cur _, p => .callback useCall cur p
  | place, _ => place

/-- `ucontext_t` -/
structure Context (P : Type) where
  stack : Nat
  place : Place P

/-- A thread with its fibers: `m_state`, `m_cb` and `m_context` of each,
`t_fiber`, `t_threadFiber`, `GetMainFiber()` and the registers. -/
structure FiberThread (P S : Type) where
  state : Nat → FiberState
  cb : Nat → Option Nat
  context : Nat → Context P
  nextFiber : Nat
  current : Nat
  threadFiber : Nat
  mainFiber : Nat
  cpu : Context P
  shared : S

/-- How the thread can stop: an assertion fails, or its own code is done. -/
inductive FiberFault
  | assertion
  | neverReach
  | ended
  deriving DecidableEq, Repr

namespace FiberThread

variable {P S : Type}

/-- `SetThis` -/
def setThis (s : FiberThread P S) (f : Nat) : FiberThread P S :=
  { s with current := f }

/-- `setState` -/
def setState (s : FiberThread P S) (f : Nat) (state : FiberState) :
    FiberThread P S :=
  { s with state := Function.update s.state f state }

/-- `swapcontext(&a->m_context, &b->m_context)`, called at `place`. -/
def swapcontext (s : FiberThread P S) (a b : Nat) (place : Place P) :
    FiberThread P S :=
  let context := Function.update s.context a ⟨s.cpu.stack, place⟩
  { s with context := context, cpu := context b }

/-- `Fiber::swapIn` -/
def swapIn (s : FiberThread P S) (f : Nat) (place : Place P) :
    Except FiberFault (FiberThread P S) :=
  if s.state f = .exec then .error .assertion
  else .ok (((s.setThis f).setState f .exec).swapcontext s.mainFiber f place)

/-- `Fiber::swapOut` -/
def swapOut (s : FiberThread P S) (f : Nat) (place : Place P) :
    FiberThread P S :=
  (s.setThis s.mainFiber).swapcontext f s.mainFiber place

/-- `Fiber::call` -/
def call (s : FiberThread P S) (f : Nat) (place : Place P) : FiberThread P S :=
  ((s.setThis f).setState f .exec).swapcontext s.threadFiber f place

/-- `Fiber::back` -/
def back (s : FiberThread P S) (f : Nat) (place : Place P) : FiberThread P S :=
  (s.setThis s.threadFiber).swapcontext f s.threadFiber place

/-- `Fiber::YieldToReady` -/
def yieldToReady (s : FiberThread P S) (place : Place P) : FiberThread P S :=
  (s.setState s.current .ready).swapOut s.current place

/-- `Fiber::YieldToHold` -/
def yieldToHold (s : FiberThread P S) (place : Place P) :
    Except FiberFault (FiberThread P S) :=
  if s.state s.current = .exec then .ok (s.swapOut s.current place)
  else .error .assertion

/-- `Fiber(cb, 0, use_call)`: `makecontext` with `MainFunc` or
`CallerMainFunc`. -/
def new (s : FiberThread P S) (cb : Option Nat) (useCall : Bool) :
    FiberThread P S :=
  { s with
    state := Function.update s.state s.nextFiber .init
    cb := Function.update s.cb s.nextFiber cb
    context := Function.update s.context s.nextFiber
      ⟨s.nextFiber, .entry useCall⟩
    nextFiber := s.nextFiber + 1 }

/-- `Fiber::reset`: always with `MainFunc`. The fiber of the thread has no
stack. -/
def reset (s : FiberThread P S) (f : Nat) (cb : Option Nat) :
    Except FiberFault (FiberThread P S) :=
  if f = s.threadFiber then .error .assertion
  else if s.state f = .init ∨ (s.state f).dead = true then
    .ok { s with
      state := Function.update s.state f .init
      cb := Function.update s.cb f cb
      context := Function.update s.context f ⟨f, .entry false⟩ }
  else .error .assertion

/-- The end of `MainFunc` and of `CallerMainFunc`, after the callback has
returned or thrown. -/
def finish (s : FiberThread P S) (useCall : Bool) (cur : Nat)
    (returned : Bool) : FiberThread P S :=
  let s := if returned then
      { s with cb := Function.update s.cb cur none }.setState cur .term
    else s.setState cur .except
  if useCall then s.back cur .past else s.swapOut cur .past

/-- Work between the switches: the registers are at the place. -/
def goto (s : FiberThread P S) (place : Place P) : FiberThread P S :=
  { s with cpu := ⟨s.cpu.stack, place⟩ }

/-- The states of the fibers there are. -/
def view (s : FiberThread P S) (f : Nat) : Option FiberState :=
  if f < s.nextFiber then some (s.state f) else none

/-- A move of the code at a place. -/
def move (s : FiberThread P S) (here : Place P) :
    FiberMove P S → Except FiberFault (FiberThread P S)
  | .work x p => .ok ({ s with shared := x }.goto (here.goto p))
  | .yieldToReady p => .ok (s.yieldToReady (here.goto p))
  | .yieldToHold p => s.yieldToHold (here.goto p)
  | .swapIn f p => s.swapIn f (here.goto p)
  | .call f p => .ok (s.call f (here.goto p))
  | .setState f state p => .ok ((s.setState f state).goto (here.goto p))
  | .reset f cb p => do
      let s ← s.reset f cb
      pure (s.goto (here.goto p))
  | .new cb useCall p =>
      .ok ((s.new (some cb) useCall).goto (here.goto (p s.nextFiber)))
  | .returns =>
      match here with
      | .callback useCall cur _ => .ok (s.finish useCall cur true)
      | _ => .error .ended
  | .throws =>
      match here with
      | .callback useCall cur _ => .ok (s.finish useCall cur false)
      | _ => .error .ended

/-- The next step of the thread. -/
def step (code : FiberCode P S) (s : FiberThread P S) :
    Except FiberFault (FiberThread P S) :=
  match s.cpu.place with
  | .entry useCall =>
      -- `cur = GetThis()`, and the call of `m_cb`
      match s.cb s.current with
      | some c => .ok (s.goto (.callback useCall s.current (code.start c)))
      | none => .ok (s.finish useCall s.current false)
  | .thread p => s.move (.thread p) (code.next p s.shared s.view)
  | .callback useCall cur p =>
      s.move (.callback useCall cur p) (code.next p s.shared s.view)
  | .past => .error .neverReach

/-- A thread that has called `GetThis` and is about to execute the code at
`p`. With `root` it has made the scheduler's fiber, to be called from the
thread; without, the thread's own fiber is the scheduler's. -/
def init (root : Option Nat) (p : P) (x : S) : FiberThread P S :=
  let s : FiberThread P S :=
    { state := Function.update (fun _ => .init) 0 .exec
      cb := fun _ => none
      context := fun f => ⟨f, .past⟩
      nextFiber := 1
      current := 0
      threadFiber := 0
      mainFiber := 0
      cpu := ⟨0, .thread p⟩
      shared := x }
  match root with
  | none => s
  | some c => { s.new (some c) true with mainFiber := 1 }

end FiberThread

end TinyServer
