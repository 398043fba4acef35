/-
What fibers are for: coroutines, without contexts and registers.

Every fiber has its own point in its callback. A fiber that yields gives
control back to the one that resumed it, and goes on at its point when it
is resumed again.

`Disciplined` is what the code has to keep to, as `Scheduler` and the
hooks do: the scheduler's fiber resumes fibers that are neither in
execution nor dead, tasks yield, and the code of the thread itself only
calls the scheduler's fiber, where that is not its own.
-/
import TinyServer.Fiber.Basic
import TinyServer.Lib.Coroutine

namespace TinyServer

open Lib

/-- Where a fiber goes on. -/
inductive Point (P : Type)
  | start
  | at (p : P)

structure FiberSystem (P S : Type) where
  co : Coroutines Nat (Point P)
  state : Nat → FiberState
  cb : Nat → Option Nat
  nextFiber : Nat
  shared : S

namespace FiberSystem

variable {P S : Type}

def view (s : FiberSystem P S) (f : Nat) : Option FiberState :=
  if f < s.nextFiber then some (s.state f) else none

/-- The callback of the fiber in control has returned or thrown. -/
def finish (s : FiberSystem P S) (f : Nat) (returned : Bool) :
    Option (FiberSystem P S) :=
  (s.co.leave none).map fun co =>
    { s with
      co := co
      state := Function.update s.state f (if returned then .term else .except)
      cb := if returned then Function.update s.cb f none else s.cb }

/-- A move of the fiber `f`, which is in control. -/
def move (s : FiberSystem P S) (f : Nat) :
    FiberMove P S → Option (FiberSystem P S)
  | .work x p =>
      (s.co.goto (.at p)).map fun co => { s with co := co, shared := x }
  | .yieldToReady p =>
      (s.co.leave (some (.at p))).map fun co =>
        { s with co := co, state := Function.update s.state f .ready }
  | .yieldToHold p =>
      (s.co.leave (some (.at p))).map fun co => { s with co := co }
  | .swapIn g p | .call g p =>
      (s.co.resume g (.at p)).map fun co =>
        { s with co := co, state := Function.update s.state g .exec }
  | .setState g state p =>
      (s.co.goto (.at p)).map fun co =>
        { s with co := co, state := Function.update s.state g state }
  | .reset g cb p =>
      ((s.co.place g .start).bind fun co => co.goto (.at p)).map fun co =>
        { s with
          co := co
          state := Function.update s.state g .init
          cb := Function.update s.cb g cb }
  | .new cb _ p =>
      ((s.co.place s.nextFiber .start).bind fun co =>
        co.goto (.at (p s.nextFiber))).map fun co =>
        { s with
          co := co
          state := Function.update s.state s.nextFiber .init
          cb := Function.update s.cb s.nextFiber (some cb)
          nextFiber := s.nextFiber + 1 }
  | .returns => s.finish f true
  | .throws => s.finish f false

def step (code : FiberCode P S) (s : FiberSystem P S) :
    Option (FiberSystem P S) :=
  match s.co.chain with
  | [] => none
  | f :: _ =>
      match s.co.point f with
      | none => none
      | some .start =>
          match s.cb f with
          | some c =>
              (s.co.goto (.at (code.start c))).map fun co =>
                { s with co := co }
          | none => s.finish f false
      | some (.at p) => s.move f (code.next p s.shared s.view)

/-- A fiber as the scheduler sees it. -/
def fiber (s : FiberSystem P S) (f : Nat) : Fiber :=
  ⟨s.state f, s.cb f, (s.co.point f).isNone⟩

/-- The code of the thread is in control; with `root` there is a fiber to
call. -/
def init (root : Option Nat) (p : P) (x : S) : FiberSystem P S :=
  let s : FiberSystem P S :=
    { co := ⟨Function.update (fun _ => none) 0 (some (.at p)), [0]⟩
      state := Function.update (fun _ => .init) 0 .exec
      cb := fun _ => none
      nextFiber := 1
      shared := x }
  match root with
  | none => s
  | some c =>
      { s with
        co := ⟨Function.update s.co.point 1 (some .start), s.co.chain⟩
        state := Function.update s.state 1 .init
        cb := Function.update s.cb 1 (some c)
        nextFiber := 2 }

end FiberSystem

/-- The moves that leave the processor. -/
def FiberMove.behaviour {P S : Type} : FiberMove P S → Option Behaviour
  | .returns => some .returns
  | .throws => some .throws
  | .yieldToReady _ => some .yieldReady
  | .yieldToHold _ => some .yieldHold
  | _ => none

-- ============================================================== the discipline

/-- Whose code a place belongs to. -/
inductive FiberRole
  | thread
  | run
  | task
  deriving DecidableEq, Repr

/-- The fiber of the scheduler. -/
def mainOf : Option Nat → Nat
  | none => 0
  | some _ => 1

section

variable {P S : Type}

/-- What code of each role may do. -/
def FiberMove.Allowed (code : FiberCode P S) (root : Option Nat)
    (role : P → FiberRole) (r : FiberRole) (view : Nat → Option FiberState) :
    FiberMove P S → Prop
  | .work _ p => role p = r
  | .yieldToReady p | .yieldToHold p => r = .task ∧ role p = r
  | .swapIn f p => r = .run ∧ role p = r
      ∧ ∃ state, view f = some state ∧ state ≠ .exec ∧ state.dead = false
  | .call f p => r = .thread ∧ role p = r ∧ f = mainOf root
      ∧ ∃ state, view f = some state ∧ state.dead = false
  | .setState f state p => r = .run ∧ role p = r ∧ state = .hold ∧ f ≠ 0
      ∧ f ≠ mainOf root ∧ ∃ old, view f = some old ∧ old.dead = false
  | .reset f cb p => r = .run ∧ role p = r
      ∧ (∃ state, view f = some state ∧ (state = .init ∨ state.dead = true))
      ∧ ∀ c, cb = some c → role (code.start c) = .task
  | .new cb useCall p => useCall = false ∧ role (code.start cb) = .task
      ∧ ∀ f, role (p f) = r
  | .returns | .throws => True

structure Disciplined (code : FiberCode P S) (root : Option Nat)
    (role : P → FiberRole) : Prop where
  moves : ∀ p x view,
    (code.next p x view).Allowed code root role (role p) view
  root : ∀ c, root = some c → role (code.start c) = .run

end

end TinyServer
