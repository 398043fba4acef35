/-
`ConfigVar` (config.h): a value with observers.

`setValue` compares and runs the callbacks in one section, under the
read lock, and assigns in another, under the write lock. `ConfigRun` is
one variable with the threads that are between these two sections, and
with the callback invocations so far. A callback is known by its key in
`m_callbacks`; callbacks do not throw, and the registered ones stay.
-/
import Mathlib.Data.List.Basic

namespace TinyServer

variable {T : Type}

/-- `ConfigVar<T>`: the value, and the keys of the callbacks in the order
of the map. -/
structure ConfigVar (T : Type) where
  val : T
  callbacks : List Nat

/-- An invocation `cb(old_value, new_value)` of a callback. -/
structure Invocation (T : Type) where
  key : Nat
  oldValue : T
  newValue : T

/-- A variable, the invocations so far and the threads between the
sections of `setValue`, each with the value it is to assign. -/
structure ConfigRun (T : Type) where
  var : ConfigVar T
  invoked : List (Invocation T)
  pending : Nat → Option T

/-- A section of `setValue` of a thread. -/
inductive ConfigStep (T : Type)
  /-- Compare with `value` and run the callbacks. -/
  | compare (t : Nat) (value : T)
  /-- Assign. -/
  | assign (t : Nat)

namespace ConfigRun

/-- No `setValue` has been called. -/
def new (val : T) (callbacks : List Nat) : ConfigRun T :=
  ⟨⟨val, callbacks⟩, [], fun _ => none⟩

def setPending (s : ConfigRun T) (t : Nat) (v : Option T) : ConfigRun T :=
  { s with pending := fun u => if u = t then v else s.pending u }

/-- The section under the read lock. -/
def compare [DecidableEq T] (s : ConfigRun T) (t : Nat) (value : T) :
    ConfigRun T :=
  if s.var.val = value then s
  else
    { s with
      invoked := s.invoked ++ s.var.callbacks.map
        (Invocation.mk · s.var.val value) }.setPending t (some value)

def step [DecidableEq T] (s : ConfigRun T) :
    ConfigStep T → Option (ConfigRun T)
  | .compare t value =>
      match s.pending t with
      | some _ => none
      | none => some (s.compare t value)
  | .assign t =>
      match s.pending t with
      | none => none
      | some value =>
          some ({ s with var := { s.var with val := value } }.setPending t
            none)

/-- `setValue` by the only thread: both sections. -/
def setValue [DecidableEq T] (s : ConfigRun T) (value : T) : ConfigRun T :=
  if s.var.val = value then s
  else
    { s with
      var := { s.var with val := value }
      invoked := s.invoked ++ s.var.callbacks.map
        (Invocation.mk · s.var.val value) }

/-- The `new_value` of the most recent invocation. -/
def observed (s : ConfigRun T) : Option T :=
  s.invoked.getLast?.map Invocation.newValue

end ConfigRun

end TinyServer
