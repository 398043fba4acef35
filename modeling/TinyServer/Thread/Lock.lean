/-
The locks of thread.h and their guards, over any code of the threads.

`RWLock` is a `pthread_rwlock_t`, by its readers and its writer; it is
asked for and waited for in one. A guard takes the lock in its
constructor, knows by `m_locked` whether it has it, and gives it back in
`unlock` or in its destructor. `ReadScopeLockImp` and `WriteScopeLockImp`
differ in the kind; `ScopeLockImp` over a `MutexLock` is the second over a
lock without readers.

A thread has one guard over the lock at a time. What the threads execute
is a parameter: places, and what comes next at a place with the data that
the lock is for. `KeepsGuards` is what the code has to keep to.
-/
import TinyServer.Lib.Sections

namespace TinyServer

open Lib

/-- `pthread_rwlock_t` -/
structure RWLock where
  readers : Nat
  writer : Bool
  deriving DecidableEq, Repr

namespace RWLock

def rdlock (m : RWLock) : Option RWLock :=
  if m.writer then none else some { m with readers := m.readers + 1 }

def wrlock (m : RWLock) : Option RWLock :=
  if m.writer || m.readers != 0 then none else some { m with writer := true }

/-- By one who holds it. -/
def unlock (m : RWLock) : RWLock :=
  if m.writer then { m with writer := false }
  else { m with readers := m.readers - 1 }

end RWLock

/-- `ReadScopeLockImp` or `WriteScopeLockImp`. -/
inductive LockKind
  | read
  | write
  deriving DecidableEq, Repr

def LockKind.take (m : RWLock) : LockKind → Option RWLock
  | .read => m.rdlock
  | .write => m.wrlock

/-- A guard: its kind and `m_locked`. -/
structure ScopeLock where
  kind : LockKind
  locked : Bool
  deriving DecidableEq, Repr

namespace ScopeLock

/-- `lock`; the constructor calls it on an unlocked guard. -/
def lock (g : ScopeLock) (m : RWLock) : Option (ScopeLock × RWLock) :=
  if g.locked then some (g, m)
  else (g.kind.take m).map fun m => ({ g with locked := true }, m)

/-- `unlock`; the destructor calls it. -/
def unlock (g : ScopeLock) (m : RWLock) : ScopeLock × RWLock :=
  if g.locked then ({ g with locked := false }, m.unlock) else (g, m)

end ScopeLock

/-- What the code at a place does: something with the guard, or with the
data. -/
inductive GuardMove (D P : Type)
  | construct (kind : LockKind) (p : P)
  | lock (p : P)
  | unlock (p : P)
  | destruct (p : P)
  | work (d : D) (p : P)

/-- The lock, the data and the threads. -/
structure LockedThreads (D P : Type) where
  mutex : RWLock
  data : D
  guard : Nat → Option ScopeLock
  place : Nat → P

namespace LockedThreads

variable {D P : Type}

/-- No thread has a guard yet. -/
def new (d : D) (place : Nat → P) : LockedThreads D P :=
  ⟨⟨0, false⟩, d, fun _ => none, place⟩

def set (s : LockedThreads D P) (t : Nat) (g : Option ScopeLock) (m : RWLock)
    (p : P) : LockedThreads D P :=
  { s with
    mutex := m
    guard := Function.update s.guard t g
    place := Function.update s.place t p }

def move (s : LockedThreads D P) (t : Nat) :
    GuardMove D P → Option (LockedThreads D P)
  | .construct kind p =>
      if s.guard t = none then
        ((⟨kind, false⟩ : ScopeLock).lock s.mutex).map fun r =>
          s.set t (some r.1) r.2 p
      else none
  | .lock p => (s.guard t).bind fun g =>
      (g.lock s.mutex).map fun r => s.set t (some r.1) r.2 p
  | .unlock p => (s.guard t).map fun g =>
      s.set t (some (g.unlock s.mutex).1) (g.unlock s.mutex).2 p
  | .destruct p => (s.guard t).map fun g => s.set t none (g.unlock s.mutex).2 p
  | .work d p =>
      some { s with data := d, place := Function.update s.place t p }

/-- A step of one of `n` threads. -/
def step (n : Nat) (code : P → D → Option (GuardMove D P))
    (s : LockedThreads D P) (t : Nat) : Option (LockedThreads D P) :=
  if t < n then (code (s.place t) s.data).bind (s.move t) else none

end LockedThreads

-- ============================================================== the discipline

section

variable {D P : Type}

/-- How a guard holds the lock. -/
def ScopeLock.hold (g : ScopeLock) : Option Hold :=
  if g.locked then some (if g.kind = .read then .shared else .alone) else none

/-- How the lock is held at a place, by the guard there. -/
def holdAt (own : P → Option ScopeLock) (p : P) : Option Hold :=
  (own p).bind ScopeLock.hold

/-- The same move, without a look at the data. -/
def GuardMove.carry (e : D) : GuardMove D P → GuardMove D P
  | .work _ p => .work e p
  | m => m

/-- The guard goes with the places, and only a write guard that is locked
lets the data change. -/
def GuardMove.Keeps (own : P → Option ScopeLock) (p : P) (d : D) :
    GuardMove D P → Prop
  | .construct kind p' => own p = none ∧ own p' = some ⟨kind, true⟩
  | .lock p' => ∃ g, own p = some g ∧ own p' = some { g with locked := true }
  | .unlock p' => ∃ g, own p = some g ∧ own p' = some { g with locked := false }
  | .destruct p' => own p ≠ none ∧ own p' = none
  | .work d' p' => own p' = own p ∧ (holdAt own p ≠ some .alone → d' = d)

structure KeepsGuards (code : P → D → Option (GuardMove D P))
    (own : P → Option ScopeLock) : Prop where
  moves : ∀ {p d m}, code p d = some m → m.Keeps own p d
  /-- Without the lock the code does not look at the data. -/
  blind : ∀ {p d m}, holdAt own p = none → code p d = some m →
    ∀ e, code p e = some (m.carry e)

/-- What a move is for the lock. -/
def GuardMove.asSection (own : P → Option ScopeLock) (p : P) (d : D) :
    GuardMove D P → SectionMove D P
  | .construct _ p' => .enter p'
  | .lock p' => if holdAt own p = none then .enter p' else .work d p'
  | .unlock p' | .destruct p' =>
      if holdAt own p = none then .work d p' else .leave p'
  | .work d' p' => .work d' p'

/-- The code as sections. -/
def sectionCode (code : P → D → Option (GuardMove D P))
    (own : P → Option ScopeLock) : SectionCode D P where
  held := holdAt own
  next p d := (code p d).map (GuardMove.asSection own p d)

end

end TinyServer
