/-
What a caller sees of the flags of a hooked socket.

`fcntl` (hook.cpp) treats `F_DUPFD`, `F_DUPFD_CLOEXEC`, `F_SETFD` and
`F_SETFL` in one branch, and `F_GETFD` and `F_GETFL` in another. A
`FlagView` is the system and what the last `F_SETFL` or `FIONBIO` on the
descriptor asked for, whether the kernel refused it or not.
-/
import TinyServer.Hook.Basic

namespace TinyServer

/-- `fcntl` with one of the six commands, or `ioctl` with `FIONBIO`, on a
descriptor. `d` in `dupFd` is the number that the kernel chooses. -/
inductive ViewCall
  | setFl (arg : BitVec 32) (refuse : Bool)
  | getFl
  | setFd (arg : BitVec 32)
  | getFd
  | dupFd (cloexec : Bool) (arg : BitVec 32) (d : Nat)
  | fionbio (value : BitVec 32) (refuse : Bool)
  deriving DecidableEq, Repr

namespace HookState

/-- The flag that `F_DUPFD_CLOEXEC` sets on the new descriptor. -/
def setCloexec (s : HookState) (d : Nat) : HookState :=
  { s with kernel := { s.kernel with
      fdFlags := fun e => if e = d then FD_CLOEXEC else s.kernel.fdFlags e } }

/-- `fcntl` with `F_DUPFD` or `F_DUPFD_CLOEXEC`. -/
def fcntlDup (s : HookState) (fd : Nat) (cloexec : Bool)
    (arg : BitVec 32) (d : Nat) : BitVec 32 × HookState :=
  let r := s.fcntl fd false (.dupFd arg d)
  if cloexec = true ∧ r.1 ≠ -1 then (r.1, r.2.setCloexec d) else r

/-- What `fcntl` hands on to `fcntl_f` for the word `arg`. -/
def handed (s : HookState) (fd : Nat) (arg : BitVec 32) : BitVec 32 :=
  match s.datas fd with
  | none => arg
  | some c =>
      if c.isClose || !c.isSocket then arg
      else if c.sysNonblock then arg ||| O_NONBLOCK
      else arg &&& ~~~O_NONBLOCK

/-- What `fcntl` records before it hands on the word `arg`. -/
def recorded (s : HookState) (fd : Nat) (arg : BitVec 32) : HookState :=
  match s.datas fd with
  | none => s
  | some c =>
      if c.isClose || !c.isSocket then s
      else s.setCtx fd (some { c with userNonblock := hasNonblock arg })

/-- `F_GETFL` reports `O_NONBLOCK`. -/
def reports (s : HookState) (fd : Nat) : Bool :=
  hasNonblock (s.fcntl fd false .getFl).1

end HookState

namespace ViewCall

/-- The state after the call on `fd`. -/
def on (fd : Nat) (s : HookState) : ViewCall → HookState
  | .setFl arg refuse => (s.fcntl fd refuse (.setFl arg)).2
  | .getFl => (s.fcntl fd false .getFl).2
  | .setFd arg => (s.fcntl fd false (.setFd arg)).2
  | .getFd => (s.fcntl fd false .getFd).2
  | .dupFd cloexec arg d => (s.fcntlDup fd cloexec arg d).2
  | .fionbio value refuse => s.ioctl fd value refuse

/-- What has been asked for after the call. -/
def asks (asked : Bool) : ViewCall → Bool
  | .setFl arg _ => hasNonblock arg
  | .fionbio value _ => value != 0
  | .getFl | .setFd _ | .getFd | .dupFd _ _ _ => asked

end ViewCall

/-- The system, and what the last `F_SETFL` or `FIONBIO` on the
descriptor asked for. -/
structure FlagView where
  hook : HookState
  asked : Bool

/-- The view of `fd` after a call on it. -/
def FlagView.step (fd : Nat) (v : FlagView) (call : ViewCall) :
    Option FlagView :=
  some ⟨call.on fd v.hook, call.asks v.asked⟩

end TinyServer
