/-
Descriptors under the hook: `FdCtx` and `FdManager` (fd_manager.cpp), and
the hooked `socket`, `accept`, `close`, `fcntl`, `ioctl` and
`setsockopt` (hook.cpp).

# The kernel

A descriptor refers to an open file; `F_DUPFD` makes another descriptor
for the same one. An open file has its status flags, a descriptor its
close-on-exec flag. What the kernel chooses is an argument of the call:
the number of a new descriptor (one that is not in use), the flags of a
new socket (`SOCK_NONBLOCK` can be asked for), and whether it refuses a
change of flags.

# The calls

A call is one step. `hook` is `t_hook_enable` of the calling thread and
`iom` whether it has a current `IOManager`. How `accept` waits is not
modelled here: it returns a new descriptor or fails. `cancelAll` in
`close` changes nothing that is modelled here.

`m_datas` is the function from numbers to contexts: a number beyond the
vector has none, and growing keeps the entries.
-/
import Mathlib.Algebra.Group.Nat.Defs
import Mathlib.Algebra.Group.Int.Defs
import Mathlib.Data.Int.Basic

namespace TinyServer

def O_NONBLOCK : BitVec 32 := 0x800

def FD_CLOEXEC : BitVec 32 := 1

/-- The status flags that `F_SETFL` changes: `O_APPEND`, `O_NONBLOCK`,
`O_ASYNC`, `O_DIRECT` and `O_NOATIME`. -/
def SETFL_MASK : BitVec 32 := 0x46C00

/-- `w & O_NONBLOCK` as a condition. -/
def hasNonblock (w : BitVec 32) : Bool := w &&& O_NONBLOCK != 0

/-- `(uint64_t)-1`, the timeout that never comes. -/
def infinite : Nat := 2 ^ 64 - 1

-- ================================================================== the kernel

/-- An open file. -/
structure OpenFile where
  isSocket : Bool
  fl : BitVec 32
  deriving DecidableEq, Repr

/-- The descriptors of the process. -/
structure Kernel where
  opened : Nat → Option Nat
  fdFlags : Nat → BitVec 32
  files : Nat → OpenFile
  nextFile : Nat

/-- The commands of `fcntl` that the hook treats. `fd` in `dupFd` is the
number that the kernel chooses. -/
inductive FcntlCmd
  | setFl (arg : BitVec 32)
  | setFd (arg : BitVec 32)
  | getFl
  | getFd
  | dupFd (arg : BitVec 32) (fd : Nat)
  deriving DecidableEq, Repr

namespace Kernel

/-- Nothing is open. -/
def empty : Kernel := ⟨fun _ => none, fun _ => 0, fun _ => ⟨false, 0⟩, 0⟩

/-- The kernel's `O_NONBLOCK` flag of a descriptor. -/
def nonblock (k : Kernel) (fd : Nat) : Bool :=
  match k.opened fd with
  | none => false
  | some f => hasNonblock (k.files f).fl

/-- A new socket at the descriptor `fd`. -/
def openSocket (k : Kernel) (fd : Nat) (fl : BitVec 32) : Kernel where
  opened := fun d => if d = fd then some k.nextFile else k.opened d
  fdFlags := fun d => if d = fd then 0 else k.fdFlags d
  files := fun f => if f = k.nextFile then ⟨true, fl⟩ else k.files f
  nextFile := k.nextFile + 1

def close_f (k : Kernel) (fd : Nat) : Kernel :=
  { k with opened := fun d => if d = fd then none else k.opened d }

def setFile (k : Kernel) (f : Nat) (fl : BitVec 32) : Kernel :=
  { k with
    files := fun g => if g = f then { k.files f with fl := fl }
      else k.files g }

/-- `fcntl_f`: the result and the new state. -/
def fcntl_f (k : Kernel) (fd : Nat) (refuse : Bool) (cmd : FcntlCmd) :
    BitVec 32 × Kernel :=
  match k.opened fd with
  | none => (-1, k)
  | some f =>
      match cmd with
      | .setFl arg =>
          if refuse then (-1, k)
          else (0, k.setFile f (((k.files f).fl &&& ~~~SETFL_MASK)
            ||| (arg &&& SETFL_MASK)))
      | .setFd arg =>
          (0, { k with
            fdFlags := fun d => if d = fd then arg &&& FD_CLOEXEC
              else k.fdFlags d })
      | .getFl => ((k.files f).fl, k)
      | .getFd => (k.fdFlags fd, k)
      | .dupFd arg d =>
          if k.opened d = none ∧ arg.toNat ≤ d then
            (BitVec.ofNat 32 d, { k with
              opened := fun e => if e = d then some f else k.opened e
              fdFlags := fun e => if e = d then 0 else k.fdFlags e })
          else (-1, k)

/-- `ioctl_f(fd, FIONBIO, &value)`. -/
def fionbio (k : Kernel) (fd : Nat) (value : BitVec 32) (refuse : Bool) :
    Kernel :=
  match k.opened fd with
  | none => k
  | some f =>
      if refuse then k
      else if value = 0 then
        k.setFile f ((k.files f).fl &&& ~~~O_NONBLOCK)
      else k.setFile f ((k.files f).fl ||| O_NONBLOCK)

end Kernel

-- ================================================================ the contexts

/-- `FdCtx`. -/
structure FdCtx where
  isInit : Bool
  isSocket : Bool
  sysNonblock : Bool
  userNonblock : Bool
  isClose : Bool
  recvTimeout : Nat
  sendTimeout : Nat
  deriving DecidableEq, Repr

/-- `SO_RCVTIMEO` or `SO_SNDTIMEO`. -/
inductive TimeoutOpt
  | rcvTimeo
  | sndTimeo
  deriving DecidableEq, Repr

def FdCtx.setTimeout (c : FdCtx) (type : TimeoutOpt) (v : Nat) : FdCtx :=
  if type = .rcvTimeo then { c with recvTimeout := v }
  else { c with sendTimeout := v }

def FdCtx.getTimeout (c : FdCtx) (type : TimeoutOpt) : Nat :=
  if type = .rcvTimeo then c.recvTimeout else c.sendTimeout

/-- `FdMgr` and the kernel. -/
structure HookState where
  datas : Nat → Option FdCtx
  kernel : Kernel

namespace HookState

def setCtx (s : HookState) (fd : Nat) (c : Option FdCtx) : HookState :=
  { s with datas := fun d => if d = fd then c else s.datas d }

/-- `FdCtx(fd)` with `init`: the new context, and the kernel with its
descriptor made non-blocking. -/
def newFdCtx (k : Kernel) (fd : Nat) : FdCtx × Kernel :=
  match k.opened fd with
  | none => (⟨false, false, false, false, false, infinite, infinite⟩, k)
  | some f =>
      if (k.files f).isSocket then
        let flag := (k.fcntl_f fd false .getFl).1
        (⟨true, true, true, false, false, infinite, infinite⟩,
          if hasNonblock flag then k
          else (k.fcntl_f fd false (.setFl (flag ||| O_NONBLOCK))).2)
      else (⟨true, false, false, false, false, infinite, infinite⟩, k)

/-- `get(fd, true)`. -/
def getCreate (s : HookState) (fd : Nat) : HookState :=
  match s.datas fd with
  | some _ => s
  | none =>
      let (c, k) := newFdCtx s.kernel fd
      { s with kernel := k }.setCtx fd (some c)

-- =================================================================== the calls

/-- A new socket at `fd`, when the number is not in use. -/
def newSocket (s : HookState) (fd : Nat) (fl : BitVec 32) :
    Option HookState :=
  if s.kernel.opened fd = none then
    some { s with kernel := s.kernel.openSocket fd fl }
  else none

/-- `socket`: the kernel returns a new descriptor or fails. -/
def socket (s : HookState) (hook : Bool) (fd : Option Nat)
    (fl : BitVec 32) : Option HookState :=
  match fd with
  | none => some s
  | some fd =>
      if hook then (s.newSocket fd fl).map (·.getCreate fd)
      else s.newSocket fd fl

/-- `accept`: the context is looked up whether the hook is enabled or
not. -/
def accept (s : HookState) (fd : Option Nat) (fl : BitVec 32) :
    Option HookState :=
  match fd with
  | none => some s
  | some fd => (s.newSocket fd fl).map (·.getCreate fd)

/-- `close`. -/
def close (s : HookState) (hook iom : Bool) (fd : Nat) : HookState :=
  let s := if hook && (s.datas fd).isSome && iom then s.setCtx fd none else s
  { s with kernel := s.kernel.close_f fd }

/-- Hand a command to `fcntl_f`. -/
def forward (s : HookState) (fd : Nat) (refuse : Bool) (cmd : FcntlCmd) :
    BitVec 32 × HookState :=
  let (r, k) := s.kernel.fcntl_f fd refuse cmd
  (r, { s with kernel := k })

/-- The branch of `F_DUPFD`, `F_SETFD` and `F_SETFL`. -/
def fcntlSet (s : HookState) (fd : Nat) (refuse : Bool) (arg : BitVec 32)
    (cmd : BitVec 32 → FcntlCmd) : BitVec 32 × HookState :=
  match s.datas fd with
  | none => s.forward fd refuse (cmd arg)
  | some c =>
      if c.isClose || !c.isSocket then s.forward fd refuse (cmd arg)
      else
        (s.setCtx fd (some { c with
          userNonblock := hasNonblock arg })).forward fd refuse
          (cmd (if c.sysNonblock then arg ||| O_NONBLOCK
            else arg &&& ~~~O_NONBLOCK))

/-- The branch of `F_GETFD` and `F_GETFL`. -/
def fcntlGet (s : HookState) (fd : Nat) (refuse : Bool) (cmd : FcntlCmd) :
    BitVec 32 × HookState :=
  let (arg, s) := s.forward fd refuse cmd
  match s.datas fd with
  | none => (arg, s)
  | some c =>
      if c.isClose || !c.isSocket then (arg, s)
      else if c.userNonblock then (arg ||| O_NONBLOCK, s)
      else (arg &&& ~~~O_NONBLOCK, s)

/-- `fcntl`: the result and the new state. -/
def fcntl (s : HookState) (fd : Nat) (refuse : Bool) :
    FcntlCmd → BitVec 32 × HookState
  | .setFl arg => s.fcntlSet fd refuse arg .setFl
  | .setFd arg => s.fcntlSet fd refuse arg .setFd
  | .dupFd arg d => s.fcntlSet fd refuse arg (.dupFd · d)
  | .getFl => s.fcntlGet fd refuse .getFl
  | .getFd => s.fcntlGet fd refuse .getFd

/-- `ioctl(fd, FIONBIO, &value)`. -/
def ioctl (s : HookState) (fd : Nat) (value : BitVec 32) (refuse : Bool) :
    HookState :=
  let s :=
    match s.datas fd with
    | none => s
    | some c =>
        if c.isClose || !c.isSocket then s
        else s.setCtx fd (some { c with userNonblock := value != 0 })
  { s with kernel := s.kernel.fionbio fd value refuse }

/-- `setsockopt(fd, SOL_SOCKET, opt, {sec, usec})`. -/
def setsockopt (s : HookState) (hook : Bool) (fd : Nat) (opt : TimeoutOpt)
    (sec usec : Int) : HookState :=
  match s.datas fd with
  | none => s
  | some c =>
      if hook then
        s.setCtx fd (some (c.setTimeout opt
          ((sec * 1000 + usec.tdiv 1000) % 2 ^ 64).toNat))
      else s

end HookState

/-- A call with its thread and what the kernel chooses. -/
inductive HookCall
  | socket (hook : Bool) (fd : Option Nat) (fl : BitVec 32)
  | accept (fd : Option Nat) (fl : BitVec 32)
  | close (hook iom : Bool) (fd : Nat)
  | setsockopt (hook : Bool) (fd : Nat) (opt : TimeoutOpt) (sec usec : Int)
  | fcntl (fd : Nat) (refuse : Bool) (cmd : FcntlCmd)
  | ioctl (fd : Nat) (value : BitVec 32) (refuse : Bool)
  deriving DecidableEq, Repr

namespace HookState

/-- The state after a call; none if the kernel cannot choose so. -/
def step (s : HookState) : HookCall → Option HookState
  | .socket hook fd fl => s.socket hook fd fl
  | .accept fd fl => s.accept fd fl
  | .close hook iom fd => some (s.close hook iom fd)
  | .setsockopt hook fd opt sec usec =>
      some (s.setsockopt hook fd opt sec usec)
  | .fcntl fd refuse cmd => some (s.fcntl fd refuse cmd).2
  | .ioctl fd value refuse => some (s.ioctl fd value refuse)

/-- No descriptor has a context yet. -/
def start (k : Kernel) : HookState := ⟨fun _ => none, k⟩

end HookState

end TinyServer
