/-
The kernel's `O_NONBLOCK` flag of a hooked socket.

`init` sets the flag and records so in `m_sysNonblock`. `fcntl` puts the
flag back into every word it hands on. `ioctl(FIONBIO)` hands on the
caller's value, so a 0 clears the flag behind the record.
-/
import TinyServer.Hook.Basic
import TinyServer.Lib.Run

namespace TinyServer

open Lib

-- ==================================================================== the flag

/-- `O_NONBLOCK` is bit 11. -/
theorem hasNonblock_eq (w : BitVec 32) : hasNonblock w = w.getLsbD 11 := by
  have hand : w &&& O_NONBLOCK = if w.getLsbD 11 then O_NONBLOCK else 0 :=
    BitVec.and_twoPow w 11
  unfold hasNonblock
  rw [hand]
  cases w.getLsbD 11 <;> decide

/-- Set, the flag is there. -/
theorem hasNonblock_or (w : BitVec 32) :
    hasNonblock (w ||| O_NONBLOCK) = true := by
  rw [hasNonblock_eq, BitVec.getLsbD_or]
  exact Bool.or_eq_true_iff.mpr (.inr (by decide))

/-- Cleared, it is not. -/
theorem hasNonblock_clear (w : BitVec 32) :
    hasNonblock (w &&& ~~~O_NONBLOCK) = false := by
  rw [hasNonblock_eq, BitVec.getLsbD_and]
  exact Bool.and_eq_false_iff.mpr (.inr (by decide))

/-- `F_SETFL` takes the flag from its argument. -/
theorem hasNonblock_setFl (fl arg : BitVec 32) :
    hasNonblock ((fl &&& ~~~SETFL_MASK) ||| (arg &&& SETFL_MASK))
      = hasNonblock arg := by
  have hset : SETFL_MASK.getLsbD 11 = true := by decide
  have hclear : (~~~SETFL_MASK).getLsbD 11 = false := by decide
  rw [hasNonblock_eq, hasNonblock_eq, BitVec.getLsbD_or, BitVec.getLsbD_and,
    BitVec.getLsbD_and, hset, hclear, Bool.and_false, Bool.false_or,
    Bool.and_true]

namespace Kernel

variable {k : Kernel} {fd f : Nat}

/-- The kernel's flag of an open descriptor is that of its file. -/
theorem nonblock_eq (h : k.opened fd = some f) :
    k.nonblock fd = hasNonblock (k.files f).fl := by
  unfold nonblock
  rw [h]

/-- The flags of the file are the descriptor's. -/
theorem nonblock_setFile (h : k.opened fd = some f) (fl : BitVec 32) :
    (k.setFile f fl).nonblock fd = hasNonblock fl := by
  rw [nonblock_eq (show (k.setFile f fl).opened fd = some f from h)]
  simp only [setFile, if_true]

/-- `F_SETFL` that is not refused sets the kernel's flag. -/
theorem setFl_nonblock (h : k.opened fd = some f) (arg : BitVec 32) :
    (k.fcntl_f fd false (.setFl arg)).2.nonblock fd = hasNonblock arg := by
  have heq : (k.fcntl_f fd false (.setFl arg)).2
      = k.setFile f (((k.files f).fl &&& ~~~SETFL_MASK)
        ||| (arg &&& SETFL_MASK)) := by
    simp only [fcntl_f, h, Bool.false_eq_true, if_false]
  rw [heq, nonblock_setFile h, hasNonblock_setFl]

/-- It does not open or close anything. -/
theorem setFl_opened (arg : BitVec 32) (refuse : Bool) :
    (k.fcntl_f fd refuse (.setFl arg)).2.opened = k.opened := by
  simp only [fcntl_f]
  split
  next => rfl
  next => split <;> rfl

/-- Nor does `FIONBIO`. -/
theorem fionbio_opened (value : BitVec 32) (refuse : Bool) :
    (k.fionbio fd value refuse).opened = k.opened := by
  unfold fionbio
  split
  next => rfl
  next =>
      split
      next => rfl
      next => split <;> rfl

/-- `FIONBIO` that is not refused sets the kernel's flag. -/
theorem fionbio_nonblock (h : k.opened fd = some f) (value : BitVec 32) :
    (k.fionbio fd value false).nonblock fd = (value != 0) := by
  simp only [fionbio, h, Bool.false_eq_true, if_false]
  split
  next hv => rw [nonblock_setFile h, hasNonblock_clear, hv, bne_self_eq_false]
  next hv =>
      rw [nonblock_setFile h, hasNonblock_or]
      exact (bne_iff_ne.mpr hv).symm

end Kernel

-- ================================================================ registration

/-- The context of a socket that was just registered. -/
def FdCtx.fresh : FdCtx :=
  ⟨true, true, true, false, false, infinite, infinite⟩

/-- The call is a hooked `socket` or an `accept` that returns `fd`, a
new socket with the flags `fl`. -/
def HookCall.Registers (c : HookCall) (fd : Nat) (fl : BitVec 32) : Prop :=
  c = .socket true (some fd) fl ∨ c = .accept (some fd) fl

namespace HookState

variable {s s' : HookState} {c : HookCall} {fd : Nat} {fl : BitVec 32}

/-- The state in which `get(fd, true)` is called. -/
def withSocket (s : HookState) (fd : Nat) (fl : BitVec 32) : HookState :=
  { s with kernel := s.kernel.openSocket fd fl }

/-- A new descriptor has a file of its own, -/
theorem withSocket_opened :
    (s.withSocket fd fl).kernel.opened fd = some s.kernel.nextFile :=
  if_pos rfl

/-- with the flags that it was given. -/
theorem withSocket_file :
    (s.withSocket fd fl).kernel.files s.kernel.nextFile = ⟨true, fl⟩ :=
  if_pos rfl

/-- A call that registers a descriptor opens it first. -/
theorem register_eq (hreg : c.Registers fd fl) (hs : s.step c = some s') :
    s.kernel.opened fd = none ∧ s' = (s.withSocket fd fl).getCreate fd := by
  have hmap : (s.newSocket fd fl).map (·.getCreate fd) = some s' := by
    rcases hreg with rfl | rfl
    · exact hs
    · exact hs
  obtain ⟨t, ht, rfl⟩ := Option.map_eq_some_iff.mp hmap
  unfold newSocket at ht
  split at ht
  next hfree =>
      cases ht
      exact ⟨hfree, rfl⟩
  next => cases ht

/-- A number without a context gets a fresh one, and the kernel's flag
is set. -/
theorem getCreate_fresh (hnone : s.datas fd = none) :
    ((s.withSocket fd fl).getCreate fd).datas fd = some .fresh
      ∧ ((s.withSocket fd fl).getCreate fd).kernel.nonblock fd = true := by
  have hopen : (s.withSocket fd fl).kernel.opened fd
      = some s.kernel.nextFile := withSocket_opened
  have hfile : (s.withSocket fd fl).kernel.files s.kernel.nextFile
      = ⟨true, fl⟩ := withSocket_file
  have hnone' : (s.withSocket fd fl).datas fd = none := hnone
  have hflag : ((s.withSocket fd fl).kernel.fcntl_f fd false .getFl).1
      = fl := by
    simp only [Kernel.fcntl_f, hopen, hfile]
  unfold getCreate
  rw [hnone']
  simp only [newFdCtx, hopen, hfile, if_true, hflag]
  refine ⟨if_pos rfl, ?_⟩
  show (if hasNonblock fl then (s.withSocket fd fl).kernel else _).nonblock fd
    = true
  split
  next hfl => rw [Kernel.nonblock_eq hopen, hfile, hfl]
  next => rw [Kernel.setFl_nonblock hopen, hasNonblock_or]

/-- A number that has a context keeps it, and the kernel's flag stays as
it is. -/
theorem getCreate_stale {x : FdCtx} (hsome : s.datas fd = some x) :
    (s.withSocket fd fl).getCreate fd = s.withSocket fd fl
      ∧ (s.withSocket fd fl).kernel.nonblock fd = hasNonblock fl := by
  have hsome' : (s.withSocket fd fl).datas fd = some x := hsome
  refine ⟨by rw [getCreate, hsome'], ?_⟩
  rw [Kernel.nonblock_eq withSocket_opened, withSocket_file]

/-- `get(fd, true)` does not open or close anything. -/
theorem getCreate_opened (d : Nat) :
    (s.getCreate fd).kernel.opened d = s.kernel.opened d := by
  unfold getCreate
  split
  next => rfl
  next =>
      show (newFdCtx s.kernel fd).2.opened d = s.kernel.opened d
      unfold newFdCtx
      split
      next => rfl
      next =>
          split
          next =>
              simp only
              split
              next => rfl
              next => rw [Kernel.setFl_opened]
          next => rfl

/-- It makes a context for its descriptor only. -/
theorem getCreate_datas_ne {d : Nat} (hd : d ≠ fd) :
    (s.getCreate fd).datas d = s.datas d := by
  unfold getCreate
  split
  next => rfl
  next => exact if_neg hd

/-- The contexts of a run: of sockets that were made non-blocking. -/
def Formed (s : HookState) : Prop :=
  ∀ d x, s.datas d = some x →
    x.isSocket = true ∧ x.sysNonblock = true ∧ x.isClose = false

/-- Two contexts that differ in what the user sets at most. -/
def SameSocket (x y : FdCtx) : Prop :=
  y.isSocket = x.isSocket ∧ y.sysNonblock = x.sysNonblock
    ∧ y.isClose = x.isClose

/-- The context of `d` is as before, up to what the user sets. -/
def KeepsCtx (s s' : HookState) (d : Nat) : Prop :=
  s'.datas d = s.datas d
    ∨ ∃ x y, s.datas d = some x ∧ s'.datas d = some y ∧ SameSocket x y

/-- A context for the same socket keeps what is asked of it. -/
theorem setCtx_keeps {x y : FdCtx} (hx : s.datas fd = some x)
    (hxy : SameSocket x y) (d : Nat) :
    KeepsCtx s (s.setCtx fd (some y)) d := by
  by_cases hd : d = fd
  · exact .inr ⟨x, y, hd ▸ hx, if_pos hd, hxy⟩
  · exact .inl (if_neg hd)

/-- A query changes what the original function changes. -/
theorem fcntlGet_snd (refuse : Bool) (cmd : FcntlCmd) :
    (s.fcntlGet fd refuse cmd).2 = (s.forward fd refuse cmd).2 := by
  simp only [fcntlGet]
  split
  next => rfl
  next =>
      split
      next => rfl
      next => split <;> rfl

/-- `fcntl` keeps the contexts for their sockets. -/
theorem fcntl_keeps (refuse : Bool) (cmd : FcntlCmd) (d : Nat) :
    KeepsCtx s (s.fcntl fd refuse cmd).2 d := by
  have hset : ∀ arg mk, KeepsCtx s (s.fcntlSet fd refuse arg mk).2 d := by
    intro arg mk
    unfold fcntlSet
    split
    next => exact .inl rfl
    next x hx =>
        split
        next => exact .inl rfl
        next =>
            exact setCtx_keeps (y := { x with
              userNonblock := hasNonblock arg }) hx ⟨rfl, rfl, rfl⟩ d
  cases cmd with
  | setFl arg => exact hset arg .setFl
  | setFd arg => exact hset arg .setFd
  | dupFd arg e => exact hset arg (.dupFd · e)
  | getFl => exact .inl (congrFun (congrArg datas (fcntlGet_snd ..)) d)
  | getFd => exact .inl (congrFun (congrArg datas (fcntlGet_snd ..)) d)

/-- So does `ioctl`. -/
theorem ioctl_keeps (value : BitVec 32) (refuse : Bool) (d : Nat) :
    KeepsCtx s (s.ioctl fd value refuse) d := by
  unfold ioctl
  split
  next => exact .inl rfl
  next x hx =>
      split
      next => exact .inl rfl
      next =>
          exact setCtx_keeps (y := { x with
            userNonblock := value != 0 }) hx ⟨rfl, rfl, rfl⟩ d

/-- And `setsockopt`. -/
theorem setsockopt_keeps (hook : Bool) (opt : TimeoutOpt) (sec usec : Int)
    (d : Nat) : KeepsCtx s (s.setsockopt hook fd opt sec usec) d := by
  unfold setsockopt
  split
  next => exact .inl rfl
  next x hx =>
      split
      next =>
          refine setCtx_keeps hx ?_ d
          unfold FdCtx.setTimeout
          split <;> exact ⟨rfl, rfl, rfl⟩
      next => exact .inl rfl

/-- What a call can do to the context of `d`. -/
theorem step_ctx (hs : s.step c = some s') (d : Nat) :
    KeepsCtx s s' d
      ∨ (c = .close true true d ∧ s'.datas d = none)
      ∨ ∃ fl, c.Registers d fl ∧ s.datas d = none
          ∧ s'.datas d = some .fresh := by
  -- a call that registers
  have hregister : ∀ fd fl, c.Registers fd fl → KeepsCtx s s' d
      ∨ ∃ fl, c.Registers d fl ∧ s.datas d = none
          ∧ s'.datas d = some .fresh := by
    intro fd fl hreg
    obtain ⟨-, rfl⟩ := register_eq hreg hs
    by_cases hd : d = fd
    · subst hd
      cases hx : s.datas d with
      | none => exact .inr ⟨fl, hreg, rfl, (getCreate_fresh hx).1⟩
      | some x =>
          rw [(getCreate_stale hx).1]
          exact .inl (.inl rfl)
    · exact .inl (.inl (getCreate_datas_ne hd))
  cases c with
  | socket hook fd fl =>
      cases fd with
      | none =>
          cases hs
          exact .inl (.inl rfl)
      | some fd =>
          cases hook with
          | true => exact (hregister fd fl (.inl rfl)).imp_right .inr
          | false =>
              have hnew : s.newSocket fd fl = some s' := hs
              unfold newSocket at hnew
              split at hnew
              next =>
                  cases hnew
                  exact .inl (.inl rfl)
              next => cases hnew
  | accept fd fl =>
      cases fd with
      | none =>
          cases hs
          exact .inl (.inl rfl)
      | some fd => exact (hregister fd fl (.inr rfl)).imp_right .inr
  | close hook iom fd =>
      cases hs
      unfold close
      simp only
      split
      next hdel =>
          simp only [Bool.and_eq_true] at hdel
          obtain ⟨⟨rfl, -⟩, rfl⟩ := hdel
          by_cases hd : d = fd
          · exact .inr (.inl ⟨hd ▸ rfl, if_pos hd⟩)
          · exact .inl (.inl (if_neg hd))
      next => exact .inl (.inl rfl)
  | setsockopt hook fd opt sec usec =>
      cases hs
      exact .inl (setsockopt_keeps hook opt sec usec d)
  | fcntl fd refuse cmd =>
      cases hs
      exact .inl (fcntl_keeps refuse cmd d)
  | ioctl fd value refuse =>
      cases hs
      exact .inl (ioctl_keeps value refuse d)

/-- Every call leaves contexts of sockets that were made non-blocking. -/
theorem step_formed (h : s.Formed) (hs : s.step c = some s') :
    s'.Formed := by
  intro d y hy
  rcases step_ctx hs d with
    (heq | ⟨x, y', hx, hy', hsock, hsys, hclose⟩) | ⟨-, hnone⟩ |
    ⟨fl, -, -, hfresh⟩
  · rw [heq] at hy
    exact h d y hy
  · rw [hy'] at hy
    cases hy
    rw [hsock, hsys, hclose]
    exact h d x hx
  · rw [hnone] at hy
    cases hy
  · rw [hfresh] at hy
    cases hy
    exact ⟨rfl, rfl, rfl⟩

end HookState

-- ======================================================= the calls on a socket

/-- `fcntl` with `F_SETFL`, `F_GETFL`, `F_SETFD` or `F_GETFD`, or
`ioctl` with `FIONBIO`. -/
inductive FlagCall
  | setFl (arg : BitVec 32) (refuse : Bool)
  | getFl
  | setFd (arg : BitVec 32)
  | getFd
  | fionbio (value : BitVec 32) (refuse : Bool)
  deriving DecidableEq, Repr

/-- The call on the descriptor `fd`. -/
def FlagCall.on (fd : Nat) : FlagCall → HookCall
  | .setFl arg refuse => .fcntl fd refuse (.setFl arg)
  | .getFl => .fcntl fd false .getFl
  | .setFd arg => .fcntl fd false (.setFd arg)
  | .getFd => .fcntl fd false .getFd
  | .fionbio value refuse => .ioctl fd value refuse

/-- The kernel's flag after the call, by the flag before. -/
def FlagCall.flag (before : Bool) : FlagCall → Bool
  | .setFl _ refuse => if refuse then before else true
  | .fionbio value refuse => if refuse then before else value != 0
  | .getFl | .setFd _ | .getFd => before

namespace HookState

variable {s s' : HookState} {fd : Nat} {call : FlagCall}

/-- The state after a call on `fd`. -/
def ctl (fd : Nat) (s : HookState) (call : FlagCall) : Option HookState :=
  s.step (call.on fd)

/-- `fd` is open and has the context of a socket. -/
def Hooked (s : HookState) (fd : Nat) : Prop :=
  ∃ x f, s.datas fd = some x ∧ s.kernel.opened fd = some f
    ∧ x.isSocket = true ∧ x.sysNonblock = true ∧ x.isClose = false

/-- With the context of a socket, `fcntl` hands on the command with
`O_NONBLOCK` set. -/
theorem fcntlSet_kernel {x : FdCtx} (hx : s.datas fd = some x)
    (hsock : x.isSocket = true) (hsys : x.sysNonblock = true)
    (hclose : x.isClose = false) (refuse : Bool) (arg : BitVec 32)
    (mk : BitVec 32 → FcntlCmd) :
    (s.fcntlSet fd refuse arg mk).2.kernel
      = (s.kernel.fcntl_f fd refuse (mk (arg ||| O_NONBLOCK))).2 := by
  simp only [fcntlSet, hx, hsock, hsys, hclose, Bool.not_true,
    Bool.or_false, Bool.false_eq_true, if_false, if_true]
  rfl

/-- `ioctl` hands its request on as it is. -/
theorem ioctl_kernel {value : BitVec 32} {refuse : Bool} :
    (s.ioctl fd value refuse).kernel = s.kernel.fionbio fd value refuse := by
  unfold ioctl
  split
  next => rfl
  next => split <;> rfl

/-- What a call on a hooked socket does to the kernel's flag. -/
theorem ctl_kernel (h : s.Hooked fd) (hs : s.ctl fd call = some s') :
    s'.kernel.opened = s.kernel.opened
      ∧ s'.kernel.nonblock fd = call.flag (s.kernel.nonblock fd) := by
  obtain ⟨x, f, hx, hf, hsock, hsys, hclose⟩ := h
  cases call with
  | setFl arg refuse =>
      cases hs
      have hk := fcntlSet_kernel hx hsock hsys hclose refuse arg .setFl
      simp only [fcntl, hk, Kernel.setFl_opened, true_and, FlagCall.flag]
      cases refuse with
      | true => simp only [Kernel.fcntl_f, hf, if_true]
      | false =>
          rw [Kernel.setFl_nonblock hf, hasNonblock_or]
          rfl
  | getFl =>
      cases hs
      simp only [fcntl, fcntlGet_snd, forward, Kernel.fcntl_f, hf,
        FlagCall.flag, and_self]
  | setFd arg =>
      cases hs
      have hk := fcntlSet_kernel hx hsock hsys hclose false arg .setFd
      simp only [fcntl, hk, Kernel.fcntl_f, hf, true_and]
      rw [Kernel.nonblock_eq hf]
      exact Kernel.nonblock_eq hf
  | getFd =>
      cases hs
      simp only [fcntl, fcntlGet_snd, forward, Kernel.fcntl_f, hf,
        FlagCall.flag, and_self]
  | fionbio value refuse =>
      cases hs
      rw [ioctl_kernel, Kernel.fionbio_opened]
      refine ⟨rfl, ?_⟩
      cases refuse with
      | true => simp only [Kernel.fionbio, hf, if_true, FlagCall.flag]
      | false => exact Kernel.fionbio_nonblock hf value

/-- No control call on the descriptor takes its context away. -/
theorem ctl_hooked (h : s.Hooked fd) (hs : s.ctl fd call = some s') :
    s'.Hooked fd := by
  have hopen := (ctl_kernel h hs).1
  obtain ⟨x, f, hx, hf, hsock, hsys, hclose⟩ := h
  rcases step_ctx hs fd with
    (heq | ⟨x', y, hx', hy, hsock', hsys', hclose'⟩) | ⟨hc, -⟩ |
    ⟨fl, hreg, -⟩
  · exact ⟨x, f, heq.trans hx, hopen ▸ hf, hsock, hsys, hclose⟩
  · rw [hx] at hx'
    cases hx'
    exact ⟨y, f, hy, hopen ▸ hf, hsock'.trans hsock, hsys'.trans hsys,
      hclose'.trans hclose⟩
  · cases call <;> cases hc
  · rcases hreg with hc | hc
    · cases call <;> cases hc
    · cases call <;> cases hc

/-- Where the context says that the descriptor is non-blocking, the
kernel's flag is set. -/
def KernelAgrees (s : HookState) (fd : Nat) : Prop :=
  ∀ x, s.datas fd = some x → x.sysNonblock = true →
    s.kernel.nonblock fd = true

/-- For a hooked descriptor the kernel's flag decides. -/
theorem Hooked.agrees_iff (h : s.Hooked fd) :
    s.KernelAgrees fd ↔ s.kernel.nonblock fd = true := by
  obtain ⟨x, -, hx, -, -, hsys, -⟩ := h
  exact ⟨fun hall => hall x hx hsys, fun hk _ _ _ => hk⟩

variable {c : HookCall} {fl : BitVec 32}

/-- A descriptor is hooked once it is registered. -/
theorem register_hooked (hformed : s.Formed) (hreg : c.Registers fd fl)
    (hs : s.step c = some s') : s'.Hooked fd := by
  have hformed' := step_formed hformed hs
  obtain ⟨-, rfl⟩ := register_eq hreg hs
  have hopen : ((s.withSocket fd fl).getCreate fd).kernel.opened fd
      = some s.kernel.nextFile :=
    (getCreate_opened fd).trans withSocket_opened
  cases hx : s.datas fd with
  | none =>
      exact ⟨.fresh, _, (getCreate_fresh hx).1, hopen, rfl, rfl, rfl⟩
  | some x =>
      have hx' : ((s.withSocket fd fl).getCreate fd).datas fd = some x := by
        rw [(getCreate_stale hx).1]
        exact hx
      exact ⟨x, _, hx', hopen, hformed' fd x hx'⟩

/-- A registered descriptor starts with the flag set if it got a context
of its own or was made non-blocking. -/
theorem register_nonblock (hreg : c.Registers fd fl)
    (hs : s.step c = some s') :
    s'.kernel.nonblock fd = true
      ↔ s.datas fd = none ∨ hasNonblock fl = true := by
  obtain ⟨-, rfl⟩ := register_eq hreg hs
  cases hx : s.datas fd with
  | none => exact iff_of_true (getCreate_fresh hx).2 (.inl rfl)
  | some x =>
      obtain ⟨heq, hflag⟩ : _ ∧ (s.withSocket fd fl).kernel.nonblock fd = _ :=
        getCreate_stale hx
      rw [heq, hflag]
      exact (or_iff_right (Option.some_ne_none x)).symm

/-- From a hooked `socket` or `accept` on, over all calls of `fcntl` and
`ioctl(FIONBIO)` on the descriptor, the kernel's flag is set whenever the
context says so if and only if the descriptor got a context of its own
(or was made non-blocking) and no `ioctl(FIONBIO)` turns the flag off. -/
theorem nonblocking_iff {k : Kernel} {hist : List HookCall}
    {s₀ s₁ : HookState} {calls : List FlagCall}
    (hhist : hist.foldlM step (start k) = some s₀)
    (hreg : c.Registers fd fl) (hs : s₀.step c = some s)
    (hrun : calls.foldlM (ctl fd) s = some s₁) :
    (∀ t, Visits (ctl fd) s calls t → t.KernelAgrees fd)
      ↔ (s₀.datas fd = none ∨ hasNonblock fl = true)
        ∧ FlagCall.fionbio 0 false ∉ calls := by
  have hformed : s₀.Formed :=
    run_inv step_formed hist (fun _ _ hx => by cases hx) hhist
  have hhooked : s.Hooked fd := register_hooked hformed hreg hs
  rw [← register_nonblock hreg hs, ← hhooked.agrees_iff]
  -- a call on the hooked socket
  have hgood : ∀ {t : HookState} {call : FlagCall} {t' : HookState},
      t.Hooked fd → t.KernelAgrees fd → ¬ call = .fionbio 0 false →
        t.ctl fd call = some t' → t'.KernelAgrees fd := by
    intro t call t' hq hp hno ht
    rw [(ctl_hooked hq ht).agrees_iff, (ctl_kernel hq ht).2,
      hq.agrees_iff.mp hp]
    cases call with
    | setFl arg refuse => cases refuse <;> rfl
    | getFl => rfl
    | setFd arg => rfl
    | getFd => rfl
    | fionbio value refuse =>
        cases refuse with
        | true => rfl
        | false =>
            refine bne_iff_ne.mpr fun hv => hno ?_
            rw [hv]
  have hbad : ∀ {t : HookState} {call : FlagCall} {t' : HookState},
      t.Hooked fd → t.KernelAgrees fd → call = .fionbio 0 false →
        t.ctl fd call = some t' → ¬ t'.KernelAgrees fd := by
    intro t call t' hq _ heq ht
    subst heq
    rw [(ctl_hooked hq ht).agrees_iff, (ctl_kernel hq ht).2]
    exact Bool.false_ne_true
  by_cases hstart : s.KernelAgrees fd
  · have hiff : (∀ t, Visits (ctl fd) s calls t → t.KernelAgrees fd)
        ↔ ∀ t call, Takes (ctl fd) s calls t call →
            ¬ call = .fionbio 0 false :=
      visits_inv_iff ctl_hooked hgood hbad hhooked hstart hrun
    rw [hiff]
    refine ⟨fun hno => ⟨hstart, fun hmem => ?_⟩, fun hno t call ht => ?_⟩
    · obtain ⟨t, ht⟩ := takes_of_mem hrun hmem
      exact hno t _ ht rfl
    · intro heq
      subst heq
      exact hno.2 ht.mem
  · exact iff_of_false (fun hall => hstart (hall s ⟨[], calls, rfl, rfl⟩))
      (fun h => hstart h.1)

/-- Calls that keep the flag: `F_SETFL` without `O_NONBLOCK` too. -/
def keptOn : List FlagCall :=
  [.setFl 0 false, .getFl, .setFd 1, .fionbio 1 false, .fionbio 0 true]

theorem nonblocking_iff_kept_on :
    ∃ s s₁, (start .empty).step (.socket true (some 5) 2) = some s
      ∧ keptOn.foldlM (ctl 5) s = some s₁
      ∧ ∀ t, Visits (ctl 5) s keptOn t → t.KernelAgrees 5 := by
  have hhist : ([] : List HookCall).foldlM step (start .empty)
      = some (start .empty) := rfl
  refine ⟨_, _, rfl, rfl, ?_⟩
  exact (nonblocking_iff hhist (.inl rfl) rfl rfl).mpr ⟨.inl rfl, by decide⟩

/-- `ioctl(FIONBIO)` with 0 on a hooked socket makes it blocking. -/
theorem fionbio_clears :
    ¬ ∀ (k : Kernel) (hist : List HookCall) (c : HookCall) (fd : Nat)
      (fl : BitVec 32) (s₀ s s₁ : HookState) (calls : List FlagCall),
      hist.foldlM step (start k) = some s₀ → c.Registers fd fl →
      s₀.step c = some s → calls.foldlM (ctl fd) s = some s₁ →
      ∀ t, Visits (ctl fd) s calls t → t.KernelAgrees fd := by
  intro hall
  have hagrees := hall .empty [] (.socket true (some 5) 2) 5 2 _ _ _
    [.fionbio 0 false] rfl (.inl rfl) rfl rfl _ (visits_last rfl)
  exact absurd (hagrees _ rfl rfl) (by decide)

end HookState

end TinyServer
