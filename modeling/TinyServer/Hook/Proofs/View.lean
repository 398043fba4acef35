/-
When the flags of a hooked socket are what the caller expects.

The branch for words that are handed on takes every word for status
flags: it records bit 11 of it as the user's wish and sets that bit. So a
word of `F_SETFD` or a least number of `F_DUPFD` changes what `F_GETFL`
reports, and is itself changed. `F_GETFD` adds the bit to the descriptor's
flags when the user asked for it. One lemma says what a call records
(`Seen.step`), one what is reported (`Seen.reports`); a call is right in a
good state exactly when it is `Fine` for what has been asked.
-/
import TinyServer.Hook.View
import TinyServer.Hook.Proofs.Nonblock

namespace TinyServer

open Lib

-- ==================================================================== the flag

theorem hasNonblock_and_cloexec (w : BitVec 32) :
    hasNonblock (w &&& FD_CLOEXEC) = false := by
  have hbit : FD_CLOEXEC.getLsbD 11 = false := by decide
  rw [hasNonblock_eq, BitVec.getLsbD_and, hbit, Bool.and_false]

theorem nonblock_getLsbD (i : Nat) :
    O_NONBLOCK.getLsbD i = decide (i = 11) := by
  show (BitVec.twoPow 32 11).getLsbD i = decide (i = 11)
  rw [BitVec.getLsbD_twoPow]
  simp [eq_comm]

/-- Setting the flag changes nothing exactly where it is set. -/
theorem or_nonblock_eq_iff (w : BitVec 32) :
    w ||| O_NONBLOCK = w ↔ hasNonblock w = true := by
  constructor
  · intro heq
    rw [← heq]
    exact hasNonblock_or w
  · intro hset
    rw [hasNonblock_eq] at hset
    apply BitVec.eq_of_getLsbD_eq
    intro i hi
    rw [BitVec.getLsbD_or, nonblock_getLsbD]
    by_cases h11 : i = 11
    · subst h11
      rw [hset]
      rfl
    · rw [decide_eq_false h11, Bool.or_false]

/-- Clearing the flag changes nothing where it is clear. -/
theorem and_not_nonblock_eq {w : BitVec 32} (hclear : hasNonblock w = false) :
    w &&& ~~~O_NONBLOCK = w := by
  rw [hasNonblock_eq] at hclear
  apply BitVec.eq_of_getLsbD_eq
  intro i hi
  rw [BitVec.getLsbD_and, BitVec.getLsbD_not, nonblock_getLsbD]
  by_cases h11 : i = 11
  · subst h11
    rw [hclear]
    rfl
  · simp [h11, hi]

-- ================================================================ the branches

/-- What has been recorded for the user after the call. -/
def ViewCall.records (user : Bool) : ViewCall → Bool
  | .setFl arg _ => hasNonblock arg
  | .setFd arg => hasNonblock arg
  | .dupFd _ arg _ => hasNonblock arg
  | .fionbio value _ => value != 0
  | .getFl | .getFd => user

namespace HookState

variable {s : HookState} {fd : Nat} {x : FdCtx} {call : ViewCall}

/-- `fd` is open and has the context `x` of a socket. -/
structure Seen (s : HookState) (fd : Nat) (x : FdCtx) : Prop where
  ctx : s.datas fd = some x
  opened : ∃ f, s.kernel.opened fd = some f
  socket : x.isSocket = true
  sys : x.sysNonblock = true
  notClosed : x.isClose = false
  fdFlags : hasNonblock (s.kernel.fdFlags fd) = false

/-- The branch of `F_DUPFD`, `F_SETFD` and `F_SETFL` records a word and
hands on another. -/
theorem fcntlSet_eq (refuse : Bool) (arg : BitVec 32)
    (mk : BitVec 32 → FcntlCmd) :
    s.fcntlSet fd refuse arg mk
      = (s.recorded fd arg).forward fd refuse (mk (s.handed fd arg)) := by
  unfold fcntlSet recorded handed
  cases s.datas fd with
  | none => rfl
  | some c =>
      simp only
      split
      next => rfl
      next => rfl

theorem Seen.handed_eq (h : s.Seen fd x) (arg : BitVec 32) :
    s.handed fd arg = arg ||| O_NONBLOCK := by
  simp [handed, h.ctx, h.notClosed, h.socket, h.sys]

theorem Seen.handed_arg (h : s.Seen fd x) (arg : BitVec 32) :
    s.handed fd arg = arg ↔ hasNonblock arg = true := by
  rw [h.handed_eq]
  exact or_nonblock_eq_iff arg

/-- The branch of `F_GETFD` and `F_GETFL`. -/
theorem Seen.fcntlGet_eq (h : s.Seen fd x) (refuse : Bool) (cmd : FcntlCmd) :
    (s.fcntlGet fd refuse cmd).1
      = if x.userNonblock then (s.kernel.fcntl_f fd refuse cmd).1 ||| O_NONBLOCK
        else (s.kernel.fcntl_f fd refuse cmd).1 &&& ~~~O_NONBLOCK := by
  have hctx : (s.forward fd refuse cmd).2.datas fd = some x := h.ctx
  unfold fcntlGet
  simp only [hctx, h.notClosed, h.socket]
  show (if x.userNonblock = true then _ else _ : BitVec 32 × HookState).1 = _
  split
  next => rfl
  next => rfl

theorem Seen.reports (h : s.Seen fd x) : s.reports fd = x.userNonblock := by
  show hasNonblock (s.fcntlGet fd false .getFl).1 = x.userNonblock
  rw [h.fcntlGet_eq]
  cases x.userNonblock with
  | true => exact hasNonblock_or _
  | false => exact hasNonblock_clear _

/-- `F_GETFD` gives the kernel's flags exactly if the user has not asked
for `O_NONBLOCK`. -/
theorem Seen.getFd_iff (h : s.Seen fd x) :
    (s.fcntl fd false .getFd).1 = s.kernel.fdFlags fd
      ↔ x.userNonblock = false := by
  obtain ⟨f, hf⟩ := h.opened
  have hk : (s.kernel.fcntl_f fd false .getFd).1 = s.kernel.fdFlags fd := by
    simp only [Kernel.fcntl_f, hf]
  show (s.fcntlGet fd false .getFd).1 = _ ↔ _
  rw [h.fcntlGet_eq, hk]
  cases x.userNonblock with
  | true =>
      refine iff_of_false ?_ (by simp)
      intro heq
      have hset := (or_nonblock_eq_iff _).mp heq
      rw [h.fdFlags] at hset
      cases hset
  | false => exact iff_of_true (and_not_nonblock_eq h.fdFlags) rfl

-- =================================================================== the calls

theorem Seen.recorded (h : s.Seen fd x) (arg : BitVec 32) :
    (s.recorded fd arg).Seen fd { x with userNonblock := hasNonblock arg } := by
  have heq : s.recorded fd arg
      = s.setCtx fd (some { x with userNonblock := hasNonblock arg }) := by
    simp [HookState.recorded, h.ctx, h.notClosed, h.socket]
  rw [heq]
  exact ⟨if_pos rfl, h.opened, h.socket, h.sys, h.notClosed, h.fdFlags⟩

/-- A command of `fcntl_f` leaves the context, and no command gives a
descriptor another flag than `FD_CLOEXEC`. -/
theorem Seen.forward (h : s.Seen fd x) (refuse : Bool) (cmd : FcntlCmd) :
    (s.forward fd refuse cmd).2.Seen fd x := by
  obtain ⟨f, hf⟩ := h.opened
  have hkernel : ((s.kernel.fcntl_f fd refuse cmd).2.opened fd = some f)
      ∧ hasNonblock ((s.kernel.fcntl_f fd refuse cmd).2.fdFlags fd)
        = false := by
    unfold Kernel.fcntl_f
    rw [hf]
    cases cmd with
    | setFl arg =>
        simp only
        split
        next => exact ⟨hf, h.fdFlags⟩
        next => exact ⟨hf, h.fdFlags⟩
    | setFd arg =>
        refine ⟨hf, ?_⟩
        simp only [if_true]
        exact hasNonblock_and_cloexec arg
    | getFl => exact ⟨hf, h.fdFlags⟩
    | getFd => exact ⟨hf, h.fdFlags⟩
    | dupFd arg d =>
        simp only
        split
        next hfree =>
            have hne : fd ≠ d := by
              intro heq
              rw [heq, hfree.1] at hf
              cases hf
            simp only [hne, if_false]
            exact ⟨hf, h.fdFlags⟩
        next => exact ⟨hf, h.fdFlags⟩
  exact ⟨h.ctx, ⟨f, hkernel.1⟩, h.socket, h.sys, h.notClosed, hkernel.2⟩

/-- `F_DUPFD` makes the flags of the new descriptor only. -/
theorem Seen.dupFd (h : s.Seen fd x) (cloexec : Bool) (arg : BitVec 32)
    (d : Nat) :
    (s.fcntlDup fd cloexec arg d).2.Seen fd
        { x with userNonblock := hasNonblock arg }
      ∧ (s.fcntlDup fd cloexec arg d).2.kernel.fdFlags fd
        = s.kernel.fdFlags fd := by
  have hrec := h.recorded arg
  have heq : s.fcntl fd false (.dupFd arg d)
      = (s.recorded fd arg).forward fd false (.dupFd (s.handed fd arg) d) :=
    fcntlSet_eq false arg (.dupFd · d)
  have hseen := hrec.forward false (.dupFd (s.handed fd arg) d)
  rw [← heq] at hseen
  obtain ⟨f, hf⟩ := hrec.opened
  have hsame : (s.recorded fd arg).kernel = s.kernel := by
    unfold HookState.recorded
    split
    next => rfl
    next => split <;> rfl
  -- a number that is free is not `fd`
  have hfree : ((s.recorded fd arg).kernel.fcntl_f fd false
      (.dupFd (s.handed fd arg) d)).1 ≠ -1 → fd ≠ d := by
    intro hok heq
    apply hok
    unfold Kernel.fcntl_f
    rw [hf]
    simp only
    rw [if_neg (fun hc => by rw [← heq, hf] at hc; cases hc.1)]
  have hflags : (s.fcntl fd false (.dupFd arg d)).2.kernel.fdFlags fd
      = s.kernel.fdFlags fd := by
    rw [heq, ← hsame]
    unfold HookState.forward
    simp only
    unfold Kernel.fcntl_f
    rw [hf]
    simp only
    split
    next hok =>
        have hne : fd ≠ d := by
          intro hfd
          rw [← hfd, hf] at hok
          cases hok.1
        simp only [hne, if_false]
    next => rfl
  unfold fcntlDup
  simp only
  split
  next hset =>
      have hne : fd ≠ d := by
        apply hfree
        have hok := hset.2
        rw [heq] at hok
        exact hok
      have hflag : ((s.fcntl fd false (.dupFd arg d)).2.setCloexec
          d).kernel.fdFlags fd
          = (s.fcntl fd false (.dupFd arg d)).2.kernel.fdFlags fd :=
        if_neg hne
      refine ⟨⟨hseen.ctx, hseen.opened, h.socket, h.sys, h.notClosed, ?_⟩,
        hflag.trans hflags⟩
      rw [hflag]
      exact hseen.fdFlags
  next => exact ⟨hseen, hflags⟩

theorem Seen.fionbio (h : s.Seen fd x) (value : BitVec 32) (refuse : Bool) :
    (s.ioctl fd value refuse).Seen fd
      { x with userNonblock := value != 0 } := by
  have hctx : (s.ioctl fd value refuse).datas fd
      = some { x with userNonblock := value != 0 } := by
    simp [ioctl, h.ctx, h.notClosed, h.socket, setCtx]
  obtain ⟨f, hf⟩ := h.opened
  have hflags : (s.kernel.fionbio fd value refuse).fdFlags
      = s.kernel.fdFlags := by
    unfold Kernel.fionbio
    rw [hf]
    simp only
    split
    next => rfl
    next => split <;> rfl
  refine ⟨hctx, ⟨f, ?_⟩, h.socket, h.sys, h.notClosed, ?_⟩
  · rw [ioctl_kernel, Kernel.fionbio_opened]
    exact hf
  · rw [ioctl_kernel, hflags]
    exact h.fdFlags

/-- What a call on a hooked socket records. -/
theorem Seen.step (h : s.Seen fd x) (call : ViewCall) :
    (call.on fd s).Seen fd
      { x with userNonblock := call.records x.userNonblock } := by
  cases call with
  | setFl arg refuse =>
      show (s.fcntlSet fd refuse arg .setFl).2.Seen fd _
      rw [fcntlSet_eq]
      exact (h.recorded arg).forward refuse _
  | getFl =>
      show (s.fcntlGet fd false .getFl).2.Seen fd _
      rw [fcntlGet_snd]
      exact h.forward false .getFl
  | setFd arg =>
      show (s.fcntlSet fd false arg .setFd).2.Seen fd _
      rw [fcntlSet_eq]
      exact (h.recorded arg).forward false _
  | getFd =>
      show (s.fcntlGet fd false .getFd).2.Seen fd _
      rw [fcntlGet_snd]
      exact h.forward false .getFd
  | dupFd cloexec arg d => exact (h.dupFd cloexec arg d).1
  | fionbio value refuse => exact h.fionbio value refuse

end HookState

-- ==================================================================== the view

namespace ViewCall

/-- What the caller expects of a call: a word of `F_SETFD`, `F_DUPFD` or
`F_DUPFD_CLOEXEC` is handed on as it is, `F_GETFD` gives the flags of the
descriptor, and none of them changes what `F_GETFL` reports or, when
duplicating, the flags of the descriptor. -/
def Right (fd : Nat) (s : HookState) (call : ViewCall) : Prop :=
  match call with
  | .setFd arg =>
      s.handed fd arg = arg ∧ (call.on fd s).reports fd = s.reports fd
  | .getFd =>
      (s.fcntl fd false .getFd).1 = s.kernel.fdFlags fd
        ∧ (call.on fd s).reports fd = s.reports fd
  | .dupFd _ arg _ =>
      s.handed fd arg = arg ∧ (call.on fd s).reports fd = s.reports fd
        ∧ (call.on fd s).kernel.fdFlags fd = s.kernel.fdFlags fd
  | .setFl _ _ | .getFl | .fionbio _ _ => True

/-- `F_GETFD` while `O_NONBLOCK` is not asked for; `F_SETFD`, `F_DUPFD`
and `F_DUPFD_CLOEXEC` while it is, with that bit in their word. -/
def Fine (asked : Bool) : ViewCall → Prop
  | .setFd arg => asked = true ∧ hasNonblock arg = true
  | .getFd => asked = false
  | .dupFd _ arg _ => asked = true ∧ hasNonblock arg = true
  | .setFl _ _ | .getFl | .fionbio _ _ => True

instance (asked : Bool) (call : ViewCall) : Decidable (call.Fine asked) := by
  cases call <;> unfold Fine <;> infer_instance

end ViewCall

namespace FlagView

variable {v v' : FlagView} {fd : Nat} {call : ViewCall}

/-- The socket is hooked. -/
def Hooked (fd : Nat) (v : FlagView) : Prop := ∃ x, v.hook.Seen fd x

/-- `F_GETFL` reports what was asked for last. -/
def Agrees (fd : Nat) (v : FlagView) : Prop := v.hook.reports fd = v.asked

theorem step_hooked (h : v.Hooked fd) (hs : v.step fd call = some v') :
    v'.Hooked fd := by
  cases hs
  obtain ⟨x, hx⟩ := h
  exact ⟨_, hx.step call⟩

/-- A call in a good state is right and leads to a good state exactly if
it is fine. -/
theorem right_iff (h : v.Hooked fd) (hagree : v.Agrees fd)
    (hs : v.step fd call = some v') :
    call.Right fd v.hook ∧ v'.Agrees fd ↔ call.Fine v.asked := by
  cases hs
  obtain ⟨x, hx⟩ := h
  have hbefore : x.userNonblock = v.asked := hx.reports.symm.trans hagree
  have hafter := (hx.step call).reports
  -- a word that is handed on is recorded too
  have hword : ∀ arg, (s : Bool) → s = hasNonblock arg →
      ((v.hook.handed fd arg = arg ∧ s = v.hook.reports fd) ∧ s = v.asked
        ↔ v.asked = true ∧ hasNonblock arg = true) := by
    intro arg s hs
    rw [hx.handed_arg, hagree, hs]
    constructor
    · rintro ⟨⟨hset, heq⟩, -⟩
      exact ⟨heq ▸ hset, hset⟩
    · rintro ⟨hasked, hset⟩
      rw [hasked, hset]
      exact ⟨⟨rfl, rfl⟩, rfl⟩
  cases call with
  | setFl arg refuse => exact iff_of_true ⟨trivial, hafter⟩ trivial
  | getFl => exact iff_of_true ⟨trivial, hafter.trans hbefore⟩ trivial
  | setFd arg => exact hword arg _ hafter
  | getFd =>
      have hsame : ((ViewCall.getFd.on fd v.hook).reports fd) = v.asked :=
        hafter.trans hbefore
      have hval : v.hook.reports fd = v.asked := hagree
      show ((v.hook.fcntl fd false .getFd).1 = v.hook.kernel.fdFlags fd
        ∧ (ViewCall.getFd.on fd v.hook).reports fd = v.hook.reports fd)
        ∧ (ViewCall.getFd.on fd v.hook).reports fd = v.asked
        ↔ v.asked = false
      rw [hx.getFd_iff, hsame, hval, hbefore]
      simp
  | dupFd cloexec arg d =>
      have hflags := (hx.dupFd cloexec arg d).2
      have hiff := hword arg _ hafter
      constructor
      · rintro ⟨⟨hhand, hsame, -⟩, hagree'⟩
        exact hiff.mp ⟨⟨hhand, hsame⟩, hagree'⟩
      · intro hfine
        obtain ⟨⟨hhand, hsame⟩, hagree'⟩ := hiff.mpr hfine
        exact ⟨⟨hhand, hsame, hflags⟩, hagree'⟩
  | fionbio value refuse => exact iff_of_true ⟨trivial, hafter⟩ trivial

end FlagView

-- ================================================================ registration

namespace HookState

variable {s₀ s : HookState} {c : HookCall} {fd : Nat} {fl : BitVec 32}

theorem setFl_fdFlags (k : Kernel) (arg : BitVec 32) (d : Nat) :
    (k.fcntl_f fd false (.setFl arg)).2.fdFlags d = k.fdFlags d := by
  unfold Kernel.fcntl_f
  split
  next => rfl
  next => rfl

theorem getCreate_fdFlags (d : Nat) :
    (s.getCreate fd).kernel.fdFlags d = s.kernel.fdFlags d := by
  unfold getCreate
  split
  next => rfl
  next =>
      show (newFdCtx s.kernel fd).2.fdFlags d = s.kernel.fdFlags d
      unfold newFdCtx
      split
      next => rfl
      next =>
          split
          next =>
              simp only
              split
              next => rfl
              next => rw [setFl_fdFlags]
          next => rfl

/-- A registered socket is hooked; what is recorded for the user is
nothing or what a context left there says. -/
theorem register_seen (hformed : s₀.Formed) (hreg : c.Registers fd fl)
    (hs : s₀.step c = some s) :
    ∃ x, s.Seen fd x
      ∧ (x.userNonblock = false
        ↔ ∀ y, s₀.datas fd = some y → y.userNonblock = false) := by
  obtain ⟨x, f, hx, hf, hsock, hsys, hclose⟩ :=
    register_hooked hformed hreg hs
  obtain ⟨-, heq⟩ := register_eq hreg hs
  have hflags : s.kernel.fdFlags fd = 0 := by
    rw [heq, getCreate_fdFlags]
    exact if_pos rfl
  have hseen : s.Seen fd x := by
    refine ⟨hx, ⟨f, hf⟩, hsock, hsys, hclose, ?_⟩
    rw [hflags]
    decide
  refine ⟨x, hseen, ?_⟩
  cases hy : s₀.datas fd with
  | none =>
      have hfresh : s.datas fd = some .fresh := by
        rw [heq]
        exact (getCreate_fresh hy).1
      rw [hx] at hfresh
      cases hfresh
      exact iff_of_true rfl fun y hsome => by cases hsome
  | some y =>
      have hsame : s.datas fd = some y := by
        rw [heq, (getCreate_stale hy).1]
        exact hy
      rw [hx] at hsame
      cases hsame
      simp

end HookState

namespace FlagView

open HookState

/-- From a hooked `socket` or `accept` on, over all calls on the
descriptor: `F_GETFL` always reports what `F_SETFL` or `FIONBIO` asked for
last and the other commands do what the caller expects, if and only if no
context left at the number says otherwise and all calls are fine. -/
theorem flag_view_iff {k : Kernel} {hist : List HookCall}
    {s₀ s : HookState} {c : HookCall} {fd : Nat} {fl : BitVec 32}
    {calls : List ViewCall} {v₁ : FlagView}
    (hhist : hist.foldlM HookState.step (start k) = some s₀)
    (hreg : c.Registers fd fl) (hs : s₀.step c = some s)
    (hrun : calls.foldlM (step fd) ⟨s, false⟩ = some v₁) :
    ((∀ v, Visits (step fd) ⟨s, false⟩ calls v → v.Agrees fd)
        ∧ ∀ v call, Takes (step fd) ⟨s, false⟩ calls v call →
            call.Right fd v.hook)
      ↔ (∀ x, s₀.datas fd = some x → x.userNonblock = false)
        ∧ ∀ v call, Takes (step fd) ⟨s, false⟩ calls v call →
            call.Fine v.asked := by
  have hformed : s₀.Formed :=
    run_inv step_formed hist (fun _ _ hx => by cases hx) hhist
  obtain ⟨x, hseen, hstale⟩ := register_seen hformed hreg hs
  have hstart : Agrees fd ⟨s, false⟩ ↔ x.userNonblock = false := by
    show s.reports fd = false ↔ _
    rw [hseen.reports]
  rw [← hstale, ← hstart]
  exact visits_takes_iff step_hooked right_iff ⟨x, hseen⟩ hrun

/-- Calls that are all fine: descriptor flags are read first, and written
with `O_NONBLOCK` among them. -/
def carefulCalls : List ViewCall :=
  [.getFd, .setFl 0x802 false, .setFd 0x801, .dupFd true 0x800 3000, .getFl,
    .fionbio 0 false, .getFd]

theorem flag_view_iff_careful :
    ∃ s v₁, (start .empty).step (.socket true (some 5) 2) = some s
      ∧ carefulCalls.foldlM (step 5) ⟨s, false⟩ = some v₁
      ∧ ∀ v, Visits (step 5) ⟨s, false⟩ carefulCalls v → v.Agrees 5 := by
  have hhist : ([] : List HookCall).foldlM HookState.step (start .empty)
      = some (start .empty) := rfl
  refine ⟨_, _, rfl, rfl, ?_⟩
  refine ((flag_view_iff hhist (.inl rfl) rfl rfl).mpr ⟨?_, ?_⟩).1
  · intro x hx
    cases hx
  · intro v call ht
    exact of_decide_eq_true
      (takes_of_checks (fun v call => decide (call.Fine v.asked))
        (by decide) ht)

/-- Setting `FD_CLOEXEC` hands on another word, and `O_NONBLOCK`, which
was asked for, is no longer reported. -/
theorem setFd_clears_view :
    ¬ ∀ (k : Kernel) (c : HookCall) (fd : Nat) (fl : BitVec 32)
      (s : HookState) (calls : List ViewCall),
      c.Registers fd fl → (start k).step c = some s →
      ∀ v, Visits (step fd) ⟨s, false⟩ calls v → v.Agrees fd := by
  intro hall
  have hagrees := hall .empty (.socket true (some 5) 2) 5 2 _
    [.setFl 0x802 false, .setFd 1] (.inl rfl) rfl _ (visits_last rfl)
  exact absurd hagrees (by unfold Agrees; decide)

end FlagView

end TinyServer
