/-
Descriptor numbers that are used again.

`get(fd, true)` makes a context only for a number that has none, so a
context that outlives its descriptor is handed to the next one. `close`
removes the context only when the hook is enabled and the thread has an
`IOManager`; in the other cases it leaves the context behind
(`Leaves`). As long as no `close` does, a context belongs to an open
descriptor (`Live`), and a new descriptor has none.
-/
import TinyServer.Hook.Proofs.Nonblock

namespace TinyServer

open Lib

namespace Kernel

variable {k : Kernel} {fd d : Nat}

/-- No command closes a descriptor. -/
theorem fcntl_f_opened (refuse : Bool) (cmd : FcntlCmd)
    (h : k.opened d ≠ none) : (k.fcntl_f fd refuse cmd).2.opened d ≠ none := by
  simp only [fcntl_f]
  split
  next => exact h
  next f hf =>
      cases cmd with
      | setFl arg =>
          simp only
          split <;> exact h
      | setFd arg => exact h
      | getFl => exact h
      | getFd => exact h
      | dupFd arg e =>
          simp only
          split
          next =>
              by_cases hd : d = e
              · simp only [hd, if_true]
                exact Option.some_ne_none f
              · simp only [hd, if_false]
                exact h
          next => exact h

end Kernel

namespace HookState

variable {s s' : HookState} {c : HookCall} {fd : Nat} {fl : BitVec 32}

/-- Every context belongs to an open descriptor. -/
def Live (s : HookState) : Prop :=
  ∀ d, s.datas d ≠ none → s.kernel.opened d ≠ none

/-- The call closes a descriptor that has a context from a thread with
the hook disabled or without an `IOManager`. -/
def Leaves (s : HookState) (c : HookCall) : Prop :=
  ∃ hook iom fd, c = .close hook iom fd ∧ s.datas fd ≠ none
    ∧ (hook = false ∨ iom = false)

/-- The context of `fd` is fresh: no timeouts, not set non-blocking by
the user, and the kernel's flag is set. -/
def FreshAt (s : HookState) (fd : Nat) : Prop :=
  ∃ x, s.datas fd = some x ∧ x.recvTimeout = infinite
    ∧ x.sendTimeout = infinite ∧ x.userNonblock = false
    ∧ s.kernel.nonblock fd = true

theorem withSocket_keeps_open {d : Nat} (h : s.kernel.opened d ≠ none) :
    (s.withSocket fd fl).kernel.opened d ≠ none := by
  show (if d = fd then some s.kernel.nextFile else s.kernel.opened d) ≠ none
  split
  next => exact Option.some_ne_none _
  next => exact h

theorem newSocket_eq (hs : s.newSocket fd fl = some s') :
    s' = s.withSocket fd fl := by
  unfold newSocket at hs
  split at hs
  next =>
      cases hs
      rfl
  next => cases hs

theorem fcntl_keeps_open (refuse : Bool) (cmd : FcntlCmd) {d : Nat}
    (h : s.kernel.opened d ≠ none) :
    (s.fcntl fd refuse cmd).2.kernel.opened d ≠ none := by
  have hset : ∀ arg mk,
      (s.fcntlSet fd refuse arg mk).2.kernel.opened d ≠ none := by
    intro arg mk
    unfold fcntlSet
    split
    next => exact Kernel.fcntl_f_opened refuse _ h
    next =>
        split
        next => exact Kernel.fcntl_f_opened refuse _ h
        next => exact Kernel.fcntl_f_opened refuse _ h
  cases cmd with
  | setFl arg => exact hset arg .setFl
  | setFd arg => exact hset arg .setFd
  | dupFd arg e => exact hset arg (.dupFd · e)
  | getFl =>
      simp only [fcntl, fcntlGet_snd]
      exact Kernel.fcntl_f_opened refuse .getFl h
  | getFd =>
      simp only [fcntl, fcntlGet_snd]
      exact Kernel.fcntl_f_opened refuse .getFd h

/-- Only `close` closes. -/
theorem step_opened (hs : s.step c = some s') {d : Nat}
    (hclose : ∀ hook iom, c ≠ .close hook iom d)
    (h : s.kernel.opened d ≠ none) : s'.kernel.opened d ≠ none := by
  have hcreate : ∀ fd fl,
      (s.newSocket fd fl).map (·.getCreate fd) = some s' →
        s'.kernel.opened d ≠ none := by
    intro fd fl hmap
    obtain ⟨t, ht, rfl⟩ := Option.map_eq_some_iff.mp hmap
    rw [getCreate_opened, newSocket_eq ht]
    exact withSocket_keeps_open h
  cases c with
  | socket hook fd fl =>
      cases fd with
      | none =>
          cases hs
          exact h
      | some fd =>
          cases hook with
          | true => exact hcreate fd fl hs
          | false =>
              rw [newSocket_eq hs]
              exact withSocket_keeps_open h
  | accept fd fl =>
      cases fd with
      | none =>
          cases hs
          exact h
      | some fd => exact hcreate fd fl hs
  | close hook iom fd =>
      cases hs
      have hd : d ≠ fd := by
        intro heq
        subst heq
        exact hclose hook iom rfl
      have hopen : (s.close hook iom fd).kernel.opened d
          = s.kernel.opened d := by
        unfold close
        simp only
        split <;> exact if_neg hd
      rw [hopen]
      exact h
  | setsockopt hook fd opt sec usec =>
      cases hs
      unfold setsockopt
      split
      next => exact h
      next => split <;> exact h
  | fcntl fd refuse cmd =>
      cases hs
      exact fcntl_keeps_open refuse cmd h
  | ioctl fd value refuse =>
      cases hs
      have hopen : (s.ioctl fd value refuse).kernel
          = s.kernel.fionbio fd value refuse := ioctl_kernel
      rw [hopen, Kernel.fionbio_opened]
      exact h

theorem close_removes : (s.close true true fd).datas fd = none := by
  unfold close
  cases hx : s.datas fd with
  | none => exact hx
  | some x => exact if_pos rfl

theorem step_live (h : s.Live) (hno : ¬ s.Leaves c)
    (hs : s.step c = some s') : s'.Live := by
  intro d hd
  rcases step_ctx hs d with hkeeps | ⟨-, hnone⟩ | ⟨fl, hreg, -⟩
  · have hd' : s.datas d ≠ none := by
      rcases hkeeps with heq | ⟨x, y, hx, -⟩
      · rwa [heq] at hd
      · rw [hx]
        exact Option.some_ne_none x
    refine step_opened hs ?_ (h d hd')
    intro hook iom heq'
    subst heq'
    -- a `close` of `d` leaves no context
    by_cases hboth : hook = true ∧ iom = true
    · obtain ⟨rfl, rfl⟩ := hboth
      cases hs
      exact hd close_removes
    · refine hno ⟨hook, iom, d, rfl, hd', ?_⟩
      cases hook with
      | false => exact .inl rfl
      | true =>
          cases iom with
          | false => exact .inr rfl
          | true => exact absurd ⟨rfl, rfl⟩ hboth
  · exact absurd hnone hd
  · obtain ⟨-, rfl⟩ := register_eq hreg hs
    rw [getCreate_opened, withSocket_opened]
    exact Option.some_ne_none _

/-- When no `close` leaves a context behind, every descriptor that a
hooked `socket` or an `accept` returns gets a fresh context. -/
theorem registered_fresh {k : Kernel} {hist : List HookCall}
    (hno : ∀ s c, Takes step (start k) hist s c → ¬ s.Leaves c)
    (ht : Takes step (start k) hist s c) (hreg : c.Registers fd fl)
    (hs : s.step c = some s') : s'.FreshAt fd := by
  have hstart : (start k).Live := fun d hd => absurd rfl hd
  have hlive : s.Live := visits_inv step_live hstart hno ht.visits
  obtain ⟨hfree, rfl⟩ := register_eq hreg hs
  have hnone : s.datas fd = none := by
    by_contra hd
    exact hlive fd hd hfree
  exact ⟨.fresh, (getCreate_fresh hnone).1, rfl, rfl, rfl,
    (getCreate_fresh hnone).2⟩

/-- Descriptor 5 is closed properly and its number used again. -/
def closedProperly : List HookCall :=
  [.socket true (some 5) 2, .setsockopt true 5 .rcvTimeo 5 0,
    .fcntl 5 false (.setFl O_NONBLOCK), .close true true 5,
    .accept (some 5) 2]

theorem registered_fresh_closed_properly :
    ∃ s, closedProperly.foldlM step (start .empty) = some s
      ∧ s.FreshAt 5 := by
  have hno : ∀ s c, Takes step (start .empty) closedProperly s c →
      ¬ s.Leaves c := by
    intro s c ht hsome
    obtain ⟨hook, iom, fd, rfl, -, hoff⟩ := hsome
    have hmem := ht.mem
    simp only [closedProperly, List.mem_cons, reduceCtorEq, List.not_mem_nil,
      HookCall.close.injEq, false_or, or_false] at hmem
    obtain ⟨rfl, rfl, rfl⟩ := hmem
    rcases hoff with hoff | hoff <;> cases hoff
  obtain ⟨s', hs'⟩ := Option.isSome_iff_exists.mp (show
    (closedProperly.foldlM step (start .empty)).isSome = true by decide)
  obtain ⟨s, hs, hlast⟩ := run_append.mp (show
    (closedProperly.take 4 ++ [HookCall.accept (some 5) 2]).foldlM step
      (start .empty) = some s' from hs')
  obtain ⟨t, ht, hnil⟩ := run_cons.mp hlast
  cases hnil
  exact ⟨s', hs', registered_fresh hno ⟨closedProperly.take 4, [], rfl, hs⟩
    (.inr rfl) ht⟩

/-- Descriptor 5 is closed with the hook disabled. -/
def closedUnhooked : List HookCall :=
  [.socket true (some 5) 2, .setsockopt true 5 .rcvTimeo 5 0,
    .close false true 5]

/-- A descriptor closed with the hook disabled leaves its timeout to the
next one, which stays blocking. -/
theorem stale_context_inherited :
    ¬ ∀ (k : Kernel) (hist : List HookCall) (s s' : HookState)
      (c : HookCall) (fd : Nat) (fl : BitVec 32),
      Takes step (start k) hist s c → c.Registers fd fl →
      s.step c = some s' → s'.FreshAt fd := by
  intro hall
  obtain ⟨x, hx, hrecv, -⟩ := hall .empty
    (closedUnhooked ++ [.socket true (some 5) 2]) _ _
    (.socket true (some 5) 2) 5 2 ⟨closedUnhooked, [], rfl, rfl⟩ (.inl rfl)
    rfl
  cases hx
  exact absurd hrecv (by decide)

end HookState

end TinyServer
