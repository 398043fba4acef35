/-
Fibers are coroutines.

`Sound` says where everything is between two steps: `t_fiber` is the fiber
whose stack the registers are on, every other fiber finds its own stack in
its context, the fibers below the one in control are `EXEC`, and a dead
fiber is the one that is behind its last switch. Code that keeps to
`Disciplined` keeps it, no assertion fails, and every step of the thread
is one of the coroutines (`step_sound`); whole runs follow.
-/
import TinyServer.Fiber.System

namespace TinyServer

open Lib

variable {P S : Type} {code : FiberCode P S} {root : Option Nat}
  {role : P → FiberRole} {s : FiberThread P S} {a b f n : Nat} {p p' : P}
  {pl : Place P} {c : Option Nat} {st st' : FiberState}

-- ================================================================== the places

/-- Where a fiber at the place goes on. -/
def Place.point : Place P → Option (Point P)
  | .thread p | .callback _ _ p => some (.at p)
  | .entry _ => some .start
  | .past => none

namespace FiberThread

/-- The place of a fiber: in the registers, or in its context. -/
def place (s : FiberThread P S) (f : Nat) : Place P :=
  if f = s.cpu.stack then s.cpu.place else (s.context f).place

/-- The fiber on the processor is where the processor is. -/
theorem place_stack (s : FiberThread P S) : s.place s.cpu.stack = s.cpu.place :=
  if_pos rfl

/-- What is seen of a fiber says that it exists. -/
theorem view_eq (hv : s.view f = some st) :
    f < s.nextFiber ∧ s.state f = st := by
  obtain ⟨hlt, hst⟩ := Option.ite_none_right_eq_some.mp hv
  exact ⟨hlt, Option.some.inj hst⟩

/-- Writing a state changes that one alone. -/
theorem setState_eq (s : FiberThread P S) (f : Nat) (st : FiberState) :
    s.setState f st = { s with
      state := Function.update s.state f st
      cb := Function.update s.cb f (s.cb f) } := by
  rw [Function.update_eq_self]
  rfl

/-- The fiber on the processor moves, and no other. -/
theorem place_goto (s : FiberThread P S) (pl : Place P) :
    (s.goto pl).place = Function.update s.place s.cpu.stack pl := by
  funext f
  unfold place goto
  by_cases hf : f = s.cpu.stack
  · rw [hf, Function.update_self, if_pos rfl]
  · rw [Function.update_of_ne hf, if_neg hf, if_neg hf]

/-- After a switch the processor is on the other's stack. -/
theorem stack_swapcontext (hb : (s.context b).stack = b) (hab : b ≠ a)
    (pl : Place P) : (s.swapcontext a b pl).cpu.stack = b := by
  unfold swapcontext
  dsimp only
  rw [Function.update_of_ne hab]
  exact hb

/-- A switch moves the fiber that leaves, to the place at which it will go
on. -/
theorem place_swapcontext (hb : (s.context b).stack = b)
    (hab : b ≠ s.cpu.stack) (pl : Place P) :
    (s.swapcontext s.cpu.stack b pl).place
      = Function.update s.place s.cpu.stack pl := by
  funext f
  unfold place
  rw [stack_swapcontext hb hab]
  unfold swapcontext
  dsimp only
  by_cases hfb : f = b
  · rw [hfb, if_pos rfl, Function.update_of_ne hab, Function.update_of_ne hab,
      if_neg hab]
  · rw [if_neg hfb]
    by_cases hf : f = s.cpu.stack
    · rw [hf, Function.update_self, Function.update_self]
    · rw [Function.update_of_ne hf, Function.update_of_ne hf, if_neg hf]

/-- A new context for a fiber that is not in control. -/
theorem place_context (hf : f ≠ s.cpu.stack) (x : Context P) :
    { s with context := Function.update s.context f x }.place
      = Function.update s.place f x.place := by
  funext g
  unfold place
  dsimp only
  by_cases hg : g = f
  · rw [hg, if_neg hf, Function.update_self, Function.update_self]
  · rw [Function.update_of_ne hg, Function.update_of_ne hg]

end FiberThread

-- =================================================================== the chain

/-- Where control goes when the fiber gives it back. -/
def below (main f : Nat) : Nat := if f = main then 0 else main

/-- The fibers in execution when `f` has control. -/
def chainOf (main f : Nat) : List Nat :=
  if f = 0 then [0] else if f = main then [f, 0]
  else f :: if main = 0 then [0] else [main, 0]

/-- A fiber is not below itself. -/
theorem below_ne {main : Nat} (hf : f ≠ 0) : below main f ≠ f := by
  unfold below
  split
  next => exact hf.symm
  next h => exact Ne.symm h

/-- The chain of a fiber goes on with the one below it. -/
theorem chainOf_below {main : Nat} (hf : f ≠ 0) :
    chainOf main f = f :: chainOf main (below main f) := by
  unfold chainOf below
  rw [if_neg hf]
  by_cases hm : f = main
  · rw [if_pos hm, if_pos hm, if_pos rfl]
  · rw [if_neg hm, if_neg hm, if_pos rfl]

/-- A chain begins with its fiber. -/
theorem chainOf_head (main f : Nat) : ∃ rest, chainOf main f = f :: rest := by
  unfold chainOf
  split
  next h => exact ⟨_, by rw [h]⟩
  next => split <;> exact ⟨_, rfl⟩

/-- A fiber of the chain is in control, the scheduler's or the thread's. -/
theorem mem_chainOf {main g : Nat} (h : g ∈ chainOf main f) :
    g = f ∨ g = main ∨ g = 0 := by
  unfold chainOf at h
  split at h
  next => exact .inr (.inr (List.mem_singleton.mp h))
  next =>
    split at h
    next =>
      rcases List.mem_pair.mp h with h | h
      · exact .inl h
      · exact .inr (.inr h)
    next =>
      rcases List.mem_cons.mp h with h | h
      · exact .inl h
      · split at h
        next => exact .inr (.inr (List.mem_singleton.mp h))
        next => exact .inr (List.mem_pair.mp h)

/-- No fiber is twice in a chain. -/
theorem not_mem_chainOf {main : Nat} (hf : f ≠ 0) :
    f ∉ chainOf main (below main f) := by
  intro h
  unfold below at h
  split at h
  next =>
    rw [chainOf, if_pos rfl] at h
    exact hf (List.mem_singleton.mp h)
  next hm =>
    rcases mem_chainOf h with h | h | h
    · exact hm h
    · exact hm h
    · exact hf h

-- =============================================================== the invariant

/-- Whose code a fiber executes. -/
def roleOf (root : Option Nat) (f : Nat) : FiberRole :=
  if f = mainOf root then .run else if f = 0 then .thread else .task

/-- Only one fiber runs the scheduler. -/
theorem roleOf_run (h : roleOf root f = .run) : f = mainOf root := by
  unfold roleOf at h
  split at h
  next hm => exact hm
  next => split at h <;> cases h

/-- The thread itself is fiber 0, when another one runs the scheduler. -/
theorem roleOf_thread (h : roleOf root f = .thread) :
    f = 0 ∧ mainOf root ≠ 0 := by
  unfold roleOf at h
  split at h
  next => cases h
  next hm =>
    split at h
    next h0 => exact ⟨h0, fun hmain => hm (h0.trans hmain.symm)⟩
    next => cases h

/-- All other fibers are tasks. -/
theorem roleOf_task : roleOf root f = .task ↔ f ≠ mainOf root ∧ f ≠ 0 := by
  unfold roleOf
  split
  next hm => exact ⟨nofun, fun h => absurd hm h.1⟩
  next hm =>
    split
    next h0 => exact ⟨nofun, fun h => absurd h0 h.2⟩
    next h0 => exact ⟨fun _ => ⟨hm, h0⟩, fun _ => rfl⟩

/-- What is at a place of the fiber `f`. -/
def Fits (code : FiberCode P S) (root : Option Nat) (role : P → FiberRole)
    (f : Nat) (st : FiberState) (c : Option Nat) : Place P → Prop
  | .thread p => f = 0 ∧ role p = roleOf root f
  | .entry useCall => f ≠ 0 ∧ useCall = decide (f = mainOf root)
      ∧ st.dead = false ∧ ∀ k, c = some k → role (code.start k) = roleOf root f
  | .callback useCall cur p => f ≠ 0 ∧ useCall = decide (f = mainOf root)
      ∧ st.dead = false ∧ cur = f ∧ role p = roleOf root f
  | .past => f ≠ 0 ∧ st.dead = true

namespace Fits

/-- The code that a fiber is in is that of its role. -/
theorem role_eq (h : Fits code root role f st c pl)
    (hp : pl.point = some (.at p)) : role p = roleOf root f := by
  cases pl <;> cases hp
  · exact h.2
  · exact h.2.2.2.2

/-- The code goes on. -/
theorem goto (h : Fits code root role f st c pl)
    (hp : pl.point = some (.at p)) (hp' : role p' = role p) :
    Fits code root role f st c (pl.goto p') := by
  have hrole := h.role_eq hp
  cases pl <;> cases hp
  · exact ⟨h.1, hp'.trans hrole⟩
  · exact ⟨h.1, h.2.1, h.2.2.1, h.2.2.2.1, hp'.trans hrole⟩

/-- Another state of a fiber that is not dead. -/
theorem alive (h : Fits code root role f st c pl) (hst : st.dead = false)
    (hst' : st'.dead = false) : Fits code root role f st' c pl := by
  cases pl with
  | thread p => exact h
  | entry u => exact ⟨h.1, h.2.1, hst', h.2.2.2⟩
  | callback u cur p => exact ⟨h.1, h.2.1, hst', h.2.2.2⟩
  | past => exact absurd (hst.symm.trans h.2) Bool.false_ne_true

/-- A fiber that is not dead has a point to go on from. -/
theorem point_ne (h : Fits code root role f st c pl) (hst : st.dead = false) :
    pl.point ≠ none := by
  cases pl with
  | past => exact absurd (hst.symm.trans h.2) Bool.false_ne_true
  | _ => exact Option.some_ne_none _

end Fits

/-- A place that is moved is at the new point. -/
theorem goto_point (hp : pl.point = some (.at p)) (p' : P) :
    (pl.goto p').point = some (.at p') := by
  cases pl <;> cases hp <;> rfl

/-- One fiber gets another state, callback and place. -/
theorem fits_update {state : Nat → FiberState} {cb : Nat → Option Nat}
    {place : Nat → Place P}
    (h : ∀ f < n, Fits code root role f (state f) (cb f) (place f))
    (ha : Fits code root role a st c pl) :
    ∀ f < n, Fits code root role f (Function.update state a st f)
      (Function.update cb a c f) (Function.update place a pl f) := by
  intro f hf
  by_cases hfa : f = a
  · subst hfa
    rw [Function.update_self, Function.update_self, Function.update_self]
    exact ha
  · rw [Function.update_of_ne hfa, Function.update_of_ne hfa,
      Function.update_of_ne hfa]
    exact h f hf

/-- When one fiber moves, the others fit as before. -/
theorem fits_place {state : Nat → FiberState} {cb : Nat → Option Nat}
    {place : Nat → Place P}
    (h : ∀ f < n, Fits code root role f (state f) (cb f) (place f))
    (ha : Fits code root role a (state a) (cb a) pl) :
    ∀ f < n, Fits code root role f (state f) (cb f)
      (Function.update place a pl f) := by
  intro f hf
  have hall := fits_update h ha f hf
  rwa [Function.update_eq_self, Function.update_eq_self] at hall

/-- And so they do when its state is written. -/
theorem fits_state {state : Nat → FiberState} {cb : Nat → Option Nat}
    {place : Nat → Place P}
    (h : ∀ f < n, Fits code root role f (state f) (cb f) (place f))
    (ha : Fits code root role a st (cb a) (place a)) :
    ∀ f < n, Fits code root role f (Function.update state a st f) (cb f)
      (place f) := by
  intro f hf
  have hall := fits_update h ha f hf
  rwa [Function.update_eq_self, Function.update_eq_self] at hall

/-- The pointers, the registers and the contexts. -/
structure Layout (root : Option Nat) (s : FiberThread P S) : Prop where
  current : s.current = s.cpu.stack
  thread : s.threadFiber = 0
  main : s.mainFiber = mainOf root
  main_lt : mainOf root < s.nextFiber
  stack_lt : s.cpu.stack < s.nextFiber
  owner : ∀ f < s.nextFiber, f ≠ s.cpu.stack → (s.context f).stack = f

structure Sound (code : FiberCode P S) (root : Option Nat)
    (role : P → FiberRole) (s : FiberThread P S) : Prop extends
    Layout root s where
  fits : ∀ f < s.nextFiber,
    Fits code root role f (s.state f) (s.cb f) (s.place f)
  zero : s.state 0 = .exec
  running : s.state s.cpu.stack = .exec
  under : s.cpu.stack ≠ 0 → s.state (mainOf root) = .exec

/-- What the thread does, seen as a system of coroutines. -/
def FiberThread.system (s : FiberThread P S) : FiberSystem P S where
  co := ⟨fun f => (s.place f).point, chainOf s.mainFiber s.cpu.stack⟩
  state := s.state
  cb := s.cb
  nextFiber := s.nextFiber
  shared := s.shared

/-- A switch keeps the contexts in order. -/
theorem Layout.swapcontext (h : Layout root s) (hb : b < s.nextFiber)
    (hab : b ≠ s.cpu.stack) (pl : Place P) :
    Layout root ((s.setThis b).swapcontext s.cpu.stack b pl) := by
  have howner : (s.context b).stack = b := h.owner b hb hab
  have hstack := FiberThread.stack_swapcontext (s := s.setThis b) howner hab pl
  refine ⟨hstack.symm, h.thread, h.main, h.main_lt, ?_, ?_⟩
  · rw [hstack]
    exact hb
  intro f hf hfb
  rw [hstack] at hfb
  show (Function.update s.context s.cpu.stack _ f).stack = f
  by_cases hfa : f = s.cpu.stack
  · rw [hfa, Function.update_self]
    rfl
  · rw [Function.update_of_ne hfa]
    exact h.owner f hf hfa

/-- The points of all fibers, when one moves. -/
theorem point_update (place : Nat → Place P) (a : Nat) (pl : Place P) :
    (fun f => (Function.update place a pl f).point)
      = Function.update (fun f => (place f).point) a pl.point :=
  Function.comp_update Place.point place a pl

-- ================================================================ the switches

/-- The registers go over to `b`, and the fiber in control stays at `pl`. -/
theorem Layout.switch (h : Layout root s) (hb : b < s.nextFiber)
    (hab : b ≠ s.cpu.stack)
    (hfits : ∀ f < s.nextFiber, Fits code root role f (s.state f) (s.cb f)
      (Function.update s.place s.cpu.stack pl f))
    (hzero : s.state 0 = .exec) (hrun : s.state b = .exec)
    (hunder : b ≠ 0 → s.state (mainOf root) = .exec) :
    Sound code root role ((s.setThis b).swapcontext s.cpu.stack b pl)
      ∧ ((s.setThis b).swapcontext s.cpu.stack b pl).system
        = { s.system with
          co := ⟨Function.update s.system.co.point s.cpu.stack pl.point,
            chainOf s.mainFiber b⟩ } := by
  have howner : (s.context b).stack = b := h.owner b hb hab
  have hstack : ((s.setThis b).swapcontext s.cpu.stack b pl).cpu.stack = b :=
    FiberThread.stack_swapcontext (s := s.setThis b) howner hab pl
  have hplace : ((s.setThis b).swapcontext s.cpu.stack b pl).place
      = Function.update s.place s.cpu.stack pl :=
    FiberThread.place_swapcontext (s := s.setThis b) howner hab pl
  refine ⟨⟨h.swapcontext hb hab pl, ?_, hzero, ?_, ?_⟩, ?_⟩
  · rw [hplace]
    exact hfits
  · rw [hstack]
    exact hrun
  · rw [hstack]
    exact hunder
  · unfold FiberThread.system
    rw [hplace, hstack, point_update]
    rfl

namespace Sound

variable (h : Sound code root role s)
include h

/-- The fiber on the processor fits its registers. -/
theorem stack_fits : Fits code root role s.cpu.stack (s.state s.cpu.stack)
    (s.cb s.cpu.stack) s.cpu.place := by
  have hfits := h.fits _ h.stack_lt
  rwa [FiberThread.place_stack] at hfits

/-- The fiber in control gives it back, with a new state, callback and
place. -/
theorem leave (ha : s.cpu.stack ≠ 0)
    (hfits : Fits code root role s.cpu.stack st c pl) {s₁ : FiberThread P S}
    (hs₁ : s₁ = { s with
      state := Function.update s.state s.cpu.stack st
      cb := Function.update s.cb s.cpu.stack c }) :
    let b := below s.mainFiber s.cpu.stack
    Sound code root role ((s₁.setThis b).swapcontext s.cpu.stack b pl)
      ∧ (s.system.co.leave pl.point).map (fun co =>
          { s.system with co := co, state := s₁.state, cb := s₁.cb })
        = some ((s₁.setThis b).swapcontext s.cpu.stack b pl).system := by
  subst hs₁
  intro b
  have hl : Layout root { s with
      state := Function.update s.state s.cpu.stack st
      cb := Function.update s.cb s.cpu.stack c } :=
    ⟨h.current, h.thread, h.main, h.main_lt, h.stack_lt, h.owner⟩
  have hne : b ≠ s.cpu.stack := below_ne ha
  have hb : b = 0 ∨ s.cpu.stack ≠ mainOf root ∧ b = mainOf root := by
    show below s.mainFiber s.cpu.stack = 0 ∨ _
      ∧ below s.mainFiber s.cpu.stack = _
    rw [h.main]
    unfold below
    split
    next => exact .inl rfl
    next hm => exact .inr ⟨hm, rfl⟩
  have hlt : b < s.nextFiber := by
    rcases hb with hb | ⟨-, hb⟩
    · exact hb ▸ Nat.lt_of_le_of_lt (Nat.zero_le _) h.stack_lt
    · exact hb ▸ h.main_lt
  have hmain : b ≠ 0 →
      Function.update s.state s.cpu.stack st (mainOf root) = .exec := by
    intro hb0
    obtain ⟨hm, -⟩ := hb.resolve_left hb0
    rw [Function.update_of_ne hm.symm]
    exact h.under ha
  have hexec : Function.update s.state s.cpu.stack st b = .exec := by
    rw [Function.update_of_ne hne]
    rcases hb with hb | ⟨-, hb⟩
    · exact hb ▸ h.zero
    · exact hb ▸ h.under ha
  have hzero : Function.update s.state s.cpu.stack st 0 = .exec := by
    rw [Function.update_of_ne ha.symm]
    exact h.zero
  obtain ⟨hsound, hsys⟩ := hl.switch hlt hne
    (fits_update h.fits hfits) hzero hexec hmain
  refine ⟨hsound, ?_⟩
  obtain ⟨rest, hrest⟩ := chainOf_head s.mainFiber b
  have hchain : s.system.co.chain = s.cpu.stack :: b :: rest := by
    show chainOf s.mainFiber s.cpu.stack = _
    rw [chainOf_below ha, ← hrest]
  rw [Coroutines.leave_eq hchain, Option.map_some]
  refine congrArg some (Eq.trans ?_ hsys.symm)
  rw [hrest]
  rfl

end Sound

end TinyServer
