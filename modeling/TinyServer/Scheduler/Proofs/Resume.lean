/-
The workers resume live fibers only, when nothing untested happens.

# What goes wrong

A fiber that ends with an exception is in `EXCEPT`. Where `run` looks at
a task's fiber it tests for `TERM` and for `EXCEPT`, but the test for the
end of `idle_fiber` is for `TERM` alone: when the body of `idle` throws,
the next round without work swaps in a fiber whose context is the end of
`MainFunc`. And between the look at the state of a fiber that was taken
and its `swapIn` another worker, with another entry of the fiber, can run
it to its end.

# What is enough

The body of `idle` does not throw, and no worker takes an entry of a
fiber that another worker has, unless the fiber has ended and will not be
reset (`Careful`). Then every worker is at a place that fits the state of
its fiber (`Live`).
-/
import TinyServer.Scheduler.Proofs.Steps

namespace TinyServer

open Lib

-- ============================================================== the vocabulary

/-- `swapIn` can be called. -/
def Fiber.Resumable (x : Fiber) : Prop :=
  x.state ≠ .exec ∧ x.state.dead = false

/-- `reset` can be called. -/
def Fiber.Resettable (x : Fiber) : Prop :=
  x.state = .init ∨ x.state.dead = true

/-- What `cb_fiber` is between two callbacks: without a callback of its
own, or ended by whoever took it from the queue. -/
def Fiber.Spare (x : Fiber) : Prop :=
  (x.state = .init ∧ x.cb = none) ∨ x.state.dead = true

namespace Scheduler

/-- What worker `w` is about to do is allowed: `reset` in `INIT`, `TERM`
or `EXCEPT`, `swapIn` in none of `TERM`, `EXCEPT` and `EXEC`; and it is
not past the end of `MainFunc`. -/
def CallsRight (s : Scheduler) (w : Nat) : Prop :=
  match (s.workers w).pc with
  | .wrap _ _ => ∀ f, (s.workers w).cbFiber = some f → (s.heap f).Resettable
  | .swapping _ f _ => (s.heap f).Resumable
  | .inside f _ => (s.heap f).finished = false
  | .renew f => (s.heap f).Resettable
  | .idleTest =>
      (s.workers w).idleFiber.state = .term
        ∨ (s.workers w).idleFiber.Resumable
  | .idleInside => (s.workers w).idleFiber.finished = false
  | _ => True

/-- What the task of worker `w` can do: a call of a null callback
throws. -/
def canDo (s : Scheduler) (w : Nat) (b : Behaviour) : Bool :=
  match (s.workers w).pc with
  | .inside f _ => (s.heap f).cb ≠ none || b = .throws
  | _ => true

/-- A step of the system with what tasks can do. -/
def bodyStep (s : Scheduler) : SchedAct → Option Scheduler
  | .run w b => if s.canDo w b then s.step (.run w b) else none
  | a => s.step a

/-- The fiber has ended and is nobody's `cb_fiber`. -/
def Gone (s : Scheduler) (f : Nat) : Prop :=
  (s.heap f).state.dead = true ∧ ∀ u, (s.workers u).cbFiber ≠ some f

/-- The step takes no entry of a fiber that another worker has and that is
not gone; the body of `idle` does not throw. -/
def Careful (s : Scheduler) : SchedAct → Prop
  | .run w b =>
      match (s.workers w).pc with
      | .top => ∀ e rest f, scan s.heap w s.fibers = some (e, rest) →
          e.fiber? = some f → ∀ v, v ≠ w → (s.workers v).Owns f → s.Gone f
      | .idleInside => b ≠ .throws
      | _ => True
  | _ => True

/-- The worker is between two callbacks. -/
def Rest (heap : Nat → Fiber) (k : Worker) : Prop :=
  ∀ g, k.cbFiber = some g → (heap g).Spare

/-- The worker has `f` as its `cb_fiber`, or is between two callbacks. -/
def Holds (heap : Nat → Fiber) (k : Worker) (f : Nat) : Bool → Prop
  | true => k.cbFiber = some f
  | false => Rest heap k

/-- The place of a worker fits the state of its fiber. -/
def PlaceRight (heap : Nat → Fiber) (k : Worker) : Prop :=
  match k.pc with
  | .took e =>
      (∀ f, e.fiber? = some f → (heap f).state ≠ .exec) ∧ Rest heap k
  | .swapping _ f viaCb => (heap f).Resumable ∧ Holds heap k f viaCb
  | .inside f viaCb => (heap f).state = .exec
      ∧ (Holds heap k f viaCb
        -- the worker took its own `cb_fiber` from the queue
        ∨ viaCb = false ∧ k.cbFiber = some f ∧ (heap f).cb = none)
  | .leaving f viaCb => (heap f).state ≠ .init ∧ Holds heap k f viaCb
  | .back f viaCb => (heap f).state ≠ .init ∧ Holds heap k f viaCb
  | .settled f viaCb => (heap f).state ≠ .init ∧ Holds heap k f viaCb
  | .requeue f viaCb => Holds heap k f viaCb
  | .renew f => (heap f).state.dead = true ∧ k.cbFiber = some f
  | .park f viaCb => (heap f).state ≠ .init ∧ (heap f).state.dead = false
      ∧ Holds heap k f viaCb
  | _ => Rest heap k

/-- `idle_fiber` fits the place of its worker. -/
def IdleRight (k : Worker) : Prop :=
  match k.pc with
  | .idleInside => k.idleFiber.state = .exec ∧ k.idleFiber.finished = false
  | .idleBack => k.idleFiber.state = .term
      ∨ k.idleFiber.state.dead = false ∧ k.idleFiber.finished = false
  | _ => k.idleFiber.state = .term
      ∨ k.idleFiber.Resumable ∧ k.idleFiber.finished = false

/-- What holds in every state of a careful run. -/
structure Live (s : Scheduler) : Prop where
  /-- A fiber has one owner, or it is gone. -/
  alone : ∀ f v w, v ≠ w → (s.workers v).Owns f → (s.workers w).Owns f →
    s.Gone f
  /-- Where the context has ended, the state says so. -/
  ended : ∀ f, (s.heap f).finished = true → (s.heap f).state.dead = true
  places : ∀ w, PlaceRight s.heap (s.workers w)
  idle : ∀ w, IdleRight (s.workers w)
  known : s.Known

variable {s s' : Scheduler} {w : Nat} {b : Behaviour}

theorem live_init (threads : Nat) : (init threads).Live where
  alone := by
    rintro f v w - (h | h) <;> cases h
  ended := fun _ h => by cases h
  places := fun _ _ hg => by cases hg
  idle := fun _ => .inr ⟨⟨FiberState.noConfusion, rfl⟩, rfl⟩
  known := known_init threads

theorem exec_not_dead {x : FiberState} (h : x = .exec) : x.dead = false := by
  rw [h]
  rfl

/-- The invariant is enough. -/
theorem Live.callsRight (h : s.Live) (w : Nat) : s.CallsRight w := by
  have hplace := h.places w
  have hidle := h.idle w
  have hended : ∀ f, (s.heap f).state.dead = false →
      (s.heap f).finished = false := by
    intro f halive
    by_contra hfin
    rw [h.ended f ((Bool.not_eq_false _).mp hfin)] at halive
    cases halive
  unfold CallsRight PlaceRight IdleRight at *
  cases hpc : (s.workers w).pc with
  | wrap e c =>
      rw [hpc] at hplace
      intro f hf
      exact (hplace f hf).imp_left And.left
  | swapping e f viaCb =>
      rw [hpc] at hplace
      exact hplace.1
  | inside f viaCb =>
      rw [hpc] at hplace
      exact hended f (exec_not_dead hplace.1)
  | renew f =>
      rw [hpc] at hplace
      exact .inr hplace.1
  | idleTest =>
      rw [hpc] at hidle
      exact hidle.imp_right And.left
  | idleInside =>
      rw [hpc] at hidle
      exact hidle.2
  | _ => trivial

-- =================================================================== the frame

theorem rest_congr {heap heap' : Nat → Fiber} {k : Worker} (h : Rest heap k)
    (hsame : ∀ f, k.cbFiber = some f → heap' f = heap f) : Rest heap' k := by
  intro g hg
  rw [hsame g hg]
  exact h g hg

theorem holds_congr {heap heap' : Nat → Fiber} {k : Worker} {f : Nat}
    {viaCb : Bool} (h : Holds heap k f viaCb)
    (hsame : ∀ f, k.cbFiber = some f → heap' f = heap f) :
    Holds heap' k f viaCb := by
  cases viaCb with
  | true => exact h
  | false => exact rest_congr h hsame

/-- What a place says is about the fibers of its worker. -/
theorem placeRight_congr {heap heap' : Nat → Fiber} {k : Worker}
    (h : PlaceRight heap k) (hsame : ∀ f, k.Owns f → heap' f = heap f) :
    PlaceRight heap' k := by
  have hcb : ∀ f, k.cbFiber = some f → heap' f = heap f :=
    fun f hf => hsame f (.inr hf)
  have hpcs : ∀ f, k.pc.fiber? = some f → heap' f = heap f :=
    fun f hf => hsame f (.inl hf)
  unfold PlaceRight at *
  cases hpc : k.pc with
  | took e =>
      rw [hpc] at h hpcs
      refine ⟨fun f hf => ?_, rest_congr h.2 hcb⟩
      rw [hpcs f hf]
      exact h.1 f hf
  | swapping e f viaCb =>
      rw [hpc] at h hpcs
      refine ⟨?_, holds_congr h.2 hcb⟩
      rw [hpcs f rfl]
      exact h.1
  | inside f viaCb =>
      rw [hpc] at h hpcs
      simp only at h ⊢
      rw [hpcs f rfl]
      exact ⟨h.1, h.2.imp_left fun hh => holds_congr hh hcb⟩
  | leaving f viaCb =>
      rw [hpc] at h hpcs
      refine ⟨?_, holds_congr h.2 hcb⟩
      rw [hpcs f rfl]
      exact h.1
  | back f viaCb =>
      rw [hpc] at h hpcs
      refine ⟨?_, holds_congr h.2 hcb⟩
      rw [hpcs f rfl]
      exact h.1
  | settled f viaCb =>
      rw [hpc] at h hpcs
      refine ⟨?_, holds_congr h.2 hcb⟩
      rw [hpcs f rfl]
      exact h.1
  | requeue f viaCb =>
      rw [hpc] at h
      exact holds_congr h hcb
  | renew f =>
      rw [hpc] at h hpcs
      simp only at h ⊢
      rw [hpcs f rfl]
      exact h
  | park f viaCb =>
      rw [hpc] at h hpcs
      simp only at h ⊢
      rw [hpcs f rfl]
      exact ⟨h.1, h.2.1, holds_congr h.2.2 hcb⟩
  | _ =>
      rw [hpc] at h
      exact rest_congr h hcb

/-- A worker that gets a fiber in a careful step is its only owner, or the
fiber is gone. -/
theorem RunMove.gains (h : s.RunMove w b s') (hok : s.Careful (.run w b))
    (hk : s.Known) {f : Nat} (hf : (s'.workers w).Owns f) :
    (s.workers w).Owns f
      ∨ ∀ v, v ≠ w → (s.workers v).Owns f → s.Gone f := by
  have htake : ∀ {e rest}, (s.workers w).pc = .top →
      scan s.heap w s.fibers = some (e, rest) → e.fiber? = some f →
      ∀ v, v ≠ w → (s.workers v).Owns f → s.Gone f := by
    intro e rest hpc hscan hfib
    simp only [Careful, hpc] at hok
    exact hok e rest f hscan hfib
  rcases h.owns hf with hf | ⟨e, -, hfib, hpc, -⟩ | ⟨rfl, -⟩
  · exact .inl hf
  · right
    cases h with
    | take htop hqueue hscan helig =>
        rw [setPc, setWorker_pc] at hpc
        cases hpc
        exact htake htop hscan hfib
    | @ended g viaCb _ _ =>
        rw [setPc, setWorker_pc] at hpc
        cases viaCb <;> cases hpc
    | make | requeue | park | idleIn | idleLeave | idleBack =>
        rw [setWorker_pc] at hpc
        cases hpc
    | _ =>
        rw [setPc, setWorker_pc] at hpc
        cases hpc
  · exact .inr fun v _ hv => absurd (hk _ (.inr ⟨v, hv⟩)) (Nat.lt_irrefl _)

/-- The owner of a fiber that is not gone is the only one. -/
theorem Live.sole (h : s.Live) {f : Nat} (hf : (s.workers w).Owns f)
    (hnot : ¬ s.Gone f) (v : Nat) (hv : v ≠ w) : ¬ (s.workers v).Owns f :=
  fun hown => hnot (h.alone f v w hv hown hf)

theorem not_gone_of_alive {f : Nat} (h : (s.heap f).state.dead = false) :
    ¬ s.Gone f := by
  intro hgone
  rw [hgone.1] at h
  cases h

/-- A step of worker `w` that writes fibers that nobody else has. -/
theorem Live.turn (h : s.Live) (hok : s.Careful (.run w b)) {t : Scheduler}
    {k : Worker} (hmove : s.RunMove w b (t.setWorker w k))
    (hwrite : ∀ f, t.heap f ≠ s.heap f →
      (∀ v, v ≠ w → ¬ (s.workers v).Owns f)
        ∧ ((t.heap f).finished = true → (t.heap f).state.dead = true))
    (hplace : PlaceRight t.heap k) (hidle : IdleRight k) :
    (t.setWorker w k).Live := by
  have hsame : ∀ {f v}, v ≠ w → (s.workers v).Owns f →
      t.heap f = s.heap f := by
    intro f v hvw hv
    by_contra hne
    exact (hwrite f hne).1 v hvw hv
  -- a fiber of another worker that is gone stays gone
  have hgone : ∀ {f v}, v ≠ w → (s.workers v).Owns f → s.Gone f →
      (t.setWorker w k).Gone f := by
    intro f v hvw hv hg
    refine ⟨?_, fun u hu => ?_⟩
    · show (t.heap f).state.dead = true
      rw [hsame hvw hv]
      exact hg.1
    · by_cases huw : u = w
      · subst huw
        rcases hmove.cbFiber hu with hold | ⟨rfl, -⟩
        · exact hg.2 u hold
        · exact Nat.lt_irrefl _ (h.known _ (.inr ⟨v, hv⟩))
      · rw [hmove.others huw] at hu
        exact hg.2 u hu
  have hwith : ∀ {f v}, v ≠ w → ((t.setWorker w k).workers w).Owns f →
      (s.workers v).Owns f → (t.setWorker w k).Gone f := by
    intro f v hvw hw hv
    rcases hmove.gains hok h.known hw with hold | hnew
    · exact hgone hvw hv (h.alone f v w hvw hv hold)
    · exact hgone hvw hv (hnew v hvw hv)
  refine ⟨?_, fun f hfin => ?_, fun v => ?_, fun v => ?_,
    hmove.known h.known⟩
  · intro f u v huv hu hv
    by_cases huw : u = w
    · subst huw
      rw [hmove.others huv.symm] at hv
      exact hwith huv.symm hu hv
    · rw [hmove.others huw] at hu
      by_cases hvw : v = w
      · subst hvw
        exact hwith huw hv hu
      · rw [hmove.others hvw] at hv
        exact hgone huw hu (h.alone f u v huv hu hv)
  · by_cases hne : t.heap f = s.heap f
    · show (t.heap f).state.dead = true
      rw [hne]
      refine h.ended f ?_
      rw [← hne]
      exact hfin
    · exact (hwrite f hne).2 hfin
  · by_cases hvw : v = w
    · subst hvw
      rw [setWorker_pc]
      exact hplace
    · rw [hmove.others hvw]
      exact placeRight_congr (h.places v) fun f hf => hsame hvw hf
  · by_cases hvw : v = w
    · subst hvw
      rw [setWorker_pc]
      exact hidle
    · rw [hmove.others hvw]
      exact h.idle v

/-- A step that writes no fiber. -/
theorem Live.walk (h : s.Live) (hok : s.Careful (.run w b)) {t : Scheduler}
    {k : Worker} (hmove : s.RunMove w b (t.setWorker w k))
    (hheap : t.heap = s.heap) (hplace : PlaceRight s.heap k)
    (hidle : IdleRight k) : (t.setWorker w k).Live := by
  refine h.turn hok hmove (fun f hne => ?_) (hheap.symm ▸ hplace) hidle
  rw [hheap] at hne
  exact absurd rfl hne

/-- A step that writes one fiber. -/
theorem Live.write (h : s.Live) (hok : s.Careful (.run w b)) {t : Scheduler}
    {k : Worker} {f : Nat} {x : Fiber}
    (hmove : s.RunMove w b ((t.setFiber f x).setWorker w k))
    (hheap : t.heap = s.heap)
    (hsole : ∀ v, v ≠ w → ¬ (s.workers v).Owns f)
    (hend : x.finished = true → x.state.dead = true)
    (hplace : PlaceRight (t.setFiber f x).heap k) (hidle : IdleRight k) :
    ((t.setFiber f x).setWorker w k).Live := by
  refine h.turn hok hmove (fun g hne => ?_) hplace hidle
  have hgf : g = f := by
    by_contra hg
    refine hne ?_
    rw [← hheap]
    exact if_neg hg
  subst hgf
  refine ⟨hsole, ?_⟩
  rw [setFiber_heap_self]
  exact hend

-- =================================================================== the steps

/-- What a fiber is after its task has left the processor. -/
theorem leave_facts {x y : Fiber} (h : x.leave b = some y)
    (hexec : x.state = .exec) :
    y.state ≠ .init ∧ (y.finished = true → y.state.dead = true)
      ∧ (b = .throws → y.state.dead = true) := by
  unfold Fiber.leave at h
  split at h
  next => cases h
  next hfin =>
      cases b with
      | returns =>
          cases h
          exact ⟨FiberState.noConfusion, fun _ => rfl, fun _ => rfl⟩
      | throws =>
          cases h
          exact ⟨FiberState.noConfusion, fun _ => rfl, fun _ => rfl⟩
      | yieldReady =>
          cases h
          refine ⟨FiberState.noConfusion, fun h => absurd h hfin, fun hb => ?_⟩
          cases hb
      | yieldHold =>
          cases h
          rw [hexec]
          refine ⟨FiberState.noConfusion, fun h => absurd h hfin, fun hb => ?_⟩
          cases hb

/-- What `idle_fiber` is after its body has left the processor without an
exception. -/
theorem idle_leave {x y : Fiber} (h : x.leave b = some y)
    (hexec : x.state = .exec) (hb : b ≠ .throws) :
    y.state = .term ∨ y.state.dead = false ∧ y.finished = false := by
  unfold Fiber.leave at h
  split at h
  next => cases h
  next hfin =>
      have hfin' : x.finished = false := Bool.eq_false_iff.mpr hfin
      cases b with
      | returns =>
          cases h
          exact .inl rfl
      | throws => exact absurd rfl hb
      | yieldReady =>
          cases h
          exact .inr ⟨rfl, hfin'⟩
      | yieldHold =>
          cases h
          exact .inr ⟨exec_not_dead hexec, hfin'⟩

/-- A fiber that is written is seen by its own worker only. -/
theorem rest_setFiber {k : Worker} {f : Nat} {x : Fiber}
    (h : Rest s.heap k) (hx : k.cbFiber = some f → x.Spare) :
    Rest (s.setFiber f x).heap k := by
  intro g hg
  by_cases hgf : g = f
  · subst hgf
    rw [setFiber_heap_self]
    exact hx hg
  · have hsame : (s.setFiber f x).heap g = s.heap g := if_neg hgf
    rw [hsame]
    exact h g hg

theorem Live.alive_sole (h : s.Live) {f : Nat}
    (hf : (s.workers w).pc.fiber? = some f)
    (halive : (s.heap f).state.dead = false) (v : Nat) (hv : v ≠ w) :
    ¬ (s.workers v).Owns f :=
  h.sole (.inl hf) (not_gone_of_alive halive) v hv

theorem Live.cbFiber_sole (h : s.Live) {f : Nat}
    (hf : (s.workers w).cbFiber = some f) (v : Nat) (hv : v ≠ w) :
    ¬ (s.workers v).Owns f :=
  h.sole (.inr hf) (fun hgone => hgone.2 w hf) v hv

/-- A careful step of a worker keeps the invariant. -/
theorem Live.run (h : s.Live) (hcan : s.canDo w b = true)
    (hok : s.Careful (.run w b)) (hmove : s.RunMove w b s') : s'.Live := by
  have hplace := h.places w
  have hidle := h.idle w
  unfold PlaceRight at hplace
  unfold IdleRight at hidle
  cases hmove with
  | take hpc hqueue hscan helig =>
      rw [hpc] at hplace hidle
      exact h.walk hok (.take hpc hqueue hscan helig) rfl
        ⟨fun f hf => not_executing helig hf, hplace⟩ hidle
  | nothing hpc hscan =>
      rw [hpc] at hplace hidle
      exact h.walk hok (.nothing hpc hscan) rfl hplace hidle
  | toDrop hpc htask hdead =>
      rw [hpc] at hplace hidle
      exact h.walk hok (.toDrop hpc htask hdead) rfl hplace.2 hidle
  | toSwap hpc htask halive =>
      rw [hpc] at hplace hidle
      refine h.walk hok (.toSwap hpc htask halive) rfl
        ⟨⟨hplace.1 _ ?_, halive⟩, hplace.2⟩ hidle
      rw [FiberAndThread.fiber?, htask]
  | toWrap hpc htask =>
      rw [hpc] at hplace hidle
      exact h.walk hok (.toWrap hpc htask) rfl hplace.2 hidle
  | reuse hpc hcb hstate =>
      rw [hpc] at hidle
      refine h.write hok (.reuse hpc hcb hstate) rfl (h.cbFiber_sole hcb)
        (fun hfin => by cases hfin) ⟨?_, hcb⟩ hidle
      rw [setFiber_heap_self]
      exact ⟨FiberState.noConfusion, rfl⟩
  | make hpc hcb =>
      rw [hpc] at hidle
      refine h.write hok (.make hpc hcb) rfl ?_ (fun hfin => by cases hfin)
        ⟨?_, rfl⟩ hidle
      · exact fun v _ hv => Nat.lt_irrefl _ (h.known _ (.inr ⟨v, hv⟩))
      · rw [setFiber_heap_self]
        exact ⟨FiberState.noConfusion, rfl⟩
  | @swapIn e f viaCb hpc hstate =>
      rw [hpc] at hplace hidle
      obtain ⟨⟨-, halive⟩, hholds⟩ := hplace
      refine h.write hok (.swapIn hpc hstate) rfl
        (h.alive_sole (by rw [hpc]; rfl) halive) (fun hfin => ?_) ⟨?_, ?_⟩
        hidle
      · rw [h.ended f hfin] at halive
        cases halive
      · rw [setFiber_heap_self]
      · cases viaCb with
        | true => exact .inl hholds
        | false =>
            by_cases hcb : (s.workers w).cbFiber = some f
            · refine .inr ⟨rfl, hcb, ?_⟩
              rw [setFiber_heap_self]
              rcases hholds f hcb with hnull | hdead
              · exact hnull.2
              · rw [halive] at hdead
                cases hdead
            · exact .inl (rest_setFiber hholds fun hg => absurd hg hcb)
  | @leave f viaCb x hpc hx =>
      rw [hpc] at hplace hidle
      obtain ⟨hexec, hholds⟩ := hplace
      obtain ⟨hinit, hend, hthrows⟩ := leave_facts hx hexec
      refine h.write hok (.leave hpc hx) rfl
        (h.alive_sole (by rw [hpc]; rfl) (exec_not_dead hexec)) hend ⟨?_, ?_⟩
        hidle
      · rw [setFiber_heap_self]
        exact hinit
      · rcases hholds with hholds | ⟨rfl, hcb, hnull⟩
        · cases viaCb with
          | true => exact hholds
          | false =>
              refine rest_setFiber hholds fun hcb => ?_
              rcases hholds f hcb with hnull | hdead
              · exact absurd (hexec.symm.trans hnull.1) FiberState.noConfusion
              · rw [exec_not_dead hexec] at hdead
                cases hdead
        · -- a `cb_fiber` that is taken from the queue has a null callback
          have hb : b = .throws := by
            simpa [canDo, hpc, hnull] using hcan
          intro g hg
          cases hcb.symm.trans hg
          rw [setFiber_heap_self]
          exact .inr (hthrows hb)
  | left hpc =>
      rw [hpc] at hplace hidle
      exact h.walk hok (.left hpc) rfl hplace hidle
  | decrement hpc =>
      rw [hpc] at hplace hidle
      exact h.walk hok (.decrement hpc) rfl hplace hidle
  | ready hpc hstate =>
      rw [hpc] at hplace hidle
      exact h.walk hok (.ready hpc hstate) rfl hplace.2 hidle
  | @ended f viaCb hpc hdead =>
      rw [hpc] at hplace hidle
      cases viaCb with
      | true => exact h.walk hok (.ended hpc hdead) rfl ⟨hdead, hplace.2⟩ hidle
      | false => exact h.walk hok (.ended hpc hdead) rfl hplace.2 hidle
  | held hpc hready halive =>
      rw [hpc] at hplace hidle
      exact h.walk hok (.held hpc hready halive) rfl
        ⟨hplace.1, halive, hplace.2⟩ hidle
  | @requeue f viaCb hpc =>
      rw [hpc] at hplace hidle
      refine h.walk hok (.requeue hpc) rfl ?_ hidle
      cases viaCb with
      | true => exact fun g hg => by cases hg
      | false => exact hplace
  | @renew f hpc hstate =>
      rw [hpc] at hplace hidle
      refine h.write hok (.renew hpc hstate) rfl (h.cbFiber_sole hplace.2)
        (fun hfin => by cases hfin) (fun g hg => ?_) hidle
      cases hplace.2.symm.trans hg
      rw [setFiber_heap_self]
      exact .inl ⟨rfl, rfl⟩
  | @park f viaCb hpc =>
      rw [hpc] at hplace hidle
      obtain ⟨hinit, halive, hholds⟩ := hplace
      refine h.write hok (.park hpc) rfl
        (h.alive_sole (by rw [hpc]; rfl) halive) (fun hfin => ?_) ?_ hidle
      · rw [h.ended f hfin] at halive
        cases halive
      · cases viaCb with
        | true => exact fun g hg => by cases hg
        | false =>
            refine rest_setFiber hholds fun hcb => ?_
            rcases hholds f hcb with hnull | hdead
            · exact absurd hnull.1 hinit
            · rw [halive] at hdead
              cases hdead
  | dropped hpc =>
      rw [hpc] at hplace hidle
      exact h.walk hok (.dropped hpc) rfl hplace hidle
  | idleOut hpc hterm =>
      rw [hpc] at hplace hidle
      exact h.walk hok (.idleOut hpc hterm) rfl hplace hidle
  | idleIn hpc hterm hexec =>
      rw [hpc] at hplace hidle
      exact h.walk hok (.idleIn hpc hterm hexec) rfl hplace
        ⟨rfl, (hidle.resolve_left hterm).2⟩
  | idleLeave hpc hx =>
      rw [hpc] at hplace hidle
      have hb : b ≠ .throws := by
        have hok' := hok
        simp only [Careful, hpc] at hok'
        exact hok'
      exact h.walk hok (.idleLeave hpc hx) rfl hplace
        (idle_leave hx hidle.1 hb)
  | idleBack hpc =>
      rw [hpc] at hplace hidle
      refine h.walk hok (.idleBack hpc) rfl hplace ?_
      rcases hidle with hterm | ⟨halive, hfin⟩
      · refine .inl ?_
        simp only [hterm, FiberState.dead, if_true]
      · refine .inr ?_
        simp only [halive, Bool.false_eq_true, if_false]
        exact ⟨⟨FiberState.noConfusion, rfl⟩, hfin⟩

/-- A new fiber is nobody's. -/
theorem Live.newFiber (h : s.Live) (cb : Nat) :
    ({ s with nextFiber := s.nextFiber + 1 }.setFiber s.nextFiber
      (Fiber.new (some cb))).Live := by
  have hsame : ∀ {f w}, (s.workers w).Owns f →
      (if f = s.nextFiber then Fiber.new (some cb) else s.heap f)
        = s.heap f := by
    intro f w hf
    refine if_neg ?_
    rintro rfl
    exact absurd (h.known _ (.inr ⟨w, hf⟩)) (Nat.lt_irrefl _)
  refine ⟨fun f v w hvw hv hw => ?_, fun f hfin => ?_, fun w => ?_, h.idle,
    fun f hf => Nat.lt_succ_of_lt (h.known f hf)⟩
  · have hgone := h.alone f v w hvw hv hw
    refine ⟨?_, hgone.2⟩
    simp only [setFiber, hsame hv]
    exact hgone.1
  · by_cases hf : f = s.nextFiber
    · subst hf
      rw [setFiber_heap_self] at hfin
      cases hfin
    · simp only [setFiber, hf, if_false] at hfin ⊢
      exact h.ended f hfin
  · exact placeRight_congr (h.places w) fun f hf => hsame hf

/-- Scheduling touches no fiber and no worker. -/
theorem Live.push (h : s.Live) {tasks : List (Option Task)}
    (hpush : s.Pushes s' tasks) (hall : tasks.all s.schedulable = true) :
    s'.Live := by
  have hk : s'.Known := hpush.known h.known hall
  obtain ⟨hworkers, hheap, -, -⟩ := hpush
  refine ⟨fun f v w hvw => ?_, ?_, ?_, ?_, hk⟩
  · unfold Gone
    rw [hworkers, hheap]
    exact h.alone f v w hvw
  · rw [hheap]
    exact h.ended
  · rw [hworkers, hheap]
    exact h.places
  · rw [hworkers]
    exact h.idle

-- ==================================================================== the runs

/-- A careful step keeps the invariant. -/
theorem step_live {a : SchedAct} (h : s.Live) (hok : s.Careful a)
    (hs : s.bodyStep a = some s') : s'.Live := by
  have hstep : s.step a = some s'
      ∧ ∀ w b, a = .run w b → s.canDo w b = true := by
    cases a with
    | run w b =>
        simp only [bodyStep] at hs
        split at hs
        next hcan =>
            refine ⟨hs, fun v c heq => ?_⟩
            cases heq
            exact hcan
        next => cases hs
    | _ => exact ⟨hs, fun _ _ heq => by cases heq⟩
  obtain ⟨hs, hcan⟩ := hstep
  rcases step_cases hs with ⟨cb, rfl, rfl⟩ | ⟨tasks, hpush, hall, -⟩ |
    ⟨w, b, rfl, -, hmove⟩
  · exact h.newFiber cb
  · exact h.push hpush hall
  · exact h.run (hcan w b rfl) hok hmove

/-- In a careful run every worker swaps in and resets fibers that can be,
and none passes the end of `MainFunc`. -/
theorem resumes_live {threads : Nat} {acts : List SchedAct}
    (hok : ∀ s a, Takes bodyStep (init threads) acts s a → s.Careful a)
    (h : Visits bodyStep (init threads) acts s) (w : Nat) :
    s.CallsRight w :=
  (visits_inv step_live (live_init threads) hok h).callsRight w

/-- Two callbacks, one after the other, in the same `cb_fiber`. -/
def twoCallbacks : List SchedAct :=
  [.schedule (some (.cb 7)) none, .schedule (some (.cb 8)) none,
    .run 0 .returns, .run 0 .returns, .run 0 .returns, .run 0 .returns,
    .run 0 .returns, .run 0 .returns, .run 0 .returns, .run 0 .returns,
    .run 0 .returns, .run 0 .returns, .run 0 .returns]

theorem resumes_live_two_callbacks :
    ∃ s, twoCallbacks.foldlM bodyStep (init 1) = some s
      ∧ (∃ e, (s.workers 0).pc = .wrap e 8) ∧ (s.workers 0).cbFiber = some 0
      ∧ s.CallsRight 0 := by
  have hok : ∀ s a, Takes bodyStep (init 1) twoCallbacks s a →
      s.Careful a := by
    refine forall_takes_cons trivial fun t ht => ?_
    cases ht
    refine forall_takes_cons trivial fun t ht => ?_
    cases ht
    refine forall_takes_cons ?_ fun t ht => ?_
    · intro e rest f hscan hfib
      cases hscan
      cases hfib
    iterate 8
      cases ht
      refine forall_takes_cons trivial fun t ht => ?_
    cases ht
    refine forall_takes_cons ?_ fun t ht => ?_
    · intro e rest f hscan hfib
      cases hscan
      cases hfib
    cases ht
    exact forall_takes_cons trivial fun _ _ => forall_takes_nil
  obtain ⟨s, hs⟩ := Option.isSome_iff_exists.mp
    (show (twoCallbacks.foldlM bodyStep (init 1)).isSome = true by decide)
  have hworker := congrArg (Option.map fun s => s.workers 0) hs
  exact ⟨s, hs,
    ⟨_, (congrArg Worker.pc (Option.some.inj hworker)).symm⟩,
    (congrArg Worker.cbFiber (Option.some.inj hworker)).symm,
    resumes_live hok (visits_last hs) 0⟩

/-- The body of `idle` throws, and the next round finds no work either. -/
def idleThrows : List SchedAct :=
  [.run 0 .returns, .run 0 .returns, .run 0 .throws, .run 0 .returns,
    .run 0 .returns]

theorem except_fiber_resumed :
    ¬ ∀ (threads : Nat) (acts : List SchedAct) (s : Scheduler),
      Visits bodyStep (init threads) acts s → ∀ w, s.CallsRight w := by
  intro hall
  obtain ⟨s, hs⟩ := Option.isSome_iff_exists.mp
    (show (idleThrows.foldlM bodyStep (init 1)).isSome = true by decide)
  have hworker := congrArg (Option.map fun s => s.workers 0) hs
  have hpc : (s.workers 0).pc = .idleTest :=
    (congrArg Worker.pc (Option.some.inj hworker)).symm
  have hstate : (s.workers 0).idleFiber.state = .except :=
    (congrArg (fun k => k.idleFiber.state) (Option.some.inj hworker)).symm
  have hright := hall 1 idleThrows s (visits_last hs) 0
  simp only [CallsRight, hpc, hstate, Fiber.Resumable] at hright
  exact absurd hright (by decide)

end Scheduler

end TinyServer
