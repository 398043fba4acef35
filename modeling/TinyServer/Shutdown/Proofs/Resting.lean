/-
The parts of an `IOManager` when nothing is left to do.

A scheduler rests when its queue is empty and no worker has a task in
hand: none that it counts in `m_activateThreadCount`, and none that it
has stopped counting but is about to queue again (`hasReady`). Steps of
the workers keep it at rest (`Resting.runStep`). An event table with
pending count 0 has nothing to deliver, and an empty set of timers has
nothing to collect.

`Over` is that a worker has left `run` or is to leave it as soon as it
finds the queue empty: its idle fiber has ended.
-/
import Mathlib.Algebra.Order.BigOperators.Group.List
import Mathlib.Algebra.Order.Ring.Int
import TinyServer.Shutdown.Basic
import TinyServer.Scheduler.Proofs.Conserve
import TinyServer.Timer.Proofs.Inv
import TinyServer.IOManager.Proofs.Mirror

namespace TinyServer

-- =============================================================== the scheduler

/-- The worker has decremented `m_activateThreadCount` and has a `READY`
fiber that it has not yet put back into the queue. -/
def WorkerPc.hasReady (heap : Nat → Fiber) : WorkerPc → Bool
  | .settled f _ => (heap f).state = .ready
  | .requeue _ _ => true
  | _ => false

/-- The worker has left `run`, or its idle fiber has ended. -/
def Worker.Over (k : Worker) : Prop :=
  k.pc = .exited ∨ k.idleFiber.state = .term

namespace Scheduler

variable {s s' t : Scheduler} {w v : Nat} {b : Behaviour}

/-- Nothing is queued and no worker has a task in hand. -/
structure Resting (s : Scheduler) : Prop where
  queue : s.fibers = []
  counted : ∀ v < s.threads, (s.workers v).pc.counted = false
  ready : ∀ v < s.threads, (s.workers v).pc.hasReady s.heap = false

theorem setWorker_ne {k : Worker} (hv : v ≠ w) :
    (t.setWorker w k).workers v = t.workers v := by
  simp only [setWorker, hv, if_false]

/-- A step that makes no fiber `READY` and leaves the worker without a
task. -/
private theorem Resting.turn (h : s.Resting) {k : Worker}
    (hq : t.fibers = s.fibers) (hthreads : t.threads = s.threads)
    (hw : t.workers = s.workers)
    (hheap : ∀ f, (t.heap f).state = .ready → (s.heap f).state = .ready)
    (hcounted : k.pc.counted = false)
    (hready : k.pc.hasReady t.heap = false) :
    (t.setWorker w k).Resting := by
  refine ⟨hq.trans h.queue, fun v hv => ?_, fun v hv => ?_⟩
  · by_cases hvw : v = w
    · rw [hvw, setWorker_pc]
      exact hcounted
    · rw [setWorker_ne hvw, hw]
      exact h.counted v (hthreads ▸ hv)
  · by_cases hvw : v = w
    · rw [hvw, setWorker_pc]
      exact hready
    · have hv := h.ready v (hthreads ▸ hv)
      rw [setWorker_ne hvw, hw]
      cases hpc : (s.workers v).pc with
      | settled f viaCb =>
          rw [hpc] at hv
          have hf := of_decide_eq_false hv
          exact decide_eq_false fun ht => hf (hheap f ht)
      | requeue f viaCb =>
          rw [hpc] at hv
          cases hv
      | _ => rfl

/-- Writing a state other than `READY` makes no fiber `READY`. -/
private theorem setFiber_ready {f g : Nat} {x : Fiber}
    (hx : x.state ≠ .ready) (h : ((s.setFiber f x).heap g).state = .ready) :
    (s.heap g).state = .ready := by
  simp only [setFiber] at h
  split at h
  · exact absurd h hx
  · exact h

/-- A worker's step leaves the scheduler at rest. -/
theorem Resting.runStep (h : s.Resting) (hw : w < s.threads)
    (hs : s.runStep w b = some s') : s'.Resting := by
  have hcounted := h.counted w hw
  have hready := h.ready w hw
  unfold Scheduler.runStep at hs
  cases hpc : (s.workers w).pc with
  | top =>
      simp only [hpc, dequeue, h.queue, scan, Option.some.injEq] at hs
      subst hs
      exact h.turn rfl rfl rfl (fun _ hf => hf) rfl rfl
  | settled f viaCb =>
      simp only [hpc] at hs
      rw [hpc] at hready
      have hstate : (s.heap f).state ≠ .ready := of_decide_eq_false hready
      rw [if_neg hstate] at hs
      split at hs
      · cases hs
        cases viaCb <;> exact h.turn rfl rfl rfl (fun _ hf => hf) rfl rfl
      · cases hs
        exact h.turn rfl rfl rfl (fun _ hf => hf) rfl rfl
  | renew f =>
      simp only [hpc] at hs
      obtain ⟨x, hx, hs⟩ := Option.bind_eq_some_iff.mp hs
      cases hs
      have hstate : x.state ≠ .ready := by
        unfold Fiber.reset at hx
        split at hx
        · cases hx
          decide
        · cases hx
      exact h.turn rfl rfl rfl (fun _ => setFiber_ready hstate) rfl rfl
  | park f viaCb =>
      simp only [hpc, Option.some.injEq] at hs
      subst hs
      exact h.turn rfl rfl rfl (fun _ => setFiber_ready fun hx => by cases hx)
        rfl rfl
  | idleTest =>
      simp only [hpc] at hs
      split at hs
      · cases hs
        exact h.turn rfl rfl rfl (fun _ hf => hf) rfl rfl
      · obtain ⟨x, -, hs⟩ := Option.bind_eq_some_iff.mp hs
        cases hs
        exact h.turn rfl rfl rfl (fun _ hf => hf) rfl rfl
  | idleInside =>
      simp only [hpc] at hs
      obtain ⟨x, -, hs⟩ := Option.bind_eq_some_iff.mp hs
      cases hs
      exact h.turn rfl rfl rfl (fun _ hf => hf) rfl rfl
  | idleBack =>
      simp only [hpc, Option.some.injEq] at hs
      subst hs
      exact h.turn rfl rfl rfl (fun _ hf => hf) rfl rfl
  | requeue f viaCb =>
      rw [hpc] at hready
      cases hready
  | exited =>
      simp only [hpc] at hs
      cases hs
  | took e =>
      rw [hpc] at hcounted
      cases hcounted
  | wrap e c =>
      rw [hpc] at hcounted
      cases hcounted
  | swapping e f viaCb =>
      rw [hpc] at hcounted
      cases hcounted
  | inside f viaCb =>
      rw [hpc] at hcounted
      cases hcounted
  | leaving f viaCb =>
      rw [hpc] at hcounted
      cases hcounted
  | back f viaCb =>
      rw [hpc] at hcounted
      cases hcounted
  | drop =>
      rw [hpc] at hcounted
      cases hcounted

-- ------------------------------------------------------------- leaving `run`

private theorem over_turn {k : Worker}
    (h : ((t.setWorker w k).workers v).Over) (hw : t.workers = s.workers)
    (hpc : k.pc ≠ .exited)
    (hidle : k.idleFiber.state = .term
      → (s.workers w).idleFiber.state = .term) : (s.workers v).Over := by
  by_cases hvw : v = w
  · subst hvw
    rw [setWorker_pc] at h
    rcases h with h | h
    · exact absurd h hpc
    · exact .inr (hidle h)
  · rwa [setWorker_ne hvw, hw] at h

/-- Only the end of its idle fiber brings a worker to its end. -/
theorem runStep_over (hs : s.runStep w b = some s')
    (h : (s'.workers v).Over) :
    (s.workers v).Over
      ∨ (v = w ∧ (s.workers w).pc = .idleInside ∧ b ≠ .yieldHold) := by
  unfold Scheduler.runStep at hs
  cases hpc : (s.workers w).pc with
  | top =>
      simp only [hpc, dequeue, Option.some.injEq] at hs
      split at hs
      · subst hs
        exact .inl (over_turn h rfl (by simp) id)
      · subst hs
        exact .inl (over_turn h rfl (by simp) id)
  | took e =>
      simp only [hpc] at hs
      split at hs
      · split at hs
        · cases hs
          exact .inl (over_turn h rfl (by simp) id)
        · cases hs
          exact .inl (over_turn h rfl (by simp) id)
      · cases hs
        exact .inl (over_turn h rfl (by simp) id)
  | wrap e c =>
      simp only [hpc] at hs
      split at hs
      · obtain ⟨x, -, hs⟩ := Option.bind_eq_some_iff.mp hs
        cases hs
        exact .inl (over_turn h rfl (by simp) id)
      · cases hs
        exact .inl (over_turn h rfl (by simp) id)
  | swapping e f viaCb =>
      simp only [hpc] at hs
      obtain ⟨x, -, hs⟩ := Option.bind_eq_some_iff.mp hs
      cases hs
      exact .inl (over_turn h rfl (by simp) id)
  | inside f viaCb =>
      simp only [hpc] at hs
      obtain ⟨x, -, hs⟩ := Option.bind_eq_some_iff.mp hs
      cases hs
      exact .inl (over_turn h rfl (by simp) id)
  | leaving f viaCb =>
      simp only [hpc, Option.some.injEq] at hs
      subst hs
      exact .inl (over_turn h rfl (by simp) id)
  | back f viaCb =>
      simp only [hpc, Option.some.injEq] at hs
      subst hs
      exact .inl (over_turn h rfl (by simp) id)
  | settled f viaCb =>
      simp only [hpc] at hs
      split at hs
      · cases hs
        exact .inl (over_turn h rfl (by simp) id)
      · split at hs
        · cases hs
          cases viaCb <;> exact .inl (over_turn h rfl (by simp) id)
        · cases hs
          exact .inl (over_turn h rfl (by simp) id)
  | requeue f viaCb =>
      simp only [hpc, Option.some.injEq] at hs
      subst hs
      exact .inl (over_turn h rfl (by simp) id)
  | renew f =>
      simp only [hpc] at hs
      obtain ⟨x, -, hs⟩ := Option.bind_eq_some_iff.mp hs
      cases hs
      exact .inl (over_turn h rfl (by simp) id)
  | park f viaCb =>
      simp only [hpc, Option.some.injEq] at hs
      subst hs
      exact .inl (over_turn h rfl (by simp) id)
  | drop =>
      simp only [hpc, Option.some.injEq] at hs
      subst hs
      exact .inl (over_turn h rfl (by simp) id)
  | idleTest =>
      simp only [hpc] at hs
      split at hs
      next hterm =>
        cases hs
        by_cases hvw : v = w
        · exact .inl (.inr (hvw ▸ hterm))
        · have hv := setWorker_ne (t := s) (k := { s.workers w with
            pc := .exited }) hvw
          rw [show (s.setPc w .exited).workers v = s.workers v from hv] at h
          exact .inl h
      next =>
        obtain ⟨x, hx, hs⟩ := Option.bind_eq_some_iff.mp hs
        cases hs
        refine .inl (over_turn h rfl (by simp) fun hterm => ?_)
        have hexec : x.state = .exec := by
          unfold Fiber.swapIn at hx
          split at hx
          · cases hx
          · cases hx
            rfl
        exact absurd (hexec.symm.trans hterm) (by decide)
  | idleInside =>
      simp only [hpc] at hs
      obtain ⟨x, hx, hs⟩ := Option.bind_eq_some_iff.mp hs
      cases hs
      by_cases hb : b = .yieldHold
      · subst hb
        refine .inl (over_turn h rfl (by simp) fun hterm => ?_)
        have heq : x = (s.workers w).idleFiber := by
          unfold Fiber.leave at hx
          split at hx
          · cases hx
          · simp only at hx
            split at hx
            · cases hx
              rfl
            · cases hx
        rwa [heq] at hterm
      · by_cases hvw : v = w
        · exact .inr ⟨hvw, rfl, hb⟩
        · rw [setWorker_ne hvw] at h
          exact .inl h
  | idleBack =>
      simp only [hpc, Option.some.injEq] at hs
      subst hs
      refine .inl (over_turn h rfl (by simp) fun hterm => ?_)
      simp only at hterm
      split at hterm
      · exact hterm
      · cases hterm
  | exited =>
      simp only [hpc] at hs
      cases hs

end Scheduler

-- ============================================================= the event table

namespace EventSet

theorem card_nonneg (m : EventSet) : 0 ≤ m.card := by
  obtain ⟨r, w⟩ := m
  cases r <;> cases w <;> decide

theorem eq_none_of_card {m : EventSet} (h : m.card = 0) : m = .none := by
  obtain ⟨r, w⟩ := m
  cases r <;> cases w <;> first | rfl | cases h

end EventSet

namespace IOManager

variable {s : IOManager}

/-- With pending count 0 nothing is registered. -/
theorem Mirror.nothing_registered (hm : s.Mirror)
    (h : s.pendingEventCount = 0) {p : Nat} (hp : p ∈ s.fdEvents) :
    (s.objs p).et = .none := by
  have hsum : (s.fdEvents.map fun p => (s.objs p).et.card).sum = 0 :=
    hm.count.symm.trans h
  refine EventSet.eq_none_of_card ?_
  refine List.all_zero_of_le_zero_le_of_sum_eq_zero ?_ hsum
    (List.mem_map_of_mem hp)
  intro x hx
  obtain ⟨q, -, rfl⟩ := List.mem_map.mp hx
  exact EventSet.card_nonneg _

/-- With pending count 0 a delivery does nothing. -/
theorem Mirror.deliver_nothing (hm : s.Mirror)
    (h : s.pendingEventCount = 0) (fd : Nat) (mask : EpollMask)
    (ctlFails : Bool) : (IoOp.deliver fd mask ctlFails).apply s = .ok s := by
  simp only [IoOp.apply]
  split
  next => rfl
  next p hp =>
    have het := hm.nothing_registered h (List.mem_of_getElem? hp)
    simp only [dispatch, het]
    rw [if_pos]
    simp [EventSet.inter, EventSet.none]

end IOManager

-- ================================================================== the timers

namespace TimerManager

variable {m m' : TimerManager} {now tmp : Nat}

/-- Nothing is collected from an empty set. -/
theorem collect_nothing (h : m.timers = [])
    {cbs : List (Nat × Option Nat)}
    (hc : m.collect now tmp = .ok (cbs, m')) :
    cbs = [] ∧ m'.timers = [] := by
  rcases collect_cases m now tmp with ⟨-, -, he⟩ | ⟨-, n, ho, -⟩
  · rw [he] at hc
    cases hc
  · rw [ho, h, List.take_nil, List.drop_nil] at hc
    cases hc
    exact ⟨rfl, rfl⟩

end TimerManager

end TinyServer
