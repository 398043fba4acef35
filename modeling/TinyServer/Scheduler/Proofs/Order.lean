/-
The order in which the workers serve the queue.

# No overtaking

The scan of `run` passes over an entry only when it is pinned to another
thread or its fiber is executing. So a callback is not passed over by an
entry that came later, unless the callback is pinned to one thread and
the later entry is not (`KeepsPlace`). The invariant `InOrder` is about
the entries in the order of service: those removed, then the queue.

# No starvation

A callback for any thread is taken by whichever worker comes by. Each
visit to the queue takes it or one of the entries that were ahead of it,
so it is taken at the latest by one visit more than there were of those
(`taken_in_time`).
-/
import TinyServer.Scheduler.Proofs.Steps

namespace TinyServer

open Lib

-- ============================================================== the vocabulary

/-- No entry that came later is taken before `d`, when it is `e`. -/
def FiberAndThread.KeepsPlace (d e : FiberAndThread) : Prop :=
  (∃ c, d.task = .cb c) ∧ (d.threadId = none ∨ d.threadId = e.threadId)

namespace Scheduler

/-- The entries come in the order of their numbers, except where one was
passed over. -/
structure InOrder (s : Scheduler) : Prop where
  fresh : ∀ e ∈ s.removed ++ s.fibers, e.id < s.pushed
  queue : s.fibers.Pairwise fun d e => d.id < e.id
  served : (s.removed ++ s.fibers).Pairwise fun d e =>
    e.KeepsPlace d → d.id < e.id

/-- The entries executed, and the one held by the only worker. -/
def ServedBy (s : Scheduler) (w : Nat) : Prop :=
  (s.executed ++ (s.workers w).pc.held.toList).Sublist s.removed

/-- The step is a worker's section under the mutex. -/
def visits (s : Scheduler) : SchedAct → Nat
  | .run w _ => if (s.workers w).pc = .top then 1 else 0
  | _ => 0

/-- The visits of the workers to the queue in a run. -/
def visitsIn (s : Scheduler) : List SchedAct → Nat
  | [] => 0
  | a :: acts => s.visits a + (s.step a).elim 0 fun t => t.visitsIn acts

variable {s s' t : Scheduler} {w : Nat} {b : Behaviour} {d e : FiberAndThread}

-- =============================================================== no overtaking

/-- What is passed over for `e` does not keep its place before `e`. -/
theorem not_keepsPlace {heap : Nat → Fiber} (hd : eligible heap w d = false)
    (he : eligible heap w e = true) : ¬ d.KeepsPlace e := by
  rintro ⟨⟨c, hc⟩, hthread⟩
  simp only [eligible, executing, hc, Bool.or_false, Bool.not_eq_false',
    pinnedElsewhere, Bool.and_eq_true, decide_eq_true_eq] at hd
  simp only [eligible, Bool.not_eq_true', Bool.or_eq_false_iff,
    pinnedElsewhere, Bool.and_eq_false_iff, decide_eq_false_iff_not,
    Decidable.not_not] at he
  rcases hthread with hnone | hsame
  · exact hd.1 hnone
  · rw [hsame] at hd
    exact he.1.elim hd.1 hd.2

theorem inOrder_init (threads : Nat) : (init threads).InOrder :=
  ⟨fun _ he => (List.not_mem_nil he).elim, List.Pairwise.nil,
    List.Pairwise.nil⟩

/-- The invariant is one of the queue and the log. -/
theorem InOrder.congr (h : s.InOrder) (hf : s'.fibers = s.fibers)
    (hr : s'.removed = s.removed) (hp : s'.pushed = s.pushed) :
    s'.InOrder := by
  obtain ⟨hfresh, hqueue, hserved⟩ := h
  refine ⟨?_, hf ▸ hqueue, ?_⟩
  · rw [hr, hf, hp]
    exact hfresh
  · rw [hr, hf]
    exact hserved

/-- A new entry has the highest number. -/
theorem InOrder.push (h : s.InOrder) {task : Task} {threadId : Option Nat}
    (hf : s'.fibers = s.fibers ++ [⟨s.pushed, task, threadId⟩])
    (hr : s'.removed = s.removed) (hp : s'.pushed = s.pushed + 1) :
    s'.InOrder := by
  refine ⟨?_, ?_, ?_⟩
  · intro e he
    rw [hr, hf, ← List.append_assoc] at he
    rw [hp]
    rcases List.mem_append.mp he with he | he
    · exact Nat.lt_succ_of_lt (h.fresh e he)
    · cases List.mem_singleton.mp he
      exact Nat.lt_succ_self _
  · rw [hf]
    refine List.pairwise_append.mpr ⟨h.queue, List.pairwise_singleton _ _, ?_⟩
    intro d hd e he
    cases List.mem_singleton.mp he
    exact h.fresh d (List.mem_append_right _ hd)
  · rw [hr, hf, ← List.append_assoc]
    refine List.pairwise_append.mpr ⟨h.served, List.pairwise_singleton _ _, ?_⟩
    intro d hd e he _
    cases List.mem_singleton.mp he
    exact h.fresh d hd

theorem InOrder.scheduleNoLock (h : s.InOrder) (task : Option Task)
    (threadId : Option Nat) : (s.scheduleNoLock task threadId).InOrder := by
  cases task with
  | none => exact h
  | some t => exact h.push rfl rfl rfl

theorem InOrder.scheduleAll (tasks : List (Option Task)) :
    ∀ {s : Scheduler}, s.InOrder →
      (tasks.foldl (fun s t => s.scheduleNoLock t none) s).InOrder := by
  induction tasks with
  | nil => exact fun h => h
  | cons t tasks ih => exact fun h => ih (h.scheduleNoLock t none)

/-- An entry is taken from behind those that are passed over. -/
theorem InOrder.take (h : s.InOrder) {pre post : List FiberAndThread}
    (hq : s.fibers = pre ++ e :: post)
    (hpre : ∀ x ∈ pre, eligible s.heap w x = false)
    (he : eligible s.heap w e = true) (hf : s'.fibers = pre ++ post)
    (hr : s'.removed = s.removed ++ [e]) (hp : s'.pushed = s.pushed) :
    s'.InOrder := by
  obtain ⟨hfresh, hqueue, hserved⟩ := h
  rw [hq] at hqueue hserved hfresh
  have hsub : (pre ++ post).Sublist (pre ++ e :: post) :=
    (List.sublist_cons_self e post).append_left pre
  refine ⟨?_, hf ▸ hqueue.sublist hsub, ?_⟩
  · intro x hx
    rw [hr, hf] at hx
    rw [hp]
    refine hfresh x ?_
    simp only [List.mem_append, List.mem_cons, List.not_mem_nil,
      or_false] at hx ⊢
    tauto
  · rw [hr, hf]
    obtain ⟨hrem, hfib, hcross⟩ := List.pairwise_append.mp hserved
    refine List.pairwise_append.mpr ⟨?_, hfib.sublist hsub, ?_⟩
    · refine List.pairwise_append.mpr ⟨hrem, List.pairwise_singleton _ _, ?_⟩
      intro x hx y hy
      cases List.mem_singleton.mp hy
      exact hcross x hx e (List.mem_append_right _ List.mem_cons_self)
    · intro x hx y hy
      rcases List.mem_append.mp hx with hx | hx
      · exact hcross x hx y (hsub.subset hy)
      · cases List.mem_singleton.mp hx
        rcases List.mem_append.mp hy with hy | hy
        · -- `y` was passed over
          exact fun hkeep => absurd hkeep (not_keepsPlace (hpre y hy) he)
        · obtain ⟨-, hpost, -⟩ := List.pairwise_append.mp hqueue
          exact fun _ => (List.pairwise_cons.mp hpost).1 y hy

theorem InOrder.runStep (h : s.InOrder) (hrun : s.runStep w b = some s') :
    s'.InOrder := by
  obtain ⟨hbooks, -, -⟩ := runStep_moves hrun
  generalize hk : s'.books = k at hbooks
  cases hbooks with
  | take hpc hpc' hq hpre he =>
      simp only [books, Books.mk.injEq] at hk
      obtain ⟨hf, hp, hr, -, -, -⟩ := hk
      exact h.take hq hpre he hf hr hp
  | requeue hcnt hcnt' hh hh' =>
      simp only [books, Books.mk.injEq] at hk
      obtain ⟨hf, hp, hr, -, -, -⟩ := hk
      exact h.push hf hr hp
  | _ =>
      simp only [books, Books.mk.injEq] at hk
      obtain ⟨hf, hp, hr, -, -, -⟩ := hk
      exact h.congr hf hr hp

theorem InOrder.step {a : SchedAct} (h : s.InOrder)
    (hs : s.step a = some s') : s'.InOrder := by
  cases a with
  | newFiber cb =>
      cases hs
      exact h.congr rfl rfl rfl
  | schedule task threadId =>
      obtain ⟨-, hs⟩ := Option.ite_none_right_eq_some.mp hs
      cases hs
      exact h.scheduleNoLock task threadId
  | scheduleAll tasks =>
      obtain ⟨-, hs⟩ := Option.ite_none_right_eq_some.mp hs
      cases hs
      exact InOrder.scheduleAll tasks h
  | run w b =>
      obtain ⟨-, hrun⟩ := Option.ite_none_right_eq_some.mp hs
      exact h.runStep hrun

/-- Of two entries of an ordered log, the one that keeps its place and
came first is first. -/
theorem sublist_of_ordered {log : List FiberAndThread}
    (h : log.Pairwise fun d e => e.KeepsPlace d → d.id < e.id)
    (hkeep : d.KeepsPlace e) (hlt : d.id < e.id) (hd : d ∈ log)
    (he : e ∈ log) : [d, e].Sublist log := by
  induction log with
  | nil => cases hd
  | cons x log ih =>
      obtain ⟨hx, htail⟩ := List.pairwise_cons.mp h
      rcases List.mem_cons.mp hd with rfl | hdlog
      · rcases List.mem_cons.mp he with rfl | helog
        · exact absurd hlt (Nat.lt_irrefl _)
        · exact (List.singleton_sublist.mpr helog).cons_cons _
      · rcases List.mem_cons.mp he with rfl | helog
        · exact absurd (hx d hdlog hkeep) (Nat.not_lt_of_lt hlt)
        · exact (ih htail hdlog helog).cons _

-- ================================================================== one worker

/-- A step of the worker keeps what it executed in the order of service. -/
theorem ServedBy.runStep (h : s.ServedBy w) (hrun : s.runStep w b = some s') :
    s'.ServedBy w := by
  obtain ⟨hbooks, -, -⟩ := runStep_moves hrun
  unfold ServedBy at h ⊢
  generalize hk : s'.books = k at hbooks
  cases hbooks with
  | quiet hcnt hh =>
      simp only [books, Books.mk.injEq] at hk
      obtain ⟨-, -, hr, hx, -, -⟩ := hk
      rw [hx, hr, hh]
      exact h
  | take hpc hpc' hq hpre he =>
      simp only [books, Books.mk.injEq] at hk
      obtain ⟨-, -, hr, hx, -, -⟩ := hk
      rw [hpc] at h
      rw [hx, hr, hpc']
      simp only [WorkerPc.held, Option.toList_none, List.append_nil] at h
      exact h.append (List.Sublist.refl _)
  | execute hpc hpc' =>
      simp only [books, Books.mk.injEq] at hk
      obtain ⟨-, -, hr, hx, -, -⟩ := hk
      rw [hpc] at h
      rw [hx, hr, hpc']
      simpa only [WorkerPc.held, Option.toList_none, Option.toList_some,
        List.append_nil] using h
  | drop hpc hpc' htask hdead =>
      simp only [books, Books.mk.injEq] at hk
      obtain ⟨-, -, hr, hx, -, -⟩ := hk
      rw [hx, hr, hpc']
      simp only [WorkerPc.held, Option.toList_none, List.append_nil]
      exact (List.sublist_append_left _ _).trans h
  | decrement hcnt hcnt' hh hh' =>
      simp only [books, Books.mk.injEq] at hk
      obtain ⟨-, -, hr, hx, -, -⟩ := hk
      rw [hx, hr, hh']
      rwa [hh] at h
  | requeue hcnt hcnt' hh hh' =>
      simp only [books, Books.mk.injEq] at hk
      obtain ⟨-, -, hr, hx, -, -⟩ := hk
      rw [hx, hr, hh']
      rwa [hh] at h

/-- The only worker executes in the order of service; only fibers are
dropped. -/
structure Alone (s : Scheduler) : Prop where
  threads : s.threads = 1
  served : s.ServedBy 0
  dropped : ∀ e ∈ s.dropped, ∃ f, e.task = .fiber f

theorem alone_init : (init 1).Alone :=
  ⟨rfl, List.Sublist.slnil, fun _ he => (List.not_mem_nil he).elim⟩

/-- What callers of `schedule` do changes neither log. -/
theorem Alone.congr (h : s.Alone) (hthreads : s'.threads = s.threads)
    (hworkers : s'.workers = s.workers) (hx : s'.executed = s.executed)
    (hr : s'.removed = s.removed) (hd : s'.dropped = s.dropped) :
    s'.Alone := by
  refine ⟨hthreads.trans h.threads, ?_, hd ▸ h.dropped⟩
  unfold ServedBy
  rw [hx, hr, hworkers]
  exact h.served

theorem Alone.scheduleNoLock (h : s.Alone) (task : Option Task)
    (threadId : Option Nat) : (s.scheduleNoLock task threadId).Alone := by
  cases task with
  | none => exact h
  | some t => exact h.congr rfl rfl rfl rfl rfl

theorem Alone.scheduleAll (tasks : List (Option Task)) :
    ∀ {s : Scheduler}, s.Alone →
      (tasks.foldl (fun s t => s.scheduleNoLock t none) s).Alone := by
  induction tasks with
  | nil => exact fun h => h
  | cons t tasks ih => exact fun h => ih (h.scheduleNoLock t none)

theorem Alone.step {a : SchedAct} (h : s.Alone)
    (hs : s.step a = some s') : s'.Alone := by
  cases a with
  | newFiber cb =>
      cases hs
      exact h.congr rfl rfl rfl rfl rfl
  | schedule task threadId =>
      obtain ⟨-, hs⟩ := Option.ite_none_right_eq_some.mp hs
      cases hs
      exact h.scheduleNoLock task threadId
  | scheduleAll tasks =>
      obtain ⟨-, hs⟩ := Option.ite_none_right_eq_some.mp hs
      cases hs
      exact Alone.scheduleAll tasks h
  | run w b =>
      obtain ⟨-, hdrops⟩ := step_effects hs
      obtain ⟨hw, hrun⟩ := Option.ite_none_right_eq_some.mp hs
      obtain ⟨-, ⟨hthreads, -⟩, -⟩ := runStep_moves hrun
      have hzero : w = 0 := by
        rw [h.threads] at hw
        exact Nat.lt_one_iff.mp hw
      subst hzero
      refine ⟨hthreads.trans h.threads, h.served.runStep hrun, ?_⟩
      rcases hdrops with hsame | ⟨_, _, e, f, _, _, htask, _, hdrop⟩
      · exact hsame ▸ h.dropped
      · rw [hdrop]
        intro x hx
        rcases List.mem_append.mp hx with hx | hx
        · exact h.dropped x hx
        · cases List.mem_singleton.mp hx
          exact ⟨f, htask⟩

/-- A callback that the only worker has taken is executed, or is the one
it holds. -/
theorem Alone.executed_or_held (h : s.Alone) (hc : s.Conserves) {c : Nat}
    (hd : d ∈ s.removed) (htask : d.task = .cb c) :
    d ∈ s.executed ∨ (s.workers 0).pc.held = some d := by
  have hcount := hc.ledger d
  have hpos : 0 < s.removed.count d := List.count_pos_iff.mpr hd
  have hdrop : s.dropped.count d = 0 := by
    refine List.count_eq_zero.mpr fun hmem => ?_
    obtain ⟨f, hf⟩ := h.dropped d hmem
    rw [htask] at hf
    cases hf
  by_cases hx : d ∈ s.executed
  · exact .inl hx
  · have hzero : s.executed.count d = 0 := List.count_eq_zero.mpr hx
    have hheld : 0 < s.holders d := by omega
    unfold holders at hheld
    rw [h.threads] at hheld
    obtain ⟨v, hv, hsome⟩ := List.countP_pos_iff.mp hheld
    have hv0 : v = 0 := Nat.lt_one_iff.mp (List.mem_range.mp hv)
    subst hv0
    exact .inr (of_decide_eq_true hsome)

-- ===================================================================== service

/-- A callback is taken from the queue before every entry that came later,
unless it is pinned to one thread and the later entry is not pinned to the
same. When there is one worker, that entry is not executed either until
the callback is. -/
theorem callbacks_in_order {threads : Nat} {acts : List SchedAct}
    (hrun : acts.foldlM step (init threads) = some s) :
    (∀ d e, d ∈ s.removed ++ s.fibers → e ∈ s.removed → d.id < e.id →
        d.KeepsPlace e → [d, e].Sublist s.removed)
      ∧ (threads = 1 → ∀ d e, d ∈ s.removed ++ s.fibers → e ∈ s.executed →
        d.id < e.id → d.KeepsPlace e → [d, e].Sublist s.executed) := by
  have ho : s.InOrder :=
    run_inv InOrder.step acts (inOrder_init threads) hrun
  have hc : s.Conserves :=
    run_inv Conserves.step acts (conserves_init threads) hrun
  have htaken : ∀ d e, d ∈ s.removed ++ s.fibers → e ∈ s.removed →
      d.id < e.id → d.KeepsPlace e → d ∈ s.removed := by
    intro d e hd he hlt hkeep
    rcases List.mem_append.mp hd with hd | hd
    · exact hd
    · -- still queued, `d` would be behind `e`
      obtain ⟨-, -, hcross⟩ := List.pairwise_append.mp ho.served
      exact absurd (hcross e he d hd hkeep) (Nat.not_lt_of_lt hlt)
  have hlog := (List.pairwise_append.mp ho.served).1
  refine ⟨fun d e hd he hlt hkeep => ?_, ?_⟩
  · exact sublist_of_ordered hlog hkeep hlt (htaken d e hd he hlt hkeep) he
  · rintro rfl d e hd he hlt hkeep
    have ha : s.Alone ∧ s.Conserves :=
      run_inv (P := fun s => s.Alone ∧ s.Conserves)
        (fun h hs => ⟨h.1.step hs, h.2.step hs⟩) acts
        ⟨alone_init, conserves_init 1⟩ hrun
    have hserved := hlog.sublist ha.1.served
    have hrem : e ∈ s.removed :=
      ha.1.served.subset (List.mem_append_left _ he)
    obtain ⟨⟨c, hcb⟩, -⟩ := id hkeep
    rcases ha.1.executed_or_held hc (htaken d e hd hrem hlt hkeep) hcb
      with hx | hheld
    · exact sublist_of_ordered (List.pairwise_append.mp hserved).1 hkeep hlt
        hx he
    · obtain ⟨-, -, hcross⟩ := List.pairwise_append.mp hserved
      rw [hheld] at hcross
      have hbad := hcross e he d (List.mem_singleton_self d) hkeep
      exact absurd hbad (Nat.not_lt_of_lt hlt)

/-- Three callbacks for one worker. -/
def threeCallbacks : List SchedAct :=
  [.schedule (some (.cb 7)) none, .schedule (some (.cb 8)) none,
    .schedule (some (.cb 9)) none]

/-- The entry of a callback for any thread. -/
def callbackEntry (id c : Nat) : FiberAndThread := ⟨id, .cb c, none⟩

theorem callbacks_in_order_alone :
    ∃ s, (threeCallbacks ++ List.replicate 13 (SchedAct.run 0 .returns)).foldlM
      step
        (init 1) = some s
      ∧ [callbackEntry 0 7, callbackEntry 1 8].Sublist s.executed := by
  have hobs :
      ((threeCallbacks ++ List.replicate 13 (SchedAct.run 0 .returns)).foldlM
      step (init 1)).map (fun s => (s.removed, s.executed))
        = some ([callbackEntry 0 7, callbackEntry 1 8],
          [callbackEntry 0 7, callbackEntry 1 8]) := by
    decide +kernel
  obtain ⟨s, hs, hv⟩ := Option.map_eq_some_iff.mp hobs
  obtain ⟨hrem, hexec⟩ := Prod.mk.injEq .. ▸ hv
  refine ⟨s, hs, (callbacks_in_order hs).2 rfl _ _ ?_ ?_ ?_ ?_⟩
  · rw [hrem]
    exact List.mem_append_left _ (by decide)
  · rw [hexec]
    decide
  · decide
  · exact ⟨⟨7, rfl⟩, .inl rfl⟩

-- =============================================================== no starvation

/-- The scan takes an eligible entry, or one ahead of it. -/
theorem scan_ahead {heap : Nat → Fiber} (hd : eligible heap w d = true)
    (pre post : List FiberAndThread) :
    ∃ e rest, scan heap w (pre ++ d :: post) = some (e, rest)
      ∧ (e = d ∨ ∃ pre', rest = pre' ++ d :: post
        ∧ pre'.length + 1 = pre.length) := by
  induction pre with
  | nil =>
      refine ⟨d, post, ?_, .inl rfl⟩
      unfold eligible at hd
      rw [Bool.not_eq_true'] at hd
      rw [List.nil_append, scan, hd, if_neg Bool.false_ne_true]
  | cons x pre ih =>
      obtain ⟨e, rest, hscan, htaken⟩ := ih
      rw [List.cons_append, scan]
      split
      next hskip =>
          rw [hscan]
          refine ⟨e, x :: rest, rfl, htaken.imp_right ?_⟩
          rintro ⟨pre', rfl, hlen⟩
          exact ⟨x :: pre', rfl, by
            rw [List.length_cons, List.length_cons, hlen]⟩
      next =>
          exact ⟨x, pre ++ d :: post, rfl, .inr ⟨pre, rfl, rfl⟩⟩

/-- Taken, or in the queue behind at most `k` entries. -/
def Within (s : Scheduler) (d : FiberAndThread) (k : Nat) : Prop :=
  d ∈ s.removed ∨ ∃ pre post, s.fibers = pre ++ d :: post ∧ pre.length ≤ k

/-- Adding entries at the end moves nothing. -/
theorem Within.behind {k : Nat} (h : s.Within d k) {new : List FiberAndThread}
    (hf : s'.fibers = s.fibers ++ new) (hr : s'.removed = s.removed) :
    s'.Within d k := by
  rcases h with h | ⟨pre, post, hq, hlen⟩
  · exact .inl (hr ▸ h)
  · refine .inr ⟨pre, post ++ new, ?_, hlen⟩
    rw [hf, hq, List.append_assoc, List.cons_append]

/-- A visit takes the callback, or brings it forward by one. -/
theorem Within.visit {k : Nat} (h : s.Within d k)
    (hfree : (∃ c, d.task = .cb c) ∧ d.threadId = none)
    (hpc : (s.workers w).pc = .top) (hrun : s.runStep w b = some s') :
    d ∈ s'.removed ∨ 0 < k ∧ s'.Within d (k - 1) := by
  have helig : eligible s.heap w d = true := by
    obtain ⟨⟨c, hc⟩, hthread⟩ := hfree
    simp [eligible, pinnedElsewhere, executing, hc, hthread]
  rw [runStep, hpc] at hrun
  cases hrun
  unfold dequeue
  rcases h with h | ⟨pre, post, hq, hlen⟩
  · refine .inl ?_
    split
    next => exact List.mem_append_left _ h
    next => exact h
  · obtain ⟨e, rest, hscan, htaken⟩ := scan_ahead helig pre post
    rw [hq, hscan]
    rcases htaken with rfl | ⟨pre', hrest, hlen'⟩
    · exact .inl (List.mem_append_right _ (List.mem_singleton_self _))
    · refine .inr ⟨by omega, .inr ⟨pre', post, hrest, ?_⟩⟩
      omega

/-- One step: each visit counts. -/
theorem Within.step {k : Nat} {a : SchedAct} (h : s.Within d k)
    (hfree : (∃ c, d.task = .cb c) ∧ d.threadId = none)
    (hs : s.step a = some s') :
    d ∈ s'.removed ∨ s.visits a ≤ k ∧ s'.Within d (k - s.visits a) := by
  obtain ⟨hremoves, -⟩ := step_effects hs
  by_cases hvisit : ∃ w b, a = .run w b ∧ (s.workers w).pc = .top
  · obtain ⟨w, b, rfl, hpc⟩ := hvisit
    obtain ⟨-, hrun⟩ := Option.ite_none_right_eq_some.mp hs
    rw [show s.visits (.run w b) = 1 from if_pos hpc]
    exact h.visit hfree hpc hrun
  · have hzero : s.visits a = 0 := by
      cases a with
      | run w b => exact if_neg fun hpc => hvisit ⟨w, b, rfl, hpc⟩
      | _ => rfl
    rw [hzero]
    refine .inr ⟨Nat.zero_le k, ?_⟩
    rcases hremoves with ⟨w, b, pre, e, post, ha, hq, hpre, he, hf, hr⟩
      | ⟨new, hf, hr⟩
    · -- only a visit removes an entry
      subst ha
      obtain ⟨-, hrun⟩ := Option.ite_none_right_eq_some.mp hs
      obtain ⟨hbooks, -, -⟩ := runStep_moves hrun
      generalize hk : s'.books = k at hbooks
      have hne : s'.removed ≠ s.removed := by
        rw [hr]
        exact fun heq => by simpa using congrArg List.length heq
      cases hbooks with
      | take hpc => exact absurd ⟨w, b, rfl, hpc⟩ hvisit
      | _ =>
          simp only [books, Books.mk.injEq] at hk
          exact absurd hk.2.2.1 hne
    · exact h.behind hf hr

/-- Removed entries stay removed. -/
theorem removed_mono {acts : List SchedAct}
    (hrun : acts.foldlM step s = some t) (hd : d ∈ s.removed) :
    d ∈ t.removed := by
  refine run_inv (P := fun s => d ∈ s.removed) ?_ acts hd hrun
  intro s a s' hd hs
  obtain ⟨hremoves, -⟩ := step_effects hs
  rcases hremoves with ⟨_, _, _, _, _, _, _, _, _, _, hr⟩ | ⟨_, _, hr⟩
  · exact hr ▸ List.mem_append_left _ hd
  · exact hr ▸ hd

/-- The visits that a run has had, as long as the callback is queued. -/
theorem within_run (acts : List SchedAct) :
    ∀ {s t : Scheduler} {k : Nat}, s.Within d k →
      (∃ c, d.task = .cb c) ∧ d.threadId = none →
      acts.foldlM step s = some t → d ∉ t.removed → s.visitsIn acts ≤ k := by
  induction acts with
  | nil => exact fun _ _ _ _ => Nat.zero_le _
  | cons a acts ih =>
      intro s t k h hfree hrun hnot
      obtain ⟨u, hu, hrest⟩ := run_cons.mp hrun
      rcases h.step hfree hu with hd | ⟨hle, hnext⟩
      · exact absurd (removed_mono hrest hd) hnot
      · have hmore := ih hnext hfree hrest hnot
        rw [visitsIn, hu, Option.elim_some]
        omega

/-- In a run from any state, a callback for any thread is taken at the
latest by the visit of a worker to the queue that follows as many visits
as there were entries ahead of it, whatever else is scheduled
meanwhile. -/
theorem taken_in_time {acts : List SchedAct}
    {pre post : List FiberAndThread}
    (hq : s.fibers = pre ++ d :: post) (hcb : ∃ c, d.task = .cb c)
    (hfree : d.threadId = none) (hrun : acts.foldlM step s = some t)
    (hlate : pre.length < s.visitsIn acts) : d ∈ t.removed := by
  by_contra hnot
  have hle := within_run acts (.inr ⟨pre, post, hq, Nat.le_refl _⟩)
    ⟨hcb, hfree⟩ hrun hnot
  omega

theorem taken_in_time_third :
    ∃ s t, threeCallbacks.foldlM step (init 1) = some s
      ∧ (List.replicate 19 (SchedAct.run 0 .returns)).foldlM step s = some t
      ∧ callbackEntry 2 9 ∈ t.removed := by
  have hobs : (threeCallbacks.foldlM step (init 1)).map (fun s => (s.fibers,
      s.visitsIn (List.replicate 19 (SchedAct.run 0 .returns)),
      ((List.replicate 19 (SchedAct.run 0 .returns)).foldlM step s).isSome))
        = some ([callbackEntry 0 7, callbackEntry 1 8] ++ [callbackEntry 2 9],
          3, true) := by
    decide +kernel
  obtain ⟨s, hs, hv⟩ := Option.map_eq_some_iff.mp hobs
  simp only [Prod.mk.injEq] at hv
  obtain ⟨hq, hvisits, hsome⟩ := hv
  obtain ⟨t, ht⟩ := Option.isSome_iff_exists.mp hsome
  refine ⟨s, t, hs, ht, taken_in_time hq ⟨9, rfl⟩ rfl ht ?_⟩
  rw [hvisits]
  decide

end Scheduler

end TinyServer
