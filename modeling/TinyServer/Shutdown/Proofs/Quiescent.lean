/-
Shutdown leaves no work behind, when no worker finds `stopping` true too
early.

`stopping` reads the timers, the pending count and the state of the
scheduler one after the other, and two kinds of work are in none of the
three: a `READY` fiber between the decrement of `m_activateThreadCount`
and its return to the queue, and callbacks that `listExpireCB` has
collected and `idle` has not yet scheduled. A test that succeeds while
such work exists, or after a read has become out of date, is `Premature`.
A worker whose idle fiber has ended never tests again, so a premature
test can leave the last tasks to workers that no longer wait for what
they add.

Without one, the first test that succeeds finds the system `Quiescent`,
and it stays so.
-/
import TinyServer.Shutdown.Proofs.Resting

namespace TinyServer

open Lib

/-- Collected callbacks that have not been scheduled. -/
def IdlePc.hasCbs : IdlePc → Bool
  | .collected cbs _ => !cbs.isEmpty
  | _ => false

namespace IoSystem

variable {s s' t : IoSystem} {w v : Nat} {a : IoAct} {i : IdleInput}

/-- Worker `w` has work in hand that `stopping` does not see. -/
def hasWork (s : IoSystem) (w : Nat) : Bool :=
  (s.sched.workers w).pc.hasReady s.sched.heap || (s.idle w).hasCbs

/-- The last test of `stopping` succeeds in this step, and there is a
timer, a pending event or a worker with work in hand. -/
def Premature (s : IoSystem) : IoAct → Prop
  | .idle w _ => s.idle w = .pendingRead ∧ s.schedulerStopping = true
      ∧ (s.timers.timers ≠ [] ∨ s.io.pendingEventCount ≠ 0
        ∨ ∃ v < s.sched.threads, s.hasWork v = true)
  | _ => False

instance (s : IoSystem) : (a : IoAct) → Decidable (s.Premature a)
  | .idle _ _ => inferInstanceAs (Decidable (_ ∧ _ ∧ _))
  | .stop => inferInstanceAs (Decidable False)
  | .call _ => inferInstanceAs (Decidable False)
  | .task _ _ => inferInstanceAs (Decidable False)
  | .run _ _ => inferInstanceAs (Decidable False)

/-- Nothing is left to do. -/
structure Quiescent (s : IoSystem) : Prop where
  stopped : s.stopRequested = true
  resting : s.sched.Resting
  timers : s.timers.timers = []
  pending : s.io.pendingEventCount = 0
  handed : ∀ v < s.sched.threads, (s.idle v).hasCbs = false

-- ============================================================ quiescence stays

/-- A step of the scheduler changes the scheduler only. -/
theorem schedStep_eq_some {a : SchedAct} (h : s.schedStep a = some s') :
    ∃ sched, s.sched.step a = some sched
      ∧ s' = { s with sched := sched } := by
  obtain ⟨sched, hsched, rfl⟩ := Option.map_eq_some_iff.mp h
  exact ⟨sched, hsched, rfl⟩

/-- A move within `idle` that collects nothing. -/
theorem Quiescent.setIdle (h : s.Quiescent) {pc : IdlePc}
    (hpc : pc.hasCbs = false) : (s.setIdle w pc).Quiescent := by
  refine ⟨h.stopped, h.resting, h.timers, h.pending, fun v hv => ?_⟩
  simp only [IoSystem.setIdle]
  split
  · exact hpc
  · exact h.handed v hv

/-- A manager without timers is as good as another. -/
theorem Quiescent.setTimers (h : s.Quiescent) {m : TimerManager}
    (hm : m.timers = []) : Quiescent { s with timers := m } :=
  ⟨h.stopped, h.resting, hm, h.pending, h.handed⟩

/-- Scheduling nothing. -/
theorem schedStep_nothing (h : s.schedStep (.scheduleAll []) = some s') :
    s' = s := by
  obtain ⟨sched, hsched, rfl⟩ := schedStep_eq_some h
  cases hsched
  rfl

/-- Only the workers that there are take steps. -/
theorem run_threads {b : Behaviour}
    (h : s.schedStep (.run w b) = some s') :
    w < s.sched.threads ∧ ∃ sched, s.sched.runStep w b = some sched
      ∧ s' = { s with sched := sched }
      ∧ sched.threads = s.sched.threads := by
  obtain ⟨sched, hsched, rfl⟩ := schedStep_eq_some h
  simp only [Scheduler.step] at hsched
  split at hsched
  next hw =>
    obtain ⟨-, ⟨hthreads, -⟩, -⟩ := Scheduler.runStep_moves hsched
    exact ⟨hw, sched, hsched, rfl, hthreads⟩
  next => cases hsched

/-- A step of a worker in `run`. -/
theorem Quiescent.run (h : s.Quiescent) {b : Behaviour}
    (hs : s.schedStep (.run w b) = some s') : s'.Quiescent := by
  obtain ⟨hw, sched, hrun, rfl, hthreads⟩ := run_threads hs
  refine ⟨h.stopped, h.resting.runStep hw hrun, h.timers, h.pending, ?_⟩
  intro v hv
  exact h.handed v (hthreads ▸ hv)

/-- A delivery finds nothing registered. -/
theorem Quiescent.deliver (h : s.Quiescent) (hm : s.io.Mirror) {fd : Nat}
    {mask : EpollMask} {ctlFails : Bool}
    (hs : s.eventStep (.deliver fd mask ctlFails) = some s') :
    s' = s := by
  unfold eventStep at hs
  rw [hm.deliver_nothing h.pending] at hs
  simp only [List.drop_length, List.map_nil] at hs
  exact schedStep_nothing hs

/-- Asking for the next timer takes none out. -/
theorem getNextTimer_timers (m : TimerManager) (now : Nat) :
    (m.getNextTimer now).2.timers = m.timers := by
  simp only [TimerManager.getNextTimer]
  split <;> rfl

/-- A step of a worker in `idle`. -/
theorem Quiescent.idleStep (h : s.Quiescent) (hm : s.io.Mirror)
    (hw : w < s.sched.threads) (hs : s.idleStep w i = some s') :
    s'.Quiescent := by
  unfold IoSystem.idleStep at hs
  cases hpc : s.idle w with
  | check =>
      simp only [hpc, Option.some.injEq] at hs
      subst hs
      have htimers := getNextTimer_timers s.timers i.now
      refine (h.setTimers (htimers.trans h.timers)).setIdle ?_
      split <;> rfl
  | timersRead =>
      simp only [hpc, Option.some.injEq] at hs
      subst hs
      refine h.setIdle ?_
      split <;> rfl
  | pendingRead =>
      simp only [hpc, Option.some.injEq] at hs
      subst hs
      refine h.setIdle ?_
      split <;> rfl
  | waiting =>
      simp only [hpc] at hs
      split at hs
      · cases hs
      · cases hs
        exact h.setIdle rfl
  | reported events =>
      simp only [hpc, Option.some.injEq] at hs
      subst hs
      refine h.setIdle ?_
      split <;> rfl
  | tested now events =>
      simp only [hpc] at hs
      split at hs
      next => cases hs
      next cbs m hcollect =>
        cases hs
        obtain ⟨rfl, htimers⟩ :=
          TimerManager.collect_nothing h.timers hcollect
        exact (h.setTimers htimers).setIdle rfl
  | collected cbs events =>
      simp only [hpc] at hs
      obtain ⟨t, ht, rfl⟩ := Option.map_eq_some_iff.mp hs
      have hcbs := h.handed w hw
      rw [hpc] at hcbs
      obtain rfl : cbs = [] := by simpa [IdlePc.hasCbs] using hcbs
      obtain rfl := schedStep_nothing ht
      exact h.setIdle rfl
  | dispatching events =>
      simp only [hpc] at hs
      cases events with
      | nil =>
          obtain ⟨t, ht, rfl⟩ := Option.map_eq_some_iff.mp hs
          exact (h.run ht).setIdle rfl
      | cons e events =>
          obtain ⟨t, ht, rfl⟩ := Option.map_eq_some_iff.mp hs
          obtain rfl := h.deliver hm ht
          exact h.setIdle rfl
  | ended =>
      simp only [hpc] at hs
      exact h.run hs

/-- Nothing that a step does makes work. -/
theorem Quiescent.step (h : s.Quiescent) (hm : s.io.Mirror)
    (hs : s.step a = some s') : s'.Quiescent := by
  cases a with
  | stop =>
      cases hs
      exact ⟨rfl, h.resting, h.timers, h.pending, h.handed⟩
  | call c =>
      simp only [IoSystem.step, h.stopped, Bool.not_true, Bool.and_false,
        Bool.false_eq_true, if_false] at hs
      cases hs
  | task w c =>
      have hinside : s.insideTask w = false := by
        unfold insideTask
        split
        next f viaCb hpc =>
          by_contra hw
          have hw : w < s.sched.threads := by simpa using hw
          have hcounted := h.resting.counted w hw
          rw [hpc] at hcounted
          cases hcounted
        next => rfl
      simp only [IoSystem.step, hinside, Bool.and_false,
        Bool.false_eq_true, if_false] at hs
      cases hs
  | run w b =>
      simp only [IoSystem.step] at hs
      split at hs
      · cases hs
      · exact h.run hs
  | idle w i =>
      simp only [IoSystem.step] at hs
      split at hs
      next hw => exact h.idleStep hm hw.1 hs
      next => cases hs

-- ============================================================== what steps do

/-- What every step does to the parts, apart from the end of an idle
fiber: it keeps their invariants and brings no worker to its end. -/
structure Carries (s t : IoSystem) : Prop where
  idle : t.idle = s.idle
  threads : t.sched.threads = s.sched.threads
  conserves : s.sched.Conserves → t.sched.Conserves
  mirror : s.io.Mirror → t.io.Mirror
  gone : ∀ v, (t.sched.workers v).Over → (s.sched.workers v).Over

/-- Doing nothing carries everything, -/
theorem Carries.refl (s : IoSystem) : s.Carries s :=
  ⟨rfl, rfl, id, id, fun _ => id⟩

/-- and so do two steps that do. -/
theorem Carries.trans (h : s.Carries t) (h' : t.Carries s') :
    s.Carries s' where
  idle := h'.idle.trans h.idle
  threads := h'.threads.trans h.threads
  conserves := h'.conserves ∘ h.conserves
  mirror := h'.mirror ∘ h.mirror
  gone := fun v hv => h.gone v (h'.gone v hv)

/-- Scheduling leaves the workers alone. -/
theorem pushAll_workers (tasks : List (Option Task)) (s : Scheduler) :
    let t := tasks.foldl (fun s t => s.scheduleNoLock t none) s
    t.workers = s.workers ∧ t.threads = s.threads := by
  induction tasks generalizing s with
  | nil => exact ⟨rfl, rfl⟩
  | cons task tasks ih =>
      obtain ⟨hw, ht⟩ := ih (s.scheduleNoLock task none)
      cases task <;> exact ⟨hw, ht⟩

/-- A call of the scheduler, not a step of a worker. -/
theorem carries_sched {c : SchedAct} (hs : s.schedStep c = some s')
    (hrun : ∀ w b, c ≠ .run w b) : s.Carries s' := by
  obtain ⟨sched, hsched, rfl⟩ := schedStep_eq_some hs
  have hworkers : sched.workers = s.sched.workers
      ∧ sched.threads = s.sched.threads := by
    cases c with
    | newFiber cb =>
        cases hsched
        exact ⟨rfl, rfl⟩
    | schedule task threadId =>
        simp only [Scheduler.step] at hsched
        split at hsched
        · cases hsched
          cases task <;> exact ⟨rfl, rfl⟩
        · cases hsched
    | scheduleAll tasks =>
        simp only [Scheduler.step] at hsched
        split at hsched
        · cases hsched
          exact pushAll_workers tasks s.sched
        · cases hsched
    | run w b => exact absurd rfl (hrun w b)
  refine ⟨rfl, hworkers.2, fun hc => hc.step hsched, id, fun v hv => ?_⟩
  rwa [show ({ s with sched := sched } : IoSystem).sched.workers
    = s.sched.workers from hworkers.1] at hv

/-- A step of a worker that does not end its idle fiber. -/
theorem carries_run {b : Behaviour}
    (hidle : (s.sched.workers w).pc ≠ .idleInside ∨ b = .yieldHold)
    (hs : s.schedStep (.run w b) = some s') : s.Carries s' := by
  obtain ⟨hw, sched, hrun, rfl, hthreads⟩ := run_threads hs
  refine ⟨rfl, hthreads, fun hc => hc.runStep hw hrun, id, fun v hv => ?_⟩
  rcases Scheduler.runStep_over hrun hv with hv | ⟨-, hpc, hb⟩
  · exact hv
  · exact absurd hb (hidle.resolve_left (not_not.mpr hpc) ▸ not_not.mpr rfl)

/-- The timers are not looked at. -/
theorem carries_timers (m : TimerManager) :
    s.Carries { s with timers := m } :=
  ⟨rfl, rfl, id, id, fun _ => id⟩

/-- Nor does an event bring a worker to its end. -/
theorem carries_event {op : IoOp} (hs : s.eventStep op = some s') :
    s.Carries s' := by
  unfold eventStep at hs
  split at hs
  next => cases hs
  next io hio =>
    have hset : s.Carries { s with io := io } :=
      ⟨rfl, rfl, id, fun hm => hm.step (IoOp.step_eq_some.mpr hio),
        fun _ => id⟩
    exact hset.trans (carries_sched hs nofun)

/-- Nor does what a task calls. -/
theorem carries_work {c : WorkCall} (hc : c.ofTask = true)
    (hs : s.workStep c = some s') : s.Carries s' := by
  cases c with
  | sched c =>
      refine carries_sched hs fun w b hrun => ?_
      subst hrun
      cases hc
  | timer c =>
      obtain ⟨m, -, rfl⟩ := Option.map_eq_some_iff.mp hs
      exact carries_timers m
  | event op => exact carries_event hs

/-- A step of `idle` ends the idle fiber, or moves within it. -/
theorem idleStep_cases (hs : s.idleStep w i = some s') :
    (s.idle w = .ended ∧ s.schedStep (.run w .returns) = some s')
      ∨ (s.idle w ≠ .ended ∧ ∃ t pc, s.Carries t ∧ s' = t.setIdle w pc
        ∧ (pc = .ended → s.idle w = .pendingRead
          ∧ s.schedulerStopping = true)) := by
  unfold IoSystem.idleStep at hs
  cases hpc : s.idle w with
  | ended =>
      simp only [hpc] at hs
      exact .inl ⟨rfl, hs⟩
  | check =>
      simp only [hpc, Option.some.injEq] at hs
      refine .inr ⟨nofun, _, _, carries_timers _, hs.symm, fun hto => ?_⟩
      split at hto <;> cases hto
  | timersRead =>
      simp only [hpc, Option.some.injEq] at hs
      refine .inr ⟨nofun, _, _, .refl s, hs.symm, fun hto => ?_⟩
      split at hto <;> cases hto
  | pendingRead =>
      simp only [hpc, Option.some.injEq] at hs
      refine .inr ⟨nofun, _, _, .refl s, hs.symm, fun hto => ⟨rfl, ?_⟩⟩
      split at hto
      next hstop => exact hstop
      next => cases hto
  | waiting =>
      simp only [hpc] at hs
      split at hs
      · cases hs
      · cases hs
        exact .inr ⟨nofun, _, _, .refl s, rfl, nofun⟩
  | reported events =>
      simp only [hpc, Option.some.injEq] at hs
      refine .inr ⟨nofun, _, _, .refl s, hs.symm, fun hto => ?_⟩
      split at hto <;> cases hto
  | tested now events =>
      simp only [hpc] at hs
      split at hs
      next => cases hs
      next cbs m hcollect =>
        cases hs
        exact .inr ⟨nofun, _, _, carries_timers m, rfl, nofun⟩
  | collected cbs events =>
      simp only [hpc] at hs
      obtain ⟨t, ht, rfl⟩ := Option.map_eq_some_iff.mp hs
      exact .inr ⟨nofun, t, _, carries_sched ht nofun, rfl, nofun⟩
  | dispatching events =>
      simp only [hpc] at hs
      cases events with
      | nil =>
          obtain ⟨t, ht, rfl⟩ := Option.map_eq_some_iff.mp hs
          exact .inr ⟨nofun, t, _, carries_run (.inr rfl) ht, rfl, nofun⟩
      | cons e events =>
          obtain ⟨t, ht, rfl⟩ := Option.map_eq_some_iff.mp hs
          exact .inr ⟨nofun, t, _, carries_event ht, rfl, nofun⟩

/-- A step is one outside `idle`, the end of an idle fiber, or a move
within `idle`. -/
theorem step_cases (hs : s.step a = some s') :
    s.Carries s'
      ∨ (∃ w i, a = .idle w i ∧ s.idle w = .ended
        ∧ s.schedStep (.run w .returns) = some s')
      ∨ ∃ w i t pc, a = .idle w i ∧ s.idle w ≠ .ended ∧ s.Carries t
        ∧ s' = t.setIdle w pc
        ∧ (pc = .ended → s.idle w = .pendingRead
          ∧ s.schedulerStopping = true) := by
  cases a with
  | stop =>
      cases hs
      exact .inl ⟨rfl, rfl, id, id, fun _ => id⟩
  | call c =>
      simp only [IoSystem.step] at hs
      split at hs
      next hc => exact .inl (carries_work (Bool.and_eq_true_iff.mp hc).1 hs)
      next => cases hs
  | task w c =>
      simp only [IoSystem.step] at hs
      split at hs
      next hc => exact .inl (carries_work (Bool.and_eq_true_iff.mp hc).1 hs)
      next => cases hs
  | run w b =>
      simp only [IoSystem.step] at hs
      split at hs
      next => cases hs
      next hpc => exact .inl (carries_run (.inl hpc) hs)
  | idle w i =>
      simp only [IoSystem.step] at hs
      split at hs
      next =>
        rcases idleStep_cases hs with ⟨hend, hrun⟩ | ⟨hlive, t, pc, hmove⟩
        · exact .inr (.inl ⟨w, i, rfl, hend, hrun⟩)
        · exact .inr (.inr ⟨w, i, t, pc, rfl, hlive, hmove⟩)
      next => cases hs

/-- The number of workers stays. -/
theorem step_threads (hs : s.step a = some s') :
    s'.sched.threads = s.sched.threads := by
  rcases step_cases hs with hc | ⟨w, i, -, -, hrun⟩ |
    ⟨w, i, t, pc, -, -, hc, rfl, -⟩
  · exact hc.threads
  · obtain ⟨-, sched, -, rfl, hthreads⟩ := run_threads hrun
    exact hthreads
  · exact hc.threads

-- ============================================================== the invariant

/-- What holds in every state of a run without a premature test. -/
structure Sound (s : IoSystem) : Prop where
  conserves : s.sched.Conserves
  mirror : s.io.Mirror
  gone : ∀ w, (s.sched.workers w).Over → s.idle w = .ended
  quiet : ∀ w < s.sched.threads, s.idle w = .ended → s.Quiescent

/-- At the start no worker has ended. -/
theorem sound_init (threads now : Nat) : (init threads now).Sound where
  conserves := Scheduler.conserves_init threads
  mirror := IOManager.mirror_init
  gone := by
    intro w hw
    rcases hw with hw | hw <;> cases hw
  quiet := nofun

/-- A test that succeeds and is not premature finds nothing left to do. -/
theorem Sound.quiescent (h : s.Sound) (hpc : s.idle w = .pendingRead)
    (hstop : s.schedulerStopping = true)
    (hno : ¬ s.Premature (.idle w i)) : s.Quiescent := by
  have hnone : ¬ (s.timers.timers ≠ [] ∨ s.io.pendingEventCount ≠ 0
      ∨ ∃ v < s.sched.threads, s.hasWork v = true) :=
    fun hwork => hno ⟨hpc, hstop, hwork⟩
  simp only [schedulerStopping, Bool.and_eq_true, List.isEmpty_iff,
    decide_eq_true_eq] at hstop
  obtain ⟨⟨hstopped, hqueue⟩, hactive⟩ := hstop
  have hcounted : s.sched.countedWorkers = 0 := by
    have hc := h.conserves.active
    omega
  have hhand : ∀ v < s.sched.threads, s.hasWork v = false :=
    fun v hv => Bool.eq_false_iff.mpr fun hwork =>
      hnone (.inr (.inr ⟨v, hv, hwork⟩))
  refine ⟨hstopped, ⟨hqueue, fun v hv => ?_, fun v hv => ?_⟩, ?_, ?_,
    fun v hv => ?_⟩
  · have hzero := List.countP_eq_zero.mp hcounted v (List.mem_range.mpr hv)
    exact Bool.eq_false_iff.mpr hzero
  · exact (Bool.or_eq_false_iff.mp (hhand v hv)).1
  · by_contra htimers
    exact hnone (.inl htimers)
  · by_contra hpending
    exact hnone (.inr (.inl hpending))
  · exact (Bool.or_eq_false_iff.mp (hhand v hv)).2

/-- The place of one worker in `idle`, -/
theorem setIdle_self {pc : IdlePc} : (s.setIdle w pc).idle w = pc := by
  simp only [IoSystem.setIdle, if_true]

/-- and of the others. -/
theorem setIdle_ne {pc : IdlePc} (hv : v ≠ w) :
    (s.setIdle w pc).idle v = s.idle v := by
  simp only [IoSystem.setIdle, hv, if_false]

/-- A step keeps the invariant. -/
theorem Sound.step (h : s.Sound) (hno : ¬ s.Premature a)
    (hs : s.step a = some s') : s'.Sound := by
  have hstay : ∀ v < s'.sched.threads, s.idle v = .ended → s'.Quiescent :=
    fun v hv hend =>
      (h.quiet v (step_threads hs ▸ hv) hend).step h.mirror hs
  rcases step_cases hs with hc | ⟨w, i, rfl, hend, hrun⟩ |
    ⟨w, i, t, pc, rfl, hlive, hc, rfl, hpc⟩
  · refine ⟨hc.conserves h.conserves, hc.mirror h.mirror, fun v hv => ?_,
      fun v hv hend => ?_⟩
    · rw [hc.idle]
      exact h.gone v (hc.gone v hv)
    · rw [hc.idle] at hend
      exact hstay v hv hend
  · obtain ⟨hw, sched, hstep, rfl, -⟩ := run_threads hrun
    refine ⟨h.conserves.runStep hw hstep, h.mirror, fun v hv => ?_, hstay⟩
    rcases Scheduler.runStep_over hstep hv with hv | ⟨rfl, -, -⟩
    · exact h.gone v hv
    · exact hend
  · refine ⟨hc.conserves h.conserves, hc.mirror h.mirror, fun v hv => ?_,
      fun v hv hend => ?_⟩
    · have hend := h.gone v (hc.gone v hv)
      by_cases hvw : v = w
      · exact absurd (hvw ▸ hend) hlive
      · rw [setIdle_ne hvw, hc.idle]
        exact hend
    · by_cases hvw : v = w
      · subst hvw
        rw [setIdle_self] at hend
        obtain ⟨hread, hstop⟩ := hpc hend
        exact (h.quiescent hread hstop hno).step h.mirror hs
      · rw [setIdle_ne hvw, hc.idle] at hend
        exact hstay v hv hend

/-- Once every worker has left `run`, nothing is left to do, in every run
without a premature test: no task is queued, no timer is armed and no
event is pending. -/
theorem shutdown_complete {threads now : Nat} {acts : List IoAct}
    (hthreads : 0 < threads)
    (hno : ∀ s a, Takes step (init threads now) acts s a → ¬ s.Premature a)
    (hs : Visits step (init threads now) acts s)
    (hleft : ∀ w < threads, (s.sched.workers w).pc = .exited) :
    s.sched.fibers = [] ∧ s.timers.timers = []
      ∧ s.io.pendingEventCount = 0 := by
  have h : s.Sound ∧ s.sched.threads = threads :=
    visits_inv (P := fun s => s.Sound ∧ s.sched.threads = threads)
      (fun h hno hs => ⟨h.1.step hno hs, (step_threads hs).trans h.2⟩)
      ⟨sound_init threads now, rfl⟩ hno hs
  have hq := h.1.quiet 0 (h.2 ▸ hthreads)
    (h.1.gone 0 (.inl (hleft 0 hthreads)))
  exact ⟨hq.resting.queue, hq.timers, hq.pending⟩

-- -------------------------------------------------------------------- two runs

/-- `n` steps of worker `w` in `run`. -/
def runs (w n : Nat) : List IoAct := List.replicate n (.run w .returns)

/-- Worker `w` finds the queue empty, tests `stopping` with success and
ends its idle fiber. -/
def endIdle (w : Nat) : List IoAct :=
  runs w 2 ++ List.replicate 4 (.idle w ⟨0, 0, [], false⟩) ++ runs w 1

/-- A task adds a timer after `stop`; its callback runs before the two
workers leave. -/
def timerAfterStop : List IoAct :=
  [.call (.sched (.newFiber 1)),
    .call (.sched (.schedule (some (.fiber 0)) none)), .stop]
  ++ runs 0 3 ++ [.task 0 (.timer (.addTimer 7 1000 (some 2) false 0))]
  ++ runs 0 6 ++ List.replicate 6 (.idle 0 ⟨2000, 8, [], false⟩)
  ++ runs 0 10 ++ endIdle 0 ++ runs 0 2 ++ endIdle 1 ++ runs 1 2

theorem shutdown_complete_timer_after_stop :
    ∃ s, timerAfterStop.foldlM step (init 2 0) = some s
      ∧ (∀ w < 2, (s.sched.workers w).pc = .exited)
      ∧ s.sched.executed.length = 2 ∧ s.sched.fibers = []
      ∧ s.timers.timers = [] ∧ s.io.pendingEventCount = 0 := by
  obtain ⟨s, hs⟩ := Option.isSome_iff_exists.mp
    (show (timerAfterStop.foldlM step (init 2 0)).isSome = true by decide)
  have hleft : ∀ w < 2, (s.sched.workers w).pc = .exited := by
    have hpcs := congrArg (Option.map fun s : IoSystem =>
      ((s.sched.workers 0).pc, (s.sched.workers 1).pc)) hs
    obtain ⟨h0, h1⟩ := Prod.mk.inj (Option.some.inj hpcs)
    intro w hw
    rcases w with _ | _ | w
    · exact h0.symm
    · exact h1.symm
    · omega
  have hno : ∀ s a, Takes step (init 2 0) timerAfterStop s a
      → ¬ s.Premature a := by
    intro s a ht
    have hok := takes_of_checks (fun s a => !decide (s.Premature a))
      (by decide) ht
    simpa using hok
  have hrun := congrArg (Option.map fun s : IoSystem =>
    s.sched.executed.length) hs
  exact ⟨s, hs, hleft, (Option.some.inj hrun).symm,
    shutdown_complete (by decide) hno (visits_last hs) hleft⟩

/-- Twice a fiber yields `READY` and the other worker tests `stopping`
before the fiber is back in the queue. The fiber then adds a timer, and
neither worker waits for it. -/
def readyTwice : List IoAct :=
  [.call (.sched (.newFiber 1)),
    .call (.sched (.schedule (some (.fiber 0)) none)), .stop]
  ++ runs 1 3 ++ [.run 1 .yieldReady] ++ runs 1 2 ++ endIdle 0 ++ runs 1 2
  ++ runs 0 3 ++ [.run 0 .yieldReady] ++ runs 0 2 ++ endIdle 1 ++ runs 0 2
  ++ runs 0 3 ++ [.task 0 (.timer (.addTimer 7 1000 (some 2) false 0))]
  ++ runs 0 6 ++ runs 1 2

theorem timer_left_behind :
    ¬ ∀ (threads now : Nat) (acts : List IoAct) (s : IoSystem),
      0 < threads → Visits step (init threads now) acts s →
      (∀ w < threads, (s.sched.workers w).pc = .exited) →
      s.sched.fibers = [] ∧ s.timers.timers = []
        ∧ s.io.pendingEventCount = 0 := by
  intro hall
  obtain ⟨s, hs⟩ := Option.isSome_iff_exists.mp
    (show (readyTwice.foldlM step (init 2 0)).isSome = true by decide)
  have hlast := congrArg (Option.map fun s : IoSystem =>
    ((s.sched.workers 0).pc, (s.sched.workers 1).pc, s.timers.timers)) hs
  obtain ⟨h0, hlast⟩ := Prod.mk.inj (Option.some.inj hlast)
  obtain ⟨h1, htimers⟩ := Prod.mk.inj hlast
  obtain ⟨-, hnone, -⟩ := hall 2 0 readyTwice s (by decide)
    (visits_last hs) (by
      intro w hw
      rcases w with _ | _ | w
      · exact h0.symm
      · exact h1.symm
      · omega)
  cases htimers.trans hnone

end IoSystem

end TinyServer
