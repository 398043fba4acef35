/-
The scheduler conserves tasks and counts active workers exactly.

The books of a scheduler are its queue, the logs and the counter.
`runStep_books` says what a worker's step does to them and to the
worker's place: most steps touch nothing, and each of the others moves
one entry or the counter by one. The invariant `Conserves` adds up over
the workers: an entry taken from the queue is held by a worker, executed
or dropped, and the counter is the number of workers that have taken an
entry and not yet decremented it. Which fiber a worker enters for an
entry is the subject of `Entered`.
-/
import TinyServer.Scheduler.Basic
import TinyServer.Lib.Range
import TinyServer.Lib.Run
import Mathlib.Data.List.Nodup

namespace TinyServer

-- ================================================================ the places

/-- The worker took an entry and has not yet decremented
`m_activateThreadCount`. -/
def WorkerPc.counted : WorkerPc → Bool
  | .took _ => true
  | .wrap _ _ => true
  | .swapping _ _ _ => true
  | .inside _ _ => true
  | .leaving _ _ => true
  | .back _ _ => true
  | .drop => true
  | _ => false

/-- The entry the worker took and has neither executed nor dropped. -/
def WorkerPc.held : WorkerPc → Option FiberAndThread
  | .took e => some e
  | .wrap e _ => some e
  | .swapping e _ _ => some e
  | _ => none

/-- What the worker is about to swap into belongs to the entry it holds. -/
def WorkerPc.Fits : WorkerPc → Prop
  | .wrap e c => e.task = .cb c
  | .swapping e f viaCb =>
      if viaCb then ∃ c, e.task = .cb c else e.task = .fiber f
  | _ => True

namespace Scheduler

/-- The entry can be taken by worker `w`. -/
def eligible (heap : Nat → Fiber) (w : Nat) (e : FiberAndThread) : Bool :=
  !(pinnedElsewhere w e || executing heap e)

/-- The number of workers that took an entry and have not decremented the
counter. -/
def countedWorkers (s : Scheduler) : Nat :=
  (List.range s.threads).countP fun w => (s.workers w).pc.counted

/-- The number of workers that hold the entry `e`. -/
def holders (s : Scheduler) (e : FiberAndThread) : Nat :=
  (List.range s.threads).countP fun w =>
    decide ((s.workers w).pc.held = some e)

-- ================================================================== the scan

/-- The scan takes the first eligible entry and keeps the rest. -/
theorem scan_eq_some {heap : Nat → Fiber} {w : Nat}
    {l : List FiberAndThread} {e : FiberAndThread}
    {rest : List FiberAndThread} (h : scan heap w l = some (e, rest)) :
    ∃ pre post, l = pre ++ e :: post ∧ rest = pre ++ post
      ∧ (∀ x ∈ pre, eligible heap w x = false)
      ∧ eligible heap w e = true := by
  induction l generalizing rest with
  | nil => cases h
  | cons x l ih =>
      rw [scan] at h
      split at h
      next hskip =>
          obtain ⟨⟨e', r⟩, hr, heq⟩ := Option.map_eq_some_iff.mp h
          cases heq
          obtain ⟨pre, post, rfl, rfl, hpre, he⟩ := ih hr
          refine ⟨x :: pre, post, rfl, rfl, ?_, he⟩
          intro y hy
          rcases List.mem_cons.mp hy with rfl | hy
          · rw [eligible, hskip]
            rfl
          · exact hpre y hy
      next hskip =>
          cases h
          refine ⟨[], l, rfl, rfl, fun y hy => (List.not_mem_nil hy).elim, ?_⟩
          rw [eligible, Bool.eq_false_iff.mpr hskip]
          rfl

-- ================================================================= the books

/-- The queue, the logs and the counter. -/
structure Books where
  fibers : List FiberAndThread
  pushed : Nat
  removed : List FiberAndThread
  executed : List FiberAndThread
  dropped : List FiberAndThread
  active : Int

def books (s : Scheduler) : Books :=
  ⟨s.fibers, s.pushed, s.removed, s.executed, s.dropped,
    s.activateThreadCount⟩

/-- What a step of a worker at `pc` does to the books, when it ends at
`pc'`. -/
inductive BookStep (heap : Nat → Fiber) (w : Nat) (pc pc' : WorkerPc)
    (k : Books) : Books → Prop
  | quiet (hc : pc'.counted = pc.counted) (hh : pc'.held = pc.held) :
      BookStep heap w pc pc' k k
  | take {pre post : List FiberAndThread} {e : FiberAndThread}
      (hpc : pc = .top) (hpc' : pc' = .took e)
      (hq : k.fibers = pre ++ e :: post)
      (hpre : ∀ x ∈ pre, eligible heap w x = false)
      (he : eligible heap w e = true) :
      BookStep heap w pc pc' k { k with
        fibers := pre ++ post
        removed := k.removed ++ [e]
        active := k.active + 1 }
  | execute {e : FiberAndThread} {f : Nat} {viaCb : Bool}
      (hpc : pc = .swapping e f viaCb) (hpc' : pc' = .inside f viaCb) :
      BookStep heap w pc pc' k { k with executed := k.executed ++ [e] }
  | drop {e : FiberAndThread} {f : Nat} (hpc : pc = .took e)
      (hpc' : pc' = .drop) (htask : e.task = .fiber f)
      (hdead : (heap f).state.dead = true) :
      BookStep heap w pc pc' k { k with dropped := k.dropped ++ [e] }
  | decrement (hc : pc.counted = true) (hc' : pc'.counted = false)
      (hh : pc.held = none) (hh' : pc'.held = none) :
      BookStep heap w pc pc' k { k with active := k.active - 1 }
  | requeue {f : Nat} (hc : pc.counted = false) (hc' : pc'.counted = false)
      (hh : pc.held = none) (hh' : pc'.held = none) :
      BookStep heap w pc pc' k { k with
        fibers := k.fibers ++ [⟨k.pushed, .fiber f, none⟩]
        pushed := k.pushed + 1 }

variable {s s' : Scheduler} {w : Nat} {b : Behaviour}

/-- The places of the other workers are unchanged. -/
def Frame (s : Scheduler) (w : Nat) (s' : Scheduler) : Prop :=
  s'.threads = s.threads ∧ ∀ v, v ≠ w → (s'.workers v).pc = (s.workers v).pc

@[simp] theorem setWorker_pc (s : Scheduler) (w : Nat) (k : Worker) :
    ((s.setWorker w k).workers w) = k := by
  simp [setWorker]

@[simp] theorem setPc_pc (s : Scheduler) (w : Nat) (pc : WorkerPc) :
    ((s.setPc w pc).workers w).pc = pc := by
  simp [setPc]

theorem frame_setWorker (s t : Scheduler) (w : Nat) (k : Worker)
    (ht : t.threads = s.threads) (hw : t.workers = s.workers) :
    Frame s w (t.setWorker w k) := by
  refine ⟨ht, fun v hv => ?_⟩
  simp [setWorker, hv, hw]

/-- A step that moves the worker and touches no book. -/
private theorem moves_quiet {t : Scheduler} {k : Worker} {pc : WorkerPc}
    (hb : t.books = s.books) (ht : t.threads = s.threads)
    (hw : t.workers = s.workers) (hc : k.pc.counted = pc.counted)
    (hh : k.pc.held = pc.held) (hf : pc.Fits → k.pc.Fits) :
    BookStep s.heap w pc ((t.setWorker w k).workers w).pc s.books
        (t.setWorker w k).books
      ∧ Frame s w (t.setWorker w k)
      ∧ (pc.Fits → ((t.setWorker w k).workers w).pc.Fits) := by
  refine ⟨?_, frame_setWorker _ _ _ _ ht hw, ?_⟩
  · rw [setWorker_pc, show (t.setWorker w k).books = s.books from hb]
    exact .quiet hc hh
  · rw [setWorker_pc]
    exact hf

/-- A step that moves the worker to a place without an entry to swap in. -/
private theorem frame_fits {t : Scheduler} {k : Worker} {pc : WorkerPc}
    (ht : t.threads = s.threads) (hw : t.workers = s.workers)
    (hf : k.pc.Fits) :
    Frame s w (t.setWorker w k)
      ∧ (pc.Fits → ((t.setWorker w k).workers w).pc.Fits) := by
  refine ⟨frame_setWorker _ _ _ _ ht hw, fun _ => ?_⟩
  rw [setWorker_pc]
  exact hf

/-- Everything a worker's step does to the books and to the places. -/
theorem runStep_moves (h : s.runStep w b = some s') :
    BookStep s.heap w (s.workers w).pc (s'.workers w).pc s.books s'.books
      ∧ Frame s w s'
      ∧ ((s.workers w).pc.Fits → (s'.workers w).pc.Fits) := by
  unfold runStep at h
  cases hpc : (s.workers w).pc with
  | top =>
      simp only [hpc, Option.some.injEq, dequeue] at h
      split at h
      next e rest hscan =>
          obtain ⟨pre, post, hq, rfl, hpre, he⟩ := scan_eq_some hscan
          subst h
          exact ⟨.take rfl (setPc_pc _ _ _) hq hpre he,
            frame_fits rfl rfl trivial⟩
      next =>
          subst h
          exact moves_quiet rfl rfl rfl rfl rfl fun _ => trivial
  | took e =>
      simp only [hpc] at h
      split at h
      next f htask =>
          split at h
          next hdead =>
              cases h
              exact ⟨.drop rfl (setPc_pc _ _ _) htask hdead,
                frame_fits rfl rfl trivial⟩
          next =>
              cases h
              exact moves_quiet rfl rfl rfl rfl rfl fun _ => htask
      next c htask =>
          cases h
          exact moves_quiet rfl rfl rfl rfl rfl fun _ => htask
  | wrap e c =>
      simp only [hpc] at h
      split at h
      next f hf =>
          obtain ⟨x, -, hx⟩ := Option.bind_eq_some_iff.mp h
          cases hx
          exact moves_quiet rfl rfl rfl rfl rfl fun hf => ⟨c, hf⟩
      next =>
          cases h
          exact moves_quiet rfl rfl rfl rfl rfl fun hf => ⟨c, hf⟩
  | swapping e f viaCb =>
      simp only [hpc] at h
      obtain ⟨x, -, hx⟩ := Option.bind_eq_some_iff.mp h
      cases hx
      exact ⟨.execute rfl (setPc_pc _ _ _), frame_fits rfl rfl trivial⟩
  | inside f viaCb =>
      simp only [hpc] at h
      obtain ⟨x, -, hx⟩ := Option.bind_eq_some_iff.mp h
      cases hx
      exact moves_quiet rfl rfl rfl rfl rfl fun _ => trivial
  | leaving f viaCb =>
      simp only [hpc, Option.some.injEq] at h
      subst h
      exact moves_quiet rfl rfl rfl rfl rfl fun _ => trivial
  | back f viaCb =>
      simp only [hpc, Option.some.injEq] at h
      subst h
      refine ⟨.decrement rfl ?_ rfl ?_, frame_fits rfl rfl trivial⟩ <;>
        rw [setPc_pc] <;> rfl
  | settled f viaCb =>
      simp only [hpc] at h
      have hmove : ∃ pc, s' = s.setPc w pc ∧ pc.counted = false
          ∧ pc.held = none ∧ pc.Fits := by
        split at h
        next =>
            cases h
            exact ⟨_, rfl, rfl, rfl, trivial⟩
        next =>
            split at h
            next =>
                cases h
                refine ⟨_, rfl, ?_, ?_, ?_⟩ <;> cases viaCb <;> trivial
            next =>
                cases h
                exact ⟨_, rfl, rfl, rfl, trivial⟩
      obtain ⟨pc, rfl, hc, hh, hf⟩ := hmove
      exact moves_quiet rfl rfl rfl hc hh fun _ => hf
  | requeue f viaCb =>
      simp only [hpc, Option.some.injEq] at h
      subst h
      refine ⟨.requeue rfl ?_ rfl ?_, frame_fits rfl rfl trivial⟩ <;>
        rw [setWorker_pc] <;> rfl
  | renew f =>
      simp only [hpc] at h
      obtain ⟨x, -, hx⟩ := Option.bind_eq_some_iff.mp h
      cases hx
      exact moves_quiet rfl rfl rfl rfl rfl fun _ => trivial
  | park f viaCb =>
      simp only [hpc, Option.some.injEq] at h
      subst h
      exact moves_quiet rfl rfl rfl rfl rfl fun _ => trivial
  | drop =>
      simp only [hpc, Option.some.injEq] at h
      subst h
      refine ⟨.decrement rfl ?_ rfl ?_, frame_fits rfl rfl trivial⟩ <;>
        rw [setPc_pc] <;> rfl
  | idleTest =>
      simp only [hpc] at h
      split at h
      next =>
          cases h
          exact moves_quiet rfl rfl rfl rfl rfl fun _ => trivial
      next =>
          obtain ⟨x, -, hx⟩ := Option.bind_eq_some_iff.mp h
          cases hx
          exact moves_quiet rfl rfl rfl rfl rfl fun _ => trivial
  | idleInside =>
      simp only [hpc] at h
      obtain ⟨x, -, hx⟩ := Option.bind_eq_some_iff.mp h
      cases hx
      exact moves_quiet rfl rfl rfl rfl rfl fun _ => trivial
  | idleBack =>
      simp only [hpc, Option.some.injEq] at h
      subst h
      exact moves_quiet rfl rfl rfl rfl rfl fun _ => trivial
  | exited =>
      simp only [hpc] at h
      cases h

-- ============================================================== the invariant

/-- No entry is in two places, and everything taken is accounted for. -/
structure Conserves (s : Scheduler) : Prop where
  fresh : ∀ e ∈ s.fibers ++ s.removed, e.id < s.pushed
  nodup : ((s.fibers ++ s.removed).map FiberAndThread.id).Nodup
  active : s.activateThreadCount = s.countedWorkers
  ledger : ∀ e, s.removed.count e
    = s.holders e + s.executed.count e + s.dropped.count e
  fits : ∀ w, (s.workers w).pc.Fits

theorem conserves_init (threads : Nat) : (init threads).Conserves := by
  refine ⟨fun e he => (List.not_mem_nil he).elim, List.nodup_nil, ?_, ?_,
    fun _ => trivial⟩
  · show (0 : Int) = ((List.range threads).countP fun _ => false : Nat)
    simp
  · intro e
    show 0 = ((List.range threads).countP fun _ => decide (none = some e)) + 0
        + 0
    simp

/-- Pushing an entry keeps the invariant. -/
theorem Conserves.push (hc : s.Conserves) (task : Option Task)
    (threadId : Option Nat) : (s.scheduleNoLock task threadId).Conserves := by
  cases task with
  | none => exact hc
  | some t =>
      let e : FiberAndThread := ⟨s.pushed, t, threadId⟩
      have hperm : ((s.fibers ++ [e]) ++ s.removed).Perm
          (e :: (s.fibers ++ s.removed)) := by
        rw [List.append_assoc]
        exact List.perm_middle
      refine ⟨?_, ?_, hc.active, hc.ledger, hc.fits⟩
      · intro e he
        show e.id < s.pushed + 1
        rcases List.mem_cons.mp (hperm.mem_iff.mp he) with rfl | he
        · exact Nat.lt_succ_self _
        · exact Nat.lt_succ_of_lt (hc.fresh e he)
      · refine (hperm.map _).nodup_iff.mpr (List.nodup_cons.mpr ⟨?_, hc.nodup⟩)
        intro hmem
        obtain ⟨e, he, hid⟩ := List.mem_map.mp hmem
        exact absurd (hc.fresh e he) (by rw [hid]; exact Nat.lt_irrefl _)

theorem Conserves.pushAll (tasks : List (Option Task)) :
    ∀ {s : Scheduler}, s.Conserves →
      (tasks.foldl (fun s t => s.scheduleNoLock t none) s).Conserves := by
  induction tasks with
  | nil => exact fun hc => hc
  | cons t tasks ih => exact fun hc => ih (hc.push t none)

/-- Moving an entry from the queue to the log of removed ones. -/
private theorem take_perm (pre post removed : List FiberAndThread)
    (e : FiberAndThread) :
    ((pre ++ post) ++ (removed ++ [e])).Perm
      ((pre ++ e :: post) ++ removed) := by
  rw [List.perm_iff_count]
  intro x
  simp only [List.count_append, List.count_cons, List.count_nil]
  omega

/-- What the other workers contribute to the counts is unchanged. -/
private theorem counts_move (hframe : Frame s w s') (hw : w < s.threads) :
    s'.countedWorkers + (s.workers w).pc.counted.toNat
        = s.countedWorkers + (s'.workers w).pc.counted.toNat
      ∧ ∀ e, s'.holders e + (decide ((s.workers w).pc.held = some e)).toNat
        = s.holders e
          + (decide ((s'.workers w).pc.held = some e)).toNat := by
  obtain ⟨hthreads, hpcs⟩ := hframe
  constructor
  · rw [countedWorkers, countedWorkers, hthreads]
    exact Lib.countP_range_update (f := fun v => (s.workers v).pc.counted)
      (g := fun v => (s'.workers v).pc.counted) hw
      fun v hv => congrArg _ (hpcs v hv)
  · intro e
    rw [holders, holders, hthreads]
    exact Lib.countP_range_update
      (f := fun v => decide ((s.workers v).pc.held = some e))
      (g := fun v => decide ((s'.workers v).pc.held = some e)) hw
      fun v hv => congrArg (fun pc => decide (WorkerPc.held pc = some e))
        (hpcs v hv)

/-- A step that leaves the queue alone keeps the invariant when it moves
entries only between the workers, `executed` and `dropped`. -/
private theorem Conserves.same_queue (hc : s.Conserves)
    (hfibers : s'.fibers = s.fibers) (hpushed : s'.pushed = s.pushed)
    (hremoved : s'.removed = s.removed)
    (hactive : s'.activateThreadCount = s'.countedWorkers)
    (hmoved : ∀ e, s'.holders e + s'.executed.count e + s'.dropped.count e
      = s.holders e + s.executed.count e + s.dropped.count e)
    (hfits : ∀ w, (s'.workers w).pc.Fits) : s'.Conserves := by
  refine ⟨?_, ?_, hactive, fun e => ?_, hfits⟩
  · rw [hfibers, hpushed, hremoved]
    exact hc.fresh
  · rw [hfibers, hremoved]
    exact hc.nodup
  · rw [hremoved, hmoved]
    exact hc.ledger e

/-- The count of an entry in a log after `e` was added to it. -/
private theorem count_logged (log : List FiberAndThread)
    (e x : FiberAndThread) :
    (log ++ [e]).count x = log.count x + (decide (e = x)).toNat := by
  rw [List.count_append, List.count_singleton']
  by_cases h : e = x <;> simp [h]

theorem Conserves.runStep (hc : s.Conserves) (hw : w < s.threads)
    (h : s.runStep w b = some s') : s'.Conserves := by
  obtain ⟨hbooks, hframe, hfits⟩ := runStep_moves h
  obtain ⟨hcounted, hheld⟩ := counts_move hframe hw
  have hactive := hc.active
  have hledger := hc.ledger
  have hfits' : ∀ v, (s'.workers v).pc.Fits := by
    intro v
    by_cases hv : v = w
    · rw [hv]
      exact hfits (hc.fits w)
    · rw [hframe.2 v hv]
      exact hc.fits v
  generalize hk : s'.books = k at hbooks
  cases hbooks with
  | quiet hcnt hh =>
      simp only [books, Books.mk.injEq] at hk
      obtain ⟨h1, h2, h3, h4, h5, h6⟩ := hk
      rw [hcnt] at hcounted
      rw [hh] at hheld
      refine hc.same_queue h1 h2 h3 (by omega) (fun x => ?_) hfits'
      have hx := hheld x
      rw [h4, h5]
      omega
  | take hpc hpc' hq hpre he =>
      rename_i pre post e
      simp only [books, Books.mk.injEq] at hk hq
      obtain ⟨h1, h2, h3, h4, h5, h6⟩ := hk
      have hperm := take_perm pre post s.removed e
      rw [← hq, ← h1, ← h3] at hperm
      simp only [hpc, hpc', WorkerPc.counted, WorkerPc.held, reduceCtorEq,
        decide_false, Option.some.injEq, Bool.toNat_false, Bool.toNat_true]
        at hcounted hheld
      refine ⟨?_, (hperm.map _).nodup_iff.mpr hc.nodup, by omega,
        fun x => ?_, hfits'⟩
      · intro x hx
        rw [h2]
        exact hc.fresh x (hperm.mem_iff.mp hx)
      · have hx := hheld x
        have hl := hledger x
        rw [h3, h4, h5, count_logged]
        omega
  | execute hpc hpc' =>
      simp only [books, Books.mk.injEq] at hk
      obtain ⟨h1, h2, h3, h4, h5, h6⟩ := hk
      simp only [hpc, hpc', WorkerPc.counted, WorkerPc.held, reduceCtorEq,
        decide_false, Option.some.injEq, Bool.toNat_false, Bool.toNat_true]
        at hcounted hheld
      refine hc.same_queue h1 h2 h3 (by omega) (fun x => ?_) hfits'
      have hx := hheld x
      rw [h4, h5, count_logged]
      omega
  | drop hpc hpc' htask hdead =>
      simp only [books, Books.mk.injEq] at hk
      obtain ⟨h1, h2, h3, h4, h5, h6⟩ := hk
      simp only [hpc, hpc', WorkerPc.counted, WorkerPc.held, reduceCtorEq,
        decide_false, Option.some.injEq, Bool.toNat_false, Bool.toNat_true]
        at hcounted hheld
      refine hc.same_queue h1 h2 h3 (by omega) (fun x => ?_) hfits'
      have hx := hheld x
      rw [h4, h5, count_logged]
      omega
  | decrement hcnt hcnt' hh hh' =>
      simp only [books, Books.mk.injEq] at hk
      obtain ⟨h1, h2, h3, h4, h5, h6⟩ := hk
      simp only [hcnt, hcnt', hh, hh', Bool.toNat_false, Bool.toNat_true]
        at hcounted hheld
      refine hc.same_queue h1 h2 h3 (by omega) (fun x => ?_) hfits'
      have hx := hheld x
      rw [h4, h5]
      omega
  | requeue hcnt hcnt' hh hh' =>
      rename_i f
      have hpush := hc.push (some (.fiber f)) none
      simp only [books, Books.mk.injEq] at hk
      obtain ⟨h1, h2, h3, h4, h5, h6⟩ := hk
      simp only [hcnt, hcnt', hh, hh', Bool.toNat_false] at hcounted hheld
      refine ⟨?_, ?_, by omega, fun x => ?_, hfits'⟩
      · rw [h1, h2, h3]
        exact hpush.fresh
      · rw [h1, h3]
        exact hpush.nodup
      · have hx := hheld x
        have hl := hledger x
        rw [h3, h4, h5]
        omega

/-- A step of the system keeps the invariant. -/
theorem Conserves.step {a : SchedAct} (hc : s.Conserves)
    (h : s.step a = some s') : s'.Conserves := by
  cases a with
  | newFiber cb =>
      cases h
      exact ⟨hc.fresh, hc.nodup, hc.active, hc.ledger, hc.fits⟩
  | schedule task threadId =>
      simp only [Scheduler.step] at h
      split at h
      next =>
          cases h
          exact hc.push task threadId
      next => cases h
  | scheduleAll tasks =>
      simp only [Scheduler.step] at h
      split at h
      next =>
          cases h
          exact Conserves.pushAll tasks hc
      next => cases h
  | run w b =>
      simp only [Scheduler.step] at h
      split at h
      next hw => exact hc.runStep hw h
      next => cases h

-- ============================================================= what steps do

/-- A step that takes an entry takes the first one eligible for the
worker and keeps the order of the rest; any other step only adds entries
at the end. -/
def RemovesFirst (s : Scheduler) (a : SchedAct) (s' : Scheduler) : Prop :=
  (∃ w b pre e post, a = .run w b ∧ s.fibers = pre ++ e :: post
      ∧ (∀ x ∈ pre, eligible s.heap w x = false)
      ∧ eligible s.heap w e = true
      ∧ s'.fibers = pre ++ post ∧ s'.removed = s.removed ++ [e])
    ∨ ∃ new, s'.fibers = s.fibers ++ new ∧ s'.removed = s.removed

/-- A step that drops an entry saw its fiber in `TERM` or `EXCEPT`. -/
def DropsDead (s : Scheduler) (a : SchedAct) (s' : Scheduler) : Prop :=
  s'.dropped = s.dropped
    ∨ ∃ w b e f, a = .run w b ∧ (s.workers w).pc = .took e
      ∧ e.task = .fiber f ∧ (s.heap f).state.dead = true
      ∧ s'.dropped = s.dropped ++ [e]

/-- Pushing tasks only adds entries at the end. -/
private theorem pushAll_books (tasks : List (Option Task)) :
    ∀ s : Scheduler, ∃ new,
      (tasks.foldl (fun s t => s.scheduleNoLock t none) s).fibers
          = s.fibers ++ new
        ∧ (tasks.foldl (fun s t => s.scheduleNoLock t none) s).removed
          = s.removed
        ∧ (tasks.foldl (fun s t => s.scheduleNoLock t none) s).dropped
          = s.dropped := by
  induction tasks with
  | nil => exact fun s => ⟨[], (List.append_nil _).symm, rfl, rfl⟩
  | cons t tasks ih =>
      intro s
      obtain ⟨new, h1, h2, h3⟩ := ih (s.scheduleNoLock t none)
      cases t with
      | none => exact ⟨new, h1, h2, h3⟩
      | some t =>
          refine ⟨⟨s.pushed, t, none⟩ :: new, ?_, h2, h3⟩
          rw [List.foldl_cons, h1]
          simp [scheduleNoLock]

theorem step_effects {a : SchedAct} (h : s.step a = some s') :
    RemovesFirst s a s' ∧ DropsDead s a s' := by
  cases a with
  | newFiber cb =>
      cases h
      exact ⟨.inr ⟨[], (List.append_nil _).symm, rfl⟩, .inl rfl⟩
  | schedule task threadId =>
      simp only [step] at h
      split at h
      next =>
          cases h
          cases task with
          | none => exact ⟨.inr ⟨[], (List.append_nil _).symm, rfl⟩, .inl rfl⟩
          | some t => exact ⟨.inr ⟨_, rfl, rfl⟩, .inl rfl⟩
      next => cases h
  | scheduleAll tasks =>
      simp only [step] at h
      split at h
      next =>
          cases h
          obtain ⟨new, h1, h2, h3⟩ := pushAll_books tasks s
          exact ⟨.inr ⟨new, h1, h2⟩, .inl h3⟩
      next => cases h
  | run w b =>
      simp only [step] at h
      split at h
      next hw =>
          obtain ⟨hbooks, -, -⟩ := runStep_moves h
          generalize hk : s'.books = k at hbooks
          cases hbooks with
          | quiet hcnt hh =>
              simp only [books, Books.mk.injEq] at hk
              obtain ⟨h1, h2, h3, h4, h5, h6⟩ := hk
              exact ⟨.inr ⟨[], by simp [h1], h3⟩, .inl h5⟩
          | take hpc hpc' hq hpre he =>
              simp only [books, Books.mk.injEq] at hk
              obtain ⟨h1, h2, h3, h4, h5, h6⟩ := hk
              exact ⟨.inl ⟨w, b, _, _, _, rfl, hq, hpre, he, h1, h3⟩, .inl h5⟩
          | execute hpc hpc' =>
              simp only [books, Books.mk.injEq] at hk
              obtain ⟨h1, h2, h3, h4, h5, h6⟩ := hk
              exact ⟨.inr ⟨[], by simp [h1], h3⟩, .inl h5⟩
          | drop hpc hpc' htask hdead =>
              simp only [books, Books.mk.injEq] at hk
              obtain ⟨h1, h2, h3, h4, h5, h6⟩ := hk
              exact ⟨.inr ⟨[], by simp [h1], h3⟩,
                .inr ⟨w, b, _, _, rfl, hpc, htask, hdead, h5⟩⟩
          | decrement hcnt hcnt' hh hh' =>
              simp only [books, Books.mk.injEq] at hk
              obtain ⟨h1, h2, h3, h4, h5, h6⟩ := hk
              exact ⟨.inr ⟨[], by simp [h1], h3⟩, .inl h5⟩
          | requeue hcnt hcnt' hh hh' =>
              simp only [books, Books.mk.injEq] at hk
              obtain ⟨h1, h2, h3, h4, h5, h6⟩ := hk
              exact ⟨.inr ⟨_, h1, h3⟩, .inl h5⟩
      next => cases h

end Scheduler

end TinyServer
