/-
A fiber runs on one worker at a time, when it is scheduled in order.

# What goes wrong

The queue is guarded by the state of a fiber alone: an entry is passed
over while its fiber is in `EXEC`. `YieldToReady` and `MainFunc` write
another state before `swapOut` is through, so a fiber that was scheduled
while it ran can be taken by a second worker in between; and of two
entries of one fiber both can be taken before either worker has swapped
in.

# What is enough

A fiber is scheduled only while it is not queued and every worker that
has it has swapped it in and finds it in `EXEC`; and a fiber that is
queued leaves the processor by `YieldToHold` only (`Orderly`). Then a
fiber has one owner (`Tidy.alone`): the worker that took it from the
queue, is swapping into it, runs it, or keeps it as its `cb_fiber`.
-/
import TinyServer.Scheduler.Proofs.Conserve

namespace TinyServer

open Lib

-- ================================================================== the owners

/-- The fiber of a queue entry. -/
def FiberAndThread.fiber? (e : FiberAndThread) : Option Nat :=
  match e.task with
  | .fiber f => some f
  | .cb _ => none

/-- The fiber that a worker at this place is about to run, runs or has
run. -/
def WorkerPc.fiber? : WorkerPc → Option Nat
  | .took e => e.fiber?
  | .swapping _ f _ => some f
  | .inside f _ => some f
  | .leaving f _ => some f
  | .back f _ => some f
  | .settled f _ => some f
  | .requeue f _ => some f
  | .renew f => some f
  | .park f _ => some f
  | _ => none

/-- A place between `swapIn` and the end of the look at the state. -/
def WorkerPc.swappedIn : WorkerPc → Bool
  | .inside _ _ => true
  | .leaving _ _ => true
  | .back _ _ => true
  | .settled _ _ => true
  | .park _ _ => true
  | _ => false

/-- The worker has swapped in `f` and not yet dealt with its state. -/
def WorkerPc.Has (pc : WorkerPc) (f : Nat) : Prop :=
  pc.fiber? = some f ∧ pc.swappedIn = true

/-- The worker has the fiber `f` at its place or as its `cb_fiber`. -/
def Worker.Owns (k : Worker) (f : Nat) : Prop :=
  k.pc.fiber? = some f ∨ k.cbFiber = some f

namespace Scheduler

/-- The fibers in the queue. -/
def queued (s : Scheduler) : List Nat :=
  s.fibers.filterMap FiberAndThread.fiber?

/-- The context of the fiber executes on worker `w`: its `swapIn` has
begun and its `swapOut` is not through. -/
def RunsOn (s : Scheduler) (f w : Nat) : Prop :=
  ∃ viaCb, (s.workers w).pc = .inside f viaCb
    ∨ (s.workers w).pc = .leaving f viaCb

/-- No fiber runs on two workers. -/
def Exclusive (s : Scheduler) : Prop :=
  ∀ f v w, s.RunsOn f v → s.RunsOn f w → v = w

/-- The fiber can be scheduled in order: it is not queued, and a worker
that has it has swapped it in and it is in `EXEC`. -/
def Awaitable (s : Scheduler) (f : Nat) : Prop :=
  f ∉ s.queued ∧ ∀ w, (s.workers w).Owns f →
    (s.heap f).state = .exec ∧ (s.workers w).pc.Has f

/-- The fibers of a list of tasks. -/
def taskFibers (tasks : List (Option Task)) : List Nat :=
  tasks.filterMap fun t =>
    match t with
    | some (.fiber f) => some f
    | _ => none

/-- The step is in order: it schedules fibers that can be, each once; a
fiber that is queued leaves by `YieldToHold`. -/
def Orderly (s : Scheduler) : SchedAct → Prop
  | .newFiber _ => True
  | .schedule task _ => ∀ f ∈ taskFibers [task], s.Awaitable f
  | .scheduleAll tasks =>
      (taskFibers tasks).Nodup ∧ ∀ f ∈ taskFibers tasks, s.Awaitable f
  | .run w b => ∀ f viaCb, (s.workers w).pc = .inside f viaCb →
      b = .yieldHold ∨ f ∉ s.queued

/-- The place of a worker fits its `cb_fiber` and the state of its
fiber. -/
def Coherent (heap : Nat → Fiber) (k : Worker) : Prop :=
  match k.pc with
  | .took e => ∀ f, e.fiber? = some f → k.cbFiber ≠ some f
  | .swapping _ f viaCb => k.cbFiber = some f ↔ viaCb = true
  | .inside f viaCb =>
      (k.cbFiber = some f ↔ viaCb = true) ∧ (heap f).state = .exec
  | .leaving f viaCb => k.cbFiber = some f ↔ viaCb = true
  | .back f viaCb => k.cbFiber = some f ↔ viaCb = true
  | .settled f viaCb => k.cbFiber = some f ↔ viaCb = true
  | .requeue f viaCb => k.cbFiber = some f ↔ viaCb = true
  | .renew f => k.cbFiber = some f
  | .park f viaCb => k.cbFiber = some f ↔ viaCb = true
  | _ => True

/-- What holds in every state of an orderly run. -/
structure Tidy (s : Scheduler) : Prop where
  /-- A fiber has one owner. -/
  alone : ∀ f v w, (s.workers v).Owns f → (s.workers w).Owns f → v = w
  /-- A fiber is queued once. -/
  once : s.queued.Nodup
  /-- The owner of a queued fiber has swapped it in, and it is in
  `EXEC`. -/
  awake : ∀ f ∈ s.queued, ∀ w, (s.workers w).Owns f →
    (s.heap f).state = .exec ∧ (s.workers w).pc.Has f
  coherent : ∀ w, Coherent s.heap (s.workers w)
  /-- The fibers in the queue and of the workers have been made. -/
  known : ∀ f, (f ∈ s.queued ∨ ∃ w, (s.workers w).Owns f) → f < s.nextFiber

variable {s s' : Scheduler} {w : Nat} {b : Behaviour}

theorem RunsOn.owns {f : Nat} (h : s.RunsOn f w) : (s.workers w).Owns f := by
  obtain ⟨viaCb, hpc | hpc⟩ := h
  · exact .inl (by rw [hpc]; rfl)
  · exact .inl (by rw [hpc]; rfl)

theorem Tidy.exclusive (h : s.Tidy) : s.Exclusive :=
  fun f v w hv hw => h.alone f v w hv.owns hw.owns

theorem tidy_init (threads : Nat) : (init threads).Tidy where
  alone := by
    rintro f v w (h | h) <;> cases h
  once := List.nodup_nil
  awake := fun f hf => by cases hf
  coherent := fun _ => trivial
  known := by
    rintro f (h | ⟨w, h | h⟩) <;> cases h

/-- The place of a worker is about the state of the fiber it owns. -/
theorem coherent_congr {heap heap' : Nat → Fiber} {k : Worker}
    (h : Coherent heap k)
    (hsame : ∀ f, k.Owns f → (heap' f).state = (heap f).state) :
    Coherent heap' k := by
  unfold Coherent at *
  cases hpc : k.pc with
  | inside f viaCb =>
      rw [hpc] at h
      have hf : k.Owns f := .inl (by rw [hpc]; rfl)
      exact ⟨h.1, (hsame f hf).trans h.2⟩
  | _ =>
      rw [hpc] at h
      exact h

/-- A step of the worker `w` that leaves the other workers and the states
of their fibers alone keeps the invariant. -/
theorem Tidy.move (h : s.Tidy)
    (hothers : ∀ v, v ≠ w → s'.workers v = s.workers v)
    (hown : ∀ f, (s'.workers w).Owns f →
      (s.workers w).Owns f ∨ ∀ v, ¬ (s.workers v).Owns f)
    (hheap : ∀ f v, v ≠ w → (s.workers v).Owns f →
      (s'.heap f).state = (s.heap f).state)
    (honce : s'.queued.Nodup)
    (hqueue : ∀ f ∈ s'.queued, f ∈ s.queued ∨
      ∀ v, v ≠ w → ¬ (s.workers v).Owns f)
    (hself : ∀ f ∈ s'.queued, (s'.workers w).Owns f →
      (s'.heap f).state = .exec ∧ (s'.workers w).pc.Has f)
    (hco : Coherent s'.heap (s'.workers w))
    (hknown : ∀ f, (f ∈ s'.queued ∨ (s'.workers w).Owns f) →
      f < s'.nextFiber)
    (hnext : s.nextFiber ≤ s'.nextFiber) : s'.Tidy := by
  refine ⟨?_, honce, ?_, ?_, ?_⟩
  · intro f u v hu hv
    by_cases huw : u = w
    · by_cases hvw : v = w
      · rw [huw, hvw]
      · rw [huw] at hu
        rw [hothers v hvw] at hv
        rcases hown f hu with hw | hnone
        · exact huw.trans (h.alone f w v hw hv)
        · exact absurd hv (hnone v)
    · rw [hothers u huw] at hu
      by_cases hvw : v = w
      · rw [hvw] at hv
        rcases hown f hv with hw | hnone
        · exact (h.alone f u w hu hw).trans hvw.symm
        · exact absurd hu (hnone u)
      · rw [hothers v hvw] at hv
        exact h.alone f u v hu hv
  · intro f hf v hv
    by_cases hvw : v = w
    · subst hvw
      exact hself f hf hv
    · rw [hothers v hvw] at hv ⊢
      rcases hqueue f hf with hq | hno
      · rw [hheap f v hvw hv]
        exact h.awake f hq v hv
      · exact absurd hv (hno v hvw)
  · intro v
    by_cases hvw : v = w
    · exact hvw ▸ hco
    · rw [hothers v hvw]
      exact coherent_congr (h.coherent v) fun f hf => hheap f v hvw hf
  · intro f hor
    rcases hor with hf | ⟨v, hv⟩
    · exact hknown f (.inl hf)
    · by_cases hvw : v = w
      · exact hknown f (.inr (hvw ▸ hv))
      · rw [hothers v hvw] at hv
        exact Nat.lt_of_lt_of_le (h.known f (.inr ⟨v, hv⟩)) hnext

/-- A step that leaves the queue alone and writes the worker's own fibers
only. -/
theorem Tidy.turn (h : s.Tidy) {t : Scheduler} {k : Worker}
    (hworkers : t.workers = s.workers) (hfibers : t.fibers = s.fibers)
    (hnext : t.nextFiber = s.nextFiber)
    (hheap : ∀ f, (t.heap f).state ≠ (s.heap f).state →
      (s.workers w).Owns f)
    (hown : ∀ f, k.Owns f → (s.workers w).Owns f)
    (hself : ∀ f ∈ s.queued, k.Owns f →
      (t.heap f).state = .exec ∧ k.pc.Has f)
    (hco : Coherent t.heap k) : (t.setWorker w k).Tidy := by
  have hk : (t.setWorker w k).workers w = k := if_pos rfl
  have hq : (t.setWorker w k).queued = s.queued :=
    congrArg (List.filterMap FiberAndThread.fiber?) hfibers
  refine h.move (w := w) (fun v hv => ?_) (fun f hf => ?_) (fun f v hv hf => ?_)
    (hq ▸ h.once) (fun f hf => .inl (hq ▸ hf)) ?_ (hk.symm ▸ hco) ?_
    (Nat.le_of_eq hnext.symm)
  · exact (if_neg hv).trans (congrFun hworkers v)
  · rw [hk] at hf
    exact .inl (hown f hf)
  · by_contra hne
    exact hv (h.alone f v w hf (hheap f hne))
  · rw [hq, hk]
    exact hself
  · rw [hq, hk]
    intro f hf
    show f < t.nextFiber
    rw [hnext]
    exact h.known f (hf.imp_right fun ho => ⟨w, hown f ho⟩)

/-- A fiber that its owner has not swapped in is not queued. -/
theorem Tidy.not_queued (h : s.Tidy)
    (hpc : (s.workers w).pc.swappedIn = false) {f : Nat}
    (hf : (s.workers w).Owns f) : f ∉ s.queued := by
  intro hq
  exact absurd ((h.awake f hq w hf).2.2.symm.trans hpc) (by decide)

/-- A step from a place at which the worker has swapped in nothing. -/
theorem Tidy.turn_idle (h : s.Tidy) {t : Scheduler} {k : Worker}
    (hpc : (s.workers w).pc.swappedIn = false)
    (hworkers : t.workers = s.workers) (hfibers : t.fibers = s.fibers)
    (hnext : t.nextFiber = s.nextFiber)
    (hheap : ∀ f, (t.heap f).state ≠ (s.heap f).state →
      (s.workers w).Owns f)
    (hown : ∀ f, k.Owns f → (s.workers w).Owns f)
    (hco : Coherent t.heap k) : (t.setWorker w k).Tidy :=
  h.turn hworkers hfibers hnext hheap hown
    (fun f hq hf => absurd hq (h.not_queued hpc (hown f hf))) hco

theorem setFiber_state_ne {f g : Nat} {x : Fiber}
    (hne : ((s.setFiber f x).heap g).state ≠ (s.heap g).state) : g = f := by
  by_contra hg
  exact hne (by simp only [setFiber, hg, if_false])

theorem setFiber_heap_self {f : Nat} {x : Fiber} :
    (s.setFiber f x).heap f = x := if_pos rfl

-- ================================================================= the queue

theorem not_executing {heap : Nat → Fiber} {e : FiberAndThread} {f : Nat}
    (he : eligible heap w e = true) (hf : e.fiber? = some f) :
    (heap f).state ≠ .exec := by
  obtain ⟨id, task, threadId⟩ := e
  cases task with
  | fiber g =>
      cases hf
      simp only [eligible, executing, Bool.not_or, Bool.and_eq_true,
        Bool.not_eq_true', decide_eq_false_iff_not] at he
      exact he.2
  | cb c => cases hf

/-- Nobody owns the fiber of an entry that can be taken. -/
theorem Tidy.unowned (h : s.Tidy) {e : FiberAndThread} {f : Nat}
    (hmem : e ∈ s.fibers) (he : eligible s.heap w e = true)
    (hf : e.fiber? = some f) (v : Nat) : ¬ (s.workers v).Owns f := by
  intro hv
  have hq : f ∈ s.queued := List.mem_filterMap.mpr ⟨e, hmem, hf⟩
  exact not_executing he hf (h.awake f hq v hv).1

theorem Tidy.dequeue (h : s.Tidy) (hpc : (s.workers w).pc = .top) :
    (s.dequeue w).Tidy := by
  have hidle : (s.workers w).pc.swappedIn = false := by
    rw [hpc]
    rfl
  rw [Scheduler.dequeue]
  split
  next e rest hscan =>
      obtain ⟨pre, post, hfibers, rfl, -, he⟩ := scan_eq_some hscan
      have hmem : e ∈ s.fibers := by
        rw [hfibers]
        exact List.mem_append_right pre List.mem_cons_self
      have hsub : ((pre ++ post).filterMap FiberAndThread.fiber?).Sublist
          s.queued := by
        rw [queued, hfibers]
        exact ((List.sublist_cons_self e post).append_left pre).filterMap _
      have hfree := fun f hf v => h.unowned (f := f) hmem he hf v
      refine h.move (w := w) (fun v hv => if_neg hv) ?_ (fun _ _ _ _ => rfl)
        (h.once.sublist hsub) (fun f hf => .inl (hsub.subset hf)) ?_ ?_ ?_
        (Nat.le_refl _)
      · intro f hf
        rw [setPc, setWorker_pc] at hf
        exact hf.elim (fun hf => .inr (hfree f hf)) (fun hf => .inl (.inr hf))
      · intro f hq hf
        rw [setPc, setWorker_pc] at hf
        rcases hf with hf | hf
        · -- the entry was the only one of its fiber
          have hfiber : e.fiber? = some f := hf
          have hnodup := h.once
          rw [queued, hfibers, List.filterMap_append, List.filterMap_cons,
            hfiber] at hnodup
          have hnot := (List.nodup_middle.mp hnodup).notMem
          rw [← List.filterMap_append] at hnot
          exact absurd hq hnot
        · exact absurd (hsub.subset hq) (h.not_queued hidle (.inr hf))
      · rw [setPc, setWorker_pc]
        exact fun f hf hcb => hfree f hf w (.inr hcb)
      · rw [setPc, setWorker_pc]
        intro f hf
        rcases hf with hf | hf | hf
        · exact h.known f (.inl (hsub.subset hf))
        · exact h.known f (.inl (List.mem_filterMap.mpr ⟨e, hmem, hf⟩))
        · exact h.known f (.inr ⟨w, .inr hf⟩)
  next =>
      refine h.turn_idle hidle rfl rfl rfl (fun f hne => absurd rfl hne) ?_
        trivial
      intro f hf
      rcases hf with hf | hf
      · cases hf
      · exact .inr hf

theorem queued_push {task : Option Task} {threadId : Option Nat} :
    (s.scheduleNoLock task threadId).queued
      = s.queued ++ taskFibers [task] := by
  cases task with
  | none => exact (List.append_nil _).symm
  | some t =>
      cases t with
      | fiber f => exact List.filterMap_append
      | cb c => exact List.filterMap_append

/-- Scheduling a fiber that can be. -/
theorem Tidy.push (h : s.Tidy) {task : Option Task} {threadId : Option Nat}
    (hs : s.schedulable task = true)
    (ha : ∀ f ∈ taskFibers [task], s.Awaitable f) :
    (s.scheduleNoLock task threadId).Tidy := by
  have hworkers : (s.scheduleNoLock task threadId).workers = s.workers := by
    cases task <;> rfl
  have hheap : (s.scheduleNoLock task threadId).heap = s.heap := by
    cases task <;> rfl
  have hnext : (s.scheduleNoLock task threadId).nextFiber = s.nextFiber := by
    cases task <;> rfl
  constructor
  · rw [hworkers]
    exact h.alone
  · rw [queued_push]
    refine List.nodup_append.mpr ⟨h.once, ?_, ?_⟩
    · rcases task with _ | (f | c)
      · exact List.nodup_nil
      · exact List.pairwise_singleton _ f
      · exact List.nodup_nil
    · intro f hf g hg heq
      subst heq
      exact (ha f hg).1 hf
  · rw [queued_push, hworkers, hheap]
    intro f hf
    rcases List.mem_append.mp hf with hf | hf
    · exact h.awake f hf
    · exact (ha f hf).2
  · rw [hworkers, hheap]
    exact h.coherent
  · rw [queued_push, hworkers, hnext]
    intro f hf
    rcases hf with hf | hf
    · rcases List.mem_append.mp hf with hf | hf
      · exact h.known f (.inl hf)
      · rcases task with _ | (g | c)
        · cases hf
        · rw [List.mem_singleton.mp hf]
          exact of_decide_eq_true hs
        · cases hf
    · exact h.known f (.inr hf)

theorem taskFibers_cons {task : Option Task} {tasks : List (Option Task)} :
    taskFibers (task :: tasks) = taskFibers [task] ++ taskFibers tasks := by
  rcases task with _ | (f | c) <;> rfl

/-- Scheduling a list of fibers that can be, each once. -/
theorem Tidy.pushAll (tasks : List (Option Task)) :
    ∀ {s : Scheduler}, s.Tidy → tasks.all s.schedulable = true →
      (taskFibers tasks).Nodup → (∀ f ∈ taskFibers tasks, s.Awaitable f) →
      (tasks.foldl (fun s t => s.scheduleNoLock t none) s).Tidy := by
  induction tasks with
  | nil => exact fun h _ _ _ => h
  | cons task tasks ih =>
      intro s h hs hnodup ha
      obtain ⟨hs₁, hs₂⟩ := Bool.and_eq_true_iff.mp hs
      rw [taskFibers_cons] at hnodup ha
      obtain ⟨-, hrest, hapart⟩ := List.nodup_append.mp hnodup
      have hpush : (s.scheduleNoLock task none).Tidy :=
        h.push hs₁ fun f hf => ha f (List.mem_append_left _ hf)
      have hworkers : (s.scheduleNoLock task none).workers = s.workers := by
        cases task <;> rfl
      have hheap : (s.scheduleNoLock task none).heap = s.heap := by
        cases task <;> rfl
      have hnext : (s.scheduleNoLock task none).schedulable
          = s.schedulable := by
        cases task <;> rfl
      refine ih hpush (hnext ▸ hs₂) hrest fun f hf => ?_
      obtain ⟨hq, hown⟩ := ha f (List.mem_append_right _ hf)
      refine ⟨?_, ?_⟩
      · rw [queued_push, List.mem_append, not_or]
        exact ⟨hq, fun hf' => hapart f hf' f hf rfl⟩
      · rw [hworkers, hheap]
        exact hown

-- ================================================================ the workers

/-- The worker's place after a step that keeps its `cb_fiber`. -/
theorem owns_pc {k : Worker} {pc : WorkerPc} {f : Nat}
    (hpc : pc.fiber? = none ∨ pc.fiber? = k.pc.fiber?)
    (hf : Worker.Owns { k with pc := pc } f) : k.Owns f := by
  rcases hf with hf | hf
  · rcases hpc with hnone | hsame
    · exact absurd (hnone.symm.trans hf) (Option.some_ne_none f).symm
    · exact .inl (hsame.symm.trans hf)
  · exact .inr hf

/-- What a worker still has after it has let go of its fiber. -/
theorem owns_released {k : Worker} {f g : Nat} {viaCb : Bool}
    (hco : k.cbFiber = some f ↔ viaCb = true)
    (hg : Worker.Owns { k with
      pc := .top
      cbFiber := if viaCb then none else k.cbFiber } g) :
    k.Owns g ∧ g ≠ f := by
  rcases hg with hg | hg
  · cases hg
  · cases viaCb with
    | true => cases hg
    | false =>
        refine ⟨.inr hg, ?_⟩
        intro heq
        subst heq
        exact Bool.false_ne_true (hco.mp hg)

/-- A step that moves the worker on, from a place without a fiber that is
swapped in, and writes nothing. -/
private theorem Tidy.goto (h : s.Tidy) {t : Scheduler} {pc : WorkerPc}
    (hidle : (s.workers w).pc.swappedIn = false)
    (hworkers : t.workers = s.workers) (hfibers : t.fibers = s.fibers)
    (hnext : t.nextFiber = s.nextFiber) (hheap : t.heap = s.heap)
    (hpc : pc.fiber? = none ∨ pc.fiber? = (s.workers w).pc.fiber?)
    (hco : Coherent s.heap { s.workers w with pc := pc }) :
    (t.setPc w pc).Tidy := by
  rw [setPc, hworkers]
  refine h.turn_idle hidle hworkers hfibers hnext (fun f hne => ?_)
    (fun f hf => owns_pc hpc hf) (hheap ▸ hco)
  rw [hheap] at hne
  exact absurd rfl hne

/-- A step that moves the worker on with its fiber and writes nothing. -/
private theorem Tidy.carry (h : s.Tidy) {t : Scheduler} {pc : WorkerPc}
    (hworkers : t.workers = s.workers) (hfibers : t.fibers = s.fibers)
    (hnext : t.nextFiber = s.nextFiber) (hheap : t.heap = s.heap)
    (hpc : pc.fiber? = (s.workers w).pc.fiber?) (hin : pc.swappedIn = true)
    (hco : Coherent s.heap { s.workers w with pc := pc }) :
    (t.setPc w pc).Tidy := by
  rw [setPc, hworkers]
  refine h.turn hworkers hfibers hnext (fun f hne => ?_)
    (fun f hf => owns_pc (.inr hpc) hf) (fun f hq hf => ?_) (hheap ▸ hco)
  · rw [hheap] at hne
    exact absurd rfl hne
  · obtain ⟨hexec, hhas⟩ := h.awake f hq w (owns_pc (.inr hpc) hf)
    exact ⟨hheap ▸ hexec, hpc.trans hhas.1, hin⟩

/-- A step of the idle fiber. -/
private theorem Tidy.idle (h : s.Tidy) {t : Scheduler} {k : Worker}
    (hidle : (s.workers w).pc.swappedIn = false)
    (hworkers : t.workers = s.workers) (hfibers : t.fibers = s.fibers)
    (hnext : t.nextFiber = s.nextFiber) (hheap : t.heap = s.heap)
    (hpc : k.pc.fiber? = none) (hcb : k.cbFiber = (s.workers w).cbFiber)
    (hco : Coherent s.heap k) : (t.setWorker w k).Tidy := by
  refine h.turn_idle hidle hworkers hfibers hnext (fun f hne => ?_) ?_
    (hheap ▸ hco)
  · rw [hheap] at hne
    exact absurd rfl hne
  · intro f hf
    rcases hf with hf | hf
    · exact absurd (hpc.symm.trans hf) (Option.some_ne_none f).symm
    · exact .inr (hcb.symm.trans hf)

/-- A worker without a `cb_fiber` makes one. -/
private theorem Tidy.wrapNew (h : s.Tidy) {e : FiberAndThread} {c : Nat} :
    (({ s with nextFiber := s.nextFiber + 1 }.setFiber s.nextFiber
      (Fiber.new (some c))).setWorker w { s.workers w with
        pc := .swapping e s.nextFiber true
        cbFiber := some s.nextFiber }).Tidy := by
  have hfree : ∀ v, ¬ (s.workers v).Owns s.nextFiber := fun v hv =>
    Nat.lt_irrefl _ (h.known _ (.inr ⟨v, hv⟩))
  have hnew : ∀ {f}, Worker.Owns { s.workers w with
      pc := .swapping e s.nextFiber true
      cbFiber := some s.nextFiber } f → f = s.nextFiber := by
    intro f hf
    rcases hf with hf | hf
    · exact (Option.some.inj hf).symm
    · exact (Option.some.inj hf).symm
  refine h.move (w := w) (fun v hv => if_neg hv) ?_ ?_ h.once
    (fun f hf => .inl hf) ?_ ?_ ?_ (Nat.le_succ _)
  · intro f hf
    rw [setWorker_pc] at hf
    exact .inr (hnew hf ▸ hfree)
  · intro f v _ hf
    by_contra hne
    have hfn : f = s.nextFiber := setFiber_state_ne hne
    exact hfree v (hfn ▸ hf)
  · intro f hq hf
    rw [setWorker_pc] at hf
    rw [hnew hf] at hq
    exact absurd (h.known _ (.inl hq)) (Nat.lt_irrefl _)
  · rw [setWorker_pc]
    exact iff_of_true rfl rfl
  · rw [setWorker_pc]
    intro f hf
    rcases hf with hf | hf
    · exact Nat.lt_succ_of_lt (h.known f (.inl hf))
    · exact hnew hf ▸ Nat.lt_succ_self _

/-- The fiber leaves the processor; if it is queued, it stays in
`EXEC`. -/
private theorem Tidy.leaveFiber (h : s.Tidy) {f : Nat} {viaCb : Bool}
    {x : Fiber} (hpc : (s.workers w).pc = .inside f viaCb)
    (hx : (s.heap f).leave b = some x)
    (hok : b = .yieldHold ∨ f ∉ s.queued)
    (hco : (s.workers w).cbFiber = some f ↔ viaCb = true) :
    ((s.setFiber f x).setPc w (.leaving f viaCb)).Tidy := by
  have hsame : (WorkerPc.leaving f viaCb).fiber?
      = (s.workers w).pc.fiber? := by
    rw [hpc]
    rfl
  refine h.turn rfl rfl rfl (fun g hne => ?_)
    (fun g hg => owns_pc (.inr hsame) hg) (fun g hq hg => ?_) hco
  · rw [setFiber_state_ne hne]
    exact .inl (by rw [hpc]; rfl)
  · obtain ⟨hexec, hhas⟩ := h.awake g hq w (owns_pc (.inr hsame) hg)
    refine ⟨?_, hsame.trans hhas.1, rfl⟩
    have hgf : g = f := by
      have hpcg := hhas.1
      rw [hpc] at hpcg
      exact (Option.some.inj hpcg).symm
    rw [hgf] at hq hexec ⊢
    rw [setFiber_heap_self]
    rw [hok.resolve_right fun hn => hn hq, Fiber.leave] at hx
    split at hx
    next => cases hx
    next =>
        cases hx
        exact hexec

/-- `schedule` of the fiber that has yielded. -/
private theorem Tidy.requeueFiber (h : s.Tidy) {f : Nat} {viaCb : Bool}
    (hpc : (s.workers w).pc = .requeue f viaCb)
    (hco : (s.workers w).cbFiber = some f ↔ viaCb = true) :
    ((s.scheduleNoLock (some (.fiber f)) none).setWorker w { s.workers w with
      pc := .top
      cbFiber := if viaCb then none else (s.workers w).cbFiber }).Tidy := by
  have hidle : (s.workers w).pc.swappedIn = false := by rw [hpc]; rfl
  have hf : (s.workers w).Owns f := .inl (by rw [hpc]; rfl)
  have hq : ((s.scheduleNoLock (some (.fiber f)) none).setWorker w
      { s.workers w with
        pc := .top
        cbFiber := if viaCb then none else (s.workers w).cbFiber }).queued
      = s.queued ++ [f] := queued_push
  refine h.move (w := w) (fun v hv => if_neg hv) ?_ (fun _ _ _ _ => rfl)
    ?_ ?_ ?_ ?_ ?_ (Nat.le_refl _)
  · intro g hg
    rw [setWorker_pc] at hg
    exact .inl (owns_released hco hg).1
  · rw [hq]
    refine List.nodup_append.mpr
      ⟨h.once, List.pairwise_singleton _ f, ?_⟩
    intro g hg g' hg' heq
    subst heq
    rw [List.mem_singleton.mp hg'] at hg
    exact h.not_queued hidle hf hg
  · rw [hq]
    intro g hg
    rcases List.mem_append.mp hg with hg | hg
    · exact .inl hg
    · rw [List.mem_singleton.mp hg]
      exact .inr fun v hv hown => hv (h.alone f v w hown hf)
  · rw [hq, setWorker_pc]
    intro g hg hown
    obtain ⟨hown, hne⟩ := owns_released hco hown
    rcases List.mem_append.mp hg with hg | hg
    · exact absurd hg (h.not_queued hidle hown)
    · exact absurd (List.mem_singleton.mp hg) hne
  · rw [setWorker_pc]
    trivial
  · rw [hq, setWorker_pc]
    intro g hg
    rcases hg with hg | hg
    · rcases List.mem_append.mp hg with hg | hg
      · exact h.known g (.inl hg)
      · rw [List.mem_singleton.mp hg]
        exact h.known f (.inr ⟨w, hf⟩)
    · exact h.known g (.inr ⟨w, (owns_released hco hg).1⟩)

/-- `setState(HOLD)`, after which the worker lets go of the fiber. -/
private theorem Tidy.parkFiber (h : s.Tidy) {f : Nat} {viaCb : Bool}
    {x : Fiber} (hpc : (s.workers w).pc = .park f viaCb)
    (hco : (s.workers w).cbFiber = some f ↔ viaCb = true) :
    ((s.setFiber f x).setWorker w { s.workers w with
      pc := .top
      cbFiber := if viaCb then none else (s.workers w).cbFiber }).Tidy := by
  refine h.turn rfl rfl rfl (fun g hne => ?_) (fun g hg =>
    (owns_released hco hg).1)
    (fun g hq hg => ?_) trivial
  · rw [setFiber_state_ne hne]
    exact .inl (by rw [hpc]; rfl)
  · obtain ⟨hown, hne⟩ := owns_released hco hg
    have hhas := (h.awake g hq w hown).2.1
    rw [hpc] at hhas
    exact absurd (Option.some.inj hhas).symm hne

/-- The look at the state of the fiber that has left. -/
private theorem Tidy.settle (h : s.Tidy) {f : Nat} {viaCb : Bool}
    {pc : WorkerPc} (hpc : (s.workers w).pc = .settled f viaCb)
    (hstate : (s.heap f).state ≠ .exec)
    (hfiber : pc.fiber? = none ∨ pc.fiber? = some f)
    (hco : Coherent s.heap { s.workers w with pc := pc }) :
    (s.setPc w pc).Tidy := by
  have hfiber' : pc.fiber? = none
      ∨ pc.fiber? = (s.workers w).pc.fiber? := by
    rw [hpc]
    exact hfiber
  refine h.turn rfl rfl rfl (fun g hne => absurd rfl hne)
    (fun g hg => owns_pc hfiber' hg) (fun g hq hg => ?_) hco
  obtain ⟨hexec, hhas⟩ := h.awake g hq w (owns_pc hfiber' hg)
  have hpcg := hhas.1
  rw [hpc] at hpcg
  rw [← Option.some.inj hpcg] at hexec
  exact absurd hexec hstate

theorem Tidy.runStep (h : s.Tidy) (hok : s.Orderly (.run w b))
    (hs : s.runStep w b = some s') : s'.Tidy := by
  have hco := h.coherent w
  unfold Scheduler.runStep at hs
  unfold Coherent at hco
  cases hpc : (s.workers w).pc with
  | top =>
      simp only [hpc, Option.some.injEq] at hs
      subst hs
      exact h.dequeue hpc
  | took e =>
      have hidle : (s.workers w).pc.swappedIn = false := by rw [hpc]; rfl
      simp only [hpc] at hs hco
      split at hs
      next f htask =>
          have hf : e.fiber? = some f := by rw [FiberAndThread.fiber?, htask]
          split at hs
          next =>
              cases hs
              exact h.goto hidle rfl rfl rfl rfl (.inl rfl) trivial
          next =>
              cases hs
              refine h.goto hidle rfl rfl rfl rfl (.inr ?_) ?_
              · rw [hpc]
                exact hf.symm
              · exact iff_of_false (hco f hf) Bool.false_ne_true
      next c htask =>
          cases hs
          exact h.goto hidle rfl rfl rfl rfl (.inl rfl) trivial
  | wrap e c =>
      have hidle : (s.workers w).pc.swappedIn = false := by rw [hpc]; rfl
      simp only [hpc] at hs
      split at hs
      next f hf =>
          obtain ⟨x, -, hx⟩ := Option.bind_eq_some_iff.mp hs
          cases hx
          refine h.turn_idle hidle rfl rfl rfl (fun g hne => ?_) ?_ ?_
          · rw [setFiber_state_ne hne]
            exact .inr hf
          · intro g hg
            rcases hg with hg | hg
            · cases hg
              exact .inr hf
            · exact .inr hg
          · exact iff_of_true hf rfl
      next =>
          cases hs
          exact h.wrapNew
  | swapping e f viaCb =>
      have hidle : (s.workers w).pc.swappedIn = false := by rw [hpc]; rfl
      simp only [hpc] at hs hco
      obtain ⟨x, hx, hs⟩ := Option.bind_eq_some_iff.mp hs
      cases hs
      have hexec : x.state = .exec := by
        rw [Fiber.swapIn] at hx
        split at hx
        next => cases hx
        next =>
            cases hx
            rfl
      have hf : (s.workers w).Owns f := .inl (by rw [hpc]; rfl)
      refine h.turn_idle hidle rfl rfl rfl (fun g hne => ?_)
        (fun g hg => owns_pc (.inr (by rw [hpc]; rfl)) hg) ⟨hco, ?_⟩
      · rw [setFiber_state_ne hne]
        exact hf
      · rw [setFiber_heap_self]
        exact hexec
  | inside f viaCb =>
      simp only [hpc] at hs hco
      obtain ⟨x, hx, hs⟩ := Option.bind_eq_some_iff.mp hs
      cases hs
      exact h.leaveFiber hpc hx (hok f viaCb hpc) hco.1
  | leaving f viaCb =>
      simp only [hpc, Option.some.injEq] at hs hco
      subst hs
      exact h.carry rfl rfl rfl rfl (by rw [hpc]; rfl) rfl hco
  | back f viaCb =>
      simp only [hpc, Option.some.injEq] at hs hco
      subst hs
      exact h.carry rfl rfl rfl rfl (by rw [hpc]; rfl) rfl hco
  | settled f viaCb =>
      simp only [hpc] at hs hco
      split at hs
      next hready =>
          cases hs
          refine h.settle hpc ?_ (.inr rfl) hco
          rw [hready]
          exact FiberState.noConfusion
      next =>
          split at hs
          next hdead =>
              cases hs
              have hstate : (s.heap f).state ≠ .exec := by
                intro hexec
                rw [hexec] at hdead
                cases hdead
              cases viaCb with
              | true => exact h.settle hpc hstate (.inr rfl) (hco.mpr rfl)
              | false => exact h.settle hpc hstate (.inl rfl) trivial
          next =>
              cases hs
              exact h.carry rfl rfl rfl rfl (by rw [hpc]; rfl) rfl hco
  | requeue f viaCb =>
      simp only [hpc, Option.some.injEq] at hs hco
      subst hs
      exact h.requeueFiber hpc hco
  | renew f =>
      have hidle : (s.workers w).pc.swappedIn = false := by rw [hpc]; rfl
      simp only [hpc] at hs hco
      obtain ⟨x, -, hx⟩ := Option.bind_eq_some_iff.mp hs
      cases hx
      refine h.turn_idle hidle rfl rfl rfl (fun g hne => ?_)
        (fun g hg => owns_pc (.inl rfl) hg) trivial
      rw [setFiber_state_ne hne]
      exact .inr hco
  | park f viaCb =>
      simp only [hpc, Option.some.injEq] at hs hco
      subst hs
      exact h.parkFiber hpc hco
  | drop =>
      have hidle : (s.workers w).pc.swappedIn = false := by rw [hpc]; rfl
      simp only [hpc, Option.some.injEq] at hs
      subst hs
      exact h.goto hidle rfl rfl rfl rfl (.inl rfl) trivial
  | idleTest =>
      have hidle : (s.workers w).pc.swappedIn = false := by rw [hpc]; rfl
      simp only [hpc] at hs
      split at hs
      next =>
          cases hs
          exact h.goto hidle rfl rfl rfl rfl (.inl rfl) trivial
      next =>
          obtain ⟨x, -, hx⟩ := Option.bind_eq_some_iff.mp hs
          cases hx
          exact h.idle hidle rfl rfl rfl rfl rfl rfl trivial
  | idleInside =>
      have hidle : (s.workers w).pc.swappedIn = false := by rw [hpc]; rfl
      simp only [hpc] at hs
      obtain ⟨x, -, hx⟩ := Option.bind_eq_some_iff.mp hs
      cases hx
      exact h.idle hidle rfl rfl rfl rfl rfl rfl trivial
  | idleBack =>
      have hidle : (s.workers w).pc.swappedIn = false := by rw [hpc]; rfl
      simp only [hpc, Option.some.injEq] at hs
      subst hs
      exact h.idle hidle rfl rfl rfl rfl rfl rfl trivial
  | exited =>
      simp only [hpc] at hs
      cases hs

-- ==================================================================== the runs

/-- An orderly step keeps the invariant. -/
theorem step_tidy {a : SchedAct} (h : s.Tidy) (hok : s.Orderly a)
    (hs : s.step a = some s') : s'.Tidy := by
  cases a with
  | newFiber cb =>
      cases hs
      -- the new fiber is neither queued nor owned
      have hnew : ∀ f, f < s.nextFiber →
          (({ s with nextFiber := s.nextFiber + 1 }.setFiber s.nextFiber
            (Fiber.new (some cb))).heap f).state = (s.heap f).state := by
        intro f hf
        by_contra hne
        have hfn : f = s.nextFiber := setFiber_state_ne hne
        exact Nat.lt_irrefl _ (hfn ▸ hf)
      refine ⟨h.alone, h.once, fun f hq w hw => ?_, fun w => ?_,
        fun f hf => Nat.lt_succ_of_lt (h.known f hf)⟩
      · rw [hnew f (h.known f (.inl hq))]
        exact h.awake f hq w hw
      · exact coherent_congr (h.coherent w) fun f hf =>
          hnew f (h.known f (.inr ⟨w, hf⟩))
  | schedule task threadId =>
      simp only [step] at hs
      split at hs
      next hsched =>
          cases hs
          exact h.push hsched hok
      next => cases hs
  | scheduleAll tasks =>
      simp only [step] at hs
      split at hs
      next hsched =>
          cases hs
          exact h.pushAll tasks hsched hok.1 hok.2
      next => cases hs
  | run w b =>
      simp only [step] at hs
      split at hs
      next => exact h.runStep hok hs
      next => cases hs

/-- In a run of orderly steps no fiber runs on two workers. -/
theorem fiber_exclusive {threads : Nat} {acts : List SchedAct}
    (hok : ∀ s a, Takes step (init threads) acts s a → s.Orderly a)
    {s : Scheduler} (h : Visits step (init threads) acts s) : s.Exclusive :=
  (visits_inv step_tidy (tidy_init threads) hok h).exclusive

/-- A fiber is scheduled again while it runs and then yields to
`HOLD`. -/
def yieldHeld : List SchedAct :=
  [.newFiber 0, .schedule (some (.fiber 0)) none,
    .run 0 .yieldHold, .run 0 .yieldHold, .run 0 .yieldHold,
    .schedule (some (.fiber 0)) none, .run 0 .yieldHold]

theorem fiber_exclusive_yield_held :
    ∃ s, yieldHeld.foldlM step (init 2) = some s
      ∧ (s.workers 0).pc = .leaving 0 false ∧ s.queued = [0]
      ∧ s.Exclusive := by
  have hrun : ∀ (s : Scheduler) (w : Nat), s.Orderly (.run w .yieldHold) :=
    fun s w f viaCb _ => .inl rfl
  have hok : ∀ s a, Takes step (init 2) yieldHeld s a → s.Orderly a := by
    refine forall_takes_cons trivial fun t ht => ?_
    cases ht
    refine forall_takes_cons ?_ fun t ht => ?_
    · intro f hf
      cases List.mem_singleton.mp hf
      refine ⟨List.not_mem_nil, fun w hw => ?_⟩
      rcases hw with hw | hw <;> cases hw
    cases ht
    refine forall_takes_cons (hrun _ 0) fun t ht => ?_
    cases ht
    refine forall_takes_cons (hrun _ 0) fun t ht => ?_
    cases ht
    refine forall_takes_cons (hrun _ 0) fun t ht => ?_
    cases ht
    refine forall_takes_cons ?_ fun t ht => ?_
    · intro f hf
      cases List.mem_singleton.mp hf
      refine ⟨List.not_mem_nil, fun w hw => ?_⟩
      cases w with
      | zero => exact ⟨rfl, rfl, rfl⟩
      | succ v =>
          -- the other workers have not started
          rcases hw with hw | hw
          · exact absurd (show (none : Option Nat) = some 0 from hw) (by decide)
          · exact absurd (show (none : Option Nat) = some 0 from hw) (by decide)
    cases ht
    exact forall_takes_cons (hrun _ 0) fun t ht => forall_takes_nil
  obtain ⟨s, hs⟩ := Option.isSome_iff_exists.mp
    (show (yieldHeld.foldlM step (init 2)).isSome = true by decide)
  have hpc := congrArg (Option.map fun s => (s.workers 0).pc) hs
  have hq := congrArg (Option.map queued) hs
  exact ⟨s, hs, (Option.some.inj hpc).symm, (Option.some.inj hq).symm,
    fiber_exclusive hok (visits_last hs)⟩

/-- A fiber is scheduled again while it runs and then yields to `READY`;
worker 1 takes it before worker 0 has saved its context. -/
def yieldRace : List SchedAct :=
  [.newFiber 0, .schedule (some (.fiber 0)) none,
    .run 0 .returns, .run 0 .returns, .run 0 .returns,
    .schedule (some (.fiber 0)) none, .run 0 .yieldReady,
    .run 1 .returns, .run 1 .returns, .run 1 .returns]

theorem fiber_on_two_workers :
    ¬ ∀ (threads : Nat) (acts : List SchedAct) (s : Scheduler),
      Visits step (init threads) acts s → s.Exclusive := by
  intro hall
  obtain ⟨s, hs⟩ := Option.isSome_iff_exists.mp
    (show (yieldRace.foldlM step (init 2)).isSome = true by decide)
  have h0 := congrArg (Option.map fun s => (s.workers 0).pc) hs
  have h1 := congrArg (Option.map fun s => (s.workers 1).pc) hs
  have h0' : (s.workers 0).pc = .leaving 0 false := (Option.some.inj h0).symm
  have h1' : (s.workers 1).pc = .inside 0 false := (Option.some.inj h1).symm
  exact absurd (hall 2 yieldRace s (visits_last hs) 0 0 1 ⟨_, .inr h0'⟩
    ⟨_, .inl h1'⟩) (by decide)

end Scheduler

end TinyServer
