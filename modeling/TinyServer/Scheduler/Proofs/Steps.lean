/-
Everything a worker's next step can do.

`RunMove` lists the steps of `Scheduler::run` one by one, each with the
place it starts from, the tests it has passed and the state it leads to.
What is proved about every step of a worker goes by its cases.
-/
import TinyServer.Scheduler.Proofs.Exclusive

namespace TinyServer

open Lib

namespace Scheduler

/-- A step of worker `w`, where a task that is inside a fiber does `b`. -/
inductive RunMove (s : Scheduler) (w : Nat) (b : Behaviour) : Scheduler → Prop
  | take {e : FiberAndThread} {pre post : List FiberAndThread}
      (hpc : (s.workers w).pc = .top) (hqueue : s.fibers = pre ++ e :: post)
      (hscan : scan s.heap w s.fibers = some (e, pre ++ post))
      (helig : eligible s.heap w e = true) :
      RunMove s w b ({ s with
        fibers := pre ++ post
        activateThreadCount := s.activateThreadCount + 1
        removed := s.removed ++ [e] }.setPc w (.took e))
  | nothing (hpc : (s.workers w).pc = .top)
      (hscan : scan s.heap w s.fibers = none) :
      RunMove s w b (s.setPc w .idleTest)
  | toDrop {e : FiberAndThread} {f : Nat} (hpc : (s.workers w).pc = .took e)
      (htask : e.task = .fiber f) (hdead : (s.heap f).state.dead = true) :
      RunMove s w b ({ s with dropped := s.dropped ++ [e] }.setPc w .drop)
  | toSwap {e : FiberAndThread} {f : Nat} (hpc : (s.workers w).pc = .took e)
      (htask : e.task = .fiber f) (halive : (s.heap f).state.dead = false) :
      RunMove s w b (s.setPc w (.swapping e f false))
  | toWrap {e : FiberAndThread} {c : Nat} (hpc : (s.workers w).pc = .took e)
      (htask : e.task = .cb c) : RunMove s w b (s.setPc w (.wrap e c))
  | reuse {e : FiberAndThread} {c f : Nat} (hpc : (s.workers w).pc = .wrap e c)
      (hcb : (s.workers w).cbFiber = some f)
      (hstate : (s.heap f).state = .init ∨ (s.heap f).state.dead = true) :
      RunMove s w b ((s.setFiber f (Fiber.new (some c))).setPc w
        (.swapping e f true))
  | make {e : FiberAndThread} {c : Nat} (hpc : (s.workers w).pc = .wrap e c)
      (hcb : (s.workers w).cbFiber = none) :
      RunMove s w b (({ s with nextFiber := s.nextFiber + 1 }.setFiber
        s.nextFiber (Fiber.new (some c))).setWorker w { s.workers w with
          pc := .swapping e s.nextFiber true
          cbFiber := some s.nextFiber })
  | swapIn {e : FiberAndThread} {f : Nat} {viaCb : Bool}
      (hpc : (s.workers w).pc = .swapping e f viaCb)
      (hstate : (s.heap f).state ≠ .exec) :
      RunMove s w b (({ s with executed := s.executed ++ [e] }.setFiber f
        { s.heap f with state := .exec }).setPc w (.inside f viaCb))
  | leave {f : Nat} {viaCb : Bool} {x : Fiber}
      (hpc : (s.workers w).pc = .inside f viaCb)
      (hx : (s.heap f).leave b = some x) :
      RunMove s w b ((s.setFiber f x).setPc w (.leaving f viaCb))
  | left {f : Nat} {viaCb : Bool} (hpc : (s.workers w).pc = .leaving f viaCb) :
      RunMove s w b (s.setPc w (.back f viaCb))
  | decrement {f : Nat} {viaCb : Bool}
      (hpc : (s.workers w).pc = .back f viaCb) :
      RunMove s w b ({ s with
        activateThreadCount := s.activateThreadCount - 1 }.setPc w
          (.settled f viaCb))
  | ready {f : Nat} {viaCb : Bool} (hpc : (s.workers w).pc = .settled f viaCb)
      (hstate : (s.heap f).state = .ready) :
      RunMove s w b (s.setPc w (.requeue f viaCb))
  | ended {f : Nat} {viaCb : Bool} (hpc : (s.workers w).pc = .settled f viaCb)
      (hdead : (s.heap f).state.dead = true) :
      RunMove s w b (s.setPc w (if viaCb then .renew f else .top))
  | held {f : Nat} {viaCb : Bool} (hpc : (s.workers w).pc = .settled f viaCb)
      (hready : (s.heap f).state ≠ .ready)
      (halive : (s.heap f).state.dead = false) :
      RunMove s w b (s.setPc w (.park f viaCb))
  | requeue {f : Nat} {viaCb : Bool}
      (hpc : (s.workers w).pc = .requeue f viaCb) :
      RunMove s w b ((s.scheduleNoLock (some (.fiber f)) none).setWorker w
        { s.workers w with
          pc := .top
          cbFiber := if viaCb then none else (s.workers w).cbFiber })
  | renew {f : Nat} (hpc : (s.workers w).pc = .renew f)
      (hstate : (s.heap f).state = .init ∨ (s.heap f).state.dead = true) :
      RunMove s w b ((s.setFiber f (Fiber.new none)).setPc w .top)
  | park {f : Nat} {viaCb : Bool} (hpc : (s.workers w).pc = .park f viaCb) :
      RunMove s w b ((s.setFiber f { s.heap f with state := .hold }).setWorker w
        { s.workers w with
          pc := .top
          cbFiber := if viaCb then none else (s.workers w).cbFiber })
  | dropped (hpc : (s.workers w).pc = .drop) :
      RunMove s w b ({ s with
        activateThreadCount := s.activateThreadCount - 1 }.setPc w .top)
  | idleOut (hpc : (s.workers w).pc = .idleTest)
      (hstate : (s.workers w).idleFiber.state = .term) :
      RunMove s w b (s.setPc w .exited)
  | idleIn (hpc : (s.workers w).pc = .idleTest)
      (hterm : (s.workers w).idleFiber.state ≠ .term)
      (hexec : (s.workers w).idleFiber.state ≠ .exec) :
      RunMove s w b ({ s with
        idleThreadCount := s.idleThreadCount + 1 }.setWorker w
          { s.workers w with
            pc := .idleInside
            idleFiber := { (s.workers w).idleFiber with state := .exec } })
  | idleLeave {x : Fiber} (hpc : (s.workers w).pc = .idleInside)
      (hx : (s.workers w).idleFiber.leave b = some x) :
      RunMove s w b (s.setWorker w { s.workers w with
        pc := .idleBack
        idleFiber := x })
  | idleBack (hpc : (s.workers w).pc = .idleBack) :
      RunMove s w b ({ s with
        idleThreadCount := s.idleThreadCount - 1 }.setWorker w
          { s.workers w with
            pc := .top
            idleFiber := if (s.workers w).idleFiber.state.dead then
                (s.workers w).idleFiber
              else { (s.workers w).idleFiber with state := .hold } })

variable {s s' : Scheduler} {w : Nat} {b : Behaviour}

/-- `reset` makes the fiber anew, where it asserts that it may. -/
theorem reset_eq_some {x y : Fiber} {cb : Option Nat}
    (h : x.reset cb = some y) :
    y = Fiber.new cb ∧ (x.state = .init ∨ x.state.dead = true) := by
  unfold Fiber.reset at h
  split at h
  next hstate =>
      cases h
      exact ⟨rfl, hstate⟩
  next => cases h

/-- `swapIn` sets `EXEC`, where it asserts that it is not set. -/
theorem swapIn_eq_some {x y : Fiber} (h : x.swapIn = some y) :
    y = { x with state := .exec } ∧ x.state ≠ .exec := by
  unfold Fiber.swapIn at h
  split at h
  next => cases h
  next hstate =>
      cases h
      exact ⟨rfl, hstate⟩

/-- The cases are all there are. -/
theorem runStep_move (h : s.runStep w b = some s') : s.RunMove w b s' := by
  unfold runStep at h
  cases hpc : (s.workers w).pc with
  | top =>
      simp only [hpc, Option.some.injEq, dequeue] at h
      split at h
      next e rest hscan =>
          obtain ⟨pre, post, hq, rfl, -, he⟩ := scan_eq_some hscan
          subst h
          exact .take hpc hq hscan he
      next hscan =>
          subst h
          exact .nothing hpc hscan
  | took e =>
      simp only [hpc] at h
      split at h
      next f htask =>
          split at h
          next hdead =>
              cases h
              exact .toDrop hpc htask hdead
          next halive =>
              cases h
              exact .toSwap hpc htask (Bool.eq_false_iff.mpr halive)
      next c htask =>
          cases h
          exact .toWrap hpc htask
  | wrap e c =>
      simp only [hpc] at h
      split at h
      next f hf =>
          obtain ⟨x, hx, hs⟩ := Option.bind_eq_some_iff.mp h
          obtain ⟨rfl, hstate⟩ := reset_eq_some hx
          cases hs
          exact .reuse hpc hf hstate
      next hf =>
          cases h
          exact .make hpc hf
  | swapping e f viaCb =>
      simp only [hpc] at h
      obtain ⟨x, hx, hs⟩ := Option.bind_eq_some_iff.mp h
      obtain ⟨rfl, hstate⟩ := swapIn_eq_some hx
      cases hs
      exact .swapIn hpc hstate
  | inside f viaCb =>
      simp only [hpc] at h
      obtain ⟨x, hx, hs⟩ := Option.bind_eq_some_iff.mp h
      cases hs
      exact .leave hpc hx
  | leaving f viaCb =>
      simp only [hpc, Option.some.injEq] at h
      subst h
      exact .left hpc
  | back f viaCb =>
      simp only [hpc, Option.some.injEq] at h
      subst h
      exact .decrement hpc
  | settled f viaCb =>
      simp only [hpc] at h
      split at h
      next hready =>
          cases h
          exact .ready hpc hready
      next hready =>
          split at h
          next hdead =>
              cases h
              exact .ended hpc hdead
          next halive =>
              cases h
              exact .held hpc hready (Bool.eq_false_iff.mpr halive)
  | requeue f viaCb =>
      simp only [hpc, Option.some.injEq] at h
      subst h
      exact .requeue hpc
  | renew f =>
      simp only [hpc] at h
      obtain ⟨x, hx, hs⟩ := Option.bind_eq_some_iff.mp h
      obtain ⟨rfl, hstate⟩ := reset_eq_some hx
      cases hs
      exact .renew hpc hstate
  | park f viaCb =>
      simp only [hpc, Option.some.injEq] at h
      subst h
      exact .park hpc
  | drop =>
      simp only [hpc, Option.some.injEq] at h
      subst h
      exact .dropped hpc
  | idleTest =>
      simp only [hpc] at h
      split at h
      next hterm =>
          cases h
          exact .idleOut hpc hterm
      next hterm =>
          obtain ⟨x, hx, hs⟩ := Option.bind_eq_some_iff.mp h
          obtain ⟨rfl, hstate⟩ := swapIn_eq_some hx
          cases hs
          exact .idleIn hpc hterm hstate
  | idleInside =>
      simp only [hpc] at h
      obtain ⟨x, hx, hs⟩ := Option.bind_eq_some_iff.mp h
      cases hs
      exact .idleLeave hpc hx
  | idleBack =>
      simp only [hpc, Option.some.injEq] at h
      subst h
      exact .idleBack hpc
  | exited =>
      simp only [hpc] at h
      cases h

-- ================================================================ known fibers

/-- The fibers in the queue and of the workers have been made. -/
def Known (s : Scheduler) : Prop :=
  ∀ f, (f ∈ s.queued ∨ ∃ w, (s.workers w).Owns f) → f < s.nextFiber

/-- At the start there are no fibers. -/
theorem known_init (threads : Nat) : (init threads).Known := by
  rintro f (h | ⟨w, h | h⟩) <;> cases h

/-- The other workers stay where they are. -/
theorem RunMove.others (h : s.RunMove w b s') {v : Nat} (hv : v ≠ w) :
    s'.workers v = s.workers v := by
  cases h <;> exact if_neg hv

/-- A worker gets a fiber from the queue or makes it. -/
theorem RunMove.owns (h : s.RunMove w b s') {f : Nat}
    (hf : (s'.workers w).Owns f) :
    (s.workers w).Owns f
      ∨ (∃ e ∈ s.fibers, e.fiber? = some f ∧ (s'.workers w).pc = .took e
        ∧ eligible s.heap w e = true)
      ∨ (f = s.nextFiber ∧ s'.nextFiber = s.nextFiber + 1) := by
  cases h with
  | @take e pre post hpc hqueue hscan helig =>
      rw [setPc, setWorker_pc] at hf ⊢
      rcases hf with hf | hf
      · refine .inr (.inl ⟨e, ?_, hf, rfl, helig⟩)
        rw [hqueue]
        exact List.mem_append_right pre List.mem_cons_self
      · exact .inl (.inr hf)
  | reuse hpc hcb hstate =>
      rw [setPc, setWorker_pc] at hf
      rcases hf with hf | hf
      · cases hf
        exact .inl (.inr hcb)
      · exact .inl (.inr hf)
  | make hpc hcb =>
      rw [setWorker_pc] at hf
      rcases hf with hf | hf
      · exact .inr (.inr ⟨(Option.some.inj hf).symm, rfl⟩)
      · exact .inr (.inr ⟨(Option.some.inj hf).symm, rfl⟩)
  | requeue hpc =>
      rw [setWorker_pc] at hf
      rcases hf with hf | hf
      · cases hf
      · simp only at hf
        split at hf
        next => cases hf
        next => exact .inl (.inr hf)
  | park hpc =>
      rw [setWorker_pc] at hf
      rcases hf with hf | hf
      · cases hf
      · simp only at hf
        split at hf
        next => cases hf
        next => exact .inl (.inr hf)
  | @ended g viaCb hpc hdead =>
      rw [setPc, setWorker_pc] at hf
      refine .inl (owns_pc ?_ hf)
      cases viaCb with
      | true => exact .inr (by rw [hpc]; rfl)
      | false => exact .inl rfl
  | @toSwap e g hpc htask halive =>
      rw [setPc, setWorker_pc] at hf
      refine .inl (owns_pc (.inr ?_) hf)
      rw [hpc]
      show some g = e.fiber?
      rw [FiberAndThread.fiber?, htask]
  | swapIn hpc _ =>
      rw [setPc, setWorker_pc] at hf
      exact .inl (owns_pc (.inr (by rw [hpc]; rfl)) hf)
  | leave hpc _ =>
      rw [setPc, setWorker_pc] at hf
      exact .inl (owns_pc (.inr (by rw [hpc]; rfl)) hf)
  | left hpc =>
      rw [setPc, setWorker_pc] at hf
      exact .inl (owns_pc (.inr (by rw [hpc]; rfl)) hf)
  | decrement hpc =>
      rw [setPc, setWorker_pc] at hf
      exact .inl (owns_pc (.inr (by rw [hpc]; rfl)) hf)
  | ready hpc _ =>
      rw [setPc, setWorker_pc] at hf
      exact .inl (owns_pc (.inr (by rw [hpc]; rfl)) hf)
  | held hpc _ _ =>
      rw [setPc, setWorker_pc] at hf
      exact .inl (owns_pc (.inr (by rw [hpc]; rfl)) hf)
  | nothing | toDrop | toWrap | renew | dropped | idleOut =>
      rw [setPc, setWorker_pc] at hf
      exact .inl (owns_pc (.inl rfl) hf)
  | idleIn | idleLeave | idleBack =>
      rw [setWorker_pc] at hf
      exact .inl (hf.imp (fun hf => by cases hf) id)

/-- A worker keeps its `cb_fiber`, lets it go or makes a new one. -/
theorem RunMove.cbFiber (h : s.RunMove w b s') {f : Nat}
    (hf : (s'.workers w).cbFiber = some f) :
    (s.workers w).cbFiber = some f
      ∨ f = s.nextFiber ∧ s'.nextFiber = s.nextFiber + 1 := by
  cases h with
  | make =>
      rw [setWorker_pc] at hf
      exact .inr ⟨(Option.some.inj hf).symm, rfl⟩
  | requeue | park =>
      rw [setWorker_pc] at hf
      simp only at hf
      split at hf
      next => cases hf
      next => exact .inl hf
  | idleIn | idleLeave | idleBack =>
      rw [setWorker_pc] at hf
      exact .inl hf
  | _ =>
      rw [setPc, setWorker_pc] at hf
      exact .inl hf

/-- A fiber that is queued was, or its worker has let go of it. -/
theorem RunMove.queued (h : s.RunMove w b s') {f : Nat}
    (hf : f ∈ s'.queued) : f ∈ s.queued ∨ (s.workers w).Owns f := by
  cases h with
  | @take e pre post hpc hqueue hscan helig =>
      have hsub : ((pre ++ post).filterMap FiberAndThread.fiber?).Sublist
          s.queued := by
        unfold Scheduler.queued
        rw [hqueue]
        exact ((List.sublist_cons_self e post).append_left pre).filterMap _
      exact .inl (hsub.subset hf)
  | @requeue g viaCb hpc =>
      have hq : f ∈ (s.scheduleNoLock (some (.fiber g)) none).queued := hf
      rw [queued_push] at hq
      rcases List.mem_append.mp hq with hq | hq
      · exact .inl hq
      · rw [List.mem_singleton.mp hq]
        exact .inr (.inl (by rw [hpc]; rfl))
  | _ => exact .inl hf

/-- Fibers are not unmade. -/
theorem RunMove.nextFiber_le (h : s.RunMove w b s') :
    s.nextFiber ≤ s'.nextFiber := by
  cases h with
  | make => exact Nat.le_succ _
  | _ => exact Nat.le_refl _

/-- A worker does not make up a fiber. -/
theorem RunMove.known (h : s.RunMove w b s') (hk : s.Known) : s'.Known := by
  have hle := h.nextFiber_le
  have hown : ∀ {f : Nat}, (s.workers w).Owns f → f < s.nextFiber :=
    fun hf => hk _ (.inr ⟨w, hf⟩)
  rintro f (hq | ⟨v, hv⟩)
  · rcases h.queued hq with hq | hf
    · exact Nat.lt_of_lt_of_le (hk f (.inl hq)) hle
    · exact Nat.lt_of_lt_of_le (hown hf) hle
  · by_cases hvw : v = w
    · subst hvw
      rcases h.owns hv with hf | ⟨e, he, hfib, -⟩ | ⟨rfl, hnext⟩
      · exact Nat.lt_of_lt_of_le (hown hf) hle
      · have hq : f ∈ s.queued := List.mem_filterMap.mpr ⟨e, he, hfib⟩
        exact Nat.lt_of_lt_of_le (hk f (.inl hq)) hle
      · rw [hnext]
        exact Nat.lt_succ_self _
    · rw [h.others hvw] at hv
      exact Nat.lt_of_lt_of_le (hk f (.inr ⟨v, hv⟩)) hle

-- ================================================================== scheduling

/-- What scheduling tasks leaves alone. -/
structure Pushes (s s' : Scheduler) (tasks : List (Option Task)) : Prop where
  workers : s'.workers = s.workers
  heap : s'.heap = s.heap
  nextFiber : s'.nextFiber = s.nextFiber
  queued : s'.queued = s.queued ++ taskFibers tasks
  executed : s'.executed = s.executed

/-- A task is pushed at the end, a null one not at all. -/
theorem scheduleNoLock_pushes (task : Option Task) (threadId : Option Nat) :
    s.Pushes (s.scheduleNoLock task threadId) [task] := by
  refine ⟨?_, ?_, ?_, queued_push, ?_⟩ <;> cases task <;> rfl

/-- And so are several. -/
theorem scheduleAll_pushes (tasks : List (Option Task)) :
    ∀ s : Scheduler, s.Pushes
      (tasks.foldl (fun s t => s.scheduleNoLock t none) s) tasks := by
  induction tasks with
  | nil => exact fun s => ⟨rfl, rfl, rfl, (List.append_nil _).symm, rfl⟩
  | cons t tasks ih =>
      intro s
      have hfirst := s.scheduleNoLock_pushes t none
      have hrest := ih (s.scheduleNoLock t none)
      refine ⟨hrest.workers.trans hfirst.workers,
        hrest.heap.trans hfirst.heap, hrest.nextFiber.trans hfirst.nextFiber,
        ?_, hrest.executed.trans hfirst.executed⟩
      rw [List.foldl_cons, hrest.queued, hfirst.queued, List.append_assoc]
      show s.queued ++ (taskFibers [t] ++ taskFibers tasks) = _
      unfold taskFibers
      rw [← List.filterMap_append]
      rfl

/-- A fiber that is scheduled has been made. -/
theorem schedulable_lt {tasks : List (Option Task)}
    (h : tasks.all s.schedulable = true) {f : Nat}
    (hf : f ∈ taskFibers tasks) : f < s.nextFiber := by
  obtain ⟨t, ht, hsome⟩ := List.mem_filterMap.mp hf
  have hok := List.all_eq_true.mp h t ht
  rcases t with _ | (g | c)
  · cases hsome
  · cases hsome
    exact of_decide_eq_true hok
  · cases hsome

/-- What is scheduled has been made. -/
theorem Pushes.known {tasks : List (Option Task)} (h : s.Pushes s' tasks)
    (hk : s.Known) (hs : tasks.all s.schedulable = true) : s'.Known := by
  unfold Known
  rw [h.queued, h.workers, h.nextFiber]
  rintro f (hq | hw)
  · rcases List.mem_append.mp hq with hq | hq
    · exact hk f (.inl hq)
    · exact schedulable_lt hs hq
  · exact hk f (.inr hw)

/-- What a step of the system can do. -/
theorem step_cases {a : SchedAct} (hs : s.step a = some s') :
    (∃ cb, a = .newFiber cb ∧ s' = { s with
        nextFiber := s.nextFiber + 1 }.setFiber s.nextFiber
          (Fiber.new (some cb)))
      ∨ (∃ tasks : List (Option Task), s.Pushes s' tasks
        ∧ tasks.all s.schedulable = true
        ∧ ((∃ task threadId, a = .schedule task threadId ∧ tasks = [task]
            ∧ s' = s.scheduleNoLock task threadId)
          ∨ a = .scheduleAll tasks
            ∧ s' = tasks.foldl (fun s t => s.scheduleNoLock t none) s))
      ∨ ∃ w b, a = .run w b ∧ w < s.threads ∧ s.RunMove w b s' := by
  cases a with
  | newFiber cb =>
      cases hs
      exact .inl ⟨cb, rfl, rfl⟩
  | schedule task threadId =>
      simp only [step] at hs
      split at hs
      next hok =>
          cases hs
          refine .inr (.inl ⟨[task], scheduleNoLock_pushes task threadId, ?_,
            .inl ⟨task, threadId, rfl, rfl, rfl⟩⟩)
          simpa using hok
      next => cases hs
  | scheduleAll tasks =>
      simp only [step] at hs
      split at hs
      next hok =>
          cases hs
          exact .inr (.inl ⟨tasks, scheduleAll_pushes tasks s, hok,
            .inr ⟨rfl, rfl⟩⟩)
      next => cases hs
  | run w b =>
      simp only [step] at hs
      split at hs
      next hw => exact .inr (.inr ⟨w, b, rfl, hw, runStep_move hs⟩)
      next => cases hs

end Scheduler

end TinyServer
