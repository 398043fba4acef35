/-
Which fiber a worker enters for an entry, and in what state.

# Callbacks

A worker runs a callback in its `cb_fiber`, which `reset` or the
constructor has given the callback one step before `swapIn`. In between
nobody else touches the fiber, unless it was itself scheduled while an
earlier callback ran in it: then another worker that has taken that
entry can come first (`Given`).

# The invariant

`Own` says that the `cb_fiber`s of two workers are different fibers, and
what each place of a worker knows of the fiber there (`Placed`): that
the fiber is the worker's `cb_fiber`, or that an entry of the fiber has
been executed. What a step writes to a fiber that is not the worker's
`cb_fiber` then keeps what a second worker knows of it (`Kept`).

Together with the books of `Conserves` this is the conservation of tasks
(`tasks_conserved`).
-/
import TinyServer.Scheduler.Proofs.Steps

namespace TinyServer

open Lib

/-- What others may do to a fiber between two looks at it: when it has
not ended, it had not, and its callback is the same. -/
def Fiber.Kept (x y : Fiber) : Prop :=
  y.finished = false → x.finished = false ∧ y.cb = x.cb

/-- A fiber that leaves the processor keeps its callback until it ends. -/
theorem Fiber.Kept.of_leave {x y : Fiber} {b : Behaviour}
    (h : x.leave b = some y) : x.Kept y := by
  intro hy
  unfold Fiber.leave at h
  split at h
  next => cases h
  next hx =>
      have hrun : x.finished = false := Bool.eq_false_iff.mpr hx
      cases b with
      | returns =>
          cases h
          cases hy
      | throws =>
          cases h
          cases hy
      | yieldReady =>
          cases h
          exact ⟨hrun, rfl⟩
      | yieldHold =>
          obtain ⟨-, hxy⟩ := Option.ite_none_right_eq_some.mp h
          cases hxy
          exact ⟨hrun, rfl⟩

namespace Scheduler

-- ============================================================== the vocabulary

/-- The fiber was scheduled itself, and an entry of it was executed. -/
def Taken (s : Scheduler) (f : Nat) : Prop :=
  ∃ e ∈ s.executed, e.task = .fiber f

/-- The fiber is as `reset` or the constructor left it for the callback
`c`; or it was scheduled itself, and runs `c` unless it has ended. -/
def Given (s : Scheduler) (f c : Nat) : Prop :=
  s.heap f = Fiber.new (some c)
    ∨ s.Taken f ∧ ((s.heap f).finished = false → (s.heap f).cb = some c)

/-- The fiber that worker `w` is about to enter for the entry: its own
`cb_fiber` with the callback of the entry, or the fiber of the entry. -/
def Enters (s : Scheduler) (w : Nat) (e : FiberAndThread) (f : Nat)
    (viaCb : Bool) : Prop :=
  (viaCb = false ∧ e.task = .fiber f)
    ∨ viaCb = true ∧ (s.workers w).cbFiber = some f
      ∧ ∃ c, e.task = .cb c ∧ s.Given f c

/-- A step that executes an entry enters its fiber, or for a callback the
worker's `cb_fiber` with that callback. The fiber was not in `EXEC` and
is now; no other fiber is touched. When the context of the fiber is at
the end of `MainFunc`, the worker's next step fails the `never reach`
assertion. -/
def ExecutesOwn (s : Scheduler) (a : SchedAct) (s' : Scheduler) : Prop :=
  s'.executed = s.executed
    ∨ ∃ w b e f viaCb, a = .run w b
      ∧ (s.workers w).pc = .swapping e f viaCb
      ∧ (s'.workers w).pc = .inside f viaCb
      ∧ s.Enters w e f viaCb
      ∧ (s.heap f).state ≠ .exec
      ∧ s'.heap f = { s.heap f with state := .exec }
      ∧ (∀ g, g ≠ f → s'.heap g = s.heap g)
      ∧ ((s.heap f).finished = true → ∀ b, s'.runStep w b = none)
      ∧ s'.executed = s.executed ++ [e]

/-- The fiber that a worker is in, or has been in and not left behind:
its `cb_fiber`, or one that was scheduled. -/
def Serves (s : Scheduler) (k : Worker) (f : Nat) (viaCb : Bool) : Prop :=
  (viaCb = true ∧ k.cbFiber = some f) ∨ (viaCb = false ∧ s.Taken f)

/-- What the place of a worker says about the fiber there. -/
def Placed (s : Scheduler) (k : Worker) : Prop :=
  match k.pc with
  | .swapping e f viaCb =>
      viaCb = true → k.cbFiber = some f ∧ ∃ c, e.task = .cb c ∧ s.Given f c
  | .inside f viaCb => s.Serves k f viaCb
  | .leaving f viaCb => s.Serves k f viaCb
  | .back f viaCb => s.Serves k f viaCb
  | .settled f viaCb => s.Serves k f viaCb
  | .requeue f viaCb => s.Serves k f viaCb
  | .renew f => k.cbFiber = some f
  | .park f viaCb => s.Serves k f viaCb
  | _ => True

/-- The `cb_fiber`s have been made and are different fibers, and every
place is as `Placed` says. -/
structure Own (s : Scheduler) : Prop where
  made : ∀ w f, (s.workers w).cbFiber = some f → f < s.nextFiber
  apart : ∀ v w f, (s.workers v).cbFiber = some f →
    (s.workers w).cbFiber = some f → v = w
  placed : ∀ w, s.Placed (s.workers w)

variable {s s' : Scheduler} {w : Nat} {b : Behaviour}

/-- At the start no worker has a `cb_fiber`. -/
theorem own_init (threads : Nat) : (init threads).Own where
  made := fun _ _ h => by cases h
  apart := fun _ _ _ h => by cases h
  placed := fun _ => trivial

-- =========================================================== the other workers

/-- The log only grows. -/
theorem Taken.mono {f : Nat} (h : s.Taken f)
    (hlog : ∀ e ∈ s.executed, e ∈ s'.executed) : s'.Taken f := by
  obtain ⟨e, he, htask⟩ := h
  exact ⟨e, hlog e he, htask⟩

/-- A worker that takes no step still knows what it knew, when its
`cb_fiber` is as it was or was entered by the entry of another worker. -/
theorem Placed.keep {k : Worker} (h : s.Placed k)
    (hlog : ∀ e ∈ s.executed, e ∈ s'.executed)
    (hheap : ∀ f, k.cbFiber = some f → s'.heap f = s.heap f
      ∨ s'.Taken f ∧ (s.heap f).Kept (s'.heap f)) : s'.Placed k := by
  have hserves : ∀ {f viaCb}, s.Serves k f viaCb → s'.Serves k f viaCb :=
    fun hf => hf.imp id fun ht => ⟨ht.1, ht.2.mono hlog⟩
  unfold Placed at *
  cases hpc : k.pc with
  | swapping e f viaCb =>
      rw [hpc] at h
      intro hvia
      obtain ⟨hcb, c, htask, hgiven⟩ := h hvia
      refine ⟨hcb, c, htask, ?_⟩
      rcases hheap f hcb with hsame | ⟨ht, hkept⟩
      · refine hgiven.imp (hsame.trans ·) fun hg => ⟨hg.1.mono hlog, ?_⟩
        rw [hsame]
        exact hg.2
      · refine .inr ⟨ht, fun hrun => ?_⟩
        obtain ⟨hran, hcbs⟩ := hkept hrun
        rw [hcbs]
        rcases hgiven with hnew | ⟨-, hcb⟩
        · rw [hnew]
          rfl
        · exact hcb hran
  | inside | leaving | back | settled | requeue | park =>
      rw [hpc] at h
      exact hserves h
  | renew f =>
      rw [hpc] at h
      exact h
  | _ => trivial

-- ============================================================ a worker's steps

/-- Nothing leaves the log of what was executed. -/
theorem RunMove.executed (h : s.RunMove w b s') :
    ∀ e ∈ s.executed, e ∈ s'.executed := by
  intro e he
  cases h with
  | swapIn => exact List.mem_append_left _ he
  | _ => exact he

/-- The other fibers stay. -/
theorem setFiber_heap_ne {f g : Nat} {x : Fiber} (hg : g ≠ f) :
    (s.setFiber f x).heap g = s.heap g := if_neg hg

/-- A fiber that the worker may not write otherwise. -/
theorem Serves.taken {k : Worker} {f : Nat} {viaCb : Bool}
    (h : s.Serves k f viaCb) (hf : k.cbFiber ≠ some f) : s.Taken f := by
  rcases h with ⟨-, hcb⟩ | ⟨-, ht⟩
  · exact absurd hcb hf
  · exact ht

/-- A step leaves the fibers alone, other than its worker's `cb_fiber`
and those that an executed entry is of. -/
theorem RunMove.heap (h : s.RunMove w b s') (hc : s.Conserves) (ho : s.Own)
    {f : Nat} (hf : f < s.nextFiber)
    (hcb : (s.workers w).cbFiber ≠ some f) :
    s'.heap f = s.heap f
      ∨ s'.Taken f ∧ (s.heap f).Kept (s'.heap f) := by
  have hplaced := ho.placed w
  have hfits := hc.fits w
  cases h with
  | @reuse e c g hpc hg =>
      refine .inl (setFiber_heap_ne fun heq => ?_)
      exact hcb (heq ▸ hg)
  | make => exact .inl (setFiber_heap_ne (Nat.ne_of_lt hf))
  | @swapIn e g viaCb hpc hstate =>
      by_cases heq : f = g
      · subst heq
        rw [hpc] at hfits
        unfold Placed at hplaced
        rw [hpc] at hplaced
        cases viaCb with
        | true => exact absurd (hplaced rfl).1 hcb
        | false =>
            refine .inr ⟨⟨e, List.mem_append_right _ List.mem_cons_self,
              hfits⟩, fun hrun => ?_⟩
            have hheap : ((({ s with executed := s.executed ++ [e] }.setFiber f
                { s.heap f with state := .exec }).setPc w
                  (.inside f false)).heap f) = { s.heap f with state :=
                    .exec } :=
              setFiber_heap_self
            rw [hheap] at hrun ⊢
            exact ⟨hrun, rfl⟩
      · exact .inl (setFiber_heap_ne heq)
  | @leave g viaCb x hpc hx =>
      by_cases heq : f = g
      · subst heq
        unfold Placed at hplaced
        rw [hpc] at hplaced
        have hheap : ((s.setFiber f x).setPc w (.leaving f viaCb)).heap f = x :=
          setFiber_heap_self
        rw [hheap]
        exact .inr ⟨hplaced.taken hcb, .of_leave hx⟩
      · exact .inl (setFiber_heap_ne heq)
  | @renew g hpc hstate =>
      unfold Placed at hplaced
      rw [hpc] at hplaced
      refine .inl (setFiber_heap_ne fun heq => ?_)
      exact hcb (heq ▸ hplaced)
  | @park g viaCb hpc =>
      by_cases heq : f = g
      · subst heq
        unfold Placed at hplaced
        rw [hpc] at hplaced
        have hheap :
            ((s.setFiber f { s.heap f with state := .hold }).setWorker w
            { s.workers w with
              pc := .top
              cbFiber := if viaCb then none
                else (s.workers w).cbFiber }).heap f
              = { s.heap f with state := .hold } := setFiber_heap_self
        rw [hheap]
        exact .inr ⟨hplaced.taken hcb, fun hrun => ⟨hrun, rfl⟩⟩
      · exact .inl (setFiber_heap_ne heq)
  | requeue => exact .inl rfl
  | _ => exact .inl rfl

/-- The worker knows at its next place what it has to. -/
theorem RunMove.placed (h : s.RunMove w b s') (hc : s.Conserves)
    (ho : s.Own) : s'.Placed (s'.workers w) := by
  have hplaced := ho.placed w
  have hfits := hc.fits w
  cases h with
  | toSwap hpc htask halive =>
      rw [setPc, setWorker_pc]
      exact fun hvia => by cases hvia
  | @reuse e c f hpc hcb hstate =>
      rw [hpc] at hfits
      rw [setPc, setWorker_pc]
      exact fun _ => ⟨hcb, c, hfits, .inl setFiber_heap_self⟩
  | @make e c hpc hcb =>
      rw [hpc] at hfits
      rw [setWorker_pc]
      exact fun _ => ⟨rfl, c, hfits, .inl setFiber_heap_self⟩
  | @swapIn e f viaCb hpc hstate =>
      rw [hpc] at hfits
      unfold Placed at hplaced
      rw [hpc] at hplaced
      rw [setPc, setWorker_pc]
      cases viaCb with
      | true => exact .inl ⟨rfl, (hplaced rfl).1⟩
      | false =>
          exact .inr ⟨rfl, e, List.mem_append_right _ List.mem_cons_self,
            hfits⟩
  | leave hpc _ | left hpc | decrement hpc | ready hpc _ | held hpc _ _ =>
      unfold Placed at hplaced
      rw [hpc] at hplaced
      rw [setPc, setWorker_pc]
      exact hplaced
  | @ended f viaCb hpc hdead =>
      unfold Placed at hplaced
      rw [hpc] at hplaced
      rw [setPc, setWorker_pc]
      cases viaCb with
      | true =>
          rcases hplaced with ⟨-, hcb⟩ | ⟨hvia, -⟩
          · exact hcb
          · cases hvia
      | false => trivial
  | requeue | park | idleIn | idleLeave | idleBack =>
      rw [setWorker_pc]
      trivial
  | _ =>
      rw [setPc, setWorker_pc]
      trivial

/-- A step of a worker keeps the invariant. -/
theorem Own.runStep (ho : s.Own) (hc : s.Conserves)
    (h : s.RunMove w b s') : s'.Own := by
  have hcb : ∀ v f, (s'.workers v).cbFiber = some f →
      (s.workers v).cbFiber = some f
        ∨ v = w ∧ f = s.nextFiber ∧ s'.nextFiber = s.nextFiber + 1 := by
    intro v f hf
    by_cases hv : v = w
    · subst hv
      exact (h.cbFiber hf).imp_right fun hnew => ⟨rfl, hnew⟩
    · rw [h.others hv] at hf
      exact .inl hf
  refine ⟨fun v f hf => ?_, fun u v f hu hv => ?_, fun v => ?_⟩
  · rcases hcb v f hf with hold | ⟨-, rfl, hnext⟩
    · exact Nat.lt_of_lt_of_le (ho.made v f hold) h.nextFiber_le
    · exact hnext ▸ Nat.lt_succ_self _
  · rcases hcb u f hu with hu | ⟨rfl, hf, -⟩ <;>
      rcases hcb v f hv with hv | ⟨rfl, hg, -⟩
    · exact ho.apart u v f hu hv
    · exact absurd (ho.made u f hu) (by omega)
    · exact absurd (ho.made v f hv) (by omega)
    · rfl
  · by_cases hv : v = w
    · subst hv
      exact h.placed hc ho
    · rw [h.others hv]
      refine (ho.placed v).keep h.executed fun f hf => ?_
      exact h.heap hc ho (ho.made v f hf) fun hw => hv (ho.apart v w f hf hw)

-- ========================================================= steps of the system

/-- A step of no worker leaves the workers and the fibers made alone. -/
theorem Own.outside (ho : s.Own) (hworkers : s'.workers = s.workers)
    (hlog : s'.executed = s.executed) (hnext : s.nextFiber ≤ s'.nextFiber)
    (hheap : ∀ f, f < s.nextFiber → s'.heap f = s.heap f) : s'.Own := by
  refine ⟨?_, ?_, fun v => ?_⟩
  · rw [hworkers]
    exact fun v f hf => Nat.lt_of_lt_of_le (ho.made v f hf) hnext
  · rw [hworkers]
    exact ho.apart
  · rw [hworkers]
    refine (ho.placed v).keep (fun e he => hlog ▸ he) fun f hf => ?_
    exact .inl (hheap f (ho.made v f hf))

/-- So does every step. -/
theorem Own.step {a : SchedAct} (ho : s.Own) (hc : s.Conserves)
    (h : s.step a = some s') : s'.Own := by
  obtain ⟨cb, -, rfl⟩ | ⟨tasks, hpush, -, -⟩ | ⟨w, b, -, -, hmove⟩ :=
    step_cases h
  · exact ho.outside rfl rfl (Nat.le_succ _) fun f hf =>
      setFiber_heap_ne (Nat.ne_of_lt hf)
  · exact ho.outside hpush.workers hpush.executed
      (Nat.le_of_eq hpush.nextFiber.symm) fun f _ => by rw [hpush.heap]
  · exact ho.runStep hc hmove

/-- A worker in a fiber that has ended takes no further step. -/
theorem stuck_inside {f : Nat} {viaCb : Bool}
    (hpc : (s.workers w).pc = .inside f viaCb)
    (hend : (s.heap f).finished = true) (b : Behaviour) :
    s.runStep w b = none := by
  simp [runStep, hpc, Fiber.leave, hend]

/-- What a worker enters is what it took. -/
theorem RunMove.executesOwn (h : s.RunMove w b s') (hc : s.Conserves)
    (ho : s.Own) : ExecutesOwn s (.run w b) s' := by
  have hplaced := ho.placed w
  have hfits := hc.fits w
  cases h with
  | @swapIn e f viaCb hpc hstate =>
      rw [hpc] at hfits
      unfold Placed at hplaced
      rw [hpc] at hplaced
      have hself : ((({ s with executed := s.executed ++ [e] }.setFiber f
          { s.heap f with state := .exec }).setPc w
            (.inside f viaCb)).heap f) = { s.heap f with state := .exec } :=
        setFiber_heap_self
      refine .inr ⟨w, b, e, f, viaCb, rfl, hpc, setPc_pc _ _ _, ?_, hstate,
        hself, fun g hg => setFiber_heap_ne hg, fun hend => ?_, rfl⟩
      · cases viaCb with
        | true => exact .inr ⟨rfl, hplaced rfl⟩
        | false => exact .inl ⟨rfl, hfits⟩
      · exact stuck_inside (setPc_pc _ _ _) (by rw [hself]; exact hend)
  | _ => exact .inl rfl

/-- In every step that logs something. -/
theorem step_executesOwn {a : SchedAct} (hc : s.Conserves) (ho : s.Own)
    (h : s.step a = some s') : ExecutesOwn s a s' := by
  obtain ⟨cb, -, rfl⟩ | ⟨tasks, hpush, -, -⟩ | ⟨w, b, rfl, -, hmove⟩ :=
    step_cases h
  · exact .inl rfl
  · exact .inl hpush.executed
  · exact hmove.executesOwn hc ho

-- =============================================================== conservation

/-- In every state that any interleaving of `threads` workers and callers
of `schedule` reaches: no entry is removed twice or still queued after
its removal; every removed entry is either held by one worker, or was
executed once, or was dropped, and only one of these; and
`m_activateThreadCount` is the number of workers that took an entry and
have not decremented it. Every further step removes only the first
eligible entry; executes an entry by entering its fiber, or the worker's
`cb_fiber` with the callback of the entry, which is then in `EXEC`; and
drops only an entry whose fiber is `TERM` or `EXCEPT`. -/
theorem tasks_conserved {threads : Nat} {acts : List SchedAct}
    (hrun : acts.foldlM step (init threads) = some s) :
    ((s.fibers ++ s.removed).map FiberAndThread.id).Nodup
      ∧ (∀ e ∈ s.removed,
          s.holders e + s.executed.count e + s.dropped.count e = 1)
      ∧ (∀ e, e ∈ s.executed ∨ e ∈ s.dropped → e ∈ s.removed)
      ∧ s.activateThreadCount = s.countedWorkers
      ∧ ∀ a s', s.step a = some s' →
          RemovesFirst s a s' ∧ ExecutesOwn s a s' ∧ DropsDead s a s' := by
  obtain ⟨hc, ho⟩ : s.Conserves ∧ s.Own :=
    run_inv (P := fun s => s.Conserves ∧ s.Own)
      (fun hi hs => ⟨hi.1.step hs, hi.2.step hi.1 hs⟩) acts
      ⟨conserves_init threads, own_init threads⟩ hrun
  refine ⟨hc.nodup, ?_, ?_, hc.active, fun a s' hs => ?_⟩
  · intro e he
    have hnodup : s.removed.Nodup := by
      refine List.Nodup.of_map FiberAndThread.id ?_
      have hall := hc.nodup
      rw [List.map_append] at hall
      exact hall.of_append_right
    rw [← hc.ledger e]
    exact List.count_eq_one_of_mem hnodup he
  · intro e he
    refine List.count_pos_iff.mp ?_
    rw [hc.ledger e]
    rcases he with he | he
    · have := List.count_pos_iff.mpr he
      omega
    · have := List.count_pos_iff.mpr he
      omega
  · obtain ⟨hremoves, hdrops⟩ := step_effects hs
    exact ⟨hremoves, step_executesOwn hc ho hs, hdrops⟩

/-- Two workers; worker 1 has executed the callback, worker 0 is inside
the fiber that yielded once and was queued again. -/
def twoWorkersRun : List SchedAct :=
  [.newFiber 7, .schedule (some (.fiber 0)) none,
    .schedule (some (.cb 8)) (some 1),
    .run 0 .returns, .run 1 .returns, .run 0 .returns, .run 1 .returns,
    .run 0 .returns, .run 1 .returns, .run 1 .returns, .run 1 .returns,
    .run 0 .yieldReady, .run 0 .returns, .run 0 .returns, .run 0 .returns,
    .run 0 .returns, .run 0 .returns, .run 0 .returns, .run 0 .returns]

theorem tasks_conserved_two_workers :
    ∃ s, twoWorkersRun.foldlM step (init 2) = some s
      ∧ s.removed.length = 3 ∧ s.executed.length = 3
      ∧ s.activateThreadCount = s.countedWorkers := by
  have hobs : (twoWorkersRun.foldlM step (init 2)).map
      (fun s => (s.removed.length, s.executed.length)) = some (3, 3) := by
    decide +kernel
  obtain ⟨s, hs, hv⟩ := Option.map_eq_some_iff.mp hobs
  obtain ⟨hrem, hexec⟩ := Prod.mk.injEq .. ▸ hv
  exact ⟨s, hs, hrem, hexec, (tasks_conserved hs).2.2.2.1⟩

end Scheduler

end TinyServer
