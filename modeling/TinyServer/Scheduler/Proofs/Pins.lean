/-
When a task that was scheduled with a thread id stays on that thread.

# What goes wrong

A fiber that yields to `READY` is queued again by the worker, without a
thread id; whoever comes next takes it. A caller can schedule it again
without its thread id, as the `IOManager` does when an event or a timer
wakes it. And an entry without a thread id, queued for a fiber before, can
be taken while the fiber has another task.

# What is enough

A run is `Steady` where none of this happens. Then, while a fiber has a
thread id, all its queue entries have it and only that worker has the
fiber (`Kept`).
-/
import TinyServer.Scheduler.Pins
import TinyServer.Scheduler.Proofs.Steps

namespace TinyServer

open Lib

namespace PinWatch

open Scheduler

-- ============================================================== the vocabulary

/-- Every fiber that runs, runs on each thread it is pinned to. -/
def OnPins (p : PinWatch) : Prop :=
  ∀ f w t, p.sched.RunsOn f w → t ∈ p.pins f → w = t

/-- Nobody but the worker `t` can come to run the fiber: its entries are
pinned to `t`, and no other worker has it. -/
def OnlyFor (s : Scheduler) (f t : Nat) : Prop :=
  (∀ e ∈ s.fibers, e.fiber? = some f → e.threadId = some t)
    ∧ ∀ v, v ≠ t → ¬ (s.workers v).Owns f

/-- A pinned task does not yield to `READY` and is scheduled again with
its thread id only; and when a task that is pinned to a thread gets its
fiber, nobody else can come to run that fiber. -/
def Steady (p : PinWatch) : SchedAct → Prop
  | .newFiber _ => True
  | .schedule task threadId =>
      ∀ f ∈ taskFibers [task], ∀ t ∈ p.pins f, threadId = some t
  | .scheduleAll tasks => ∀ f ∈ taskFibers tasks, p.pins f = []
  | .run w b =>
      match (p.sched.workers w).pc with
      | .top => ∀ e rest f t,
          scan p.sched.heap w p.sched.fibers = some (e, rest) →
          e.task = .fiber f → (p.sched.heap f).state.dead = false →
          e.threadId = some t → OnlyFor p.sched f t
      | .wrap e _ => ∀ f t, (p.sched.workers w).cbFiber = some f →
          e.threadId = some t → OnlyFor p.sched f t
      | .inside f _ => b = .yieldReady → p.pins f = []
      | _ => True

/-- The place of worker `w` fits the thread ids. -/
def PlaceFits (pins : Nat → List Nat) (heap : Nat → Fiber) (w : Nat) :
    WorkerPc → Prop
  | .took e => ∀ t, e.threadId = some t → w = t
  | .wrap e _ => ∀ t, e.threadId = some t → w = t
  | .inside f _ => pins f = [] ∨ (heap f).state = .exec
  | .leaving f _ => pins f = [] ∨ (heap f).state = .exec
  | .back f _ => pins f = [] ∨ (heap f).state = .exec
  | .settled f _ => pins f = [] ∨ (heap f).state = .exec
  | .requeue f _ => pins f = []
  | _ => True

/-- What holds in every state of a steady run. -/
structure Kept (p : PinWatch) : Prop where
  /-- The entries of a pinned fiber have its thread id. -/
  queue : ∀ f t, t ∈ p.pins f →
    ∀ e ∈ p.sched.fibers, e.fiber? = some f → e.threadId = some t
  /-- Only that worker has the fiber. -/
  owner : ∀ f t, t ∈ p.pins f → ∀ w, (p.sched.workers w).Owns f → w = t
  places : ∀ w, PlaceFits p.pins p.sched.heap w (p.sched.workers w).pc
  known : p.sched.Known

variable {p : PinWatch} {s : Scheduler} {w : Nat} {b : Behaviour}
  {pins : Nat → List Nat}

theorem Kept.onPins (h : p.Kept) : p.OnPins :=
  fun f w t hrun ht => h.owner f t ht w hrun.owns

theorem kept_init (threads : Nat) : (init threads).Kept where
  queue := fun _ _ ht => by cases ht
  owner := fun _ _ ht => by cases ht
  places := fun _ => trivial
  known := known_init threads

-- =================================================================== the frame

/-- What a place says of the state of a fiber is about its owner's. -/
theorem placeFits_congr {heap heap' : Nat → Fiber} {pins' : Nat → List Nat}
    {k : Worker} (h : PlaceFits pins heap w k.pc)
    (hpins : ∀ f, k.Owns f → pins f = [] → pins' f = [])
    (hheap : ∀ f, k.Owns f → pins' f = [] ∨
      (heap' f).state = (heap f).state) :
    PlaceFits pins' heap' w k.pc := by
  have hstate : ∀ f, k.Owns f → pins f = [] ∨ (heap f).state = .exec →
      pins' f = [] ∨ (heap' f).state = .exec := by
    intro f hf hor
    rcases hor with hnil | hexec
    · exact .inl (hpins f hf hnil)
    · rcases hheap f hf with hnil | hsame
      · exact .inl hnil
      · exact .inr (hsame.trans hexec)
  have hown : ∀ f, k.pc.fiber? = some f → k.Owns f := fun f hf => .inl hf
  cases hpc : k.pc with
  | took e =>
      rw [hpc] at h
      exact h
  | wrap e c =>
      rw [hpc] at h
      exact h
  | inside f viaCb =>
      rw [hpc] at h hown
      exact hstate f (hown f rfl) h
  | leaving f viaCb =>
      rw [hpc] at h hown
      exact hstate f (hown f rfl) h
  | back f viaCb =>
      rw [hpc] at h hown
      exact hstate f (hown f rfl) h
  | settled f viaCb =>
      rw [hpc] at h hown
      exact hstate f (hown f rfl) h
  | requeue f viaCb =>
      rw [hpc] at h hown
      exact hpins f (hown f rfl) h
  | _ => trivial

/-- A step of worker `w` that pins no fiber anew and writes its own fibers
only. -/
theorem Kept.move (h : p.Kept) {s' : Scheduler}
    (hmove : p.sched.RunMove w b s')
    (hpins : ∀ f t, t ∈ pins f → t ∈ p.pins f)
    (hqueue : ∀ f, pins f ≠ [] → ∀ e ∈ s'.fibers, e.fiber? = some f →
      e ∈ p.sched.fibers)
    (hown : ∀ f, pins f ≠ [] → (s'.workers w).Owns f →
      (p.sched.workers w).Owns f)
    (hheap : ∀ f, (s'.heap f).state ≠ (p.sched.heap f).state →
      pins f = [] ∨ (p.sched.workers w).Owns f)
    (hplace : PlaceFits pins s'.heap w (s'.workers w).pc) :
    Kept ⟨s', pins⟩ := by
  have hne : ∀ {f t}, t ∈ pins f → pins f ≠ [] := List.ne_nil_of_mem
  refine ⟨fun f t ht e he hf => ?_, fun f t ht v hv => ?_, fun v => ?_,
    hmove.known h.known⟩
  · exact h.queue f t (hpins f t ht) e (hqueue f (hne ht) e he hf) hf
  · by_cases hvw : v = w
    · subst hvw
      exact h.owner f t (hpins f t ht) v (hown f (hne ht) hv)
    · have hv' : (p.sched.workers v).Owns f := by
        rw [← hmove.others hvw]
        exact hv
      exact h.owner f t (hpins f t ht) v hv'
  · by_cases hvw : v = w
    · exact hvw ▸ hplace
    · show PlaceFits pins s'.heap v (s'.workers v).pc
      rw [hmove.others hvw]
      refine placeFits_congr (h.places v) ?_ ?_
      · intro f _ hnil
        apply List.eq_nil_iff_forall_not_mem.mpr
        intro t ht
        have hmem := hpins f t ht
        rw [hnil] at hmem
        cases hmem
      · intro f hf
        by_contra hno
        obtain ⟨hnil, hstate⟩ := not_or.mp hno
        have hw := (hheap f hstate).resolve_left hnil
        obtain ⟨t, ht⟩ := List.exists_mem_of_ne_nil _ hnil
        have hvt := h.owner f t (hpins f t ht) v hf
        have hwt := h.owner f t (hpins f t ht) w hw
        exact hvw (hvt.trans hwt.symm)

/-- A pinned fiber is only for its worker. -/
theorem Kept.onlyFor (h : p.Kept) {f t : Nat} (ht : t ∈ p.pins f) :
    OnlyFor p.sched f t :=
  ⟨h.queue f t ht, fun v hne hv => hne (h.owner f t ht v hv)⟩

/-- A step by which worker `w` gets the fiber `f`, pinned to `w` at most
and to nobody else. -/
theorem Kept.gain (h : p.Kept) {s' : Scheduler} {f : Nat}
    (hmove : p.sched.RunMove w b s')
    (hother : ∀ g, g ≠ f → pins g = p.pins g)
    (honly : ∀ t ∈ pins f, w = t ∧ OnlyFor p.sched f t)
    (hqueue : ∀ e ∈ s'.fibers, e ∈ p.sched.fibers)
    (hown : ∀ g, g ≠ f → (s'.workers w).Owns g →
      (p.sched.workers w).Owns g)
    (hheap : ∀ g, g ≠ f → (s'.heap g).state = (p.sched.heap g).state)
    (hplace : PlaceFits pins s'.heap w (s'.workers w).pc) :
    Kept ⟨s', pins⟩ := by
  -- where `f` is pinned, no other worker has it
  have halone : ∀ {v}, v ≠ w → (p.sched.workers v).Owns f → pins f = [] := by
    intro v hvw hv
    by_contra hnil
    obtain ⟨t, ht⟩ := List.exists_mem_of_ne_nil _ hnil
    obtain ⟨rfl, -, hno⟩ := honly t ht
    exact hno v hvw hv
  refine ⟨fun g t ht e he hg => ?_, fun g t ht v hv => ?_, fun v => ?_,
    hmove.known h.known⟩
  · by_cases hgf : g = f
    · subst hgf
      exact (honly t ht).2.1 e (hqueue e he) hg
    · have ht' : t ∈ p.pins g := hother g hgf ▸ ht
      exact h.queue g t ht' e (hqueue e he) hg
  · by_cases hvw : v = w
    · subst hvw
      by_cases hgf : g = f
      · subst hgf
        exact (honly t ht).1
      · have ht' : t ∈ p.pins g := hother g hgf ▸ ht
        exact h.owner g t ht' v (hown g hgf hv)
    · have hv' : (p.sched.workers v).Owns g := by
        rw [← hmove.others hvw]
        exact hv
      by_cases hgf : g = f
      · subst hgf
        have ht' : t ∈ pins g := ht
        rw [halone hvw hv'] at ht'
        cases ht'
      · have ht' : t ∈ p.pins g := hother g hgf ▸ ht
        exact h.owner g t ht' v hv'
  · by_cases hvw : v = w
    · exact hvw ▸ hplace
    · show PlaceFits pins s'.heap v (s'.workers v).pc
      rw [hmove.others hvw]
      refine placeFits_congr (h.places v) ?_ ?_
      · intro g hg hnil
        by_cases hgf : g = f
        · subst hgf
          exact halone hvw hg
        · rw [hother g hgf]
          exact hnil
      · intro g hg
        by_cases hgf : g = f
        · subst hgf
          exact .inl (halone hvw hg)
        · exact .inr (hheap g hgf)

-- =================================================================== the steps

theorem eligible_threadId {heap : Nat → Fiber} {e : FiberAndThread} {t : Nat}
    (he : eligible heap w e = true) (ht : e.threadId = some t) : w = t := by
  by_contra hne
  have hpin : pinnedElsewhere w e = true := by
    simp [pinnedElsewhere, ht, Ne.symm hne]
  rw [eligible, hpin] at he
  cases he

theorem setPins_self {f : Nat} {ts : List Nat} :
    setPins pins f ts f = ts := if_pos rfl

theorem setPins_ne {f g : Nat} {ts : List Nat} (h : g ≠ f) :
    setPins pins f ts g = pins g := if_neg h

/-- The section of `run` under the mutex. -/
theorem Kept.take (h : p.Kept) (hok : p.Steady (.run w b))
    {e : FiberAndThread} {pre post : List FiberAndThread} {s' : Scheduler}
    (hpc : (p.sched.workers w).pc = .top)
    (hqueue : p.sched.fibers = pre ++ e :: post)
    (hscan : scan p.sched.heap w p.sched.fibers = some (e, pre ++ post))
    (helig : eligible p.sched.heap w e = true)
    (hmove : p.sched.RunMove w b s') (hfibers : s'.fibers = pre ++ post)
    (hheap : s'.heap = p.sched.heap)
    (hworker : s'.workers w = { p.sched.workers w with pc := .took e }) :
    Kept ⟨s', p.runPins w b⟩ := by
  have hmem : e ∈ p.sched.fibers := by
    rw [hqueue]
    exact List.mem_append_right pre List.mem_cons_self
  have hsub : ∀ x ∈ s'.fibers, x ∈ p.sched.fibers := by
    intro x hx
    rw [hfibers] at hx
    rw [hqueue]
    rcases List.mem_append.mp hx with hx | hx
    · exact List.mem_append_left _ hx
    · exact List.mem_append_right pre (List.mem_cons_of_mem e hx)
  have hplace : ∀ pins, PlaceFits pins s'.heap w (s'.workers w).pc := by
    intro pins
    rw [hworker]
    exact fun t ht => eligible_threadId helig ht
  cases htask : e.task with
  | cb c =>
      have hpins : p.runPins w b = p.pins := by
        simp only [runPins, takePins, hpc, hscan, htask]
      rw [hpins]
      refine h.move hmove (fun _ _ ht => ht) (fun _ _ x hx _ => hsub x hx) ?_
        (fun f hne => absurd (by rw [hheap]) hne) (hplace _)
      intro f _ hf
      rw [hworker] at hf
      refine owns_pc (.inl ?_) hf
      show e.fiber? = none
      rw [FiberAndThread.fiber?, htask]
  | fiber f =>
      have hpins : p.runPins w b =
          if (p.sched.heap f).state.dead then p.pins
          else setPins p.pins f (e.threadId.toList ++ p.pins f) := by
        simp only [runPins, takePins, hpc, hscan, htask]
      rw [hpins]
      have hfib : e.fiber? = some f := by rw [FiberAndThread.fiber?, htask]
      have hown : ∀ g, g ≠ f → (s'.workers w).Owns g →
          (p.sched.workers w).Owns g := by
        intro g hgf hg
        rw [hworker] at hg
        rcases hg with hg | hg
        · exact absurd (Option.some.inj (hg.symm.trans hfib)) hgf
        · exact .inr hg
      have hstate : ∀ g, g ≠ f →
          (s'.heap g).state = (p.sched.heap g).state := by
        intro g _
        rw [hheap]
      -- a fiber that was pinned before has this thread id
      have hold : ∀ t ∈ p.pins f, w = t ∧ OnlyFor p.sched f t := by
        intro t ht
        exact ⟨eligible_threadId helig (h.queue f t ht e hmem hfib),
          h.onlyFor ht⟩
      split
      next => exact h.gain hmove (fun _ _ => rfl) hold hsub hown hstate
                (hplace _)
      next halive =>
          refine h.gain hmove (fun g hg => setPins_ne hg) ?_ hsub hown hstate
            (hplace _)
          rw [setPins_self]
          intro t ht
          rcases List.mem_append.mp ht with ht | ht
          · have hthr : e.threadId = some t := Option.mem_toList.mp ht
            refine ⟨eligible_threadId helig hthr, ?_⟩
            simp only [Steady, hpc] at hok
            exact hok e _ f t hscan htask (Bool.eq_false_iff.mpr halive) hthr
          · exact hold t ht

/-- A step that leaves the queue, the fibers' states and the thread ids
alone. -/
theorem Kept.walk (h : p.Kept) {t : Scheduler} {k : Worker}
    (hmove : p.sched.RunMove w b (t.setWorker w k))
    (hpins : p.runPins w b = p.pins) (hfibers : t.fibers = p.sched.fibers)
    (hheap : t.heap = p.sched.heap)
    (hcb : k.cbFiber = (p.sched.workers w).cbFiber)
    (hfib : k.pc.fiber? = none
      ∨ k.pc.fiber? = (p.sched.workers w).pc.fiber?)
    (hplace : PlaceFits p.pins p.sched.heap w k.pc) :
    Kept ⟨t.setWorker w k, p.runPins w b⟩ := by
  rw [hpins]
  refine h.move hmove (fun _ _ ht => ht) (fun _ _ e he _ => hfibers ▸ he)
    (fun f _ hf => ?_) (fun f hne => absurd ?_ hne) ?_
  · rw [setWorker_pc] at hf
    refine owns_pc hfib ?_
    rcases hf with hf | hf
    · exact .inl hf
    · exact .inr (hcb.symm.trans hf)
  · show (t.heap f).state = (p.sched.heap f).state
    rw [hheap]
  · rw [setWorker_pc]
    show PlaceFits p.pins t.heap w k.pc
    rw [hheap]
    exact hplace

/-- A step on a fiber that worker `w` has, which leaves the queue and the
thread ids alone. -/
theorem Kept.touch (h : p.Kept) {s' : Scheduler} {f : Nat}
    (hmove : p.sched.RunMove w b s') (hpins : p.runPins w b = p.pins)
    (hf : (p.sched.workers w).Owns f) (hfibers : s'.fibers = p.sched.fibers)
    (hheap : ∀ g, g ≠ f → s'.heap g = p.sched.heap g)
    (hown : ∀ g, (s'.workers w).Owns g → (p.sched.workers w).Owns g)
    (hplace : PlaceFits p.pins s'.heap w (s'.workers w).pc) :
    Kept ⟨s', p.runPins w b⟩ := by
  rw [hpins]
  refine h.move hmove (fun _ _ ht => ht) (fun _ _ e he _ => hfibers ▸ he)
    (fun g _ hg => hown g hg) (fun g hne => ?_) hplace
  by_cases hgf : g = f
  · exact .inr (hgf ▸ hf)
  · exact absurd (by rw [hheap g hgf]) hne

/-- A callback is put into a fiber that nobody else can come to run. -/
theorem Kept.fill (h : p.Kept) {e : FiberAndThread} {c f : Nat}
    {s' : Scheduler} (hpc : (p.sched.workers w).pc = .wrap e c)
    (hmove : p.sched.RunMove w b s')
    (hf : (p.sched.workers w).cbFiber.getD p.sched.nextFiber = f)
    (honly : ∀ t, e.threadId = some t → OnlyFor p.sched f t)
    (hfibers : s'.fibers = p.sched.fibers)
    (hheap : ∀ g, g ≠ f → s'.heap g = p.sched.heap g)
    (hworker : s'.workers w = { p.sched.workers w with
      pc := .swapping e f true, cbFiber := some f }) :
    Kept ⟨s', p.runPins w b⟩ := by
  have hpins : p.runPins w b = setPins p.pins f e.threadId.toList := by
    simp only [runPins, hpc, hf]
  have hat : ∀ t, e.threadId = some t → w = t := by
    have hplace := h.places w
    rw [hpc] at hplace
    exact hplace
  rw [hpins]
  refine h.gain hmove (fun g hg => setPins_ne hg) ?_ (fun x hx => hfibers ▸ hx)
    ?_ (fun g hg => by rw [hheap g hg]) ?_
  · rw [setPins_self]
    intro t ht
    have hthr : e.threadId = some t := Option.mem_toList.mp ht
    exact ⟨hat t hthr, honly t hthr⟩
  · intro g hg hown
    rw [hworker] at hown
    rcases hown with hown | hown
    · exact absurd (Option.some.inj hown).symm hg
    · exact absurd (Option.some.inj hown).symm hg
  · rw [hworker]
    trivial

theorem leave_yieldHold {x y : Fiber} (h : x.leave .yieldHold = some y) :
    y.state = .exec := by
  unfold Fiber.leave at h
  split at h
  next => cases h
  next =>
      simp only at h
      split at h
      next hexec =>
          cases h
          exact hexec
      next => cases h

/-- A worker's step in a steady run. -/
theorem Kept.run (h : p.Kept) (hok : p.Steady (.run w b)) {s' : Scheduler}
    (hmove : p.sched.RunMove w b s') : Kept ⟨s', p.runPins w b⟩ := by
  have hplace := h.places w
  have hmove' := hmove
  have hown : ∀ {pc : WorkerPc}, pc.fiber? = none
      ∨ pc.fiber? = (p.sched.workers w).pc.fiber? → ∀ f,
      Worker.Owns { p.sched.workers w with pc := pc } f →
        (p.sched.workers w).Owns f := fun hpc f hf => owns_pc hpc hf
  cases hmove with
  | take hpc hqueue hscan helig =>
      exact h.take hok hpc hqueue hscan helig hmove' rfl rfl
        (by rw [setPc, setWorker_pc])
  | nothing hpc hscan =>
      exact h.walk hmove' (by simp only [runPins, takePins, hpc, hscan])
        rfl rfl rfl (.inl rfl) trivial
  | @toDrop e f hpc htask hdead =>
      exact h.walk hmove' (by simp only [runPins, hpc]) rfl rfl rfl
        (.inl rfl) trivial
  | @toSwap e f hpc htask halive =>
      refine h.walk hmove' (by simp only [runPins, hpc]) rfl rfl rfl
        (.inr ?_) trivial
      rw [hpc]
      show some f = e.fiber?
      rw [FiberAndThread.fiber?, htask]
  | @toWrap e c hpc htask =>
      refine h.walk hmove' (by simp only [runPins, hpc]) rfl rfl rfl
        (.inl rfl) ?_
      rw [hpc] at hplace
      exact hplace
  | @reuse e c f hpc hcb hstate =>
      refine h.fill hpc hmove' (by rw [hcb]; rfl) ?_ rfl
        (fun g hg => if_neg hg) ?_
      · simp only [Steady, hpc] at hok
        exact fun t ht => hok f t hcb ht
      · rw [setPc, setWorker_pc]
        show Worker.mk _ (p.sched.workers w).cbFiber _ = _
        rw [hcb]
        rfl
  | @make e c hpc hcb =>
      refine h.fill hpc hmove' (by rw [hcb]; rfl) ?_ rfl
        (fun g hg => if_neg hg) (setWorker_pc _ _ _)
      -- the new fiber is neither queued nor owned
      intro t _
      refine ⟨fun x hx hfib => ?_, fun v _ hv => ?_⟩
      · have hq : p.sched.nextFiber ∈ p.sched.queued :=
          List.mem_filterMap.mpr ⟨x, hx, hfib⟩
        exact absurd (h.known _ (.inl hq)) (Nat.lt_irrefl _)
      · exact absurd (h.known _ (.inr ⟨v, hv⟩)) (Nat.lt_irrefl _)
  | @swapIn e f viaCb hpc hstate =>
      have hf : (p.sched.workers w).Owns f := .inl (by rw [hpc]; rfl)
      refine h.touch hmove' (by simp only [runPins, hpc]) hf rfl
        (fun g hg => if_neg hg) (fun g hg => ?_) ?_
      · rw [setPc, setWorker_pc] at hg
        exact hown (.inr (by rw [hpc]; rfl)) g hg
      · rw [setPc_pc]
        refine .inr ?_
        show ((p.sched.setFiber f _).heap f).state = .exec
        rw [setFiber_heap_self]
  | @leave f viaCb x hpc hx =>
      have hf : (p.sched.workers w).Owns f := .inl (by rw [hpc]; rfl)
      have hpins : p.runPins w b = if b = .returns ∨ b = .throws then
          setPins p.pins f [] else p.pins := by simp only [runPins, hpc]
      have hsub : ∀ g t, t ∈ p.runPins w b g → t ∈ p.pins g := by
        intro g t ht
        rw [hpins] at ht
        split at ht
        next =>
            by_cases hg : g = f
            · rw [hg, setPins_self] at ht
              cases ht
            · rwa [setPins_ne hg] at ht
        next => exact ht
      refine h.move hmove' hsub (fun _ _ e he _ => he) (fun g _ hg => ?_)
        (fun g hne => ?_) ?_
      · rw [setPc, setWorker_pc] at hg
        exact hown (.inr (by rw [hpc]; rfl)) g hg
      · rw [setFiber_state_ne hne]
        exact .inr hf
      · rw [setPc_pc, hpins]
        show _ ∨ ((p.sched.setFiber f x).heap f).state = .exec
        rw [setFiber_heap_self]
        simp only [Steady, hpc] at hok
        cases b with
        | returns => exact .inl (by simp [setPins_self])
        | throws => exact .inl (by simp [setPins_self])
        | yieldReady => exact .inl (by simpa using hok rfl)
        | yieldHold => exact .inr (leave_yieldHold hx)
  | @left f viaCb hpc =>
      refine h.walk hmove' (by simp only [runPins, hpc]) rfl rfl rfl
        (.inr (by rw [hpc]; rfl)) ?_
      rw [hpc] at hplace
      exact hplace
  | @decrement f viaCb hpc =>
      refine h.walk hmove' (by simp only [runPins, hpc]) rfl rfl rfl
        (.inr (by rw [hpc]; rfl)) ?_
      rw [hpc] at hplace
      exact hplace
  | @ready f viaCb hpc hstate =>
      refine h.walk hmove' (by simp only [runPins, hpc]) rfl rfl rfl
        (.inr (by rw [hpc]; rfl)) ?_
      rw [hpc] at hplace
      refine hplace.resolve_right ?_
      rw [hstate]
      exact FiberState.noConfusion
  | @ended f viaCb hpc hdead =>
      refine h.walk hmove' (by simp only [runPins, hpc]) rfl rfl rfl ?_ ?_
      · cases viaCb with
        | true => exact .inr (by rw [hpc]; rfl)
        | false => exact .inl rfl
      · cases viaCb <;> trivial
  | @held f viaCb hpc hready halive =>
      exact h.walk hmove' (by simp only [runPins, hpc]) rfl rfl rfl
        (.inr (by rw [hpc]; rfl)) trivial
  | @requeue f viaCb hpc =>
      have hpins : p.runPins w b = p.pins := by simp only [runPins, hpc]
      have hnil : p.pins f = [] := by
        rw [hpc] at hplace
        exact hplace
      rw [hpins]
      refine h.move hmove' (fun _ _ ht => ht) (fun g hne e he hfib => ?_)
        (fun g _ hg => ?_) (fun g hne => absurd rfl hne) ?_
      · rcases List.mem_append.mp he with he | he
        · exact he
        · -- the entry is of the fiber that has no thread id
          rw [List.mem_singleton.mp he] at hfib
          cases hfib
          exact absurd hnil hne
      · exact ((hmove'.owns hg).resolve_right (by
          rintro (⟨e, -, -, hpc', -⟩ | ⟨-, hnext⟩)
          · rw [setWorker_pc] at hpc'
            cases hpc'
          · exact absurd hnext (Nat.succ_ne_self _).symm))
      · rw [setWorker_pc]
        trivial
  | @renew f hpc hstate =>
      have hf : (p.sched.workers w).Owns f := .inl (by rw [hpc]; rfl)
      refine h.touch hmove' (by simp only [runPins, hpc]) hf rfl
        (fun g hg => if_neg hg) (fun g hg => ?_) ?_
      · rw [setPc, setWorker_pc] at hg
        exact hown (.inl rfl) g hg
      · rw [setPc_pc]
        trivial
  | @park f viaCb hpc =>
      have hf : (p.sched.workers w).Owns f := .inl (by rw [hpc]; rfl)
      refine h.touch hmove' (by simp only [runPins, hpc]) hf rfl
        (fun g hg => if_neg hg) (fun g hg => ?_) ?_
      · exact ((hmove'.owns hg).resolve_right (by
          rintro (⟨e, -, -, hpc', -⟩ | ⟨-, hnext⟩)
          · rw [setWorker_pc] at hpc'
            cases hpc'
          · exact absurd hnext (Nat.succ_ne_self _).symm))
      · rw [setWorker_pc]
        trivial
  | dropped hpc =>
      exact h.walk hmove' (by simp only [runPins, hpc]) rfl rfl rfl
        (.inl rfl) trivial
  | idleOut hpc hstate =>
      exact h.walk hmove' (by simp only [runPins, hpc]) rfl rfl rfl
        (.inl rfl) trivial
  | idleIn hpc hterm hexec =>
      exact h.walk hmove' (by simp only [runPins, hpc]) rfl rfl rfl
        (.inl rfl) trivial
  | idleLeave hpc hx =>
      exact h.walk hmove' (by simp only [runPins, hpc]) rfl rfl rfl
        (.inl rfl) trivial
  | idleBack hpc =>
      exact h.walk hmove' (by simp only [runPins, hpc]) rfl rfl rfl
        (.inl rfl) trivial

/-- Tasks that are scheduled have the thread ids of their fibers. -/
theorem Kept.schedule (h : p.Kept) {s' : Scheduler}
    {tasks : List (Option Task)} (hpush : p.sched.Pushes s' tasks)
    (hok : tasks.all p.sched.schedulable = true)
    (hentries : ∀ e ∈ s'.fibers, e ∈ p.sched.fibers
      ∨ ∀ f, e.fiber? = some f → ∀ t ∈ p.pins f, e.threadId = some t) :
    Kept ⟨s', p.pins⟩ := by
  refine ⟨fun f t ht e he hf => ?_, fun f t ht w hw => ?_, fun w => ?_,
    hpush.known h.known hok⟩
  · rcases hentries e he with he | hnew
    · exact h.queue f t ht e he hf
    · exact hnew f hf t ht
  · have hw' : (s'.workers w).Owns f := hw
    rw [hpush.workers] at hw'
    exact h.owner f t ht w hw'
  · show PlaceFits p.pins s'.heap w (s'.workers w).pc
    rw [hpush.workers, hpush.heap]
    exact h.places w

theorem mem_scheduleNoLock {task : Option Task} {threadId : Option Nat}
    {e : FiberAndThread} (he : e ∈ (s.scheduleNoLock task threadId).fibers) :
    e ∈ s.fibers ∨ (e.threadId = threadId
      ∧ ∀ f, e.fiber? = some f → f ∈ taskFibers [task]) := by
  rcases task with _ | t
  · exact .inl he
  · rcases List.mem_append.mp he with he | he
    · exact .inl he
    · rw [List.mem_singleton.mp he]
      refine .inr ⟨rfl, fun f hf => ?_⟩
      cases t with
      | fiber g =>
          cases hf
          exact List.mem_singleton.mpr rfl
      | cb c => cases hf

theorem mem_scheduleAll (tasks : List (Option Task)) :
    ∀ {s : Scheduler} {e : FiberAndThread},
      e ∈ (tasks.foldl (fun s t => s.scheduleNoLock t none) s).fibers →
        e ∈ s.fibers ∨ ∀ f, e.fiber? = some f → f ∈ taskFibers tasks := by
  induction tasks with
  | nil => exact fun he => .inl he
  | cons t tasks ih =>
      intro s e he
      have hcons : taskFibers (t :: tasks)
          = taskFibers [t] ++ taskFibers tasks := by
        unfold taskFibers
        rw [← List.filterMap_append]
        rfl
      rw [hcons]
      rcases ih he with he | hnew
      · rcases mem_scheduleNoLock he with he | ⟨-, hnew⟩
        · exact .inl he
        · exact .inr fun f hf => List.mem_append_left _ (hnew f hf)
      · exact .inr fun f hf => List.mem_append_right _ (hnew f hf)

/-- A new fiber is not pinned, and nobody has it. -/
theorem Kept.newFiber (h : p.Kept) (cb : Nat) :
    Kept ⟨{ p.sched with nextFiber := p.sched.nextFiber + 1 }.setFiber
      p.sched.nextFiber (Fiber.new (some cb)),
      setPins p.pins p.sched.nextFiber []⟩ := by
  have hsub : ∀ {f t}, t ∈ setPins p.pins p.sched.nextFiber [] f →
      t ∈ p.pins f := by
    intro f t ht
    by_cases hf : f = p.sched.nextFiber
    · rw [hf, setPins_self] at ht
      cases ht
    · rwa [setPins_ne hf] at ht
  refine ⟨fun f t ht => h.queue f t (hsub ht),
    fun f t ht => h.owner f t (hsub ht), fun w => ?_,
    fun f hf => Nat.lt_succ_of_lt (h.known f hf)⟩
  have hne : ∀ {f}, (p.sched.workers w).Owns f → f ≠ p.sched.nextFiber := by
    rintro f hf rfl
    exact absurd (h.known _ (.inr ⟨w, hf⟩)) (Nat.lt_irrefl _)
  refine placeFits_congr (h.places w) ?_ ?_
  · intro f hf hnil
    show setPins p.pins p.sched.nextFiber [] f = []
    rw [setPins_ne (hne hf)]
    exact hnil
  · intro f hf
    refine .inr ?_
    have hf' : f ≠ p.sched.nextFiber := hne hf
    simp only [setFiber, hf', if_false]

-- ==================================================================== the runs

/-- A steady step keeps the invariant. -/
theorem step_kept {p' : PinWatch} {a : SchedAct} (h : p.Kept)
    (hok : p.Steady a) (hs : p.step a = some p') : p'.Kept := by
  obtain ⟨s', hstep, rfl⟩ := Option.map_eq_some_iff.mp hs
  rcases step_cases hstep with ⟨cb, rfl, rfl⟩ |
    ⟨tasks, hpush, hall, ⟨task, threadId, rfl, rfl, rfl⟩ | ⟨rfl, rfl⟩⟩ |
    ⟨w, b, rfl, -, hmove⟩
  · exact h.newFiber cb
  · refine h.schedule hpush hall fun e he => ?_
    rcases mem_scheduleNoLock he with he | ⟨hthr, hnew⟩
    · exact .inl he
    · refine .inr fun f hf t ht => ?_
      rw [hthr]
      exact hok f (hnew f hf) t ht
  · refine h.schedule hpush hall fun e he => ?_
    rcases mem_scheduleAll tasks he with he | hnew
    · exact .inl he
    · refine .inr fun f hf t ht => ?_
      rw [hok f (hnew f hf)] at ht
      cases ht
  · exact h.run hok hmove

/-- In a steady run every fiber runs on the thread that its task was
scheduled with only. -/
theorem pins_kept {threads : Nat} {acts : List SchedAct}
    (hok : ∀ p a, Takes step (init threads) acts p a → p.Steady a)
    {p : PinWatch} (h : Visits step (init threads) acts p) : p.OnPins :=
  (visits_inv step_kept (kept_init threads) hok h).onPins

/-- A fiber is scheduled for thread 1, runs there, is scheduled for it
again and holds. -/
def pinnedHold : List SchedAct :=
  [.newFiber 7, .schedule (some (.fiber 0)) (some 1),
    .run 1 .returns, .run 1 .returns, .run 1 .returns,
    .schedule (some (.fiber 0)) (some 1), .run 1 .yieldHold]

theorem pins_kept_pinned_hold :
    ∃ p, pinnedHold.foldlM step (init 2) = some p ∧ p.pins 0 = [1]
      ∧ (p.sched.workers 1).pc = .leaving 0 false ∧ p.OnPins := by
  have hok : ∀ p a, Takes step (init 2) pinnedHold p a → p.Steady a := by
    refine forall_takes_cons trivial fun t ht => ?_
    cases ht
    refine forall_takes_cons ?_ fun t ht => ?_
    · intro f _ t ht
      have hnone : t ∈ (if f = 0 then [] else [] : List Nat) := ht
      split at hnone <;> cases hnone
    cases ht
    refine forall_takes_cons ?_ fun t ht => ?_
    · intro e rest f t hscan htask _ hthr
      cases hscan
      cases htask
      cases hthr
      refine ⟨fun x hx _ => ?_, fun v _ hv => ?_⟩
      · rw [List.mem_singleton.mp hx]
      · rcases hv with hv | hv <;> cases hv
    cases ht
    refine forall_takes_cons trivial fun t ht => ?_
    cases ht
    refine forall_takes_cons trivial fun t ht => ?_
    cases ht
    refine forall_takes_cons ?_ fun t ht => ?_
    · intro f hf t ht
      cases List.mem_singleton.mp hf
      rw [List.mem_singleton.mp ht]
    cases ht
    refine forall_takes_cons ?_ fun t ht => forall_takes_nil
    exact fun hb => by cases hb
  obtain ⟨p, hp⟩ := Option.isSome_iff_exists.mp
    (show (pinnedHold.foldlM step (init 2)).isSome = true by decide)
  have hpins := congrArg (Option.map fun p => p.pins 0) hp
  have hpc := congrArg (Option.map fun p => (p.sched.workers 1).pc) hp
  exact ⟨p, hp, (Option.some.inj hpins).symm, (Option.some.inj hpc).symm,
    pins_kept hok (visits_last hp)⟩

/-- A callback that is scheduled for thread 0 yields to `READY`; it is
queued without a thread id, and worker 1 takes it. -/
def yieldUnpins : List SchedAct :=
  [.schedule (some (.cb 7)) (some 0),
    .run 0 .returns, .run 0 .returns, .run 0 .returns, .run 0 .returns,
    .run 0 .yieldReady, .run 0 .returns, .run 0 .returns, .run 0 .returns,
    .run 0 .returns,
    .run 1 .returns, .run 1 .returns, .run 1 .returns]

theorem pin_lost_by_yield :
    ¬ ∀ (threads : Nat) (acts : List SchedAct) (p : PinWatch),
      Visits step (init threads) acts p → p.OnPins := by
  intro hall
  obtain ⟨p, hp⟩ := Option.isSome_iff_exists.mp
    (show (yieldUnpins.foldlM step (init 2)).isSome = true by decide)
  have hpins := congrArg (Option.map fun p => p.pins 0) hp
  have hpc := congrArg (Option.map fun p => (p.sched.workers 1).pc) hp
  have hpins' : p.pins 0 = [0] := (Option.some.inj hpins).symm
  have hpc' : (p.sched.workers 1).pc = .inside 0 false :=
    (Option.some.inj hpc).symm
  have hmem : 0 ∈ p.pins 0 := by rw [hpins']; exact List.mem_singleton.mpr rfl
  exact absurd (hall 2 yieldUnpins p (visits_last hp) 0 1 0 ⟨_, .inl hpc'⟩
    hmem) (by decide)

end PinWatch

end TinyServer
