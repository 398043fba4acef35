/-
What `start` and `stop` leave behind.

# The handshake

`Thread.Sound` says what `Thread::run` has taken from the object at each
of its places, and that its post is there until the constructor has taken
it. So a constructor that has returned leaves a thread that needs nothing
more of the object but its id and its name, and the id that `start`
records is the one the kernel gave.

# The workers

A worker of the queue, step by step, is one that goes through these places
or stays where it is (`Scheduler.runStep_place`).

# The invariant

`Orderly` has a line for each place of the owner (`Fits`): how many
threads there are, which of them are in `m_threads`, and which have been
waited for in `stop`. A thread changes nothing of it but itself
(`Orderly.threadStep`); of the owner's steps three are about a thread
object (`create`, `wait`, `record`) and the rest leave them alone
(`move`).
-/
import TinyServer.Scheduler.Life
import TinyServer.Lib.Run
import TinyServer.Lib.Range

namespace TinyServer

open Lib
open Http (Bytes)

-- ============================================================== the vocabulary

/-- `Thread::run` has taken what it needs. -/
structure Thread.Taken (th : Thread Unit RunPc) (tid : Int) (given : Bytes) :
    Prop where
  id : th.id = tid
  name : th.name = given
  threadName : th.threadName = given
  kernelName : th.kernelName = given.take 15
  callBack : th.callBack = none
  cb : th.cb = some ()

/-- `m_callBack` is still in the object, and nothing has been posted. -/
structure Thread.Untaken (th : Thread Unit RunPc) (given : Bytes) : Prop where
  name : th.name = given
  callBack : th.callBack = some ()
  cb : th.cb = none
  count : th.semaphore.count = 0

/-- What has been taken at each place. `waited` says that the constructor
has gone on. -/
def Thread.Sound (th : Thread Unit RunPc) (tid : Int) (name : Bytes)
    (waited : Bool) : Prop :=
  match th.pc with
  | .entry => waited = false ∧ th.Untaken name
  | .identified =>
      waited = false ∧ th.Untaken name ∧ th.id = tid ∧ th.threadName = name
  | .renamed =>
      waited = false ∧ th.Untaken name ∧ th.id = tid ∧ th.threadName = name
        ∧ th.kernelName = name.take 15
  | .swapped => waited = false ∧ th.Taken tid name ∧ th.semaphore.count = 0
  | .notified | .calling _ =>
      th.Taken tid name ∧ th.semaphore.count = if waited then 0 else 1

/-- From where to where `Thread::run` goes. -/
def ThreadPc.moves : List (ThreadPc RunPc × ThreadPc RunPc) :=
  [(.entry, .identified), (.identified, .renamed), (.renamed, .swapped),
    (.swapped, .notified), (.notified, .calling .enter)]

/-- The thread has not been in a section of `Scheduler::run`. -/
def ThreadPc.fresh : ThreadPc RunPc → Bool
  | .calling .enter => true
  | .calling (.top idleTerm) => !idleTerm
  | .calling _ => false
  | _ => true

/-- `start` holds `m_mutex`. -/
def OwnerPc.creates : OwnerPc → Bool
  | .creating _ | .waiting _ | .recording _ => true
  | _ => false

/-- The owner is in a constructor, or has one to record. -/
def OwnerPc.within : OwnerPc → Bool
  | .waiting _ | .recording _ => true
  | _ => false

/-- `start` has returned, or thrown. -/
def OwnerPc.started : OwnerPc → Bool
  | .start | .creating _ | .waiting _ | .recording _ => false
  | _ => true

/-- `stop` has set both flags. -/
def OwnerPc.ends : OwnerPc → Bool
  | .early | .marked | .calling | .swapping | .joining _ | .stopped => true
  | _ => false

/-- The section of a worker finds nothing, and `stopping` no work. -/
def LifeAct.quiet : LifeAct → Bool
  | .owner b => !b
  | .thread _ found => !found

namespace SchedulerLife

/-- The constructor of the thread has gone on. -/
def waited (s : SchedulerLife) (k : Nat) : Bool :=
  match s.pc with
  | .waiting _ => k + 1 != s.made
  | _ => true

/-- The threads whose ids have been recorded. -/
def recorded (s : SchedulerLife) : Nat :=
  match s.pc with
  | .waiting i | .recording i => i
  | _ => s.made

/-- What is known at each place of the owner. -/
def Fits (s : SchedulerLife) : Prop :=
  match s.pc with
  | .start => s.made = 0 ∧ s.stopping = true ∧ s.threads = []
  | .creating i => s.made = i ∧ i ≤ s.threadCount ∧ s.threads = List.range i
  | .waiting i | .recording i =>
      s.made = i + 1 ∧ i < s.threadCount ∧ s.threads = List.range i
  | .between ok => s.made ≤ s.threadCount ∧ (ok = true → s.made = s.threadCount)
      ∧ s.threads = List.range s.made
  | .asked => s.made ≤ s.threadCount ∧ s.autoStop = true
      ∧ s.threads = List.range s.made
  | .early => s.made ≤ s.threadCount ∧ s.ending = true ∧ s.threadCount = 0
      ∧ s.threads = List.range s.made
  | .marked | .swapping => s.made ≤ s.threadCount ∧ s.ending = true
      ∧ s.threads = List.range s.made
  | .calling => s.made ≤ s.threadCount ∧ s.ending = true
      ∧ s.threads = List.range s.made ∧ s.root.isSome = true
  | .joining ks => s.made ≤ s.threadCount ∧ s.ending = true
      ∧ ks.length ≤ s.threadCount ∧ (∀ k ∈ ks, k < s.made)
      ∧ ∀ k < s.made, k ∉ ks → s.ended k = true
  | .stopped => s.made ≤ s.threadCount ∧ s.ending = true
      ∧ ∀ k < s.made, s.ended k = true

/-- The invariant; `ids` are those recorded by the constructor. -/
structure Orderly (tid : Nat → Int) (ids : List Int) (s : SchedulerLife) :
    Prop where
  fits : s.Fits
  locked : s.locked = s.pc.creates
  sound : ∀ k < s.made,
    (s.thread k).Sound (tid k) (s.threadName k) (s.waited k)
  unmade : ∀ k, s.made ≤ k → (s.thread k).pc = .entry
  fresh : s.locked = true → ∀ k < s.made, (s.thread k).pc.fresh = true
  recorded : s.threadIds = ids ++ (List.range s.recorded).map tid
  root : s.pc ≠ .calling →
    s.root = none ∨ s.root = some .enter ∨ s.root = some .left

end SchedulerLife

-- ================================================================= the workers

namespace Scheduler

variable {s s' t : Scheduler} {w : Nat} {b : Behaviour}

theorem place_setWorker (s : Scheduler) (w : Nat) (k : Worker) :
    ((s.setWorker w k).workers w).place = k.place := by
  unfold setWorker
  exact congrArg Worker.place (if_pos rfl)

/-- A worker with an entry, before and after a step of its turn. -/
theorem busy_place {k : Worker} {pc : WorkerPc} (hpc : k.pc = pc)
    (hbusy : Worker.place { k with pc := pc }
      = .busy (k.idleFiber.state = .term)) :
    k.place = .busy (k.idleFiber.state = .term) := by
  rw [← hbusy, ← hpc]

/-- What a step of a worker is, when its place is looked at. -/
theorem runStep_place (h : s.runStep w b = some s') :
    (s'.workers w).place = (s.workers w).place
      ∨ ∃ ending found, (s.workers w).place.step true ending found
        = some (s'.workers w).place := by
  have hsame : ∀ {t : Scheduler} {k : Worker}, some (t.setWorker w k)
      = some s' →
      k.place = (s.workers w).place →
      (s'.workers w).place = (s.workers w).place := by
    intro t k heq hk
    cases heq
    exact (place_setWorker t w k).trans hk
  have hturn : ∀ {t : Scheduler} {k : Worker}, some (t.setWorker w k)
      = some s' →
      (s.workers w).place = .busy ((s.workers w).idleFiber.state = .term) →
      k.place = .top ((s.workers w).idleFiber.state = .term) →
      ∃ ending found, (s.workers w).place.step true ending found
        = some (s'.workers w).place := by
    intro t k heq hbusy hk
    cases heq
    refine ⟨false, false, ?_⟩
    rw [place_setWorker, hk, hbusy]
    rfl
  unfold runStep at h
  cases hpc : (s.workers w).pc with
  | top =>
      rw [hpc] at h
      cases h
      refine .inr ?_
      unfold dequeue
      have hplace : (s.workers w).place
          = .top ((s.workers w).idleFiber.state = .term) := by
        unfold Worker.place
        rw [hpc]
      rw [hplace]
      split
      next e rest hscan =>
        refine ⟨false, true, ?_⟩
        unfold setPc
        rw [place_setWorker]
        rfl
      next =>
        refine ⟨false, false, ?_⟩
        unfold setPc
        rw [place_setWorker]
        unfold Worker.place RunPc.step
        by_cases hterm : (s.workers w).idleFiber.state = .term
        · simp [hterm]
        · simp [hterm]
  | took e =>
      rw [hpc] at h
      have hbusy := busy_place hpc rfl
      dsimp only at h
      split at h
      · split at h
        · exact .inl (hsame h hbusy.symm)
        · exact .inl (hsame h hbusy.symm)
      · exact .inl (hsame h hbusy.symm)
  | wrap e c =>
      rw [hpc] at h
      have hbusy := busy_place hpc rfl
      dsimp only at h
      split at h
      · obtain ⟨x, -, hx⟩ := Option.bind_eq_some_iff.mp h
        exact .inl (hsame hx hbusy.symm)
      · exact .inl (hsame h hbusy.symm)
  | swapping e f viaCb =>
      rw [hpc] at h
      obtain ⟨x, -, hx⟩ := Option.bind_eq_some_iff.mp h
      exact .inl (hsame hx (busy_place hpc rfl).symm)
  | inside f viaCb =>
      rw [hpc] at h
      obtain ⟨x, -, hx⟩ := Option.bind_eq_some_iff.mp h
      exact .inl (hsame hx (busy_place hpc rfl).symm)
  | leaving f viaCb =>
      rw [hpc] at h
      exact .inl (hsame h (busy_place hpc rfl).symm)
  | back f viaCb =>
      rw [hpc] at h
      exact .inl (hsame h (busy_place hpc rfl).symm)
  | settled f viaCb =>
      rw [hpc] at h
      have hbusy := busy_place hpc rfl
      dsimp only at h
      split at h
      · exact .inl (hsame h hbusy.symm)
      · split at h
        · cases viaCb
          · exact .inr (hturn h hbusy rfl)
          · exact .inl (hsame h hbusy.symm)
        · exact .inl (hsame h hbusy.symm)
  | requeue f viaCb =>
      rw [hpc] at h
      exact .inr (hturn h (busy_place hpc rfl) rfl)
  | renew f =>
      rw [hpc] at h
      obtain ⟨x, -, hx⟩ := Option.bind_eq_some_iff.mp h
      exact .inr (hturn hx (busy_place hpc rfl) rfl)
  | park f viaCb =>
      rw [hpc] at h
      exact .inr (hturn h (busy_place hpc rfl) rfl)
  | drop =>
      rw [hpc] at h
      exact .inr (hturn h (busy_place hpc rfl) rfl)
  | idleTest =>
      rw [hpc] at h
      have hplace : (s.workers w).place
          = if (s.workers w).idleFiber.state = .term then .left else .idle := by
        unfold Worker.place
        rw [hpc]
      dsimp only at h
      split at h
      next hterm =>
        rw [if_pos hterm] at hplace
        exact .inl (hsame h hplace.symm)
      next hterm =>
        rw [if_neg hterm] at hplace
        obtain ⟨x, -, hx⟩ := Option.bind_eq_some_iff.mp h
        exact .inl (hsame hx hplace.symm)
  | idleInside =>
      rw [hpc] at h
      obtain ⟨x, -, hx⟩ := Option.bind_eq_some_iff.mp h
      cases hx
      refine .inr ⟨decide (x.state = .term), false, ?_⟩
      rw [place_setWorker]
      unfold Worker.place
      rw [hpc]
      exact congrArg some (congrArg RunPc.top (Bool.and_true _))
  | idleBack =>
      rw [hpc] at h
      refine .inl (hsame h ?_)
      unfold Worker.place
      rw [hpc]
      dsimp only
      split
      · rfl
      next hdead =>
        have hterm : (s.workers w).idleFiber.state ≠ .term := by
          intro hterm
          rw [hterm] at hdead
          exact hdead rfl
        simp [hterm]
  | exited =>
      rw [hpc] at h
      cases h

end Scheduler
-- =============================================================== the handshake

namespace Thread

variable {th th' : Thread Unit RunPc} {tid : Int} {name : Bytes}
  {waited : Bool}

theorem run_moves (h : th.run tid .enter = some th') :
    (th.pc, th'.pc) ∈ ThreadPc.moves := by
  unfold Thread.run at h
  unfold ThreadPc.moves
  cases hpc : th.pc with
  | entry | identified | renamed | swapped =>
      rw [hpc] at h
      cases h
      simp
  | notified =>
      rw [hpc] at h
      obtain ⟨u, -, rfl⟩ := Option.map_eq_some_iff.mp h
      simp
  | calling pc =>
      rw [hpc] at h
      cases h

theorem Sound.run (h : th.Sound tid name waited)
    (hr : th.run tid .enter = some th') : th'.Sound tid name waited := by
  unfold Sound at h
  unfold Thread.run at hr
  cases hpc : th.pc with
  | entry =>
      rw [hpc] at h hr
      cases hr
      obtain ⟨hw, hn, hc, hb, hs⟩ := h
      exact ⟨hw, ⟨hn, hc, hb, hs⟩, rfl, hn⟩
  | identified =>
      rw [hpc] at h hr
      cases hr
      obtain ⟨hw, ⟨hn, hc, hb, hs⟩, hid, ht⟩ := h
      exact ⟨hw, ⟨hn, hc, hb, hs⟩, hid, ht, congrArg (List.take 15) hn⟩
  | renamed =>
      rw [hpc] at h hr
      cases hr
      obtain ⟨hw, ⟨hn, hc, hb, hs⟩, hid, ht, hk⟩ := h
      exact ⟨hw, ⟨hid, hn, ht, hk, hb, hc⟩, hs⟩
  | swapped =>
      rw [hpc] at h hr
      cases hr
      obtain ⟨rfl, ht, hs⟩ := h
      exact ⟨⟨ht.id, ht.name, ht.threadName, ht.kernelName, ht.callBack, ht.cb⟩,
        congrArg (· + 1) hs⟩
  | notified =>
      rw [hpc] at h hr
      dsimp only at h hr
      rw [h.1.cb] at hr
      cases hr
      obtain ⟨ht, hs⟩ := h
      exact ⟨⟨ht.id, ht.name, ht.threadName, ht.kernelName, ht.callBack, rfl⟩,
        hs⟩
  | calling pc =>
      rw [hpc] at hr
      cases hr

/-- In its callback a thread moves on without the object. -/
theorem Sound.calls (h : th.Sound tid name waited) {pc : RunPc}
    (hpc : th.pc = .calling pc) (pc' : RunPc) :
    { th with pc := .calling pc' }.Sound tid name waited := by
  unfold Sound at h
  rw [hpc] at h
  obtain ⟨ht, hs⟩ := h
  exact ⟨⟨ht.id, ht.name, ht.threadName, ht.kernelName, ht.callBack, ht.cb⟩, hs⟩

/-- A constructor that has gone on leaves a thread that has taken all. -/
theorem Sound.taken (h : th.Sound tid name true) :
    th.Taken tid name ∧ (th.pc = .notified ∨ ∃ pc, th.pc = .calling pc) := by
  unfold Sound at h
  cases hpc : th.pc with
  | entry | identified | renamed | swapped =>
      rw [hpc] at h
      cases h.1
  | notified =>
      rw [hpc] at h
      exact ⟨h.1, .inl rfl⟩
  | calling pc =>
      rw [hpc] at h
      exact ⟨h.1, .inr ⟨pc, rfl⟩⟩

/-- A thread that has not entered its callback can go on. -/
theorem Sound.goes (h : th.Sound tid name waited)
    (hpc : ∀ pc, th.pc ≠ .calling pc) :
    ∃ th', th.run tid .enter = some th' := by
  unfold Sound at h
  unfold Thread.run
  cases hth : th.pc with
  | entry | identified | renamed | swapped => exact ⟨_, rfl⟩
  | notified =>
      rw [hth] at h
      dsimp only
      rw [h.1.cb]
      exact ⟨_, rfl⟩
  | calling pc => exact absurd hth (hpc pc)

/-- The post is taken once it is there, and that is after the swap. -/
theorem Sound.wait (h : th.Sound tid name false) {m : Semaphore}
    (hm : th.semaphore.wait = some m) :
    { th with semaphore := m }.Sound tid name true := by
  unfold Semaphore.wait at hm
  obtain ⟨hne, hm⟩ := Option.ite_none_left_eq_some.mp hm
  cases hm
  unfold Sound at h ⊢
  dsimp only
  cases hpc : th.pc with
  | entry =>
      rw [hpc] at h
      exact absurd h.2.count hne
  | identified | renamed =>
      rw [hpc] at h
      exact absurd h.2.1.count hne
  | swapped =>
      rw [hpc] at h
      exact absurd h.2.2 hne
  | notified | calling pc =>
      rw [hpc] at h
      obtain ⟨ht, hs⟩ := h
      refine ⟨⟨ht.id, ht.name, ht.threadName, ht.kernelName, ht.callBack,
        ht.cb⟩, ?_⟩
      rw [hs]
      rfl

theorem Sound.posted (h : th.Sound tid name false) {pc : RunPc}
    (hpc : th.pc = .calling pc) : ∃ m, th.semaphore.wait = some m := by
  unfold Sound at h
  rw [hpc] at h
  refine ⟨⟨th.semaphore.count - 1⟩, if_neg ?_⟩
  rw [h.2]
  exact Nat.one_ne_zero

end Thread

-- =============================================================== the invariant

namespace SchedulerLife

variable {tid : Nat → Int} {ids : List Int} {s s' : SchedulerLife} {k : Nat}
  {b found : Bool} {a : LifeAct}

/-- A step of a thread changes that thread only. -/
theorem threadStep_cases {t : Int} (hs : s.threadStep t k found = some s') :
    k < s.made ∧ ∃ th', s' = s.setThread k th'
      ∧ ((∃ pc pc', (s.thread k).pc = .calling pc
          ∧ pc.step (!s.locked) s.ending found = some pc'
          ∧ th' = { s.thread k with pc := .calling pc' })
        ∨ (s.thread k).run t .enter = some th') := by
  unfold threadStep at hs
  split at hs
  next hk =>
      refine ⟨hk, ?_⟩
      split at hs
      next pc hpc =>
          obtain ⟨pc', hstep, rfl⟩ := Option.map_eq_some_iff.mp hs
          exact ⟨_, rfl, .inl ⟨pc, pc', hpc, hstep, rfl⟩⟩
      next =>
          obtain ⟨th', hrun, rfl⟩ := Option.map_eq_some_iff.mp hs
          exact ⟨th', rfl, .inr hrun⟩
  next => cases hs

theorem setThread_self (s : SchedulerLife) (k : Nat) (th : Thread Unit RunPc) :
    (s.setThread k th).thread k = th :=
  Function.update_self ..

theorem setThread_ne {j : Nat} (h : j ≠ k) (th : Thread Unit RunPc) :
    (s.setThread k th).thread j = s.thread j :=
  Function.update_of_ne h ..

theorem ended_iff : s.ended k = true ↔ (s.thread k).pc = .calling .left := by
  unfold ended
  split
  next h => simp [h]
  next h => exact ⟨nofun, fun hpc => absurd hpc h⟩

/-- A thread that has ended does not step. -/
theorem not_ended_of_step {t : Int} (hs : s.threadStep t k found = some s') :
    s.ended k ≠ true := by
  intro hend
  obtain ⟨-, th', -, ⟨pc, pc', hpc, hstep, -⟩ | hrun⟩ := threadStep_cases hs
  · cases hpc.symm.trans (ended_iff.mp hend)
    cases hstep
  · unfold Thread.run at hrun
    rw [ended_iff.mp hend] at hrun
    cases hrun

theorem Fits.setThread (h : s.Fits) (hend : s.ended k ≠ true)
    (th : Thread Unit RunPc) : (s.setThread k th).Fits := by
  have hkeep : ∀ j, s.ended j = true → (s.setThread k th).ended j = true := by
    intro j hj
    have hne : j ≠ k := fun hjk => hend (hjk ▸ hj)
    rw [ended_iff, setThread_ne hne]
    exact ended_iff.mp hj
  unfold Fits at h ⊢
  cases hpc : s.pc with
  | joining ks =>
      rw [hpc] at h
      rw [show (s.setThread k th).pc = _ from hpc]
      obtain ⟨hn, he, hlen, hks, hj⟩ := h
      exact ⟨hn, he, hlen, hks, fun j hlt hmem => hkeep j (hj j hlt hmem)⟩
  | stopped =>
      rw [hpc] at h
      rw [show (s.setThread k th).pc = _ from hpc]
      obtain ⟨hn, he, hj⟩ := h
      exact ⟨hn, he, fun j hlt => hkeep j (hj j hlt)⟩
  | _ =>
      rw [hpc] at h
      rw [show (s.setThread k th).pc = _ from hpc]
      exact h

/-- What one thread does, with its soundness and its freshness kept. -/
theorem Orderly.setThread (h : s.Orderly tid ids) (hk : k < s.made)
    (hend : s.ended k ≠ true) {th : Thread Unit RunPc}
    (hsound : th.Sound (tid k) (s.threadName k) (s.waited k))
    (hfresh : s.locked = true → th.pc.fresh = true) :
    (s.setThread k th).Orderly tid ids where
  fits := h.fits.setThread hend th
  locked := h.locked
  sound := by
    intro j hj
    by_cases hjk : j = k
    · subst hjk
      rw [setThread_self]
      exact hsound
    · rw [setThread_ne hjk]
      exact h.sound j hj
  unmade := by
    intro j hj
    rw [setThread_ne (Nat.ne_of_gt (Nat.lt_of_lt_of_le hk hj))]
    exact h.unmade j hj
  fresh := by
    intro hl j hj
    by_cases hjk : j = k
    · subst hjk
      rw [setThread_self]
      exact hfresh hl
    · rw [setThread_ne hjk]
      exact h.fresh hl j hj
  recorded := h.recorded
  root := h.root

/-- With `m_mutex` taken a thread comes to the head of the loop at most. -/
theorem fresh_step {pc pc' : RunPc} (hf : (ThreadPc.calling pc).fresh = true)
    (h : pc.step false b found = some pc') :
    (ThreadPc.calling pc').fresh = true := by
  cases pc with
  | enter =>
      cases h
      rfl
  | busy idleTerm => cases hf
  | top idleTerm | idle | left => cases h

theorem fresh_run {th th' : Thread Unit RunPc} {t : Int}
    (h : th.run t .enter = some th') : th'.pc.fresh = true := by
  have hall : ∀ m ∈ ThreadPc.moves, m.2.fresh = true := by decide
  exact hall _ (Thread.run_moves h)

theorem Orderly.threadStep (h : s.Orderly tid ids)
    (hs : s.threadStep (tid k) k found = some s') : s'.Orderly tid ids := by
  have hend := not_ended_of_step hs
  obtain ⟨hk, th', rfl, ⟨pc, pc', hpc, hstep, rfl⟩ | hrun⟩ :=
    threadStep_cases hs
  · refine h.setThread hk hend ((h.sound k hk).calls hpc pc') fun hl => ?_
    have hf := h.fresh hl k hk
    rw [hpc] at hf
    rw [hl] at hstep
    exact fresh_step hf hstep
  · exact h.setThread hk hend ((h.sound k hk).run hrun) fun _ => fresh_run hrun

theorem waited_of (h : s.pc.within = false) (k : Nat) :
    s.waited k = true := by
  unfold waited
  cases hpc : s.pc with
  | waiting i =>
      rw [hpc] at h
      cases h
  | _ => rfl

theorem recorded_of (h : s.pc.within = false) : s.recorded = s.made := by
  unfold SchedulerLife.recorded
  cases hpc : s.pc with
  | waiting i | recording i =>
      rw [hpc] at h
      cases h
  | _ => rfl

/-- A step of the owner that leaves the threads alone. -/
theorem Orderly.move (h : s.Orderly tid ids)
    (hpc : s.pc.within = false) (hpc' : s'.pc.within = false)
    (hthread : s'.thread = s.thread) (hname : s'.name = s.name)
    (hmade : s'.made = s.made) (hids : s'.threadIds = s.threadIds)
    (hfits : s'.Fits) (hlocked : s'.locked = s'.pc.creates)
    (hlock : s'.locked = true → s.locked = true ∨ s.made = 0)
    (hroot : s'.pc ≠ .calling →
      s'.root = none ∨ s'.root = some .enter ∨ s'.root = some .left) :
    s'.Orderly tid ids where
  fits := hfits
  locked := hlocked
  sound := by
    intro k hk
    rw [hmade] at hk
    have hsound := h.sound k hk
    rw [waited_of hpc] at hsound
    unfold threadName
    rw [hthread, hname, waited_of hpc']
    exact hsound
  unmade := by
    rw [hthread, hmade]
    exact h.unmade
  fresh := by
    intro hl k hk
    rw [hmade] at hk
    rw [hthread]
    rcases hlock hl with hl | hzero
    · exact h.fresh hl k hk
    · rw [hzero] at hk
      exact absurd hk (Nat.not_lt_zero k)
  recorded := by
    rw [hids, recorded_of hpc', hmade, ← recorded_of hpc]
    exact h.recorded
  root := hroot

theorem threadName_ne_nil (s : SchedulerLife) (i : Nat) :
    s.threadName i ≠ [] := by
  unfold threadName
  simp [Http.ascii]

/-- A new thread object. -/
theorem Orderly.create (h : s.Orderly tid ids) {i : Nat}
    (hpc : s.pc = .creating i)
    (hlt : i < s.threadCount) :
    (({ s with made := s.made + 1 }.setThread s.made
      (.new () (s.threadName i))).goto (.waiting i)).Orderly tid ids := by
  have hf := h.fits
  unfold Fits at hf
  rw [hpc] at hf
  obtain ⟨rfl, -, hthr⟩ := hf
  have hlocked : s.locked = true := h.locked.trans (by rw [hpc]; rfl)
  have hwithin : s.pc.within = false := by
    rw [hpc]
    rfl
  refine ⟨⟨rfl, hlt, hthr⟩, hlocked, ?_, ?_, ?_, ?_, ?_⟩
  · intro j hj
    by_cases hjm : j = s.made
    · subst hjm
      show Thread.Sound (Function.update s.thread s.made _ s.made) _ _
        (s.made + 1 != s.made + 1)
      rw [Function.update_self]
      refine ⟨by simp, ?_, rfl, rfl, rfl⟩
      exact if_neg (s.threadName_ne_nil s.made)
    · show Thread.Sound (Function.update s.thread s.made _ j) _ _
        (j + 1 != s.made + 1)
      rw [Function.update_of_ne hjm]
      have hw : (j + 1 != s.made + 1) = true := by simp [hjm]
      rw [hw, ← waited_of hwithin j]
      exact h.sound j (Nat.lt_of_le_of_ne (Nat.lt_succ_iff.mp hj) hjm)
  · intro j hj
    show (Function.update s.thread s.made _ j).pc = _
    rw [Function.update_of_ne (Nat.ne_of_gt hj)]
    exact h.unmade j (Nat.le_of_lt hj)
  · intro _ j hj
    show (Function.update s.thread s.made _ j).pc.fresh = _
    by_cases hjm : j = s.made
    · rw [hjm, Function.update_self]
      rfl
    · rw [Function.update_of_ne hjm]
      exact h.fresh hlocked j (Nat.lt_of_le_of_ne (Nat.lt_succ_iff.mp hj) hjm)
  · have hrec := h.recorded
    rw [recorded_of hwithin] at hrec
    exact hrec
  · exact fun _ => h.root (by rw [hpc]; nofun)

/-- The constructor goes on. -/
theorem Orderly.wait (h : s.Orderly tid ids) {i : Nat} (hpc : s.pc = .waiting i)
    {m : Semaphore} (hm : (s.thread (s.made - 1)).semaphore.wait = some m) :
    ((s.setThread (s.made - 1)
      { s.thread (s.made - 1) with semaphore := m }).goto
        (.recording i)).Orderly
        tid ids := by
  have hf := h.fits
  unfold Fits at hf
  rw [hpc] at hf
  obtain ⟨hmade, hlt, hthr⟩ := hf
  have hlast : s.made - 1 = i := by omega
  rw [hlast] at hm ⊢
  have hw : ∀ j, s.waited j = (j + 1 != s.made) := by
    intro j
    unfold waited
    rw [hpc]
  have hsound := h.sound i (by omega)
  rw [hw, hmade, bne_self_eq_false] at hsound
  refine ⟨⟨hmade, hlt, hthr⟩, h.locked.trans (by rw [hpc]; rfl), ?_, ?_, ?_, ?_,
    ?_⟩
  · intro j hj
    by_cases hji : j = i
    · subst hji
      show Thread.Sound (Function.update s.thread j _ j) _ _ true
      rw [Function.update_self]
      exact hsound.wait hm
    · show Thread.Sound (Function.update s.thread i _ j) _ _ true
      rw [Function.update_of_ne hji]
      have hj' := h.sound j hj
      have htrue : (j + 1 != s.made) = true := by
        rw [hmade]
        simp [hji]
      rw [hw, htrue] at hj'
      exact hj'
  · intro j hj
    have hji : j ≠ i := by
      have : s.made ≤ j := hj
      omega
    show (Function.update s.thread i _ j).pc = _
    rw [Function.update_of_ne hji]
    exact h.unmade j hj
  · intro hl j hj
    show (Function.update s.thread i _ j).pc.fresh = _
    by_cases hji : j = i
    · rw [hji, Function.update_self]
      exact h.fresh hl i (by omega)
    · rw [Function.update_of_ne hji]
      exact h.fresh hl j hj
  · have hrec := h.recorded
    unfold SchedulerLife.recorded at hrec
    rw [hpc] at hrec
    exact hrec
  · exact fun _ => h.root (by rw [hpc]; nofun)

/-- The id that is recorded is that of the thread. -/
theorem Orderly.record (h : s.Orderly tid ids) {i : Nat}
    (hpc : s.pc = .recording i) {k : Nat}
    (hk : (s.threads ++ [s.made - 1])[i]? = some k) :
    ({ s with
        threads := s.threads ++ [s.made - 1]
        threadIds := s.threadIds ++ [(s.thread k).id] }.goto
          (.creating (i + 1))).Orderly tid ids := by
  have hf := h.fits
  unfold Fits at hf
  rw [hpc] at hf
  obtain ⟨hmade, hlt, hthr⟩ := hf
  have hlast : s.made - 1 = i := by omega
  have hrange : s.threads ++ [s.made - 1] = List.range (i + 1) := by
    rw [hthr, hlast, List.range_succ]
  rw [hrange, List.getElem?_range (Nat.lt_succ_self i)] at hk
  cases hk
  have hw : ∀ j, s.waited j = true := by
    intro j
    unfold waited
    rw [hpc]
  have hid : (s.thread i).id = tid i := by
    have hsound := h.sound i (by omega)
    rw [hw] at hsound
    exact hsound.taken.1.id
  refine ⟨⟨hmade, hlt, hrange⟩, h.locked.trans (by rw [hpc]; rfl), ?_, h.unmade,
    h.fresh, ?_, ?_⟩
  · intro j hj
    have hsound := h.sound j hj
    rw [hw] at hsound
    exact hsound
  · have hrec := h.recorded
    unfold SchedulerLife.recorded at hrec
    rw [hpc] at hrec
    show s.threadIds ++ [(s.thread i).id] = ids ++ (List.range s.made).map tid
    rw [hrec, hid, hmade, List.range_succ, List.map_append, List.append_assoc]
    rfl
  · exact fun _ => h.root (by rw [hpc]; nofun)

theorem Orderly.ownerStep (h : s.Orderly tid ids)
    (hs : s.ownerStep b = some s') : s'.Orderly tid ids := by
  have hf := h.fits
  have hroot := h.root
  have hlocked := h.locked
  unfold Fits at hf
  unfold SchedulerLife.ownerStep at hs
  cases hpc : s.pc with
  | start =>
      rw [hpc] at hs hf
      obtain ⟨hmade, hstop, hthr⟩ := hf
      simp only [hstop, hthr, Bool.not_true, Bool.false_eq_true, if_false,
        List.isEmpty_nil, if_true, Option.some.injEq] at hs
      subst hs
      exact h.move (by rw [hpc]; rfl) rfl rfl rfl rfl rfl
        ⟨hmade, Nat.zero_le _, rfl⟩ rfl (fun _ => .inr hmade)
        fun _ => hroot (by rw [hpc]; nofun)
  | creating i =>
      rw [hpc] at hs hf
      obtain ⟨hmade, hle, hthr⟩ := hf
      dsimp only at hs
      split at hs
      next hlt =>
          split at hs
          next =>
              cases hs
              exact h.create hpc hlt
          next =>
              cases hs
              exact h.move (by rw [hpc]; rfl) rfl rfl rfl rfl rfl
                ⟨hmade ▸ hle, nofun, hmade ▸ hthr⟩ rfl nofun
                fun _ => hroot (by rw [hpc]; nofun)
      next hge =>
          cases hs
          exact h.move (by rw [hpc]; rfl) rfl rfl rfl rfl rfl
            ⟨hmade ▸ hle, fun _ =>
              hmade.trans (Nat.le_antisymm hle (Nat.not_lt.mp hge)),
              hmade ▸ hthr⟩ rfl nofun fun _ => hroot (by rw [hpc]; nofun)
  | waiting i =>
      rw [hpc] at hs
      obtain ⟨m, hm, hs⟩ := Option.bind_eq_some_iff.mp hs
      cases hs
      exact h.wait hpc hm
  | recording i =>
      rw [hpc] at hs
      obtain ⟨k, hk, hs⟩ := Option.bind_eq_some_iff.mp hs
      cases hs
      exact h.record hpc hk
  | between ok =>
      rw [hpc] at hs hf hlocked
      cases hs
      exact h.move (by rw [hpc]; rfl) rfl rfl rfl rfl rfl ⟨hf.1, rfl, hf.2.2⟩
        hlocked (fun hl => .inl hl) fun _ => hroot (by rw [hpc]; nofun)
  | asked =>
      rw [hpc] at hs hf hlocked
      obtain ⟨hn, hauto, hthr⟩ := hf
      have hending : (s.autoStop && true) = true := by rw [hauto]; rfl
      dsimp only at hs
      split at hs
      next hearly =>
          cases hs
          exact h.move (by rw [hpc]; rfl) rfl rfl rfl rfl rfl
            ⟨hn, hending, hearly.1, hthr⟩ hlocked (fun hl => .inl hl)
            fun _ => hroot (by rw [hpc]; nofun)
      next =>
          cases hs
          exact h.move (by rw [hpc]; rfl) rfl rfl rfl rfl rfl
            ⟨hn, hending, hthr⟩ hlocked (fun hl => .inl hl)
            fun _ => hroot (by rw [hpc]; nofun)
  | early =>
      rw [hpc] at hs hf hlocked
      obtain ⟨hn, hending, hzero, hthr⟩ := hf
      dsimp only at hs
      split at hs
      next =>
          cases hs
          refine h.move (by rw [hpc]; rfl) rfl rfl rfl rfl rfl
            ⟨hn, hending, fun j hj => ?_⟩ hlocked (fun hl => .inl hl)
            fun _ => hroot (by rw [hpc]; nofun)
          exact absurd (Nat.lt_of_lt_of_le hj hn) (hzero ▸ Nat.not_lt_zero j)
      next =>
          cases hs
          exact h.move (by rw [hpc]; rfl) rfl rfl rfl rfl rfl
            ⟨hn, hending, hthr⟩ hlocked (fun hl => .inl hl)
            fun _ => hroot (by rw [hpc]; nofun)
  | marked =>
      rw [hpc] at hs hf hlocked
      obtain ⟨hn, hending, hthr⟩ := hf
      dsimp only at hs
      split at hs
      next hcall =>
          cases hs
          exact h.move (by rw [hpc]; rfl) rfl rfl rfl rfl rfl
            ⟨hn, hending, hthr, (Bool.and_eq_true_iff.mp hcall).1⟩ hlocked
            (fun hl => .inl hl) fun hne => absurd rfl hne
      next =>
          cases hs
          exact h.move (by rw [hpc]; rfl) rfl rfl rfl rfl rfl
            ⟨hn, hending, hthr⟩ hlocked (fun hl => .inl hl)
            fun _ => hroot (by rw [hpc]; nofun)
  | calling =>
      rw [hpc] at hs hf hlocked
      obtain ⟨hn, hending, hthr, hsome⟩ := hf
      dsimp only at hs
      split at hs
      next hleft =>
          cases hs
          exact h.move (by rw [hpc]; rfl) rfl rfl rfl rfl rfl
            ⟨hn, hending, hthr⟩ hlocked (fun hl => .inl hl)
            fun _ => .inr (.inr hleft)
      next pc _ _ =>
          obtain ⟨pc', -, rfl⟩ := Option.map_eq_some_iff.mp hs
          exact h.move (by rw [hpc]; rfl) rfl rfl rfl rfl rfl
            ⟨hn, hending, hthr, rfl⟩ hlocked (fun hl => .inl hl)
            fun hne => absurd rfl hne
      next => cases hs
  | swapping =>
      rw [hpc] at hs hf hlocked
      obtain ⟨hn, hending, hthr⟩ := hf
      cases hs
      refine h.move (by rw [hpc]; rfl) rfl rfl rfl rfl rfl
        ⟨hn, hending, ?_, fun j hj => ?_, fun j hj hout => ?_⟩ hlocked
        (fun hl => .inl hl) fun _ => hroot (by rw [hpc]; nofun)
      · rw [hthr, List.length_range]
        exact hn
      · rw [hthr] at hj
        exact List.mem_range.mp hj
      · rw [hthr] at hout
        exact absurd (List.mem_range.mpr hj) hout
  | joining ks =>
      rw [hpc] at hs hf hlocked
      obtain ⟨hn, hending, hlen, hks, hjoined⟩ := hf
      cases ks with
      | nil =>
          cases hs
          exact h.move (by rw [hpc]; rfl) rfl rfl rfl rfl rfl
            ⟨hn, hending, fun j hj => hjoined j hj List.not_mem_nil⟩ hlocked
            (fun hl => .inl hl) fun _ => hroot (by rw [hpc]; nofun)
      | cons j ks =>
          dsimp only at hs
          split at hs
          next hend =>
              cases hs
              refine h.move (by rw [hpc]; rfl) rfl rfl rfl rfl rfl
                ⟨hn, hending, Nat.le_of_succ_le hlen,
                  fun k hk => hks k (List.mem_cons_of_mem j hk),
                  fun k hk hout => ?_⟩ hlocked (fun hl => .inl hl)
                fun _ => hroot (by rw [hpc]; nofun)
              by_cases hkj : k = j
              · exact hkj ▸ hend
              · exact hjoined k hk fun hmem =>
                  (List.mem_cons.mp hmem).elim hkj hout
          next => cases hs
  | stopped =>
      rw [hpc] at hs
      cases hs

theorem Orderly.step (h : s.Orderly tid ids) (hs : s.step tid a = some s') :
    s'.Orderly tid ids := by
  cases a with
  | owner b => exact h.ownerStep hs
  | thread k found => exact h.threadStep hs

end SchedulerLife

end TinyServer
