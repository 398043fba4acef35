/-
`start` and `stop` come to an end.

# The measure

`stepsLeft` counts the steps to the end of `stop`. Every step takes some
of it away, except where a worker finds an entry, or asks `stopping` in
vain. While `start` holds `m_mutex` no worker gets that far; once `stop`
has set the flags it depends on the work that is left.

# No deadlock

Before `stop` has returned some step can be taken (`Orderly.progress`): a
constructor waits for a thread on its way to the post, a `join` for one
that has a step left. So `start` returns, and `stop` does when the
workers find nothing more.
-/
import TinyServer.Scheduler.Proofs.Life
import TinyServer.Lib.Measure

namespace TinyServer

open Lib
open Http (Bytes)

-- ================================================================= the measure

/-- The steps to the end of `Scheduler::run`, when nothing is found. -/
def RunPc.rest : RunPc → Nat
  | .enter => 4
  | .top idleTerm => if idleTerm then 1 else 3
  | .busy idleTerm => if idleTerm then 2 else 4
  | .idle => 2
  | .left => 0

/-- The steps of a thread to its end, when nothing is found. -/
def ThreadPc.rest : ThreadPc RunPc → Nat
  | .entry => 9
  | .identified => 8
  | .renamed => 7
  | .swapped => 6
  | .notified => 5
  | .calling pc => pc.rest

/-- The steps of the owner to the end of `stop`, for `n` threads. -/
def OwnerPc.rest (n : Nat) : OwnerPc → Nat
  | .start => 4 * n + 9
  | .creating i => 3 * (n - i) + n + 8
  | .waiting i => 3 * (n - i) + n + 7
  | .recording i => 3 * (n - i) + n + 6
  | .between _ => n + 7
  | .asked => n + 6
  | .early => n + 5
  | .marked => n + 4
  | .calling => n + 3
  | .swapping => n + 2
  | .joining ks => ks.length + 1
  | .stopped => 0

/-- A step of `Scheduler::run` lowers what is left of it, while `m_mutex`
is held or when the end has come and nothing is found. -/
theorem RunPc.rest_step {pc pc' : RunPc} {free ending found : Bool}
    (h : pc.step free ending found = some pc')
    (hq : free = false ∨ ending = true ∧ found = false) :
    pc'.rest < pc.rest := by
  cases pc with
  | enter =>
      cases h
      decide
  | top idleTerm =>
      rcases hq with rfl | ⟨-, rfl⟩
      · cases h
      · cases free <;> cases idleTerm <;> cases h <;> decide
  | busy idleTerm =>
      cases h
      cases idleTerm <;> decide
  | idle =>
      rcases hq with rfl | ⟨rfl, rfl⟩
      · cases h
      · cases free <;> cases h
        decide
  | left => cases h

/-- So does a step of `Thread::run` before it. -/
theorem Thread.rest_run {th th' : Thread Unit RunPc} {t : Int}
    (h : th.run t .enter = some th') : th'.pc.rest < th.pc.rest := by
  have hall : ∀ m ∈ ThreadPc.moves, m.2.rest < m.1.rest := by decide
  exact hall _ (Thread.run_moves h)

namespace SchedulerLife

variable {tid : Nat → Int} {ids : List Int} {s s' : SchedulerLife} {k : Nat}
  {b found : Bool} {a : LifeAct}

/-- What is left to the threads, those to be made included. -/
def threadsLeft (s : SchedulerLife) : Int :=
  ((List.range s.threadCount).map fun k => ((s.thread k).pc.rest : Int)).sum

/-- What is left to the owner, the root fiber and the threads. -/
def stepsLeft (s : SchedulerLife) : Int :=
  s.pc.rest s.threadCount + (s.root.elim 0 RunPc.rest : Nat) + s.threadsLeft

/-- Only the places of the threads count. -/
theorem threadsLeft_congr (hcount : s'.threadCount = s.threadCount)
    (h : ∀ k, (s'.thread k).pc = (s.thread k).pc) :
    s'.threadsLeft = s.threadsLeft := by
  unfold threadsLeft
  rw [hcount]
  exact congrArg List.sum (List.map_congr_left fun k _ => by rw [h k])

/-- There are no more thread objects than `m_threadCount`. -/
theorem Orderly.made_le (h : s.Orderly tid ids) : s.made ≤ s.threadCount := by
  have hf := h.fits
  unfold Fits at hf
  cases hpc : s.pc with
  | start =>
      rw [hpc] at hf
      exact hf.1 ▸ Nat.zero_le _
  | creating i =>
      rw [hpc] at hf
      exact hf.1 ▸ hf.2.1
  | waiting i | recording i =>
      rw [hpc] at hf
      exact hf.1 ▸ hf.2.1
  | _ =>
      rw [hpc] at hf
      exact hf.1

/-- A step of a thread lowers the measure. -/
theorem Orderly.threadStep_left (h : s.Orderly tid ids)
    (hs : s.threadStep (tid k) k found = some s')
    (hq : s.locked = true ∨ s.ending = true ∧ found = false) :
    s'.stepsLeft < s.stepsLeft := by
  obtain ⟨hk, th', rfl, hth⟩ := threadStep_cases hs
  have hless : th'.pc.rest < (s.thread k).pc.rest := by
    rcases hth with ⟨pc, pc', hpc, hstep, rfl⟩ | hrun
    · rw [hpc]
      exact RunPc.rest_step hstep (hq.imp_left fun hl => by rw [hl]; rfl)
    · exact Thread.rest_run hrun
  have hsum : (s.setThread k th').threadsLeft
      = s.threadsLeft + ((th'.pc.rest : Int) - (s.thread k).pc.rest) := by
    unfold threadsLeft
    rw [show (th'.pc.rest : Int)
      = (((s.setThread k th').thread k).pc.rest : Int) by
      rw [setThread_self]]
    exact sum_range_update (Nat.lt_of_lt_of_le hk h.made_le)
      fun j hj => by rw [setThread_ne hj]
  unfold stepsLeft
  rw [hsum]
  show (s.pc.rest s.threadCount : Int) + (s.root.elim 0 RunPc.rest : Nat) + _
      < _
  omega

/-- A step of the owner lowers it, of the root fiber too when that finds
nothing. -/
theorem Orderly.ownerStep_left (h : s.Orderly tid ids)
    (hs : s.ownerStep b = some s') (hq : s.pc = .calling → b = false) :
    s'.stepsLeft < s.stepsLeft := by
  have hf := h.fits
  have hmade := h.made_le
  -- the owner moves on, and the threads stay
  have hmove : ∀ {t : SchedulerLife} {pc : OwnerPc}, s.pc = pc →
      t.pc.rest s.threadCount < pc.rest s.threadCount → t.root = s.root →
      t.threadCount = s.threadCount →
      (∀ k, (t.thread k).pc = (s.thread k).pc) → t.stepsLeft < s.stepsLeft := by
    intro t pc hpc hless hroot hcount hthread
    unfold stepsLeft
    rw [threadsLeft_congr hcount hthread, hroot, hcount, hpc]
    omega
  unfold Fits at hf
  unfold SchedulerLife.ownerStep at hs
  cases hpc : s.pc with
  | start =>
      rw [hpc] at hs hf
      obtain ⟨-, hstop, hthr⟩ := hf
      simp only [hstop, hthr, Bool.not_true, Bool.false_eq_true, if_false,
        List.isEmpty_nil, if_true, Option.some.injEq] at hs
      subst hs
      refine hmove hpc ?_ rfl rfl fun _ => rfl
      show 3 * (s.threadCount - 0) + s.threadCount + 8 < 4 * s.threadCount + 9
      omega
  | creating i =>
      rw [hpc] at hs hf
      dsimp only at hs
      split at hs
      next hlt =>
          split at hs
          next =>
              cases hs
              refine hmove hpc ?_ rfl rfl fun k => ?_
              · exact Nat.lt_succ_self _
              · show (Function.update s.thread s.made _ k).pc = _
                by_cases hk : k = s.made
                · rw [hk, Function.update_self, h.unmade s.made (Nat.le_refl _)]
                  rfl
                · rw [Function.update_of_ne hk]
          next =>
              cases hs
              refine hmove hpc ?_ rfl rfl fun _ => rfl
              show s.threadCount + 7 < 3 * (s.threadCount - i) + s.threadCount
                  + 8
              omega
      next =>
          cases hs
          refine hmove hpc ?_ rfl rfl fun _ => rfl
          show s.threadCount + 7 < 3 * (s.threadCount - i) + s.threadCount + 8
          omega
  | waiting i =>
      rw [hpc] at hs
      obtain ⟨m, hm, hs⟩ := Option.bind_eq_some_iff.mp hs
      cases hs
      refine hmove hpc (Nat.lt_succ_self _) rfl rfl fun k => ?_
      show (Function.update s.thread (s.made - 1) _ k).pc = _
      by_cases hk : k = s.made - 1
      · rw [hk, Function.update_self]
      · rw [Function.update_of_ne hk]
  | recording i =>
      rw [hpc] at hs hf
      obtain ⟨k, hk, hs⟩ := Option.bind_eq_some_iff.mp hs
      cases hs
      refine hmove hpc ?_ rfl rfl fun _ => rfl
      have hlt := hf.2.1
      show 3 * (s.threadCount - (i + 1)) + s.threadCount + 8
        < 3 * (s.threadCount - i) + s.threadCount + 6
      omega
  | between ok =>
      rw [hpc] at hs
      cases hs
      exact hmove hpc (Nat.lt_succ_self _) rfl rfl fun _ => rfl
  | asked =>
      rw [hpc] at hs
      dsimp only at hs
      split at hs
      · cases hs
        exact hmove hpc (Nat.lt_succ_self _) rfl rfl fun _ => rfl
      · cases hs
        refine hmove hpc ?_ rfl rfl fun _ => rfl
        show s.threadCount + 4 < s.threadCount + 6
        omega
  | early =>
      rw [hpc] at hs
      dsimp only at hs
      split at hs
      · cases hs
        exact hmove hpc (Nat.succ_pos _) rfl rfl fun _ => rfl
      · cases hs
        exact hmove hpc (Nat.lt_succ_self _) rfl rfl fun _ => rfl
  | marked =>
      rw [hpc] at hs
      dsimp only at hs
      split at hs
      · cases hs
        exact hmove hpc (Nat.lt_succ_self _) rfl rfl fun _ => rfl
      · cases hs
        refine hmove hpc ?_ rfl rfl fun _ => rfl
        show s.threadCount + 2 < s.threadCount + 4
        omega
  | calling =>
      rw [hpc] at hs hf
      obtain ⟨-, hending, -, -⟩ := hf
      dsimp only at hs
      split at hs
      next =>
          cases hs
          exact hmove hpc (Nat.lt_succ_self _) rfl rfl fun _ => rfl
      next pc _ hroot =>
          obtain ⟨pc', hstep, rfl⟩ := Option.map_eq_some_iff.mp hs
          have hless := RunPc.rest_step hstep (.inr ⟨hending, hq hpc⟩)
          unfold stepsLeft
          rw [hroot, hpc]
          show ((OwnerPc.calling.rest s.threadCount : Nat) : Int)
              + (pc'.rest : Nat)
              + s.threadsLeft
            < (OwnerPc.calling.rest s.threadCount : Nat) + (pc.rest : Nat)
              + s.threadsLeft
          omega
      next => cases hs
  | swapping =>
      rw [hpc] at hs hf
      cases hs
      refine hmove hpc ?_ rfl rfl fun _ => rfl
      show s.threads.length + 1 < s.threadCount + 2
      rw [hf.2.2, List.length_range]
      omega
  | joining ks =>
      rw [hpc] at hs
      cases ks with
      | nil =>
          cases hs
          exact hmove hpc (Nat.succ_pos _) rfl rfl fun _ => rfl
      | cons j ks =>
          dsimp only at hs
          split at hs
          · cases hs
            exact hmove hpc (Nat.lt_succ_self _) rfl rfl fun _ => rfl
          · cases hs
  | stopped =>
      rw [hpc] at hs
      cases hs

-- ================================================================= no deadlock

/-- `Scheduler::run` is never stuck with the mutex free. -/
theorem RunPc.goes {pc : RunPc} (h : pc ≠ .left) (ending found : Bool) :
    ∃ pc', pc.step true ending found = some pc' := by
  cases pc with
  | enter | top idleTerm | busy idleTerm | idle => exact ⟨_, rfl⟩
  | left => exact absurd rfl h

/-- Before the end of `stop` a step can be taken that finds nothing. -/
theorem Orderly.progress (h : s.Orderly tid ids) (hpc : s.pc ≠ .stopped) :
    ∃ a, a.quiet = true ∧ ∃ s', s.step tid a = some s' := by
  have hf := h.fits
  have howner : (∃ s', s.ownerStep false = some s') →
      ∃ a, LifeAct.quiet a = true ∧ ∃ s', s.step tid a = some s' :=
    fun hs => ⟨.owner false, rfl, hs⟩
  have hthread : ∀ {k}, k < s.made → (∀ pc, (s.thread k).pc ≠ .calling pc) →
      ∃ a, LifeAct.quiet a = true ∧ ∃ s', s.step tid a = some s' := by
    intro k hk hout
    obtain ⟨th', hrun⟩ := (h.sound k hk).goes hout
    refine ⟨.thread k false, rfl, s.setThread k th', ?_⟩
    show s.threadStep (tid k) k false = _
    unfold SchedulerLife.threadStep
    rw [if_pos hk]
    split
    next pc hin => exact absurd hin (hout pc)
    next => exact Option.map_eq_some_iff.mpr ⟨th', hrun, rfl⟩
  unfold Fits at hf
  cases hs : s.pc with
  | start =>
      rw [hs] at hf
      refine howner ?_
      unfold SchedulerLife.ownerStep
      rw [hs]
      simp only [hf.2.1, hf.2.2, Bool.not_true, Bool.false_eq_true, if_false,
        List.isEmpty_nil, if_true]
      exact ⟨_, rfl⟩
  | creating i =>
      refine howner ?_
      unfold SchedulerLife.ownerStep
      rw [hs]
      dsimp only
      split
      · exact ⟨_, rfl⟩
      · exact ⟨_, rfl⟩
  | waiting i =>
      rw [hs] at hf
      obtain ⟨hmade, hlt, hthr⟩ := hf
      have hlast : s.made - 1 < s.made := by omega
      by_cases hin : ∃ pc, (s.thread (s.made - 1)).pc = .calling pc
      · obtain ⟨pc, hin⟩ := hin
        have hsound := h.sound _ hlast
        have hw : s.waited (s.made - 1) = false := by
          unfold waited
          rw [hs]
          simp [show s.made - 1 + 1 = s.made by omega]
        rw [hw] at hsound
        obtain ⟨m, hm⟩ := hsound.posted hin
        refine howner ?_
        unfold SchedulerLife.ownerStep
        rw [hs]
        exact ⟨_, Option.bind_eq_some_iff.mpr ⟨m, hm, rfl⟩⟩
      · exact hthread hlast fun pc hpc => hin ⟨pc, hpc⟩
  | recording i =>
      rw [hs] at hf
      obtain ⟨hmade, hlt, hthr⟩ := hf
      have hk : (s.threads ++ [s.made - 1])[i]? = some (s.made - 1) := by
        rw [hthr, List.getElem?_append_right (by simp), List.length_range,
          Nat.sub_self]
        rfl
      refine howner ?_
      unfold SchedulerLife.ownerStep
      rw [hs]
      exact ⟨_, Option.bind_eq_some_iff.mpr ⟨_, hk, rfl⟩⟩
  | between ok =>
      refine howner ?_
      unfold SchedulerLife.ownerStep
      rw [hs]
      exact ⟨_, rfl⟩
  | asked | early | marked =>
      refine howner ?_
      unfold SchedulerLife.ownerStep
      rw [hs]
      dsimp only
      split
      · exact ⟨_, rfl⟩
      · exact ⟨_, rfl⟩
  | calling =>
      rw [hs] at hf
      obtain ⟨r, hr⟩ := Option.isSome_iff_exists.mp hf.2.2.2
      have hfree : (!s.locked) = true := by rw [h.locked, hs]; rfl
      refine howner ?_
      unfold SchedulerLife.ownerStep
      rw [hs]
      dsimp only
      rw [hr, hfree]
      by_cases hleft : r = .left
      · rw [hleft]
        exact ⟨_, rfl⟩
      · obtain ⟨r', hr'⟩ := RunPc.goes hleft s.ending false
        cases r with
        | left => exact absurd rfl hleft
        | _ => exact ⟨_, Option.map_eq_some_iff.mpr ⟨r', hr', rfl⟩⟩
  | swapping =>
      refine howner ?_
      unfold SchedulerLife.ownerStep
      rw [hs]
      exact ⟨_, rfl⟩
  | joining ks =>
      rw [hs] at hf
      cases ks with
      | nil =>
          refine howner ?_
          unfold SchedulerLife.ownerStep
          rw [hs]
          exact ⟨_, rfl⟩
      | cons j ks =>
          have hj : j < s.made := hf.2.2.2.1 j List.mem_cons_self
          by_cases hin : ∃ pc, (s.thread j).pc = .calling pc
          · obtain ⟨pc, hin⟩ := hin
            by_cases hleft : pc = .left
            · refine howner ⟨s.goto (.joining ks), ?_⟩
              unfold SchedulerLife.ownerStep
              rw [hs]
              exact if_pos (ended_iff.mpr (hleft ▸ hin))
            · have hfree : (!s.locked) = true := by rw [h.locked, hs]; rfl
              obtain ⟨pc', hpc'⟩ := RunPc.goes hleft s.ending false
              refine ⟨.thread j false, rfl, s.setThread j
                { s.thread j with pc := .calling pc' }, ?_⟩
              show s.threadStep (tid j) j false = _
              unfold SchedulerLife.threadStep
              rw [if_pos hj, hin]
              dsimp only
              rw [hfree, hpc']
              rfl
          · exact hthread hj fun pc hpc => hin ⟨pc, hpc⟩
  | stopped => exact absurd hs hpc

-- ================================================================== whole runs

/-- What `start` and the flags of `stop` have reached, they keep. -/
theorem started_step (h : s.pc.started = true) (hs : s.step tid a = some s') :
    s'.pc.started = true ∧ (s.pc.ends = true → s'.pc.ends = true) := by
  cases a with
  | thread k found =>
      obtain ⟨-, th', rfl, -⟩ := threadStep_cases hs
      exact ⟨h, id⟩
  | owner b =>
      change s.ownerStep b = some s' at hs
      unfold SchedulerLife.ownerStep at hs
      cases hpc : s.pc with
      | start | creating i | waiting i | recording i =>
          rw [hpc] at h
          cases h
      | between ok =>
          rw [hpc] at hs
          cases hs
          exact ⟨rfl, nofun⟩
      | asked | early | marked =>
          rw [hpc] at hs
          dsimp only at hs
          split at hs <;> cases hs <;> exact ⟨rfl, fun _ => rfl⟩
      | calling =>
          rw [hpc] at hs
          dsimp only at hs
          split at hs
          · cases hs
            exact ⟨rfl, fun _ => rfl⟩
          · obtain ⟨pc', -, rfl⟩ := Option.map_eq_some_iff.mp hs
            exact ⟨rfl, fun _ => rfl⟩
          · cases hs
      | swapping =>
          rw [hpc] at hs
          cases hs
          exact ⟨rfl, fun _ => rfl⟩
      | joining ks =>
          rw [hpc] at hs
          cases ks with
          | nil =>
              cases hs
              exact ⟨rfl, fun _ => rfl⟩
          | cons j ks =>
              dsimp only at hs
              split at hs
              · cases hs
                exact ⟨rfl, fun _ => rfl⟩
              · cases hs
      | stopped =>
          rw [hpc] at hs
          cases hs

/-- A new scheduler has neither threads nor flags. -/
theorem orderly_new (tid : Nat → Int) (threads : Nat) (useCall : Bool)
    (name : Bytes) (rootTid : Int) :
    (new threads useCall name rootTid).Orderly tid
      (if useCall then [rootTid] else []) := by
  refine ⟨⟨rfl, rfl, rfl⟩, rfl, fun k hk => absurd hk (Nat.not_lt_zero k),
    fun _ _ => rfl, nofun, (List.append_nil _).symm, fun _ => ?_⟩
  cases useCall
  · exact .inl rfl
  · exact .inr (.inl rfl)

/-- A thread that is to be made has the most steps left. -/
theorem rest_le (pc : ThreadPc RunPc) : pc.rest ≤ 9 := by
  cases pc with
  | calling pc =>
      cases pc with
      | top d | busy d => cases d <;> decide
      | enter | idle | left => decide
  | entry | identified | renamed | swapped | notified => decide

/-- The threads' part of the measure, for any places. -/
theorem threadsLeft_bounds (s : SchedulerLife) :
    0 ≤ s.threadsLeft ∧ s.threadsLeft ≤ 9 * (s.threadCount : Int) := by
  unfold threadsLeft
  induction s.threadCount with
  | zero => simp
  | succ n ih =>
      rw [List.range_succ, List.map_append, List.sum_append, List.map_singleton,
        List.sum_singleton]
      have := rest_le (s.thread n).pc
      omega

/-- The measure, from the place of the owner alone. -/
theorem stepsLeft_le (s : SchedulerLife) :
    s.stepsLeft ≤ s.pc.rest s.threadCount + 4 + 9 * (s.threadCount : Int) := by
  have hroot : s.root.elim 0 RunPc.rest ≤ 4 := by
    cases s.root with
    | none => exact Nat.zero_le _
    | some pc =>
        cases pc with
        | top d | busy d => cases d <;> decide
        | enter | idle | left => decide
  have hthreads := s.threadsLeft_bounds.2
  unfold stepsLeft
  omega

/-- The measure does not fall below 0. -/
theorem stepsLeft_nonneg (s : SchedulerLife) : 0 ≤ s.stepsLeft := by
  have hthreads := s.threadsLeft_bounds.1
  unfold stepsLeft
  omega

/-- Before `start` returns it holds `m_mutex`, once there are threads. -/
theorem Orderly.unstarted (h : s.Orderly tid ids) (hpc : s.pc.started = false)
    (hk : k < s.made) : s.locked = true := by
  have hf := h.fits
  rw [h.locked]
  unfold Fits at hf
  cases hs : s.pc with
  | start =>
      rw [hs] at hf
      rw [hf.1] at hk
      exact absurd hk (Nat.not_lt_zero k)
  | creating i | waiting i | recording i => rfl
  | _ =>
      rw [hs] at hpc
      cases hpc

/-- Once `stop` has set the flags they stay, and the owner has little left. -/
theorem Orderly.ends (h : s.Orderly tid ids) (hpc : s.pc.ends = true) :
    s.ending = true ∧ s.pc.started = true
      ∧ s.pc.rest s.threadCount ≤ s.threadCount + 5 := by
  have hf := h.fits
  unfold Fits at hf
  cases hs : s.pc with
  | start | creating i | waiting i | recording i | between ok | asked =>
      rw [hs] at hpc
      cases hpc
  | joining ks =>
      rw [hs] at hf
      refine ⟨hf.2.1, rfl, ?_⟩
      have hlen := hf.2.2.1
      show ks.length + 1 ≤ s.threadCount + 5
      omega
  | early =>
      rw [hs] at hf
      exact ⟨hf.2.1, rfl, Nat.le_refl _⟩
  | marked =>
      rw [hs] at hf
      exact ⟨hf.2.1, rfl, Nat.le_succ _⟩
  | calling =>
      rw [hs] at hf
      exact ⟨hf.2.1, rfl, Nat.add_le_add_left (by decide) _⟩
  | swapping =>
      rw [hs] at hf
      exact ⟨hf.2.1, rfl, Nat.add_le_add_left (by decide) _⟩
  | stopped =>
      rw [hs] at hf
      exact ⟨hf.2.1, rfl, Nat.zero_le _⟩

/-- `start` in every run of the owner and the threads: it is not stuck and
has returned after a bounded number of steps; while it runs no worker has
been in a section under `m_mutex`; the ids it records are those that the
kernel gave to the threads, in their order; and each thread whose
constructor has returned has taken its name and its callback. -/
theorem start_completes {threads : Nat} {useCall : Bool} {name : Bytes}
    {rootTid : Int} {acts : List LifeAct}
    (hrun : acts.foldlM (step tid) (new threads useCall name rootTid)
      = some s) :
    (s.pc.started = true
        ∨ acts.length ≤ 13 * (new threads useCall name rootTid).threadCount + 13
          ∧ ∃ a s', s.step tid a = some s')
      ∧ (s.pc.started = false → ∀ k < s.made, (s.thread k).pc.fresh = true)
      ∧ s.threadIds = (if useCall then [rootTid] else [])
        ++ (List.range s.recorded).map tid
      ∧ (∀ k < s.made, s.waited k = true →
        (s.thread k).Taken (tid k) (s.threadName k))
      ∧ (s.pc = .between true →
        s.made = s.threadCount ∧ s.threads = List.range s.made) := by
  have h₀ := orderly_new tid threads useCall name rootTid
  have h : s.Orderly tid (if useCall then [rootTid] else []) :=
    run_inv Orderly.step acts h₀ hrun
  have hless : ∀ {s : SchedulerLife} {a : LifeAct} {s' : SchedulerLife},
      s.Orderly tid (if useCall then [rootTid] else []) → True →
      s.step tid a = some s' → s'.pc.started = true
        ∨ s'.stepsLeft < s.stepsLeft := by
    intro s a s' hq _ hs
    cases hd : s.pc.started with
    | true => exact .inl (started_step hd hs).1
    | false =>
        cases a with
        | thread k found =>
            have hk := (threadStep_cases hs).1
            exact .inr (hq.threadStep_left hs (.inl (hq.unstarted hd hk)))
        | owner b =>
            refine .inr (hq.ownerStep_left hs fun hc => ?_)
            rw [hc] at hd
            cases hd
  have hmeasure : s.pc.started = true ∨ (acts.length : Int) + s.stepsLeft
      ≤ (new threads useCall name rootTid).stepsLeft :=
    run_measure Orderly.step (fun _ hd hs => (started_step hd hs).1) hless acts
      h₀
      (fun _ _ => trivial) hrun
  refine ⟨?_, fun hs k hk => h.fresh (h.unstarted hs hk) k hk, h.recorded,
    fun k hk hw => ?_, fun hpc => ?_⟩
  · by_cases hd : s.pc.started = true
    · exact .inl hd
    · have hle := hmeasure.resolve_left hd
      have hbound := stepsLeft_le (new threads useCall name rootTid)
      have hnonneg := s.stepsLeft_nonneg
      have hstart : (new threads useCall name rootTid).pc.rest
          (new threads useCall name rootTid).threadCount
            = 4 * (new threads useCall name rootTid).threadCount + 9 := rfl
      have hpc : s.pc ≠ .stopped := fun hpc => hd (by rw [hpc]; rfl)
      obtain ⟨a, -, hstep⟩ := h.progress hpc
      exact .inr ⟨by omega, a, hstep⟩
  · have hsound := h.sound k hk
    rw [hw] at hsound
    exact hsound.taken.1
  · have hf := h.fits
    unfold Fits at hf
    rw [hpc] at hf
    exact ⟨hf.2.1 rfl, hf.2.2⟩

/-- The steps of `start` for one thread. -/
def startOne : List LifeAct :=
  [.owner true, .owner true, .thread 0 false, .thread 0 false, .thread 0 false,
    .thread 0 false, .owner true, .owner true, .owner true]

theorem start_completes_one :
    ∃ s, startOne.foldlM (step fun k => 101 + k) (new 2 true [109] 100) = some s
      ∧ s.threadIds = [100, 101] ∧ s.threads = [0]
      ∧ (s.thread 0).id = 101 ∧ (s.thread 0).callBack = none := by
  have hobs :
      (startOne.foldlM (step fun k => 101 + k) (new 2 true [109] 100)).map
      (fun s => (s.pc, s.made, s.recorded)) = some (.between true, 1, 1) := by
    rfl
  obtain ⟨s, hs, hv⟩ := Option.map_eq_some_iff.mp hobs
  simp only [Prod.mk.injEq] at hv
  obtain ⟨hpc, hmade, hrec⟩ := hv
  obtain ⟨-, -, hids, htaken, hdone⟩ := start_completes hs
  have hw : s.waited 0 = true := waited_of (by rw [hpc]; rfl) 0
  have h0 := htaken 0 (by rw [hmade]; decide) hw
  refine ⟨s, hs, ?_, ?_, h0.id, h0.callBack⟩
  · rw [hids, hrec]
    rfl
  · rw [(hdone hpc).2, hmade]
    rfl

/-- `stop` in every run: when it has returned every thread has ended and
no `Scheduler::run` is in execution; before, some step can be taken; and
once it has set the flags it returns after a bounded number of steps in
which the workers find nothing. -/
theorem stop_completes {threads : Nat} {useCall : Bool} {name : Bytes}
    {rootTid : Int} {pre rest : List LifeAct} {t : SchedulerLife}
    (hpre : pre.foldlM (step tid) (new threads useCall name rootTid) = some t)
    (hrest : rest.foldlM (step tid) t = some s) :
    (s.pc = .stopped → s.stopping = true
        ∧ (s.root = none ∨ s.root = some .enter ∨ s.root = some .left)
        ∧ ∀ k < s.made, s.ended k = true)
      ∧ (s.pc ≠ .stopped → ∃ a, a.quiet = true ∧ ∃ s', s.step tid a = some s')
      ∧ (t.pc.ends = true → (∀ a ∈ rest, a.quiet = true) → s.pc ≠ .stopped →
        rest.length ≤ 10 * t.threadCount + 9) := by
  have ht : t.Orderly tid (if useCall then [rootTid] else []) :=
    run_inv Orderly.step pre (orderly_new tid threads useCall name rootTid) hpre
  have h : s.Orderly tid (if useCall then [rootTid] else []) :=
    run_inv Orderly.step rest ht hrest
  refine ⟨fun hpc => ?_, h.progress, fun hends hquiet hpc => ?_⟩
  · have hf := h.fits
    unfold Fits at hf
    rw [hpc] at hf
    obtain ⟨-, hending, hall⟩ := hf
    exact ⟨(Bool.and_eq_true_iff.mp hending).2, h.root (by rw [hpc]; nofun),
      hall⟩
  · have hQ : ∀ {s : SchedulerLife} {a : LifeAct} {s' : SchedulerLife},
        s.Orderly tid (if useCall then [rootTid] else []) ∧ s.pc.ends = true →
        s.step tid a = some s' →
        s'.Orderly tid (if useCall then [rootTid] else [])
          ∧ s'.pc.ends = true :=
      fun hq hs => ⟨hq.1.step hs,
        (started_step (hq.1.ends hq.2).2.1 hs).2 hq.2⟩
    have hdone : ∀ {s : SchedulerLife} {a : LifeAct} {s' : SchedulerLife},
        s.Orderly tid (if useCall then [rootTid] else []) ∧ s.pc.ends = true →
        s.pc = .stopped → s.step tid a = some s' → s'.pc = .stopped := by
      intro s a s' hq hd hs
      cases a with
      | thread k found =>
          obtain ⟨-, th', rfl, -⟩ := threadStep_cases hs
          exact hd
      | owner b =>
          change s.ownerStep b = some s' at hs
          unfold SchedulerLife.ownerStep at hs
          rw [hd] at hs
          cases hs
    have hless : ∀ {s : SchedulerLife} {a : LifeAct} {s' : SchedulerLife},
        s.Orderly tid (if useCall then [rootTid] else []) ∧ s.pc.ends = true →
        a.quiet = true → s.step tid a = some s' →
        s'.pc = .stopped ∨ s'.stepsLeft < s.stepsLeft := by
      intro s a s' hq hquiet hs
      cases a with
      | thread k found =>
          have hfound : found = false := (Bool.not_eq_true' found).mp hquiet
          exact .inr (hq.1.threadStep_left hs
            (.inr ⟨(hq.1.ends hq.2).1, hfound⟩))
      | owner b =>
          exact .inr (hq.1.ownerStep_left hs
            fun _ => (Bool.not_eq_true' b).mp hquiet)
    have hmeasure : s.pc = .stopped
        ∨ (rest.length : Int) + s.stepsLeft ≤ t.stepsLeft :=
      run_measure hQ hdone hless rest ⟨ht, hends⟩ hquiet hrest
    have hle := hmeasure.resolve_left hpc
    have hbound := t.stepsLeft_le
    have hnonneg := s.stepsLeft_nonneg
    have howner := (ht.ends hends).2.2
    omega

theorem stop_completes_one :
    ∃ s, (List.replicate 5 (LifeAct.thread 0 false)
        ++ List.replicate 4 (LifeAct.owner false)).foldlM (step fun k =>
          101 + k)
          (((startOne ++ [LifeAct.owner false, .owner false]).foldlM
            (step fun k => 101 + k) (new 2 true [109] 100)).getD
              (new 2 true [109] 100)) = some s
      ∧ s.pc = .stopped ∧ s.stopping = true ∧ ∀ k < s.made, s.ended k
        = true := by
  have hpre : ((startOne ++ [LifeAct.owner false, .owner false]).foldlM
      (step fun k => 101 + k) (new 2 true [109] 100)).isSome = true := by
    rfl
  obtain ⟨t, ht⟩ := Option.isSome_iff_exists.mp hpre
  have hobs : ((List.replicate 5 (LifeAct.thread 0 false)
      ++ List.replicate 4 (LifeAct.owner false)).foldlM (step fun k => 101 + k)
        (((startOne ++ [LifeAct.owner false, .owner false]).foldlM
          (step fun k => 101 + k) (new 2 true [109] 100)).getD
            (new 2 true [109] 100))).map SchedulerLife.pc = some .stopped := by
    rfl
  obtain ⟨s, hs, hpc⟩ := Option.map_eq_some_iff.mp hobs
  rw [ht, Option.getD_some] at hs
  obtain ⟨hstop, -, hall⟩ := (stop_completes ht hs).1 hpc
  rw [ht, Option.getD_some]
  exact ⟨s, hs, hpc, hstop, hall⟩

end SchedulerLife

end TinyServer
