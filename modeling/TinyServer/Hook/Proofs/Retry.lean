/-
`do_io` drops a success that follows `EINTR`, and is right otherwise.

The loop on `EINTR` throws the result away, and a success does not touch
`errno`; so the loop takes it for another interrupt and calls again.
Every other outcome sets `errno`, and then `n`, which is still -1, is
right by chance: `EAGAIN` leads to the wait, and another error is
returned.

`Quiet` is what holds of the wait when there is no timeout: nothing but
the event wakes the fiber. `Moved` is what a step between two calls can
do there. `Kept` ties the outcomes so far to the place of the fiber, and
is what every step preserves.
-/
import TinyServer.Hook.Retry
import TinyServer.Hook.Proofs.Wait

namespace TinyServer

open Lib

namespace DoIo

variable {s s' : DoIo} {o : IoOutcome} {i : WaitStep} {e : Nat}

-- ================================================================== the wait

/-- There is no timer, and a fiber that waits is registered or woken. -/
structure Quiet (w : IoWait) : Prop where
  kind : w.kind = .doIo
  timeout : w.timeout = infinite
  timer : w.timer = .none
  stale : w.stale = 0
  cancelled : w.cancelled = 0
  registered : w.registered = true → w.pc.waits = true ∧ w.woken = false
  woken : w.woken = true → w.pc.waits = true
  waiting : w.pc.waits = true → w.registered = true ∨ w.woken = true

/-- What a step between two calls can do. -/
inductive Moved (s : DoIo) : DoIo → Prop
  | armed (e : Nat) (hpc : s.wait.pc = .addTimer) :
      Moved s { s with
        wait := { s.wait with pc := .addEvent }
        errno := e }
  | registered (e : Nat) (hpc : s.wait.pc = .addEvent) :
      Moved s { s with
        wait := { s.wait with
          registered := true
          pc := .yield }
        errno := e }
  | refused (e : Nat) (hpc : s.wait.pc = .addEvent) :
      Moved s { s with
        wait := { s.wait with pc := .returned }
        errno := e
        refused := true }
  | parked (e : Nat) (hpc : s.wait.pc = .yield) :
      Moved s { s with
        wait := { s.wait with pc := .parked }
        errno := e }
  | resumed (e : Nat) (hpc : s.wait.pc = .parked)
      (hwoken : s.wait.woken = true) :
      Moved s { s with
        wait := { s.wait with
          woken := false
          pc := .cancle }
        errno := e }
  | cancelled (e : Nat) (hpc : s.wait.pc = .cancle) :
      Moved s { s with
        wait := { s.wait with pc := .check }
        errno := e }
  | checked (e : Nat) (hpc : s.wait.pc = .check) :
      Moved s { s with
        wait := { s.wait with pc := .retry }
        errno := e }
  | delivered (hreg : s.wait.registered = true) :
      Moved s { s with
        wait := { s.wait with
          registered := false
          woken := true }
        delivered := s.delivered + 1 }

/-- Without a timeout no timer is made. -/
theorem Quiet.armTimer (h : Quiet s.wait) : s.wait.armTimer = s.wait := by
  unfold IoWait.armTimer
  rw [if_pos h.timeout, ← h.timer]

/-- Without a timer there is none to cancel. -/
theorem Quiet.cancleTimer (h : Quiet s.wait) :
    s.wait.cancleTimer = s.wait := by
  unfold IoWait.cancleTimer
  rw [h.timer]
  rfl

/-- The steps of the fiber in a quiet wait. -/
theorem Quiet.fiber_moved (h : Quiet s.wait)
    (hs : s.step (.fiber i e) = some s') : Moved s s' := by
  unfold step at hs
  cases i with
  | addTimer =>
      simp only [WaitStep.ofFiber, if_true, IoWait.step, h.armTimer] at hs
      split at hs
      next hpc =>
        cases hs
        simpa using Moved.armed e hpc
      next => cases hs
  | addEvent fails =>
      simp only [WaitStep.ofFiber, if_true, IoWait.step, h.cancleTimer] at hs
      split at hs
      next hpc =>
        have hreg : s.wait.registered = false := by
          by_contra hreg
          have hwaits := (h.registered (eq_true_of_ne_false hreg)).1
          rw [hpc] at hwaits
          cases hwaits
        cases fails with
        | true =>
            simp only [hreg, Bool.false_eq_true, if_false, if_true] at hs
            cases hs
            simpa [hreg] using Moved.refused e hpc
        | false =>
            simp only [hreg, Bool.false_eq_true, if_false] at hs
            cases hs
            simpa using Moved.registered e hpc
      next => cases hs
  | yield =>
      simp only [WaitStep.ofFiber, if_true, IoWait.step] at hs
      split at hs
      next hpc =>
        cases hs
        simpa using Moved.parked e hpc
      next => cases hs
  | resume =>
      simp only [WaitStep.ofFiber, if_true, IoWait.step] at hs
      split at hs
      next hpc =>
        cases hs
        simpa using Moved.resumed e hpc.1 hpc.2
      next => cases hs
  | cancle =>
      simp only [WaitStep.ofFiber, if_true, IoWait.step, h.cancleTimer] at hs
      split at hs
      next hpc =>
        cases hs
        simpa using Moved.cancelled e hpc
      next => cases hs
  | check =>
      simp only [WaitStep.ofFiber, if_true, IoWait.step] at hs
      split at hs
      next hpc =>
        simp only [h.cancelled, h.kind, ne_eq, not_true_eq_false,
          if_false] at hs
        cases hs
        simpa [h.cancelled, h.kind] using Moved.checked e hpc
      next => cases hs
  | call | collect | runCallback | runStale | deliver => cases hs

/-- Of the others' steps only the delivery of the event is left. -/
theorem Quiet.worker_moved (h : Quiet s.wait)
    (hs : s.step (.worker i) = some s') : Moved s s' := by
  unfold step at hs
  cases i with
  | deliver =>
      simp only [WaitStep.ofWorker, if_true, IoWait.step] at hs
      split at hs
      next hreg =>
        cases hs
        exact Moved.delivered hreg
      next => cases hs
  | collect =>
      simp only [WaitStep.ofWorker, if_true, IoWait.step, h.timer] at hs
      cases hs
  | runCallback fails =>
      simp only [WaitStep.ofWorker, if_true, IoWait.step, h.timer] at hs
      cases hs
  | runStale fails =>
      simp only [WaitStep.ofWorker, if_true, IoWait.step, h.stale] at hs
      cases hs
  | call | addTimer | addEvent | yield | resume | cancle | check => cases hs

/-- A quiet wait stays quiet. -/
theorem Quiet.moved (h : Quiet s.wait) (hm : Moved s s') : Quiet s'.wait := by
  obtain ⟨hkind, htime, htimer, hstale, hcan, hreg, hwoken, hwait⟩ := h
  cases hm with
  | armed e hpc | cancelled e hpc | checked e hpc | refused e hpc =>
      rw [hpc] at hreg hwoken
      exact ⟨hkind, htime, htimer, hstale, hcan,
        fun hr => (Bool.false_ne_true (hreg hr).1).elim,
        fun hw => (Bool.false_ne_true (hwoken hw)).elim,
        fun hw => (Bool.false_ne_true hw).elim⟩
  | registered e hpc =>
      have hw : s.wait.woken = false := by
        by_contra hw
        have hwaits := hwoken (eq_true_of_ne_false hw)
        rw [hpc] at hwaits
        cases hwaits
      exact ⟨hkind, htime, htimer, hstale, hcan, fun _ => ⟨rfl, hw⟩,
        fun _ => rfl, fun _ => .inl rfl⟩
  | parked e hpc =>
      rw [hpc] at hreg hwait
      exact ⟨hkind, htime, htimer, hstale, hcan,
        fun hr => ⟨rfl, (hreg hr).2⟩, fun _ => rfl, fun _ => hwait rfl⟩
  | resumed e hpc hw =>
      have hr : s.wait.registered = false := by
        by_contra hr
        have hno := (hreg (eq_true_of_ne_false hr)).2
        exact absurd (hno.symm.trans hw) Bool.false_ne_true
      exact ⟨hkind, htime, htimer, hstale, hcan,
        fun hr' => absurd (hr.symm.trans hr') Bool.false_ne_true,
        (fun hw => by cases hw), (fun hw => by cases hw)⟩
  | delivered hr =>
      obtain ⟨hwaits, -⟩ := hreg hr
      exact ⟨hkind, htime, htimer, hstale, hcan, (fun hr => by cases hr),
        fun _ => hwaits, fun _ => .inr rfl⟩

/-- A call finds the fiber with nothing registered. -/
theorem Quiet.idle (h : Quiet s.wait) (hc : s.Calling) :
    s.wait.registered = false ∧ s.wait.woken = false := by
  have hwaits : s.wait.pc.waits = false := by
    rcases hc with hpc | hpc
    all_goals
      rw [hpc]
      rfl
  constructor
  · by_contra hr
    exact absurd (hwaits.symm.trans (h.registered (eq_true_of_ne_false hr)).1)
      Bool.false_ne_true
  · by_contra hw
    exact absurd (hwaits.symm.trans (h.woken (eq_true_of_ne_false hw)))
      Bool.false_ne_true

/-- After a call the fiber is not in the wait. -/
theorem place_waits {n : Int} {errno : Nat} :
    (place n errno).waits = false := by
  unfold place
  split
  · rfl
  · split <;> rfl

/-- A call starts a wait anew, with nothing registered. -/
theorem Quiet.called (h : Quiet s.wait) (hc : s.Calling) (n : Int) :
    Quiet (s.called o n).wait := by
  obtain ⟨hreg, hwoken⟩ := h.idle hc
  exact ⟨h.kind, h.timeout, h.timer, h.stale, h.cancelled,
    fun hr => absurd (hreg.symm.trans hr) Bool.false_ne_true,
    fun hw => absurd (hwoken.symm.trans hw) Bool.false_ne_true,
    fun hw => absurd (place_waits.symm.trans hw) Bool.false_ne_true⟩

-- ============================================================== the outcomes

/-- One more delivery is owed than was made. -/
def owed (s : DoIo) : Bool :=
  s.wait.pc = .addTimer || s.wait.pc = .addEvent || s.wait.registered
    || s.refused

/-- The outcomes so far and the place of the fiber. -/
structure Kept (s : DoIo) : Prop where
  quiet : Quiet s.wait
  /-- In the loop `n` and `errno` are those of an interrupt. -/
  looping : s.wait.pc = .interrupted → s.n = -1 ∧ s.errno = EINTR
  looped : s.wait.pc = .interrupted → (∀ o ∈ s.calls, o.settled = false) →
    ∃ pre, s.calls = pre ++ [.eintr]
  interrupted : ∀ pre, s.calls = pre ++ [.eintr] →
    s.wait.pc = .interrupted
  /-- A success after an interrupt leaves the fiber in the loop. -/
  lost : ∀ pre v, s.calls = pre ++ [.eintr, .success v] →
    s.wait.pc = .interrupted
  again : s.wait.pc = .addTimer ∨ s.wait.pc = .addEvent →
    ∃ pre, s.calls = pre ++ [.eagain]
  counted : s.calls.count .eagain
    = s.delivered + if s.owed then 1 else 0
  refused : s.refused = true → s.wait.pc = .returned
    ∧ ∃ pre, s.calls = pre ++ [.eagain]
  right : ¬ Dropped s.calls → s.refused = false → s.Right

/-- Before the first call there is no outcome. -/
theorem start_kept (errno : Nat) : (start errno).Kept where
  quiet := ⟨rfl, rfl, rfl, rfl, rfl, (fun h => by cases h),
    (fun h => by cases h), (fun h => by cases h)⟩
  looping := fun h => by cases h
  looped := fun h => by cases h
  interrupted := fun pre h => by simp [start] at h
  lost := fun pre v h => by simp [start] at h
  again := fun h => by rcases h with h | h <;> cases h
  counted := rfl
  refused := fun h => by cases h
  right := fun _ _ o ho => by cases ho

/-- A step between two calls neither enters nor leaves the loop, and
returns only if `addEvent` fails. -/
theorem Moved.place (h : Kept s) (hm : Moved s s') :
    s'.calls = s.calls ∧ s'.n = s.n
      ∧ (s'.wait.pc = .interrupted ↔ s.wait.pc = .interrupted)
      ∧ (s.wait.pc = .interrupted ∨ s.wait.pc = .returned →
          s'.errno = s.errno)
      ∧ (s'.wait.pc = .returned ↔ s.wait.pc = .returned
          ∨ s'.refused ≠ s.refused) := by
  cases hm with
  | armed e hpc | registered e hpc | parked e hpc | resumed e hpc
  | cancelled e hpc | checked e hpc => simp [hpc]
  | refused e hpc =>
      have hno : s.refused = false := by
        by_contra hr
        have hret := (h.refused (eq_true_of_ne_false hr)).1
        rw [hpc] at hret
        cases hret
      simp [hpc, hno]
  | delivered hreg => simp

/-- A delivery pays what the last `EAGAIN` owes. -/
private theorem Kept.moved_counted (h : Kept s) (hm : Moved s s') :
    s'.calls.count .eagain = s'.delivered + if s'.owed then 1 else 0 := by
  have hcount := h.counted
  have hreg : s.wait.registered = true → s.wait.pc.waits = true :=
    fun hr => (h.quiet.registered hr).1
  have hpc₀ : s.refused = true → s.wait.pc = .returned :=
    fun hr => (h.refused hr).1
  cases hm with
  | armed e hpc | registered e hpc | refused e hpc | parked e hpc
  | resumed e hpc hw | cancelled e hpc | checked e hpc =>
      simpa [owed, hpc] using hcount
  | delivered hr =>
      have hwaits := hreg hr
      have hno : s.refused = false := by
        by_contra hr'
        rw [hpc₀ (eq_true_of_ne_false hr')] at hwaits
        cases hwaits
      have hpc : s.wait.pc ≠ .addTimer ∧ s.wait.pc ≠ .addEvent := by
        constructor
        all_goals
          intro hpc
          rw [hpc] at hwaits
          cases hwaits
      simp [owed, hr] at hcount
      simp [owed, hpc.1, hpc.2, hno, hcount]

/-- A step between two calls keeps the invariant. -/
theorem Kept.moved (h : Kept s) (hm : Moved s s') : Kept s' := by
  obtain ⟨hcalls, hn, hloop, herrno, hret⟩ := hm.place h
  have hrefused : s'.refused = false → s.refused = false := by
    intro hr
    cases hm <;> first | exact hr | cases hr
  refine ⟨h.quiet.moved hm, ?_, ?_, ?_, ?_, ?_, h.moved_counted hm, ?_, ?_⟩
  · intro hpc
    obtain ⟨hn₀, herrno₀⟩ := h.looping (hloop.mp hpc)
    exact ⟨hn.trans hn₀, (herrno (.inl (hloop.mp hpc))).trans herrno₀⟩
  · intro hpc hall
    rw [hcalls] at hall ⊢
    exact h.looped (hloop.mp hpc) hall
  · intro pre hpre
    rw [hcalls] at hpre
    exact hloop.mpr (h.interrupted pre hpre)
  · intro pre v hpre
    rw [hcalls] at hpre
    exact hloop.mpr (h.lost pre v hpre)
  · intro hpc
    rw [hcalls]
    apply h.again
    cases hm with
    | armed e hpc₀ => exact .inl hpc₀
    | delivered hr => exact hpc
    | registered | refused | parked | resumed | cancelled | checked =>
        rcases hpc with hpc | hpc <;> cases hpc
  · intro hr
    rw [hcalls]
    cases hm with
    | refused e hpc => exact ⟨rfl, h.again (.inr hpc)⟩
    | armed e hpc | registered e hpc | parked e hpc | resumed e hpc
    | cancelled e hpc | checked e hpc =>
        have hret := (h.refused hr).1
        rw [hpc] at hret
        cases hret
    | delivered => exact h.refused hr
  · intro hno hr
    have hr₀ : s.refused = false := hrefused hr
    rw [hcalls] at hno
    have hright := h.right hno hr₀
    have hpc : s'.wait.pc = .returned ↔ s.wait.pc = .returned := by
      rw [hret, hr, hr₀]
      simp
    unfold Right at hright ⊢
    rw [hcalls, hn]
    by_cases hdone : s.wait.pc = .returned
    · rw [if_pos hdone] at hright
      rw [if_pos (hpc.mpr hdone), herrno (.inr hdone)]
      exact hright
    · rw [if_neg hdone] at hright
      rw [if_neg (mt hpc.mp hdone)]
      exact hright

-- ==================================================================== a call

/-- The loop goes on exactly after -1 with `EINTR`. -/
theorem place_interrupted_iff {n : Int} {errno : Nat} :
    place n errno = .interrupted ↔ n = -1 ∧ errno = EINTR := by
  unfold place
  split
  next h => simpa using h
  next h =>
      split
      all_goals simpa using h

/-- The wait begins exactly after -1 with `EAGAIN`. -/
theorem place_addTimer_iff {n : Int} {errno : Nat} :
    place n errno = .addTimer ↔ n = -1 ∧ errno = EAGAIN := by
  unfold place
  split
  next h =>
      simp only [Bool.and_eq_true, decide_eq_true_eq] at h
      simp [h.2, EINTR, EAGAIN]
  next =>
      split
      next h => simpa using h
      next h => simpa using h

/-- A call does not lead into the middle of the wait. -/
theorem place_ne_addEvent {n : Int} {errno : Nat} :
    place n errno ≠ .addEvent := by
  unfold place
  split
  · exact WaitPc.noConfusion
  · split <;> exact WaitPc.noConfusion

/-- Every other result is returned. -/
theorem place_returned {n : Int} {errno : Nat}
    (h : n ≠ -1 ∨ (errno ≠ EINTR ∧ errno ≠ EAGAIN)) :
    place n errno = .returned := by
  unfold place
  rw [if_neg, if_neg]
  · simp only [Bool.and_eq_true, decide_eq_true_eq]
    tauto
  · simp only [Bool.and_eq_true, decide_eq_true_eq]
    tauto

/-- The value of `n` after a call: only the first call of a round is
assigned. -/
def assigned (s : DoIo) (o : IoOutcome) : Int :=
  if s.wait.pc = .interrupted then s.n else o.value

/-- Where the fiber goes after a call. -/
theorem Kept.place_called (h : Kept s) :
    (o.settled = false → s.assigned o = -1)
      ∧ (place (s.assigned o) (o.errno s.errno) = .interrupted
        ↔ o = .eintr ∨ (s.wait.pc = .interrupted ∧ ∃ v, o = .success v))
      ∧ (place (s.assigned o) (o.errno s.errno) = .addTimer
        ↔ o = .eagain) := by
  rw [place_interrupted_iff, place_addTimer_iff]
  unfold assigned
  by_cases hpc : s.wait.pc = .interrupted
  · obtain ⟨hn, herrno⟩ := h.looping hpc
    rw [if_pos hpc, hn, herrno]
    cases o with
    | success v => simp [IoOutcome.settled, IoOutcome.errno, hpc, EINTR, EAGAIN]
    | eintr => simp [IoOutcome.settled, IoOutcome.errno, EINTR, EAGAIN]
    | eagain => simp [IoOutcome.settled, IoOutcome.errno, EINTR, EAGAIN]
    | error e hintr hagain =>
        simp [IoOutcome.settled, IoOutcome.errno, hintr, hagain]
  · rw [if_neg hpc]
    cases o with
    | success v =>
        have hv : (v : Int) ≠ -1 := by omega
        simp [IoOutcome.settled, IoOutcome.value, hpc, hv]
    | eintr =>
        simp [IoOutcome.settled, IoOutcome.value, IoOutcome.errno, EINTR,
          EAGAIN]
    | eagain =>
        simp [IoOutcome.settled, IoOutcome.value, IoOutcome.errno, EINTR,
          EAGAIN]
    | error e hintr hagain =>
        simp [IoOutcome.settled, IoOutcome.value, IoOutcome.errno, hintr,
          hagain]

/-- A success that was dropped stays dropped. -/
theorem Dropped.append {calls : List IoOutcome} (h : Dropped calls)
    (o : IoOutcome) : Dropped (calls ++ [o]) := by
  obtain ⟨pre, v, post, rfl, hpre⟩ := h
  exact ⟨pre, v, post ++ [o], by simp, hpre⟩

/-- Before a call nothing has been returned. -/
theorem Kept.calling (h : Kept s) (hc : s.Calling) :
    s.refused = false ∧ s.owed = false
      ∧ (¬ Dropped s.calls → ∀ o ∈ s.calls, o.settled = false) := by
  have hpc : s.wait.pc ≠ .returned ∧ s.wait.pc ≠ .addTimer
      ∧ s.wait.pc ≠ .addEvent := by
    rcases hc with hpc | hpc
    all_goals
      rw [hpc]
      decide
  have hno : s.refused = false := by
    by_contra hr
    exact hpc.1 (h.refused (eq_true_of_ne_false hr)).1
  refine ⟨hno, ?_, fun hd => ?_⟩
  · simp [owed, hpc.2.1, hpc.2.2, hno, (h.quiet.idle hc).1]
  · have hright := h.right hd hno
    unfold Right at hright
    rw [if_neg hpc.1] at hright
    exact hright

/-- A call keeps the result right, unless it drops a success. -/
private theorem Kept.called_right (h : Kept s) (hc : s.Calling)
    (hd : ¬ Dropped (s.calls ++ [o])) : (s.called o (s.assigned o)).Right := by
  obtain ⟨hn, hloop, htimer⟩ := h.place_called (o := o)
  obtain ⟨-, -, hall⟩ := h.calling hc
  have hbefore := hall fun hd' => hd (hd'.append o)
  unfold Right called
  simp only
  cases hset : o.settled with
  | false =>
      -- an interrupt or a wait
      have hpc : place (s.assigned o) (o.errno s.errno) ≠ .returned := by
        cases o with
        | eintr =>
            rw [hloop.mpr (.inl rfl)]
            decide
        | eagain =>
            rw [htimer.mpr rfl]
            decide
        | success v => cases hset
        | error e hintr hagain => cases hset
      rw [if_neg hpc]
      intro p hp
      rcases List.mem_append.mp hp with hp | hp
      · exact hbefore p hp
      · rw [List.mem_singleton.mp hp]
        exact hset
  | true =>
      have hassigned : s.assigned o = o.value := by
        by_cases hpc : s.wait.pc = .interrupted
        · cases o with
          | success v =>
              obtain ⟨pre, hpre⟩ := h.looped hpc hbefore
              refine absurd ⟨pre, v, [], ?_, ?_⟩ hd
              · rw [hpre]
                simp
              · intro p hp
                exact hbefore p (by rw [hpre]; exact List.mem_append_left _ hp)
          | error e hintr hagain =>
              rw [assigned, if_pos hpc, (h.looping hpc).1]
              rfl
          | eintr => cases hset
          | eagain => cases hset
        · rw [assigned, if_neg hpc]
      have hpc : place (s.assigned o) (o.errno s.errno) = .returned := by
        apply place_returned
        rw [hassigned]
        cases o with
        | success v =>
            apply Or.inl
            simp only [IoOutcome.value]
            omega
        | error e hintr hagain => exact .inr ⟨hintr, hagain⟩
        | eintr => cases hset
        | eagain => cases hset
      rw [if_pos hpc]
      refine ⟨s.calls, o, rfl, hbefore, hset, hassigned, ?_⟩
      cases o <;> rfl

/-- A call keeps the invariant. -/
theorem Kept.called (h : Kept s) (hc : s.Calling) :
    Kept (s.called o (s.assigned o)) := by
  obtain ⟨hn, hloop, htimer⟩ := h.place_called (o := o)
  obtain ⟨hno, howed, -⟩ := h.calling hc
  have hreg := (h.quiet.idle hc).1
  refine ⟨h.quiet.called hc _, ?_, ?_, ?_, ?_, ?_, ?_, ?_, ?_⟩
  · exact place_interrupted_iff.mp
  · intro hpc hall
    rcases hloop.mp hpc with rfl | ⟨-, v, rfl⟩
    · exact ⟨s.calls, rfl⟩
    · exact absurd (hall _ (List.mem_append_right _ List.mem_cons_self))
        (by simp [IoOutcome.settled])
  · intro pre hpre
    obtain ⟨-, ho⟩ := List.append_inj' hpre rfl
    exact hloop.mpr (.inl (List.singleton_inj.mp ho))
  · intro pre v hpre
    have hpre' : s.calls ++ [o] = (pre ++ [.eintr]) ++ [.success v] := by
      rw [List.append_assoc]
      exact hpre
    obtain ⟨hcalls, ho⟩ := List.append_inj' hpre' rfl
    exact hloop.mpr (.inr ⟨h.interrupted pre hcalls, v,
      List.singleton_inj.mp ho⟩)
  · intro hpc
    refine ⟨s.calls, ?_⟩
    rcases hpc with hpc | hpc
    · rw [← htimer.mp hpc]
      rfl
    · exact absurd hpc place_ne_addEvent
  · have hcount := h.counted
    rw [howed] at hcount
    by_cases ho : o = .eagain
    · have hnew : (s.called o (s.assigned o)).owed = true := by
        simp [owed, DoIo.called, htimer.mpr ho]
      rw [hnew]
      simp [DoIo.called, List.count_append, hcount, ho]
    · have hnew : (s.called o (s.assigned o)).owed = false := by
        simp [owed, DoIo.called, mt htimer.mp ho, place_ne_addEvent, hreg, hno]
      rw [hnew]
      simp [DoIo.called, List.count_append, hcount, ho]
  · intro hr
    exact absurd (hno.symm.trans hr) Bool.false_ne_true
  · exact fun hd _ => h.called_right hc hd

/-- A call is made, or the fiber moves between two calls. -/
theorem Kept.step_cases (h : Kept s) {j : DoIoStep}
    (hs : s.step j = some s') :
    (∃ o, j = .call o ∧ s.Calling ∧ s' = s.called o (s.assigned o))
      ∨ Moved s s' := by
  cases j with
  | call o =>
      apply Or.inl
      simp only [step] at hs
      unfold assigned
      split at hs
      next hpc =>
          cases hs
          exact ⟨o, rfl, .inl hpc, by rw [if_neg (by rw [hpc]; decide)]⟩
      next hpc =>
          cases hs
          exact ⟨o, rfl, .inr hpc, by rw [if_pos hpc]⟩
      next => cases hs
  | fiber i e => exact .inr (h.quiet.fiber_moved hs)
  | worker i => exact .inr (h.quiet.worker_moved hs)

/-- Every step keeps the invariant. -/
theorem step_kept {j : DoIoStep} (h : Kept s) (hs : s.step j = some s') :
    Kept s' := by
  rcases h.step_cases hs with ⟨o, -, hc, rfl⟩ | hm
  · exact h.called hc
  · exact h.moved hm

/-- So it holds at the end of every run. -/
theorem run_kept {errno : Nat} {js : List DoIoStep}
    (hrun : js.foldlM step (start errno) = some s) : Kept s :=
  run_inv step_kept js (start_kept errno) hrun

-- ================================================================== progress

/-- Without another outcome the fiber can get to its next call. -/
def Proceeds (s : DoIo) : Prop :=
  ∃ (js : List DoIoStep) (s' : DoIo), js.foldlM step s = some s'
    ∧ s'.Calling ∧ s'.calls = s.calls ∧ s'.refused = s.refused

/-- One more step in front of those that get to a call. -/
theorem proceeds_of_step {j : DoIoStep} (hs : s.step j = some s')
    (hcalls : s'.calls = s.calls) (hrefused : s'.refused = s.refused)
    (h : s'.Proceeds) : s.Proceeds := by
  obtain ⟨js, t, hrun, hc, hcalls', hrefused'⟩ := h
  exact ⟨j :: js, t, run_cons.mpr ⟨s', hs, hrun⟩, hc, hcalls'.trans hcalls,
    hrefused'.trans hrefused⟩

/-- The wait is over. -/
private theorem Kept.retry_proceeds (hpc : s.wait.pc = .retry) :
    s.Proceeds :=
  ⟨[], s, rfl, .inl hpc, rfl, rfl⟩

/-- There was no timer, so nothing was cancelled. -/
private theorem Kept.check_proceeds (h : Kept s)
    (hpc : s.wait.pc = .check) : s.Proceeds := by
  have hs : s.step (.fiber .check 0) = some { s with
      wait := { s.wait with pc := .retry }
      errno := 0 } := by
    simp [step, WaitStep.ofFiber, IoWait.step, hpc, h.quiet.cancelled,
      h.quiet.kind]
  exact proceeds_of_step hs rfl rfl (retry_proceeds rfl)

/-- There is no timer to cancel. -/
private theorem Kept.cancle_proceeds (h : Kept s)
    (hpc : s.wait.pc = .cancle) : s.Proceeds := by
  have hs : s.step (.fiber .cancle 0) = some { s with
      wait := { s.wait with pc := .check }
      errno := 0 } := by
    simp [step, WaitStep.ofFiber, IoWait.step, hpc, h.quiet.cancleTimer]
  exact proceeds_of_step hs rfl rfl ((step_kept h hs).check_proceeds rfl)

/-- A fiber that was woken is resumed. -/
private theorem Kept.woken_proceeds (h : Kept s)
    (hpc : s.wait.pc = .parked) (hwoken : s.wait.woken = true) :
    s.Proceeds := by
  have hs : s.step (.fiber .resume 0) = some { s with
      wait := { s.wait with
        woken := false
        pc := .cancle }
      errno := 0 } := by
    simp [step, WaitStep.ofFiber, IoWait.step, hpc, hwoken]
  exact proceeds_of_step hs rfl rfl ((step_kept h hs).cancle_proceeds rfl)

/-- A parked fiber is registered or woken. -/
private theorem Kept.parked_proceeds (h : Kept s)
    (hpc : s.wait.pc = .parked) : s.Proceeds := by
  rcases h.quiet.waiting (by rw [hpc]; rfl) with hreg | hwoken
  · -- the event is still to be delivered
    have hs : s.step (.worker .deliver) = some { s with
        wait := { s.wait with
          registered := false
          woken := true }
        delivered := s.delivered + 1 } := by
      simp [step, WaitStep.ofWorker, IoWait.step, hreg]
    exact proceeds_of_step hs rfl rfl
      ((step_kept h hs).woken_proceeds hpc rfl)
  · exact h.woken_proceeds hpc hwoken

/-- The fiber parks. -/
private theorem Kept.yield_proceeds (h : Kept s)
    (hpc : s.wait.pc = .yield) : s.Proceeds := by
  have hs : s.step (.fiber .yield 0) = some { s with
      wait := { s.wait with pc := .parked }
      errno := 0 } := by
    simp [step, WaitStep.ofFiber, IoWait.step, hpc]
  exact proceeds_of_step hs rfl rfl ((step_kept h hs).parked_proceeds rfl)

/-- The event is registered, when `addEvent` goes through. -/
private theorem Kept.addEvent_proceeds (h : Kept s)
    (hpc : s.wait.pc = .addEvent) : s.Proceeds := by
  have hreg : s.wait.registered = false := by
    by_contra hreg
    have hwaits := (h.quiet.registered (eq_true_of_ne_false hreg)).1
    rw [hpc] at hwaits
    cases hwaits
  have hs : s.step (.fiber (.addEvent false) 0) = some { s with
      wait := { s.wait with
        registered := true
        pc := .yield }
      errno := 0 } := by
    simp [step, WaitStep.ofFiber, IoWait.step, hpc, hreg]
  exact proceeds_of_step hs rfl rfl ((step_kept h hs).yield_proceeds rfl)

/-- Without a timeout there is no timer to add. -/
private theorem Kept.addTimer_proceeds (h : Kept s)
    (hpc : s.wait.pc = .addTimer) : s.Proceeds := by
  have hs : s.step (.fiber .addTimer 0) = some { s with
      wait := { s.wait with pc := .addEvent }
      errno := 0 } := by
    simp [step, WaitStep.ofFiber, IoWait.step, hpc, h.quiet.armTimer]
  exact proceeds_of_step hs rfl rfl ((step_kept h hs).addEvent_proceeds rfl)

/-- From every place before the return there is a way to a call. -/
theorem Kept.proceeds (h : Kept s) (hpc : s.wait.pc ≠ .returned) :
    s.Proceeds := by
  cases hp : s.wait.pc with
  | retry => exact retry_proceeds hp
  | interrupted => exact ⟨[], s, rfl, .inr hp, rfl, rfl⟩
  | addTimer => exact h.addTimer_proceeds hp
  | addEvent => exact h.addEvent_proceeds hp
  | yield => exact h.yield_proceeds hp
  | parked => exact h.parked_proceeds hp
  | cancle => exact h.cancle_proceeds hp
  | check => exact h.check_proceeds hp
  | returned => exact absurd hp hpc

-- ================================================================= the result

/-- Where a success was dropped the result is not right. -/
theorem Kept.not_dropped (h : Kept s) (hright : s.Right) :
    ¬ Dropped s.calls := by
  rintro ⟨pre, v, post, hcalls, -⟩
  unfold Right at hright
  split at hright
  next hpc =>
      obtain ⟨first, o, heq, hfirst, -⟩ := hright
      have hlast : post ≠ [] := by
        rintro rfl
        rw [h.lost pre v hcalls] at hpc
        cases hpc
      -- so the success is among the outcomes before the last one
      obtain ⟨rest, x, rfl⟩ := (List.eq_nil_or_concat post).resolve_left hlast
      have hsame : (pre ++ .eintr :: .success v :: rest) ++ [x]
          = first ++ [o] := by
        rw [← heq, hcalls]
        simp
      have hmem : .success v ∈ first := by
        rw [← (List.append_inj' hsame rfl).1]
        simp
      exact absurd (hfirst _ hmem) (by simp [IoOutcome.settled])
  next =>
      have hmem : .success v ∈ s.calls := by
        rw [hcalls]
        simp
      exact absurd (hright _ hmem) (by simp [IoOutcome.settled])

/-- Nor is it where `addEvent` has failed. -/
theorem Kept.not_refused (h : Kept s) (hright : s.Right) :
    s.refused = false := by
  by_contra hr
  obtain ⟨hpc, pre, hpre⟩ := h.refused (eq_true_of_ne_false hr)
  unfold Right at hright
  rw [if_pos hpc] at hright
  obtain ⟨first, o, heq, -, hset, -⟩ := hright
  rw [hpre] at heq
  rw [← List.singleton_inj.mp (List.append_inj' heq rfl).2] at hset
  cases hset

/-- In every run of `do_io`, whatever the outcomes of the original
function: it is right exactly if the first outcome that is neither
`EINTR` nor `EAGAIN` is not a success after `EINTR`, and `addEvent` has
not failed. Each call is made when the event has been delivered as often
as there was an `EAGAIN`; and until `do_io` returns it gets to another
call once the event is delivered. -/
theorem do_io_right_iff {errno : Nat} {js : List DoIoStep}
    (hrun : js.foldlM step (start errno) = some s) :
    (s.Right ↔ ¬ Dropped s.calls ∧ s.refused = false)
      ∧ (s.Calling → s.delivered = s.calls.count .eagain)
      ∧ (s.wait.pc ≠ .returned → s.Proceeds) := by
  have h : Kept s := run_kept hrun
  refine ⟨⟨fun hr => ⟨h.not_dropped hr, h.not_refused hr⟩,
    fun hd => h.right hd.1 hd.2⟩, fun hc => ?_, h.proceeds⟩
  have hcount := h.counted
  rw [(h.calling hc).2.1] at hcount
  exact hcount.symm

/-- An interrupt, a wait, and a success. -/
def waitsOnce : List DoIoStep :=
  [.call .eintr, .call .eagain, .fiber .addTimer 0, .fiber (.addEvent false) 0,
    .fiber .yield 0, .worker .deliver, .fiber .resume 0, .fiber .cancle 0,
    .fiber .check 0, .call (.success 5)]

theorem do_io_right_waits_once :
    ∃ s, waitsOnce.foldlM step (start 0) = some s
      ∧ s.wait.pc = .returned ∧ s.n = 5 ∧ s.delivered = 1
      ∧ (s.Right ↔ ¬ Dropped s.calls ∧ s.refused = false) := by
  have hrun : waitsOnce.foldlM step (start 0)
      = some ⟨⟨.doIo, infinite, .returned, 0, .none, 0, false, false⟩, 5, 0,
        [.eintr, .eagain, .success 5], 1, false⟩ := rfl
  exact ⟨_, hrun, rfl, rfl, rfl, (do_io_right_iff hrun).1⟩

/-- A read whose success comes after an interrupt. -/
def readsAfterInterrupt : List DoIoStep :=
  [.call .eintr, .call (.success 5),
    .call (.error 9 (by decide) (by decide))]

/-- The 5 bytes are dropped, and the error of the next call is
returned. -/
theorem success_dropped :
    ∃ s, readsAfterInterrupt.foldlM step (start 0) = some s
      ∧ s.wait.pc = .returned ∧ s.n = -1 ∧ s.errno = 9 ∧ ¬ s.Right := by
  have hrun : readsAfterInterrupt.foldlM step (start 0)
      = some ⟨⟨.doIo, infinite, .returned, 0, .none, 0, false, false⟩, -1, 9,
        [.eintr, .success 5, .error 9 (by decide) (by decide)], 0, false⟩ :=
    rfl
  refine ⟨_, hrun, rfl, rfl, rfl, fun hright => ?_⟩
  have hdone : (DoIo.mk ⟨.doIo, infinite, .returned, 0, .none, 0, false, false⟩
      (-1) 9 [.eintr, .success 5, .error 9 (by decide) (by decide)] 0
      false).calls = [] ++ .eintr :: .success 5 :: [.error 9 (by decide)
        (by decide)] := rfl
  exact (run_kept hrun).not_dropped hright
    ⟨[], 5, _, hdone, fun o ho => by cases ho⟩

end DoIo

end TinyServer
