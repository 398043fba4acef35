/-
A fiber that waits in `do_io` or `connect_with_timeout` keeps its
timeout, when no callback of its timers runs too early.

The timer is armed before the event is registered, and its callback
wakes the fiber through the registration. A callback that runs while the
fiber is on its way to `addEvent` sets `cancelled`, finds no event and
has done its work; the fiber then parks with nothing left to wake it, and
the callbacks of later rounds see `cancelled` and return. The same holds
for a callback whose `cancelEvent` fails. `Loses` is a callback that runs
so; without one the wait is `Timely` in every state.
-/
import TinyServer.Hook.Wait
import TinyServer.Lib.Run

namespace TinyServer

open Lib

/-- The fiber is on its way to `addEvent`. -/
def WaitPc.before : WaitPc → Bool
  | .retry => true
  | .interrupted => true
  | .addTimer => true
  | .addEvent => true
  | _ => false

/-- The event has been registered and the fiber not yet resumed. -/
def WaitPc.waits : WaitPc → Bool
  | .yield => true
  | .parked => true
  | _ => false

namespace IoWait

variable {s s' : IoWait} {i : WaitStep}

/-- The timer is armed or its callback waits to run. -/
def Ticking (s : IoWait) : Prop :=
  s.timeout ≠ infinite → s.timer = .armed ∨ s.timer = .waiting

/-- A parked fiber whose event is registered can still time out: its
timer is armed or its callback waits to run, and `cancelled` is 0. -/
def KeepsTimeout (s : IoWait) : Prop :=
  s.timeout ≠ infinite → s.pc = .parked → s.registered = true →
    (s.timer = .armed ∨ s.timer = .waiting) ∧ s.cancelled = 0

/-- A callback that finds `cancelled` 0 runs while the fiber is on its way
to `addEvent`, or its `cancelEvent` of the registered event fails. -/
def Loses (s : IoWait) : WaitStep → Prop
  | .runCallback fails => s.cancelled = 0
      ∧ (s.pc.before = true ∨ (s.registered = true ∧ fails = true))
  | .runStale fails => s.cancelled = 0
      ∧ (s.pc.before = true ∨ (s.registered = true ∧ fails = true))
  | _ => False

/-- What holds in every state of a run in which no callback is lost. -/
structure Timely (s : IoWait) : Prop where
  /-- On its way to `addEvent` the call has not been cancelled and has
  nothing registered. -/
  quiet : s.pc.before = true →
    s.cancelled = 0 ∧ s.registered = false ∧ s.woken = false
  ticking : s.pc = .addEvent → s.Ticking
  /-- While the event is registered the fiber waits and its timer
  ticks. -/
  waiting : s.registered = true →
    s.pc.waits = true ∧ s.woken = false ∧ s.cancelled = 0 ∧ s.Ticking
  woken : s.woken = true → s.pc.waits = true

/-- A fiber that is parked in time can still time out. -/
theorem Timely.keepsTimeout (h : s.Timely) : s.KeepsTimeout := by
  intro hfinite _ hreg
  obtain ⟨-, -, hcan, htick⟩ := h.waiting hreg
  exact ⟨htick hfinite, hcan⟩

/-- At the start nothing waits. -/
theorem start_timely (kind : WaitKind) (timeout : Nat) :
    (start kind timeout).Timely where
  quiet := fun _ => ⟨rfl, rfl, rfl⟩
  ticking := fun h => by cases h
  waiting := fun h => by cases h
  woken := fun h => by cases h

/-- A move of a fiber that has nothing registered and is not woken. -/
private theorem Timely.goto {t : IoWait} {pc : WaitPc}
    (hreg : t.registered = false) (hwoken : t.woken = false)
    (hcan : pc.before = true → t.cancelled = 0)
    (htick : pc = .addEvent → t.Ticking) :
    Timely { t with pc := pc } where
  quiet := fun hpc => ⟨hcan hpc, hreg, hwoken⟩
  ticking := htick
  waiting := fun h => absurd (hreg.symm.trans h) Bool.false_ne_true
  woken := fun h => absurd (hwoken.symm.trans h) Bool.false_ne_true

/-- A place that is neither before the registration nor a wait. -/
private theorem Timely.idle (h : s.Timely) (hwaits : s.pc.waits = false) :
    s.registered = false ∧ s.woken = false := by
  constructor
  · by_contra hreg
    have hpc := (h.waiting (eq_true_of_ne_false hreg)).1
    exact absurd (hpc.symm.trans hwaits) (by decide)
  · by_contra hwoken
    have hpc := h.woken (eq_true_of_ne_false hwoken)
    exact absurd (hpc.symm.trans hwaits) (by decide)

/-- A state past the registration with nothing registered. -/
private theorem Timely.past (hpc : s.pc.before = false)
    (hreg : s.registered = false)
    (hwoken : s.woken = true → s.pc.waits = true) : s.Timely where
  quiet := fun h => absurd (hpc.symm.trans h) Bool.false_ne_true
  ticking := fun h => by
    rw [h] at hpc
    cases hpc
  waiting := fun h => absurd (hreg.symm.trans h) Bool.false_ne_true
  woken := hwoken

/-- A callback that is not lost. It can only set `cancelled` when the
event is gone, or by waking the fiber. -/
private theorem callback_timely (h : s.Timely) {fails : Bool}
    (hno : ¬ (s.cancelled = 0
      ∧ (s.pc.before = true ∨ (s.registered = true ∧ fails = true))))
    (timer : CondTimer) (stale : Nat) :
    Timely ({ s with timer := timer, stale := stale }.callback fails) := by
  have hbefore : s.pc.before = false := by
    by_contra hpc
    have hpc := eq_true_of_ne_false hpc
    exact hno ⟨(h.quiet hpc).1, .inl hpc⟩
  unfold callback
  split
  next hdone =>
    refine Timely.past hbefore ?_ h.woken
    by_contra hreg
    obtain ⟨hpc, -, hcan, -⟩ := h.waiting (eq_true_of_ne_false hreg)
    rcases hdone with hret | hcan'
    · have hret : s.pc = .returned := hret
      rw [hret] at hpc
      cases hpc
    · exact hcan' hcan
  next hlive =>
    have hcan : s.cancelled = 0 := by
      by_contra hcan
      exact hlive (.inr hcan)
    unfold cancelEvent
    split
    next hwake =>
      simp only [Bool.and_eq_true] at hwake
      obtain ⟨hpc, -, -, -⟩ := h.waiting hwake.1
      exact Timely.past hbefore rfl fun _ => hpc
    next hwake =>
      refine Timely.past hbefore ?_ h.woken
      by_contra hreg
      have hreg : s.registered = true := eq_true_of_ne_false hreg
      cases fails with
      | true => exact hno ⟨hcan, .inr ⟨hreg, rfl⟩⟩
      | false => exact hwake (by rw [hreg]; rfl)

@[simp] private theorem cancleTimer_registered :
    s.cancleTimer.registered = s.registered := by
  unfold cancleTimer
  split <;> rfl

@[simp] private theorem cancleTimer_woken :
    s.cancleTimer.woken = s.woken := by
  unfold cancleTimer
  split <;> rfl

@[simp] private theorem armTimer_registered :
    s.armTimer.registered = s.registered := by
  unfold armTimer
  split <;> rfl

@[simp] private theorem armTimer_woken : s.armTimer.woken = s.woken := by
  unfold armTimer
  split <;> rfl

@[simp] private theorem armTimer_cancelled :
    s.armTimer.cancelled = s.cancelled := by
  unfold armTimer
  split <;> rfl

private theorem armTimer_ticking : s.armTimer.Ticking := by
  unfold armTimer
  split
  next hinf => exact fun hfinite => absurd hinf hfinite
  next => exact fun _ => .inl rfl

/-- A step that loses no callback. -/
theorem step_timely (h : s.Timely) (hno : ¬ s.Loses i)
    (hs : s.step i = some s') : s'.Timely := by
  cases i with
  | call r =>
      simp only [step] at hs
      split at hs
      next hpc =>
        cases hs
        obtain ⟨hcan, hreg, hwoken⟩ := h.quiet (by rw [hpc]; rfl)
        refine Timely.goto hreg hwoken (fun _ => hcan) fun hto => ?_
        cases r <;> cases hk : s.kind <;> simp [afterCall, hk] at hto
      next hpc =>
        cases hs
        obtain ⟨hcan, hreg, hwoken⟩ := h.quiet (by rw [hpc]; rfl)
        refine Timely.goto hreg hwoken (fun _ => hcan) fun hto => ?_
        cases r <;> cases hto
      next => cases hs
  | addTimer =>
      simp only [step] at hs
      split at hs
      next hpc =>
        cases hs
        obtain ⟨hcan, hreg, hwoken⟩ := h.quiet (by rw [hpc]; rfl)
        exact Timely.goto (armTimer_registered.trans hreg)
          (armTimer_woken.trans hwoken)
          (fun _ => armTimer_cancelled.trans hcan)
          fun _ => armTimer_ticking
      next => cases hs
  | addEvent fails =>
      simp only [step] at hs
      split at hs
      next hpc =>
        obtain ⟨hcan, hreg, hwoken⟩ := h.quiet (by rw [hpc]; rfl)
        rw [hreg] at hs
        cases fails with
        | true =>
            cases hs
            exact Timely.goto (cancleTimer_registered.trans hreg)
              (cancleTimer_woken.trans hwoken) (fun hto => by cases hto)
              fun hto => by cases hto
        | false =>
            cases hs
            exact
              { quiet := fun hto => by cases hto
                ticking := fun hto => by cases hto
                waiting := fun _ => ⟨rfl, hwoken, hcan, h.ticking hpc⟩
                woken := fun _ => rfl }
      next => cases hs
  | yield =>
      simp only [step] at hs
      split at hs
      next hpc =>
        cases hs
        exact
          { quiet := fun hto => by cases hto
            ticking := fun hto => by cases hto
            waiting := fun hreg => ⟨rfl, (h.waiting hreg).2⟩
            woken := fun _ => rfl }
      next => cases hs
  | resume =>
      simp only [step] at hs
      split at hs
      next hpc =>
        cases hs
        -- A woken fiber has nothing registered.
        have hreg : s.registered = false := by
          by_contra hreg
          have hwoken := (h.waiting (eq_true_of_ne_false hreg)).2.1
          exact absurd (hwoken.symm.trans hpc.2) Bool.false_ne_true
        exact Timely.past rfl hreg fun hw => by cases hw
      next => cases hs
  | cancle =>
      simp only [step] at hs
      split at hs
      next hpc =>
        cases hs
        obtain ⟨hreg, hwoken⟩ := h.idle (by rw [hpc]; rfl)
        exact Timely.goto (cancleTimer_registered.trans hreg)
          (cancleTimer_woken.trans hwoken) (fun hto => by cases hto)
          fun hto => by cases hto
      next => cases hs
  | check =>
      simp only [step] at hs
      split at hs
      next hpc =>
        obtain ⟨hreg, hwoken⟩ := h.idle (by rw [hpc]; rfl)
        split at hs
        next =>
          cases hs
          exact Timely.goto hreg hwoken (fun hto => by cases hto)
            fun hto => by cases hto
        next hcan =>
          have hcan : s.cancelled = 0 := not_not.mp hcan
          split at hs
          · cases hs
            exact Timely.goto hreg hwoken (fun _ => hcan)
              fun hto => by cases hto
          · cases hs
            exact Timely.goto hreg hwoken (fun _ => hcan)
              fun hto => by cases hto
      next => cases hs
  | collect =>
      simp only [step] at hs
      split at hs
      next =>
        cases hs
        exact
          { quiet := h.quiet
            ticking := fun _ _ => .inr rfl
            waiting := fun hreg =>
              ⟨(h.waiting hreg).1, (h.waiting hreg).2.1,
                (h.waiting hreg).2.2.1, fun _ => .inr rfl⟩
            woken := h.woken }
      next => cases hs
  | runCallback fails =>
      simp only [step] at hs
      split at hs
      next =>
        cases hs
        exact callback_timely h hno .spent s.stale
      next => cases hs
  | runStale fails =>
      simp only [step] at hs
      split at hs
      next => cases hs
      next =>
        cases hs
        exact callback_timely h hno s.timer (s.stale - 1)
  | deliver =>
      simp only [step] at hs
      split at hs
      next hreg =>
        cases hs
        have hwaits := (h.waiting hreg).1
        refine Timely.past ?_ rfl fun _ => hwaits
        cases hpc : s.pc <;> rw [hpc] at hwaits <;> first | rfl | cases hwaits
      next => cases hs

/-- In every interleaving of the fiber with the other workers in which no
callback is lost, a parked fiber whose event is registered can still time
out. -/
theorem timeout_kept {kind : WaitKind} {timeout : Nat} {is : List WaitStep}
    (hno : ∀ s i, Takes step (start kind timeout) is s i → ¬ s.Loses i)
    (hs : Visits step (start kind timeout) is s) : s.KeepsTimeout := by
  have h : s.Timely :=
    visits_inv (fun h hno hs => step_timely h hno hs)
      (start_timely kind timeout) hno hs
  exact h.keepsTimeout

/-- A wait that times out, up to the callback. -/
def timedOut : List WaitStep :=
  [.call .again, .addTimer, .addEvent false, .yield, .collect]

theorem timeout_kept_timed_out :
    ∃ s, timedOut.foldlM step (start .doIo 100) = some s
      ∧ s.pc = .parked ∧ s.registered = true ∧ s.timer = .waiting
      ∧ s.cancelled = 0 := by
  have hrun : timedOut.foldlM step (start .doIo 100)
      = some ⟨.doIo, 100, .parked, 0, .waiting, 0, true, false⟩ := rfl
  have hno : ∀ s i, Takes step (start .doIo 100) timedOut s i
      → ¬ s.Loses i := by
    intro s i ht hlost
    have hmem := ht.mem
    simp only [timedOut, List.mem_cons, List.not_mem_nil, or_false] at hmem
    rcases hmem with rfl | rfl | rfl | rfl | rfl <;> exact hlost
  obtain ⟨-, hcan⟩ :=
    timeout_kept hno (visits_last hrun) (by decide) rfl rfl
  exact ⟨_, hrun, rfl, rfl, rfl, hcan⟩

/-- The callback runs on another worker before the fiber registers its
event: the fiber parks with no timer left. -/
def firedEarly : List WaitStep :=
  [.call .again, .addTimer, .collect, .runCallback false, .addEvent false,
    .yield]

theorem timeout_lost :
    ¬ ∀ (kind : WaitKind) (timeout : Nat) (is : List WaitStep) (s : IoWait),
      Visits step (start kind timeout) is s → s.KeepsTimeout := by
  intro hall
  have hrun : firedEarly.foldlM step (start .doIo 100)
      = some ⟨.doIo, 100, .parked, ETIMEDOUT, .spent, 0, true, false⟩ := rfl
  obtain ⟨-, hcan⟩ :=
    hall .doIo 100 firedEarly _ (visits_last hrun) (by decide) rfl rfl
  cases hcan

end IoWait

end TinyServer
