/-
`listExpireCB` collects the due timers.

The probe of `lower_bound` stands between the timers that are earlier and
those that are later than the clock, somewhere among the timers of that
very time: where depends on its address. The loop behind it takes in the
rest of these, so the iterator ends up behind all timers with
`m_next <= now` whatever the address was (`expired_eq_filter`). The last
loop changes each timer it was given once, since no timer is in the set
twice (`handOut_heap`).
-/
import TinyServer.Lib.Cut
import TinyServer.Timer.Clock
import TinyServer.Timer.Proofs.Inv

namespace TinyServer

open Lib

namespace TimerManager

variable {m m' : TimerManager} {now tmp a b : Nat} {out : List Nat}

-- ============================================================= the boundary

/-- The earlier timer comes first, and of two at one time the one with the
lower address. -/
theorem compare_eq_true {heap : Nat → Timer} :
    compare heap a b = true ↔ (heap a).next < (heap b).next
      ∨ ((heap a).next = (heap b).next ∧ a < b) := by
  simp only [compare, Bool.if_true_left, Bool.if_false_left,
    Bool.or_eq_true, Bool.and_eq_true, Bool.not_eq_true',
    decide_eq_true_eq, decide_eq_false_iff_not]
  omega

/-- The iterator is behind the timers that are due, wherever the probe
was. -/
theorem expired_eq_filter (h : Ascending (compare m.heap) m.timers) :
    m.expired now tmp = m.timers.filter fun a => (m.heap a).next ≤ now := by
  have hfront : Front (fun a => (m.heap a).next < now
      || ((m.heap a).next = now && a < tmp)) m.timers := by
    refine h.imp fun {a b} hab hb => ?_
    rw [compare_eq_true] at hab
    simp only [Bool.or_eq_true, Bool.and_eq_true, decide_eq_true_eq] at hb ⊢
    omega
  have hboth : Front (fun a => ((m.heap a).next < now
      || ((m.heap a).next = now && a < tmp))
      || (m.heap a).next = now) m.timers := by
    refine h.imp fun {a b} hab hb => ?_
    rw [compare_eq_true] at hab
    simp only [Bool.or_eq_true, Bool.and_eq_true, decide_eq_true_eq] at hb ⊢
    omega
  rw [expired, drop_of_append List.takeWhile_append_dropWhile.symm,
    front_then hfront hboth]
  apply List.filter_congr
  intro a _
  rw [Bool.eq_iff_iff]
  simp only [Bool.or_eq_true, Bool.and_eq_true, decide_eq_true_eq]
  omega

-- ================================================================== the loop

/-- Handing out a timer changes that timer only. -/
theorem rearm_heap : (m.rearm now a).heap b
    = if b = a then (m.heap a).handOut now else m.heap b := by
  unfold rearm Timer.handOut
  by_cases hr : (m.heap a).recurring = true
  · simp only [hr, if_true, insert_heap, setTimer]
  · simp only [hr, if_false, setTimer, Bool.false_eq_true]

/-- It does not touch the time of the last call. -/
theorem rearm_previousTime :
    (m.rearm now a).previousTime = m.previousTime := by
  rw [rearm]
  split <;> rfl

/-- Each timer is changed once. -/
theorem handOut_heap (hout : out.Nodup) :
    (handOut now out m).2.heap b
      = if b ∈ out then (m.heap b).handOut now else m.heap b := by
  induction out generalizing m with
  | nil => simp [handOut]
  | cons a out ih =>
      obtain ⟨ha, hout⟩ := List.nodup_cons.mp hout
      rw [handOut]
      simp only
      rw [ih hout, rearm_heap]
      by_cases hba : b = a
      · subst hba
        simp [ha]
      · simp [hba]

/-- The callbacks pushed are those the timers had. -/
theorem handOut_pushed (hout : out.Nodup) :
    (handOut now out m).1 = out.map fun a => (a, (m.heap a).cb) := by
  induction out generalizing m with
  | nil => rfl
  | cons a out ih =>
      obtain ⟨ha, hout⟩ := List.nodup_cons.mp hout
      rw [handOut]
      simp only
      rw [ih hout, List.map_cons]
      congr 1
      apply List.map_congr_left
      intro b hb
      have hba : b ≠ a := fun heq => ha (heq ▸ hb)
      rw [rearm_heap, if_neg hba]

/-- Nor does handing out a list of them. -/
theorem handOut_previousTime :
    (handOut now out m).2.previousTime = m.previousTime := by
  induction out generalizing m with
  | nil => rfl
  | cons a out ih => exact ih.trans rearm_previousTime

-- ============================================================== one collection

/-- The clock counts as turned back when it is more than an hour behind. -/
theorem rollover_iff (hlow : 3600000 ≤ m.previousTime)
    (hword : m.previousTime < 2 ^ 64) :
    m.rollover now = true ↔ now + 3600000 < m.previousTime := by
  have hback : wrap (m.previousTime + (2 ^ 64 - 60 * 60 * 1000))
      = m.previousTime - 3600000 := by
    unfold wrap
    omega
  simp only [rollover, detectClockRollover, hback, Bool.and_eq_true,
    decide_eq_true_eq]
  omega

/-- The timers due are at the front of the set. -/
theorem Holds.due_eq_take (h : m.Holds []) :
    m.due now = m.timers.take (m.due now).length := by
  unfold due
  split
  next => exact List.take_length.symm
  next =>
      have hexp : m.expired now 0 = _ := expired_eq_filter h.sorted
      rw [← hexp]
      exact expired_eq_take

/-- The set without the timers due. -/
def withoutDue (m : TimerManager) (now : Nat) : TimerManager :=
  { m with
    timers := m.timers.drop (m.due now).length
    previousTime := now }

/-- What the lock protects besides the set is as it was. -/
theorem withoutDue_same : (m.withoutDue now).heap = m.heap
    ∧ (m.withoutDue now).made = m.made
    ∧ (m.withoutDue now).tickled = m.tickled
    ∧ (m.withoutDue now).previousTime = now := by
  have hall : ∀ ts, ({ m with timers := ts, previousTime := now } :
      TimerManager).heap = m.heap
      ∧ ({ m with timers := ts, previousTime := now } :
        TimerManager).made = m.made
      ∧ ({ m with timers := ts, previousTime := now } :
        TimerManager).tickled = m.tickled
      ∧ ({ m with timers := ts, previousTime := now } :
        TimerManager).previousTime = now := fun _ => ⟨rfl, rfl, rfl, rfl⟩
  exact hall _

/-- Without the due timers the set is that of those handed out. -/
theorem Holds.takeDue (h : m.Holds []) :
    (m.withoutDue now).Holds (m.due now) := by
  have hout := (h.takeFront (m.due now).length).clock now
  rw [← h.due_eq_take] at hout
  exact hout

/-- All timers are kept but the due ones. -/
theorem Holds.mem_withoutDue (h : m.Holds []) :
    b ∈ (m.withoutDue now).timers ↔ b ∈ m.timers ∧ b ∉ m.due now := by
  have happ : m.due now ++ (m.withoutDue now).timers = m.timers := by
    conv => lhs; arg 1; rw [h.due_eq_take]
    exact List.take_append_drop _ _
  have hmem : b ∈ m.timers
      ↔ b ∈ m.due now ∨ b ∈ (m.withoutDue now).timers := by
    rw [← List.mem_append, happ]
  have hapart : b ∈ m.due now → b ∉ (m.withoutDue now).timers :=
    h.takeDue.apart b
  tauto

/-- A collection hands out the timers that are due; the probe does not
matter. -/
theorem Holds.collect_due (h : m.Holds []) (hne : m.timers ≠ [])
    (hlow : 3600000 ≤ m.previousTime) (hword : m.previousTime < 2 ^ 64) :
    m.collect now tmp = .ok (handOut now (m.due now)
      (m.withoutDue now)) := by
  have hroll : m.rollover now = true ↔ now + 3600000 < m.previousTime :=
    rollover_iff hlow hword
  by_cases hback : now + 3600000 < m.previousTime
  · have hdetect : (m.detectClockRollover now).1 = true := hroll.mpr hback
    rw [TimerManager.collect, withoutDue, due, if_pos hback,
      List.drop_length]
    simp only [hdetect, if_true]
    rfl
  · have hdetect : (m.detectClockRollover now).1 = false :=
      Bool.eq_false_iff.mpr (mt hroll.mp hback)
    have hdue : m.due now = m.timers.filter fun a => (m.heap a).next ≤ now :=
      by rw [due, if_neg hback]
    obtain ⟨a, rest, hts⟩ := List.exists_cons_of_ne_nil hne
    rw [TimerManager.collect]
    simp only [hdetect, Bool.false_eq_true, if_false,
      show (m.detectClockRollover now).2 = { m with previousTime := now }
        from rfl]
    rw [hts]
    simp only
    split
    next hlate =>
        -- the first timer is not due, so none is
        have hnone : m.due now = [] := by
          rw [hdue, List.filter_eq_nil_iff]
          intro b hb
          rw [hts] at hb
          have hle : (m.heap a).next ≤ (m.heap b).next := by
            rcases List.mem_cons.mp hb with rfl | hb
            · exact Nat.le_refl _
            · have hsorted := h.sorted
              rw [hts] at hsorted
              have hab := (List.pairwise_cons.mp hsorted).1 b hb
              rw [compare_eq_true] at hab
              omega
          simp only [decide_eq_true_eq]
          omega
        rw [withoutDue, hnone]
        simp only [handOut, List.length_nil, List.drop_zero, ← hts]
    next =>
        have hexp : expired { m with previousTime := now } now tmp
            = m.due now := by
          rw [hdue]
          exact expired_eq_filter (h.clock now).sorted
        rw [hts] at hexp
        rw [hexp, ← hts]
        rfl

/-- A collection records its reading of the clock. -/
theorem collect_previousTime {cbs : List (Nat × Option Nat)}
    (hc : m.collect now tmp = .ok (cbs, m')) : m'.previousTime = now := by
  rcases collect_cases m now tmp with ⟨-, -, he⟩ | ⟨-, n, ho, -⟩
  · rw [he] at hc
    cases hc
  · rw [ho, Except.ok.injEq] at hc
    obtain rfl : _ = m' := congrArg Prod.snd hc
    exact handOut_previousTime

/-- `m_previousTime` is the reading of the last collection. -/
theorem Did.previousTime {c : TimerCall} {r : TimerRet}
    (hd : Did m c m' r) : m'.previousTime = m.previousTime
      ∨ c.reading = some m'.previousTime := by
  cases hd with
  | collected hm =>
      apply Or.inr
      rw [collect_previousTime hm]
      rfl
  | added | refused | cancelled | requeued | asked | idle => exact .inl rfl

end TimerManager

/-- A reading is a 64-bit value. -/
theorem TimerStep.Typed.reading {i : TimerStep} (hi : i.Typed) {now : Nat}
    (hread : i.reading = some now) : now < 2 ^ 64 := by
  cases i with
  | op c =>
      cases c with
      | addTimer a ms cb recurring now' =>
          cases hread
          exact hi.2
      | cancle a => cases hread
      | refresh a now' =>
          cases hread
          exact hi
      | reset a ms fromNow now' =>
          simp only [TimerStep.reading, TimerCall.reading] at hread
          split at hread
          next =>
              cases hread
              exact hi.2
          next => cases hread
      | getNextTimer now' =>
          cases hread
          exact hi
      | listExpireCB now' tmp =>
          cases hread
          exact hi
  | test t now' =>
      cases hread
      exact hi
  | collect t tmp => cases hread

namespace TimerThreads

variable {s s' : TimerThreads} {i : TimerStep} {P : Nat → Prop}

-- ============================================================ clock readings

/-- The readings that are still in the state have the property. -/
structure Readings (P : Nat → Prop) (s : TimerThreads) : Prop where
  previous : P s.m.previousTime
  tested : ∀ t now, s.tested t = some now → P now

/-- A weaker property of the readings. -/
theorem Readings.mono {Q : Nat → Prop} (h : s.Readings P)
    (hpq : ∀ now, P now → Q now) : s.Readings Q :=
  ⟨hpq _ h.previous, fun t now ht => hpq now (h.tested t now ht)⟩

/-- A step adds the reading that it takes. -/
theorem Readings.step (h : s.Readings P) (hinv : s.m.Holds [])
    (hi : ∀ now, i.reading = some now → P now) (hs : s.step i = some s') :
    s'.Readings P := by
  rcases step_cases hs with ⟨c, m, r, rfl, hc, rfl⟩ |
    ⟨t, now, rfl, rfl | ⟨-, rfl⟩⟩ | ⟨t, tmp, now, cbs, m, rfl, ht, hm, rfl⟩
  · refine ⟨?_, h.tested⟩
    rcases (hinv.call_did hc).previousTime with heq | hread
    · show P m.previousTime
      rw [heq]
      exact h.previous
    · exact hi _ hread
  · exact h
  · refine ⟨h.previous, fun u now' hu => ?_⟩
    simp only [setTested] at hu
    split at hu
    next =>
        cases hu
        exact hi now rfl
    next => exact h.tested u now' hu
  · refine ⟨?_, fun u now' hu => ?_⟩
    · show P m.previousTime
      rw [TimerManager.collect_previousTime hm]
      exact h.tested t now ht
    · simp only [setTested] at hu
      split at hu
      next => cases hu
      next => exact h.tested u now' hu

/-- The invariant of the set holds in every state of a run. -/
theorem visits_holds {now₀ : Nat} {is : List TimerStep} {s : TimerThreads}
    (h : Visits TimerThreads.step (new now₀) is s) : s.m.Holds [] :=
  run_inv_visits (P := fun s => s.m.Holds []) step_holds
    (TimerManager.new_holds now₀) h

/-- And all readings stay 64-bit values. -/
theorem visits_readings {now₀ : Nat} {is : List TimerStep}
    {s : TimerThreads} (h : Visits TimerThreads.step (new now₀) is s)
    (hnow₀ : now₀ < 2 ^ 64) (htyped : ∀ i ∈ is, i.Typed) :
    s.Readings (· < 2 ^ 64) := by
  have hall : s.m.Holds [] ∧ s.Readings (· < 2 ^ 64) := by
    apply visits_inv _ _ (fun s i ht => htyped i ht.mem) h
    · intro s i s' hs₀ hi hs
      exact ⟨step_holds hs₀.1 hs, hs₀.2.step hs₀.1
        (fun now hread => hi.reading hread) hs⟩
    · exact ⟨TimerManager.new_holds now₀, hnow₀, fun t now ht => by cases ht⟩
  exact hall.2

-- ============================================================== the collection

/-- In every state that the threads reach, with `m_timers` non-empty and
`m_previousTime` an hour or more after 0: at every reading `now`,
`listExpireCB` pushes the callbacks of the timers due in their order,
whatever the address of its probe; these are taken out, the recurring
ones put back at `now + m_ms` and the others left without a callback;
all other timers stay as they are. -/
theorem collects_due {now₀ : Nat} {is : List TimerStep} {s : TimerThreads}
    (h : Visits TimerThreads.step (new now₀) is s) (hnow₀ : now₀ < 2 ^ 64)
    (htyped : ∀ i ∈ is, i.Typed) (hne : s.m.timers ≠ [])
    (hlow : 3600000 ≤ s.m.previousTime) (now : Nat) :
    ∃ m', (∀ tmp, s.m.listExpireCB now tmp
          = .ok ((s.m.due now).map fun a => (a, (s.m.heap a).cb), m'))
      ∧ (∀ a, a ∈ m'.timers ↔ (a ∈ s.m.timers ∧ a ∉ s.m.due now)
          ∨ (a ∈ s.m.due now ∧ (s.m.heap a).recurring = true))
      ∧ Ascending (compare m'.heap) m'.timers
      ∧ (∀ a ∈ s.m.due now, m'.heap a =
          if (s.m.heap a).recurring then
            { s.m.heap a with next := wrap (now + (s.m.heap a).ms) }
          else { s.m.heap a with cb := none })
      ∧ (∀ a, a ∉ s.m.due now → m'.heap a = s.m.heap a)
      ∧ m'.made = s.m.made ∧ m'.tickled = s.m.tickled
      ∧ m'.previousTime = now := by
  have hinv : s.m.Holds [] :=
    visits_holds h
  have hword := (visits_readings h hnow₀ htyped).previous
  have hout : (s.m.withoutDue now).Holds (s.m.due now) := hinv.takeDue
  obtain ⟨-, hholds, hmade, htick, hrest⟩ :=
    @TimerManager.handOut_spec now _ _ hout
  obtain ⟨hheap, hmade₀, htick₀, hprev⟩ :=
    @TimerManager.withoutDue_same s.m now
  refine ⟨_, fun tmp => ?_, fun a => ?_, hholds.sorted, fun a ha => ?_,
    fun a ha => ?_, hmade.trans hmade₀, htick.trans htick₀,
    TimerManager.handOut_previousTime.trans hprev⟩
  · have hpushed := @TimerManager.handOut_pushed (s.m.withoutDue now) now _
      hout.once
    rw [hheap] at hpushed
    rw [TimerManager.listExpireCB, if_neg hne,
      hinv.collect_due hne hlow hword, ← hpushed, Prod.eta]
  · rw [(hrest a).mem, hinv.mem_withoutDue, hheap]
  · rw [TimerManager.handOut_heap hout.once, if_pos ha, hheap]
    rfl
  · rw [TimerManager.handOut_heap hout.once, if_neg ha, hheap]

/-- Two timers at one time, one earlier and one later, and a recurring one
with period 0; the probe's address lies between. -/
theorem collects_due_equal_times :
    ∃ s, [.op (.addTimer 5 10 (some 1) false 3600000),
        .op (.addTimer 9 10 (some 2) true 3600000),
        .op (.addTimer 7 0 (some 3) true 3600000),
        .op (.addTimer 2 11 (some 4) false 3600000)].foldlM
          TimerThreads.step (new 3600000) = some s
      ∧ ∃ m', (∀ tmp, s.m.listExpireCB 3600010 tmp
          = .ok ([(7, some 3), (5, some 1), (9, some 2)], m'))
        ∧ m'.previousTime = 3600010 := by
  have hrun : ([.op (.addTimer 5 10 (some 1) false 3600000),
      .op (.addTimer 9 10 (some 2) true 3600000),
      .op (.addTimer 7 0 (some 3) true 3600000),
      .op (.addTimer 2 11 (some 4) false 3600000)].foldlM
        TimerThreads.step (new 3600000)).map
        (fun s => (s.m.timers, s.m.previousTime,
          (s.m.due 3600010).map fun a => (a, (s.m.heap a).cb)))
      = some ([7, 5, 9, 2], 3600000,
        [(7, some 3), (5, some 1), (9, some 2)]) := by decide +kernel
  obtain ⟨s, hs, hstate⟩ := Option.map_eq_some_iff.mp hrun
  obtain ⟨hts, hprev, hdue⟩ := Prod.mk.inj hstate |>.imp_right Prod.mk.inj
  obtain ⟨m', hall, -, -, -, -, -, -, hp⟩ := collects_due (visits_last hs)
    (by decide) (by simp [TimerStep.Typed, TimerCall.Typed])
    (by rw [hts]; exact List.cons_ne_nil _ _) (by omega) 3600010
  rw [hdue] at hall
  exact ⟨s, hs, m', hall, hp⟩

end TimerThreads

end TinyServer
