/-
When a timer is handed out before its time.

Deadlines are computed modulo 2^64. A timer of the set always has the
`m_next` that its promise gives modulo 2^64, and the subtraction in
`reset` undoes the wrap of the addition before it, so the start of a
period is never lost (`wrap_back`). A promise below 2^64 is kept: either
`m_next` is the promised time itself or the promised time has passed,
when the timer was handed out before and put back. A promise of 2^64 or
more is broken at the first hand-out, whenever that is.
-/
import TinyServer.Timer.Proofs.Expiry
import TinyServer.Timer.Proofs.LifeCycle

namespace TinyServer

open Lib

/-- The subtraction of a period undoes its addition. -/
theorem wrap_back {start period : Nat} (hs : start < 2 ^ 64)
    (hp : period < 2 ^ 64) :
    wrap (wrap (start + period) + (2 ^ 64 - period)) = start := by
  unfold wrap
  omega

theorem wrap_of_lt {n : Nat} (h : n < 2 ^ 64) : wrap n = n :=
  Nat.mod_eq_of_lt h

/-- A timer of the set is as promised, at the time `clock`. -/
structure Promise.Kept (p : Promise) (t : Timer) (clock : Nat) : Prop where
  ms : t.ms = p.period
  short : p.period < 2 ^ 64
  started : p.start ≤ clock
  next : t.next = wrap (p.start + p.period)
  /-- It has its promised time, or that has passed. -/
  due : p.due < 2 ^ 64 → t.next = p.due ∨ p.due ≤ clock

namespace Promise

variable {p : Promise} {t t' : Timer} {clock clock' : Nat}

theorem Kept.later (h : p.Kept t clock) (hle : clock ≤ clock') :
    p.Kept t clock' :=
  ⟨h.ms, h.short, h.started.trans hle, h.next,
    fun hd => (h.due hd).imp_right hle.trans'⟩

/-- Only the times of a timer matter. -/
theorem Kept.same (h : p.Kept t clock) (hms : t'.ms = t.ms)
    (hnext : t'.next = t.next) : p.Kept t' clock :=
  ⟨hms.trans h.ms, h.short, h.started, hnext.trans h.next,
    fun hd => hnext ▸ h.due hd⟩

/-- A promise just made. -/
theorem kept_new {start period : Nat} (hs : start ≤ clock)
    (hp : period < 2 ^ 64) (hms : t.ms = period)
    (hnext : t.next = wrap (start + period)) :
    Kept ⟨start, period, start + period⟩ t clock :=
  ⟨hms, hp, hs, hnext, fun hd => .inl (hnext.trans (wrap_of_lt hd))⟩

/-- A timer handed out at `now` and put back. -/
theorem Kept.handOut {now : Nat} (h : p.Kept t clock) (hnow : now ≤ clock')
    (hdue : p.due < 2 ^ 64 → p.due ≤ clock')
    (hr : t.recurring = true) :
    Kept { p with start := now } (t.handOut now) clock' := by
  have ht : t.handOut now = { t with next := wrap (now + t.ms) } := by
    rw [Timer.handOut, if_pos hr]
  rw [ht]
  exact ⟨h.ms, h.short, hnow, by rw [h.ms], fun hd => .inr (hdue hd)⟩

end Promise

namespace TimerManager

variable {m m' : TimerManager} {t : Timer}
  {now tmp clock clock' a b : Nat}
  {p : Nat → Promise} {c : TimerCall} {r : TimerRet}

/-- The timers of the set are as promised. -/
def Keeps (m : TimerManager) (p : Nat → Promise) (clock : Nat) : Prop :=
  ∀ b ∈ m.timers, (p b).Kept (m.heap b) clock

/-- What a collection that sees no rollover does to the times. -/
theorem Holds.collect_times (h : m.Holds [])
    {cbs : List (Nat × Option Nat)}
    (hc : m.collect now tmp = .ok (cbs, m')) (hroll : m.rollover now = false)
    (b : Nat) :
    (b ∈ cbs.map Prod.fst → b ∈ m.timers ∧ (m.heap b).next ≤ now
        ∧ m'.heap b = (m.heap b).handOut now)
      ∧ (b ∉ cbs.map Prod.fst → m'.heap b = m.heap b) := by
  rcases collect_cases m now tmp with ⟨-, -, he⟩ | ⟨-, n, ho, hexp⟩
  · rw [he] at hc
    cases hc
  · rw [ho, Except.ok.injEq] at hc
    have hout : Holds (m.timers.take n) { m with
        timers := m.timers.drop n
        previousTime := now } := (h.takeFront n).clock now
    have hcbs := (@handOut_spec now _ _ hout).1
    rw [hc] at hcbs
    obtain rfl : _ = m' := congrArg Prod.snd hc
    rw [hcbs, handOut_heap hout.once]
    refine ⟨fun hb => ?_, fun hb => if_neg hb⟩
    refine ⟨List.mem_of_mem_take hb, ?_, if_pos hb⟩
    rcases hexp with hroll' | hall
    · exact absurd (hroll.symm.trans hroll') Bool.false_ne_true
    · exact hall b hb

/-- A collection hands out on time what was promised below 2^64, and the
timers are as promised after it. -/
theorem Keeps.collect (hk : m.Keeps p clock) (h : m.Holds [])
    {cbs : List (Nat × Option Nat)}
    (hc : m.collect now tmp = .ok (cbs, m')) (hroll : m.rollover now = false)
    (hclock : clock ≤ clock') (hnow : now ≤ clock') :
    (∀ b ∈ cbs.map Prod.fst, (p b).due < 2 ^ 64 → (p b).due ≤ clock')
      ∧ m'.Keeps (fun b => (p b).after b (.listExpireCB now tmp)
          ⟨true, cbs, false⟩) clock' := by
  have htimes := h.collect_times hc hroll
  have hontime : ∀ b ∈ cbs.map Prod.fst, (p b).due < 2 ^ 64 →
      (p b).due ≤ clock' := by
    intro b hb hd
    obtain ⟨hmem, hnext, -⟩ := (htimes b).1 hb
    rcases (hk b hmem).due hd with heq | hle
    · omega
    · omega
  refine ⟨hontime, fun b hb => ?_⟩
  obtain ⟨hrec, hkept, hout⟩ := h.collect_timer hc b
  unfold Promise.after
  by_cases hmem : b ∈ cbs.map Prod.fst
  · obtain ⟨harmed, -, hheap⟩ := (htimes b).1 hmem
    have hr : (m.heap b).recurring = true := by
      by_contra hr
      exact (hout hmem).2 (Bool.eq_false_iff.mpr hr) hb
    simp only [hmem, if_true]
    rw [hheap]
    exact (hk b harmed).handOut hnow (hontime b hmem) hr
  · simp only [hmem, if_false]
    rw [(htimes b).2 hmem]
    exact (hk b ((hkept (.inl hmem)).2.mp hb)).later hclock

theorem Keeps.later (hk : m.Keeps p clock) (hclock : clock ≤ clock') :
    m.Keeps p clock' :=
  fun b hb => (hk b hb).later hclock

/-- The timer `a` gets a new promise, the others keep theirs. -/
theorem Keeps.requeue (hk : m.Keeps p clock) (hclock : clock ≤ clock')
    (ha : a ∈ m.timers) {q : Nat → Promise} (hq : (q a).Kept t clock')
    (hrest : ∀ b, b ≠ a → q b = p b) : (m.requeue a t).Keeps q clock' := by
  intro b hb
  rw [mem_requeue ha] at hb
  have hheap : (m.requeue a t).heap b = if b = a then t else m.heap b := rfl
  rw [hheap]
  by_cases hba : b = a
  · subst hba
    rw [if_pos rfl]
    exact hq
  · rw [if_neg hba, hrest b hba]
    exact (hk b hb).later hclock

theorem Keeps.addTimer (hk : m.Keeps p clock) (hclock : clock ≤ clock')
    {ms : Nat} {cb : Option Nat} {recurring : Bool} (hms : ms < 2 ^ 64)
    (hnow : now ≤ clock') {q : Nat → Promise} (hq : q a = ⟨now, ms, now + ms⟩)
    (hrest : ∀ b, b ≠ a → q b = p b) :
    (m.addTimer a ms cb recurring now).2.Keeps q clock' := by
  intro b hb
  have hmem := mem_insert.mp hb
  have hheap : (m.addTimer a ms cb recurring now).2.heap b = if b = a
      then ⟨ms, wrap (now + ms), cb, recurring⟩ else m.heap b := rfl
  rw [hheap]
  by_cases hba : b = a
  · subst hba
    rw [if_pos rfl, hq]
    exact Promise.kept_new hnow hms rfl rfl
  · rw [if_neg hba, hrest b hba]
    exact (hk b (hmem.resolve_left hba)).later hclock

theorem Keeps.disarm (hk : m.Keeps p clock) (h : m.Holds []) :
    (m.disarm a).Keeps p clock := by
  intro b hb
  have hba : b ≠ a := by
    rintro rfl
    exact h.nodup.not_mem_erase hb
  have hheap : (m.disarm a).heap b = m.heap b := setTimer_heap_ne hba
  rw [hheap]
  exact hk b (List.mem_of_mem_erase hb)

/-- The `m_next` of a `reset` is what it promises. -/
theorem Keeps.resetNext_eq (hk : m.Keeps p clock) (ha : a ∈ m.timers)
    (hclock : clock < 2 ^ 64) {ms : Nat} {fromNow : Bool} :
    m.resetNext a ms fromNow now
      = wrap ((if fromNow then now else (p a).start) + ms) := by
  have hkept := hk a ha
  have hstart : (p a).start < 2 ^ 64 :=
    Nat.lt_of_le_of_lt hkept.started hclock
  unfold resetNext
  rw [hkept.next, hkept.ms, wrap_back hstart hkept.short]

/-- One call, at a time not before the last. -/
theorem Keeps.call (hk : m.Keeps p clock) (h : m.Holds [])
    (hc : m.call c = some (m', r)) (hty : c.Typed)
    (hread : ∀ now, c.reading = some now → now = clock')
    (hclock : clock ≤ clock') (hword : clock' < 2 ^ 64)
    (hprev : m.previousTime ≤ clock') :
    (∀ b ∈ r.handed.map Prod.fst, (p b).due < 2 ^ 64 → (p b).due ≤ clock')
      ∧ m'.Keeps (fun b => (p b).after b c r) clock' := by
  have hnone : ∀ b ∈ ([] : List (Nat × Option Nat)).map Prod.fst,
      (p b).due < 2 ^ 64 → (p b).due ≤ clock' := by
    intro b hb
    cases hb
  cases c with
  | addTimer a ms cb recurring now =>
      obtain rfl : now = clock' := hread now rfl
      simp only [TimerManager.call] at hc
      split at hc
      next => cases hc
      next =>
          cases hc
          refine ⟨hnone, hk.addTimer hclock hty.1 (Nat.le_refl now) ?_ ?_⟩
          · simp [Promise.after]
          · intro b hba
            simp [Promise.after, Ne.symm hba]
  | cancle a =>
      rcases h.cancle (a := a) with ⟨-, he⟩ | ⟨-, -, he⟩
      · simp only [TimerManager.call, he] at hc
        cases hc
        exact ⟨hnone, hk.later hclock⟩
      · simp only [TimerManager.call, he] at hc
        cases hc
        exact ⟨hnone, (hk.disarm h).later hclock⟩
  | refresh a now =>
      obtain rfl : now = clock' := hread now rfl
      have hr : some ((m.refresh a now).2,
          (⟨(m.refresh a now).1, [], false⟩ : TimerRet)) = some (m', r) := hc
      rcases h.refresh (a := a) with ⟨-, he⟩ | ⟨ha, he⟩
      · rw [he] at hr
        cases hr
        refine ⟨hnone, ?_⟩
        simpa [Promise.after] using hk.later hclock
      · rw [he] at hr
        cases hr
        refine ⟨hnone, hk.requeue hclock ha ?_ ?_⟩
        · simp only [Promise.after, decide_true, Bool.and_self, if_true]
          have hkept := hk a ha
          exact Promise.kept_new (Nat.le_refl now) hkept.short hkept.ms
            (by rw [← hkept.ms])
        · intro b hba
          simp [Promise.after, Ne.symm hba]
  | reset a ms fromNow now =>
      have hr : some ((m.reset a ms fromNow now).2.1,
          (⟨(m.reset a ms fromNow now).1, [],
            (m.reset a ms fromNow now).2.2⟩ : TimerRet)) = some (m', r) := hc
      rcases h.reset (a := a) with ⟨-, he⟩ | ⟨-, ha, announced, -, he⟩
      · rw [he] at hr
        cases hr
        refine ⟨hnone, ?_⟩
        simpa [Promise.after] using hk.later hclock
      · rw [he] at hr
        cases hr
        refine ⟨hnone, hk.requeue hclock ha ?_ ?_⟩
        · simp only [Promise.after, decide_true, Bool.and_self, if_true]
          have hstart : (if fromNow then now else (p a).start) ≤ clock' := by
            split
            next hf => exact Nat.le_of_eq (hread now (if_pos hf))
            next => exact (hk a ha).started.trans hclock
          exact Promise.kept_new hstart hty.1 rfl
            (hk.resetNext_eq ha (Nat.lt_of_le_of_lt hclock hword))
        · intro b hba
          simp [Promise.after, Ne.symm hba]
  | getNextTimer now =>
      have hm : (m.getNextTimer now).2 = { m with tickled := true } := by
        rw [getNextTimer]
        simp only
        split <;> rfl
      simp only [TimerManager.call, hm] at hc
      cases hc
      exact ⟨hnone, hk.later hclock⟩
  | listExpireCB now tmp =>
      obtain rfl : now = clock' := hread now rfl
      rcases listExpireCB_cases m now tmp with ⟨-, he⟩ | ⟨-, cbs, m₁, hm, he⟩
      · simp only [TimerManager.call, he] at hc
        cases hc
        refine ⟨hnone, ?_⟩
        simpa [Promise.after] using hk.later hclock
      · simp only [TimerManager.call, he] at hc
        cases hc
        have hroll : m.rollover now = false := by
          simp only [rollover, detectClockRollover, Bool.and_eq_false_imp,
            decide_eq_true_eq]
          omega
        exact hk.collect h hm hroll hclock (Nat.le_refl now)

end TimerManager

namespace TimerWatch

variable {w w' : TimerWatch} {i : TimerStep} {c : TimerCall} {r : TimerRet}

/-- What holds in every state of a run in which no reading is stale. -/
structure Sound (w : TimerWatch) : Prop where
  holds : w.s.m.Holds []
  readings : w.s.Readings (· ≤ w.clock)
  word : w.clock < 2 ^ 64
  keeps : w.s.m.Keeps w.promise w.clock

theorem new_sound {now : Nat} (h : now < 2 ^ 64) : (new now).Sound where
  holds := TimerManager.new_holds now
  readings := ⟨Nat.le_refl now, fun t u ht => by cases ht⟩
  word := h
  keeps := fun b hb => by cases hb

/-- What a step does to the clock. -/
theorem step_clock (hs : w.step i = some w') :
    w.s.step i = some w'.s ∧ w'.promise = w.promised i
      ∧ w.clock ≤ w'.clock
      ∧ (∀ now, i.reading = some now → now = w'.clock)
      ∧ (i.reading = none → w'.clock = w.clock) := by
  unfold step at hs
  split at hs
  next hread =>
      obtain ⟨s, hstep, rfl⟩ := Option.map_eq_some_iff.mp hs
      refine ⟨hstep, rfl, Nat.le_refl _, fun now hn => ?_, fun _ => rfl⟩
      rw [hread] at hn
      cases hn
  next now hread =>
      split at hs
      next => cases hs
      next hle =>
          obtain ⟨s, hstep, rfl⟩ := Option.map_eq_some_iff.mp hs
          refine ⟨hstep, rfl, Nat.not_lt.mp hle, fun u hn => ?_,
            fun hn => ?_⟩
          · rw [hread] at hn
            cases hn
            rfl
          · rw [hread] at hn
            cases hn

theorem step_word (h : w.clock < 2 ^ 64) (hty : i.Typed)
    (hs : w.step i = some w') : w'.clock < 2 ^ 64 := by
  obtain ⟨-, -, -, hread, hnone⟩ := step_clock hs
  cases hr : i.reading with
  | none => exact (hnone hr).symm ▸ h
  | some now => exact hread now hr ▸ hty.reading hr

/-- A step that is not stale hands out on time what was promised below
2^64, and keeps the promises. -/
theorem Sound.step (h : w.Sound) (hty : i.Typed) (hfresh : ¬ w.Stale i)
    (hs : w.step i = some w') :
    (∀ c r, w.s.performs i = some (c, r) →
        ∀ b ∈ r.timers, (w.promise b).due < 2 ^ 64 →
          (w.promise b).due ≤ w'.clock)
      ∧ w'.Sound := by
  obtain ⟨hstep, hpromise, hclock, hread, -⟩ := step_clock hs
  have hword : w'.clock < 2 ^ 64 := step_word h.word hty hs
  have hholds : w'.s.m.Holds [] := TimerThreads.step_holds h.holds hstep
  have hreadings : w'.s.Readings (· ≤ w'.clock) := by
    apply (h.readings.mono fun now hn => hn.trans hclock).step h.holds _ hstep
    exact fun now hn => Nat.le_of_eq (hread now hn)
  rcases TimerThreads.step_cases hstep with ⟨c, m, r, rfl, hc, hw⟩ |
    ⟨t, now, rfl, htest⟩ | ⟨t, tmp, now, cbs, m, rfl, ht, hm, hw⟩
  · have hperf : w.s.performs (.op c) = some (c, r) := by
      rw [TimerThreads.performs, hc]
      rfl
    obtain ⟨hout, hkeeps⟩ := h.keeps.call h.holds hc hty hread hclock hword
      (h.readings.previous.trans hclock)
    refine ⟨fun c' r' hp => ?_, hholds, hreadings, hword, ?_⟩
    · rw [hperf] at hp
      cases hp
      exact hout
    · rw [hpromise, hw, promised, hperf]
      exact hkeeps
  · have hperf : w.s.performs (.test t now) = none := rfl
    refine ⟨fun c' r' hp => ?_, hholds, hreadings, hword, ?_⟩
    · rw [hperf] at hp
      cases hp
    · have hm : w'.s.m = w.s.m := by
        rcases htest with heq | ⟨-, heq⟩
        · rw [heq]
        · rw [heq]
          rfl
      rw [hpromise, promised, hperf, hm]
      exact h.keeps.later hclock
  · have hperf : w.s.performs (.collect t tmp)
        = some (.listExpireCB now tmp, ⟨true, cbs, false⟩) := by
      rw [TimerThreads.performs, ht]
      simp only [hm]
    have hroll : w.s.m.rollover now = false :=
      Bool.eq_false_iff.mpr fun hr => hfresh ⟨now, ht, hr⟩
    obtain ⟨hout, hkeeps⟩ := h.keeps.collect h.holds hm hroll hclock
      ((h.readings.tested t now ht).trans hclock)
    refine ⟨fun c' r' hp => ?_, hholds, hreadings, hword, ?_⟩
    · rw [hperf] at hp
      cases hp
      exact hout
    · rw [hpromise, hw, promised, hperf]
      exact hkeeps

/-- In every run at a clock that does not go back and in which no thread
collects with a reading more than an hour old: a timer is handed out on
time exactly if its deadline, in unbounded numbers, is below 2^64. -/
theorem on_time_iff {now₀ : Nat} {is : List TimerStep}
    (hnow₀ : now₀ < 2 ^ 64) (htyped : ∀ i ∈ is, i.Typed)
    (hfresh : ∀ w i, Takes step (new now₀) is w i → ¬ w.Stale i)
    (htakes : Takes step (new now₀) is w i) (hs : w.step i = some w')
    (hperf : w.s.performs i = some (c, r)) :
    ∀ b ∈ r.timers, (w.promise b).due ≤ w'.clock
      ↔ (w.promise b).due < 2 ^ 64 := by
  have hsound : w.Sound := by
    apply visits_inv _ (new_sound hnow₀)
      (fun w i ht => And.intro (htyped i ht.mem) (hfresh w i ht))
      htakes.visits
    intro w i w' hw hok hs
    exact (hw.step hok.1 hok.2 hs).2
  have hty : i.Typed := htyped i htakes.mem
  intro b hb
  constructor
  · intro hle
    exact Nat.lt_of_le_of_lt hle (step_word hsound.word hty hs)
  · intro hlt
    exact (hsound.step hty (hfresh w i htakes) hs).1 c r hperf b hb hlt

/-- A timer of period 10, due at its second collection. -/
theorem on_time_iff_one_timer :
    ∃ w w', ∃ r : TimerRet, [.op (.addTimer 1 10 (some 1) false 1000),
        .op (.listExpireCB 1009 0)].foldlM step (new 1000) = some w
      ∧ w.step (.op (.listExpireCB 1010 0)) = some w'
      ∧ r.timers = [1]
      ∧ ∀ b ∈ r.timers, (w.promise b).due ≤ w'.clock
        ↔ (w.promise b).due < 2 ^ 64 := by
  have hrun : (([.op (.addTimer 1 10 (some 1) false 1000),
      .op (.listExpireCB 1009 0)].foldlM step (new 1000)).bind fun w =>
        (w.step (.op (.listExpireCB 1010 0))).bind fun _ =>
          (w.s.performs (.op (.listExpireCB 1010 0))).map fun (_, r) =>
            r.timers) = some [1] := by decide
  obtain ⟨w, hw, hrest⟩ := Option.bind_eq_some_iff.mp hrun
  obtain ⟨w', hs, hrest⟩ := Option.bind_eq_some_iff.mp hrest
  obtain ⟨⟨c, r⟩, hperf, hr⟩ := Option.map_eq_some_iff.mp hrest
  refine ⟨w, w', r, hw, hs, hr, ?_⟩
  have htakes : Takes step (new 1000)
      [.op (.addTimer 1 10 (some 1) false 1000), .op (.listExpireCB 1009 0),
        .op (.listExpireCB 1010 0)] w (.op (.listExpireCB 1010 0)) :=
    ⟨_, [], rfl, hw⟩
  refine on_time_iff (by decide) ?_ ?_ htakes hs hperf
  · simp [TimerStep.Typed, TimerCall.Typed]
  · intro w i ht
    have hi := ht.mem
    simp only [List.mem_cons, List.not_mem_nil, or_false] at hi
    rcases hi with rfl | rfl | rfl
    all_goals exact id

/-- A period of -2 as a `uint64_t`: the deadline wraps to the time before,
and the timer is handed out in the millisecond it is added. -/
theorem early_hand_out :
    ∃ w w', [.op (.addTimer 1 (2 ^ 64 - 2) (some 1) false 1000)].foldlM
          step (new 1000) = some w
      ∧ w.step (.op (.listExpireCB 1000 0)) = some w'
      ∧ (∃ r, w.s.performs (.op (.listExpireCB 1000 0))
          = some (.listExpireCB 1000 0, r) ∧ r.timers = [1])
      ∧ (w.promise 1).due = 1000 + (2 ^ 64 - 2) ∧ w'.clock = 1000 := by
  have hrun : (([.op (.addTimer 1 (2 ^ 64 - 2) (some 1) false 1000)].foldlM
      step (new 1000)).bind fun w =>
        (w.step (.op (.listExpireCB 1000 0))).bind fun w' =>
          (w.s.performs (.op (.listExpireCB 1000 0))).map fun (c, r) =>
            (c, r.timers, (w.promise 1).due, w'.clock))
      = some (.listExpireCB 1000 0, [1], 1000 + (2 ^ 64 - 2), 1000) := by
    decide +kernel
  obtain ⟨w, hw, hrest⟩ := Option.bind_eq_some_iff.mp hrun
  obtain ⟨w', hs, hrest⟩ := Option.bind_eq_some_iff.mp hrest
  obtain ⟨⟨c, r⟩, hperf, hr⟩ := Option.map_eq_some_iff.mp hrest
  simp only [Prod.mk.injEq] at hr
  obtain ⟨rfl, hr, hdue, hclock⟩ := hr
  exact ⟨w, w', hw, hs, ⟨r, hperf, hr⟩, hdue, hclock⟩

end TimerWatch

end TinyServer
