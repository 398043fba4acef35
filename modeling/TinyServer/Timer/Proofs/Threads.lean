/-
Several threads in `listExpireCB`.

# The collection

`listExpireCB` looks at the first timer in a section that does not test
again whether there is one. `Safe` is that no thread on its way to that
section would find the set empty. A set that another thread has tested
can be emptied in two ways: a `cancle` of the only timer, and a
collection that hands out every timer and keeps none. `Overlaps` is such
a step while another thread is between its two sections.

# The announcement

`m_tickled` is to hold the announcements back until the waiting side has
seen one. `getNextTimer` is the call of the waiting side, but it sets the
flag, and nothing clears it: after the first `getNextTimer` no insertion
is announced (`tickled_mono`, `not_announces`).
-/
import TinyServer.Timer.Proofs.Inv

namespace TinyServer

open Lib

namespace TimerManager

variable {m m' : TimerManager} {now tmp : Nat}

/-- A collection at `now` hands out every timer and puts none back. -/
def Drains (m : TimerManager) (now : Nat) : Prop :=
  (m.rollover now = true ∨ ∀ a ∈ m.timers, (m.heap a).next ≤ now)
    ∧ ∀ a ∈ m.timers, (m.heap a).recurring = false

theorem Holds.drains (h : m.Holds []) {cbs : List (Nat × Option Nat)}
    (hc : m.collect now tmp = .ok (cbs, m')) (hnil : m'.timers = []) :
    m.Drains now := by
  rcases collect_cases m now tmp with ⟨-, -, he⟩ | ⟨-, n, ho, hexp⟩
  · rw [he] at hc
    cases hc
  · rw [ho, Except.ok.injEq] at hc
    obtain ⟨-, -, -, -, hrest⟩ := handOut_spec _ ((h.takeFront n).clock now)
    rw [hc] at hrest
    have hout : ∀ b, ¬ (b ∈ m.timers.drop n
        ∨ (b ∈ m.timers.take n ∧ (m.heap b).recurring = true)) := by
      intro b hb
      have hb' := (hrest b).mem.mpr hb
      rw [hnil] at hb'
      cases hb'
    have hall : m.timers.take n = m.timers := by
      have hdrop : m.timers.drop n = [] := by
        refine List.eq_nil_iff_forall_not_mem.mpr fun b hb => ?_
        exact hout b (.inl hb)
      have hsplit := List.take_append_drop n m.timers
      rw [hdrop, List.append_nil] at hsplit
      exact hsplit
    rw [hall] at hexp
    refine ⟨hexp, fun a ha => Bool.eq_false_iff.mpr fun hr => ?_⟩
    exact hout a (.inr ⟨hall.symm ▸ ha, hr⟩)

end TimerManager

namespace TimerThreads

variable {s s' : TimerThreads} {i : TimerStep}

-- ============================================================ the collection

/-- No thread that has tested would dereference `end()` now. -/
def Safe (s : TimerThreads) : Prop :=
  ∀ t now tmp, s.tested t = some now →
    s.m.collect now tmp ≠ .error .derefEnd

/-- The step leaves `m_timers` empty. -/
def Empties (s : TimerThreads) : TimerStep → Prop
  | .op (.cancle a) => (s.m.heap a).cb ≠ none ∧ s.m.timers = [a]
  | .op (.listExpireCB now _) => s.m.Drains now
  | .collect t _ => ∃ now, s.tested t = some now ∧ s.m.Drains now
  | _ => False

/-- The step leaves `m_timers` empty while another thread is between its
emptiness test and its collection. -/
def Overlaps (s : TimerThreads) (i : TimerStep) : Prop :=
  s.Empties i ∧ ∃ u, s.tested u ≠ none ∧ ∀ tmp, i ≠ .collect u tmp

/-- While a thread is between its sections there is a timer. -/
private def Filled (s : TimerThreads) : Prop :=
  s.m.Holds [] ∧ ∀ u, s.tested u ≠ none → s.m.timers ≠ []

private theorem Filled.safe (h : s.Filled) : s.Safe := by
  intro t now tmp ht he
  rcases TimerManager.collect_cases s.m now tmp with ⟨hnil, -⟩ | ⟨-, n, ho, -⟩
  · exact h.2 t (by rw [ht]; exact Option.some_ne_none now) hnil
  · rw [ho] at he
    cases he

private theorem op_filled (h : s.Filled) {c : TimerCall}
    {m : TimerManager} {r : TimerRet}
    (hd : TimerManager.Did s.m c m r) (hno : ¬ s.Overlaps (.op c)) :
    Filled { s with m := m } := by
  refine ⟨h.1.did hd, fun u hu => ?_⟩
  have hne : s.m.timers ≠ [] := h.2 u hu
  have hempties : ¬ s.Empties (.op c) := fun he =>
    hno ⟨he, u, hu, fun _ => TimerStep.noConfusion⟩
  cases hd with
  | @added a ms cb recurring now =>
      have hmem : a ∈ (s.m.addTimer a ms cb recurring now).2.timers :=
        TimerManager.mem_insert.mpr (.inl rfl)
      exact List.ne_nil_of_mem hmem
  | refused => exact hne
  | @cancelled a hcb ha =>
      intro hnil
      refine hempties ⟨hcb, ?_⟩
      rcases List.erase_eq_nil_iff.mp hnil with hts | hts
      · exact absurd hts hne
      · exact hts
  | requeued _ _ ha =>
      exact List.ne_nil_of_mem ((TimerManager.mem_requeue ha).mpr ha)
  | asked => exact hne
  | idle => exact hne
  | collected hm => exact fun hnil => hempties (h.1.drains hm hnil)

private theorem step_filled (h : s.Filled) (hno : ¬ s.Overlaps i)
    (hs : s.step i = some s') : s'.Filled := by
  have hholds := step_holds h.1 hs
  rcases step_cases hs with ⟨c, m, r, rfl, hc, rfl⟩ | ⟨t, now, -, htest⟩ |
    ⟨t, tmp, now, cbs, m, rfl, ht, hm, rfl⟩
  · exact op_filled h (h.1.call_did hc) hno
  · rcases htest with rfl | ⟨hne, rfl⟩
    · exact h
    · exact ⟨hholds, fun _ _ => hne⟩
  · refine ⟨hholds, fun u hu hnil => ?_⟩
    by_cases hut : u = t
    · exact hu (if_pos hut)
    · have hu' : s.tested u ≠ none := by
        simpa only [setTested, hut, if_false] using hu
      refine hno ⟨⟨now, ht, h.1.drains hm hnil⟩, u, hu', ?_⟩
      intro tmp' heq
      exact hut (TimerStep.collect.inj heq).1.symm

/-- In a run in which `m_timers` is never emptied while another thread is
between its emptiness test and its collection, no collection finds it
empty. -/
theorem collection_safe {now₀ : Nat} {is : List TimerStep}
    (hno : ∀ s i, Takes step (new now₀) is s i → ¬ s.Overlaps i)
    {s : TimerThreads} (h : Visits step (new now₀) is s) : s.Safe := by
  have hnew : (new now₀).Filled :=
    ⟨TimerManager.new_holds now₀, fun u hu => absurd rfl hu⟩
  exact (visits_inv step_filled hnew hno h).safe

/-- Two timers, one of them cancelled while a thread is on its way to
collect. -/
def oneLeft : List TimerStep :=
  [.op (.addTimer 1 10 (some 1) false 0),
    .op (.addTimer 2 10 (some 2) false 0), .test 0 10, .op (.cancle 1)]

theorem collection_safe_one_left :
    ∃ s, oneLeft.foldlM step (new 0) = some s
      ∧ s.tested 0 = some 10 ∧ s.Safe := by
  obtain ⟨s, hs⟩ := Option.isSome_iff_exists.mp
    (show (oneLeft.foldlM step (new 0)).isSome = true by decide)
  have hno : ∀ s i, Takes step (new 0) oneLeft s i → ¬ s.Overlaps i := by
    intro t i ht hsome
    obtain ⟨hempties, -⟩ := hsome
    have hok := takes_of_checks (fun t i =>
      i ≠ .op (.cancle 1) || t.m.timers ≠ [1]) (by decide) ht
    have hmem := ht.mem
    simp only [oneLeft, List.mem_cons, List.not_mem_nil, or_false] at hmem
    rcases hmem with rfl | rfl | rfl | rfl
    · exact hempties
    · exact hempties
    · exact hempties
    · simp only [hempties.2] at hok
      cases hok
  refine ⟨s, hs, ?_, collection_safe hno (visits_last hs)⟩
  have ht := congrArg (Option.map fun s => s.tested 0) hs
  exact (Option.some.inj ht).symm

/-- The only timer is cancelled while a thread is on its way to collect:
that thread dereferences `end()`. -/
theorem cancle_between_sections :
    ¬ ∀ (now₀ : Nat) (is : List TimerStep) (s : TimerThreads),
      Visits step (new now₀) is s → s.Safe := by
  intro hall
  obtain ⟨s, hs⟩ := Option.isSome_iff_exists.mp (show
    ([.op (.addTimer 1 10 (some 1) false 0), .test 0 5,
      .op (.cancle 1)].foldlM step (new 0)).isSome = true by decide)
  have hsafe := hall 0 _ s (visits_last hs)
  have ht := congrArg (Option.map fun s => s.tested 0) hs
  have hts := congrArg (Option.map fun s => s.m.timers) hs
  have hprev := congrArg (Option.map fun s => s.m.previousTime) hs
  have ht' : s.tested 0 = some 5 := (Option.some.inj ht).symm
  have hts' : s.m.timers = [] := (Option.some.inj hts).symm
  have hprev' : s.m.previousTime = 0 := (Option.some.inj hprev).symm
  refine hsafe 0 5 99 ht' ?_
  simp [TimerManager.collect, TimerManager.detectClockRollover, hts', hprev']

end TimerThreads

-- ========================================================== the announcement

/-- The timer that a call puts into `m_timers` through the function that
announces. -/
def TimerCall.inserted : TimerCall → Option Nat
  | .addTimer a _ _ _ _ => some a
  | .reset a _ _ _ => some a
  | _ => none

namespace TimerManager

variable {m m' : TimerManager} {a : Nat} {c : TimerCall} {r : TimerRet}

/-- A timer `a` that is due at `next` comes before all others. -/
def Leads (m : TimerManager) (a next : Nat) : Prop :=
  ∀ b ∈ m.timers, b ≠ a →
    next < (m.heap b).next ∨ (next = (m.heap b).next ∧ a < b)

/-- The call is an `addTimer`, or a `reset` that is not refused, of a
timer that is then due before all others. -/
def PutsFirst (m : TimerManager) : TimerCall → Prop
  | .addTimer a ms _ _ now => m.Leads a (wrap (now + ms))
  | .reset a ms fromNow now =>
      ¬ m.Refuses a ms fromNow ∧ m.Leads a (m.resetNext a ms fromNow now)
  | _ => False

theorem compare_setTimer {t : Timer} {b : Nat} (hb : b ≠ a) :
    compare (m.setTimer a t).heap a b = true
      ↔ t.next < (m.heap b).next ∨ (t.next = (m.heap b).next ∧ a < b) := by
  rw [compare, setTimer_heap_self, setTimer_heap_ne hb]
  simp only [Bool.if_true_left, Bool.if_false_left, Bool.or_eq_true,
    Bool.and_eq_true, Bool.not_eq_true', decide_eq_true_eq,
    decide_eq_false_iff_not]
  omega

/-- When a timer in hand is put in, it comes first if it leads. -/
theorem Holds.head_putIn {t : Timer} (h : m.Holds [a]) :
    ((m.setTimer a t).insert a).timers.head? = some a
      ↔ m.Leads a t.next := by
  refine (head_setInsert (compare_strictTotal _) (h.write t).sorted).trans ?_
  refine forall₂_congr fun b _ => ?_
  exact forall_congr' fun hb => compare_setTimer hb

theorem Holds.head_requeue (h : m.Holds []) (ha : a ∈ m.timers) {t : Timer} :
    (m.requeue a t).timers.head? = some a ↔ m.Leads a t.next := by
  refine (h.takeOut ha).head_putIn.trans (forall_congr' fun b => ?_)
  refine ⟨fun hb hm hne => ?_, fun hb hm hne => ?_⟩
  · exact hb ((List.mem_erase_of_ne hne).mpr hm) hne
  · exact hb (List.mem_of_mem_erase hm) hne

/-- The calls after which the timer they insert is the first. -/
theorem Holds.putsFirst_iff (h : m.Holds []) (hc : m.call c = some (m', r)) :
    (∃ a, c.inserted = some a ∧ r.flag = true ∧ m'.timers.head? = some a)
      ↔ m.PutsFirst c := by
  cases c with
  | addTimer a ms cb recurring now =>
      simp only [call] at hc
      split at hc
      next => cases hc
      next hnew =>
          cases hc
          have hhead := (h.make hnew).head_putIn (t :=
            ⟨ms, wrap (now + ms), cb, recurring⟩)
          constructor
          · intro hsome
            obtain ⟨b, hb, -, hfirst⟩ := hsome
            cases hb
            exact hhead.mp hfirst
          · exact fun hlead => ⟨a, rfl, rfl, hhead.mpr hlead⟩
  | reset a ms fromNow now =>
      have hr : some ((m.reset a ms fromNow now).2.1,
          (⟨(m.reset a ms fromNow now).1, [],
            (m.reset a ms fromNow now).2.2⟩ : TimerRet)) = some (m', r) := hc
      rcases h.reset (a := a) with ⟨href, he⟩ | ⟨href, ha, announced, -, he⟩
      · rw [he] at hr
        cases hr
        refine iff_of_false ?_ (fun hput => hput.1 href)
        intro hsome
        obtain ⟨b, -, hflag, -⟩ := hsome
        cases hflag
      · rw [he] at hr
        cases hr
        have hhead := h.head_requeue ha (t := { m.heap a with
          ms := ms
          next := m.resetNext a ms fromNow now })
        constructor
        · intro hsome
          obtain ⟨b, hb, -, hfirst⟩ := hsome
          cases hb
          exact ⟨href, hhead.mp hfirst⟩
        · exact fun hput => ⟨a, rfl, rfl, hhead.mpr hput.2⟩
  | cancle | refresh | getNextTimer | listExpireCB =>
      refine iff_of_false ?_ id
      intro hsome
      obtain ⟨a, ha, -⟩ := hsome
      cases ha

/-- Once set, the flag stays set and nothing is announced. -/
theorem Holds.tickled (h : m.Holds []) (hd : Did m c m' r)
    (ht : m.tickled = true) : m'.tickled = true ∧ r.announced = false := by
  cases hd with
  | added _ =>
      refine ⟨?_, ?_⟩
      · show (m.tickled || _) = true
        rw [ht, Bool.true_or]
      · show (_ && !m.tickled) = false
        rw [ht, Bool.not_true, Bool.and_false]
  | refused _ => exact ⟨ht, rfl⟩
  | cancelled _ _ => exact ⟨ht, rfl⟩
  | requeued _ _ _ _ _ htick =>
      refine ⟨?_, htick ht⟩
      show (m.tickled || _) = true
      rw [ht, Bool.true_or]
  | asked => exact ⟨rfl, rfl⟩
  | idle => exact ⟨ht, rfl⟩
  | collected hm => exact ⟨(h.collect hm).2.2.1.trans ht, rfl⟩

end TimerManager

namespace TimerThreads

variable {s s' s₁ : TimerThreads} {i : TimerStep} {now₀ : Nat}
  {is mid : List TimerStep}

/-- The step calls `onTimerInsertAtFront`. -/
def Announces (s : TimerThreads) (i : TimerStep) : Prop :=
  ∃ c m r, i = .op c ∧ s.m.call c = some (m, r) ∧ r.announced = true

/-- The step is an `addTimer` or `reset` that inserts a timer, which is
then the first of `m_timers`. -/
def InsertsFirst (s : TimerThreads) (i : TimerStep) : Prop :=
  ∃ c m r, i = .op c ∧ s.m.call c = some (m, r)
    ∧ ∃ a, c.inserted = some a ∧ r.flag = true ∧ m.timers.head? = some a

/-- The run over `is` calls `getNextTimer`, which leaves `s₁`, and after
the steps `mid` takes the step `i` in the state `s`. -/
def Since (now₀ : Nat) (is : List TimerStep) (s₁ : TimerThreads)
    (mid : List TimerStep) (s : TimerThreads) (i : TimerStep) : Prop :=
  ∃ pre now post,
    is = pre ++ TimerStep.op (.getNextTimer now) :: (mid ++ i :: post)
    ∧ (pre ++ [TimerStep.op (.getNextTimer now)]).foldlM step (new now₀)
         = some s₁
    ∧ mid.foldlM step s₁ = some s

/-- Whenever a timer becomes the first after a `getNextTimer`,
`onTimerInsertAtFront` is called in between or by that insertion. -/
def AnnouncesFirst (now₀ : Nat) (is : List TimerStep) : Prop :=
  ∀ s₁ mid s i, Since now₀ is s₁ mid s i → s.InsertsFirst i →
    ∃ u j, Takes step s₁ (mid ++ [i]) u j ∧ u.Announces j

/-- The manager is in order and the flag is set. -/
private def Tickled (s : TimerThreads) : Prop :=
  s.m.Holds [] ∧ s.m.tickled = true

private theorem step_tickled (h : s.Tickled) (hs : s.step i = some s') :
    s'.Tickled := by
  refine ⟨step_holds h.1 hs, ?_⟩
  rcases step_cases hs with ⟨c, m, r, -, hc, rfl⟩ | ⟨t, now, -, htest⟩ |
    ⟨t, tmp, now, cbs, m, -, -, hm, rfl⟩
  · exact (h.1.tickled (h.1.call_did hc) h.2).1
  · rcases htest with rfl | ⟨-, rfl⟩
    · exact h.2
    · exact h.2
  · exact (h.1.collect hm).2.2.1.trans h.2

private theorem Tickled.not_announces (h : s.Tickled) : ¬ s.Announces i := by
  intro hsome
  obtain ⟨c, m, r, -, hc, hann⟩ := hsome
  have hquiet := (h.1.tickled (h.1.call_did hc) h.2).2
  exact absurd (hann.symm.trans hquiet) (by decide)

private theorem since_tickled (h : Since now₀ is s₁ mid s i) :
    s₁.Tickled := by
  obtain ⟨pre, now, post, -, hs₁, -⟩ := h
  obtain ⟨s₀, hpre, hlast⟩ := run_append.mp hs₁
  obtain ⟨s₂, hstep, hnil⟩ := run_cons.mp hlast
  cases hnil
  have hholds : s₀.m.Holds [] :=
    run_inv (P := fun s => s.m.Holds []) step_holds pre
      (TimerManager.new_holds now₀) hpre
  refine ⟨step_holds hholds hstep, ?_⟩
  rcases step_cases hstep with ⟨c, m, r, hc, hcall, rfl⟩ | ⟨t, n, hc, -⟩ |
    ⟨t, tmp, n, cbs, m, hc, -⟩
  · cases hc
    cases hholds.call_did hcall with
    | asked => rfl
    | refused hno => cases hno
    | requeued hno => cases hno
  · cases hc
  · cases hc

/-- A run announces every new first timer if and only if no `addTimer` or
`reset` after a `getNextTimer` makes a timer the first: after a
`getNextTimer` nothing is announced. -/
theorem announces_first_iff {s : TimerThreads}
    (hrun : is.foldlM step (new now₀) = some s) :
    AnnouncesFirst now₀ is
      ↔ ∀ s₁ mid s c, Since now₀ is s₁ mid s (.op c) → ¬ s.m.PutsFirst c := by
  constructor
  · intro hall s₁ mid s c hsince hput
    have ht := since_tickled hsince
    obtain ⟨pre, now, post, rfl, hs₁, hs⟩ := id hsince
    have hts : s.Tickled := run_inv step_tickled mid ht hs
    -- the run goes on with the call
    obtain ⟨m, r, hc⟩ : ∃ m r, s.m.call c = some (m, r) := by
      have hpre : ((pre ++ [TimerStep.op (.getNextTimer now)]) ++ mid).foldlM
          step (new now₀) = some s := run_append.mpr ⟨s₁, hs₁, hs⟩
      rw [← List.singleton_append, ← List.append_assoc,
        ← List.append_assoc] at hrun
      obtain ⟨v, hv⟩ := run_next hrun hpre
      rcases step_cases hv with ⟨c', m, r, hc, hcall, -⟩ | ⟨_, _, hc, -⟩ |
        ⟨_, _, _, _, _, hc, -⟩
      · cases hc
        exact ⟨m, r, hcall⟩
      · cases hc
      · cases hc
    have hfirst : s.InsertsFirst (.op c) :=
      ⟨c, m, r, rfl, hc, (hts.1.putsFirst_iff hc).mpr hput⟩
    obtain ⟨u, j, ⟨p, q, -, hu⟩, hann⟩ := hall s₁ mid s _ hsince hfirst
    exact (run_inv step_tickled p ht hu).not_announces hann
  · intro hno s₁ mid s i hsince hsome
    obtain ⟨c, m, r, rfl, hc, hins⟩ := hsome
    have ht := since_tickled hsince
    obtain ⟨pre, now, post, rfl, hs₁, hs⟩ := id hsince
    have hts : s.Tickled := run_inv step_tickled mid ht hs
    exact absurd ((hts.1.putsFirst_iff hc).mp hins) (hno s₁ mid s c hsince)

/-- A later timer after a `getNextTimer`: nothing has to be announced. -/
def laterTimer : List TimerStep :=
  [.op (.addTimer 1 10 (some 1) false 0), .op (.getNextTimer 0),
    .op (.addTimer 2 20 (some 2) false 0)]

theorem announces_first_iff_later_timer : AnnouncesFirst 0 laterTimer := by
  obtain ⟨s, hs⟩ := Option.isSome_iff_exists.mp
    (show (laterTimer.foldlM step (new 0)).isSome = true by decide)
  refine (announces_first_iff hs).mpr ?_
  intro s₁ mid t c hsome hput
  obtain ⟨pre, now, post, hops, hs₁, ht⟩ := hsome
  rcases pre with _ | ⟨x, _ | ⟨y, _ | ⟨z, pre⟩⟩⟩
  · cases hops
  · rcases mid with _ | ⟨w, mid⟩
    · cases hops
      cases ht
      have hts := congrArg (Option.map fun s => s.m.timers) hs₁
      have hnext := congrArg (Option.map fun s => (s.m.heap 1).next) hs₁
      have hts' : s₁.m.timers = [1] := (Option.some.inj hts).symm
      have hnext' : (s₁.m.heap 1).next = 10 := (Option.some.inj hnext).symm
      have hlead := hput 1 (by rw [hts']; exact List.mem_cons_self)
        (by decide)
      rw [hnext'] at hlead
      exact absurd hlead (by decide)
    · cases mid <;> cases hops
  · cases hops
  · cases pre <;> cases hops

/-- A timer added after a `getNextTimer` becomes the first and is not
announced. -/
theorem first_timer_not_announced :
    ¬ ∀ (now₀ : Nat) (is : List TimerStep) (s : TimerThreads),
      is.foldlM step (new now₀) = some s → AnnouncesFirst now₀ is := by
  intro hall
  obtain ⟨s, hs⟩ := Option.isSome_iff_exists.mp (show
    ([.op (.getNextTimer 0), .op (.addTimer 1 10 (some 1) false 0)].foldlM
      step (new 0)).isSome = true by decide)
  obtain ⟨s₁, hs₁, hlast⟩ := run_cons.mp hs
  obtain ⟨s₂, hs₂, -⟩ := run_cons.mp hlast
  have hsince : Since 0 [.op (.getNextTimer 0),
      .op (.addTimer 1 10 (some 1) false 0)] s₁ [] s₁
      (.op (.addTimer 1 10 (some 1) false 0)) :=
    ⟨[], 0, [], rfl, run_cons.mpr ⟨s₁, hs₁, rfl⟩, rfl⟩
  have ht := since_tickled hsince
  have hfirst : s₁.InsertsFirst (.op (.addTimer 1 10 (some 1) false 0)) := by
    cases hs₁
    exact ⟨_, _, _, rfl, rfl, 1, rfl, rfl, rfl⟩
  obtain ⟨u, j, ⟨p, q, -, hu⟩, hann⟩ := hall 0 _ s hs s₁ [] s₁ _ hsince hfirst
  exact (run_inv step_tickled p ht hu).not_announces hann

end TimerThreads

end TinyServer
