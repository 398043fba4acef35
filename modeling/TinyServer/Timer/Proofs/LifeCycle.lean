/-
The life of a timer over a run of calls.

A timer is armed while it is in `m_timers`. `Fate` says what one call can
do to a timer: nothing that matters, make it, cancel it, hand it out and
keep it armed (a recurring timer), or hand it out for the last time (a
one-shot). What is out of the set has no callback, so no call brings it
back.

`Recorded` ties the record of a run to the state it has reached, and is
what a call preserves; the life cycle is read off it.
-/
import TinyServer.Timer.Proofs.Inv

namespace TinyServer

open Lib

/-- The timers that a call handed out. -/
def TimerRet.timers (r : TimerRet) : List Nat := r.handed.map Prod.fst

namespace TimerManager

variable {m m' : TimerManager} {c : TimerCall} {r : TimerRet} {b : Nat}

/-- What a call can do to the timer `b`. -/
inductive Fate (m m' : TimerManager) (c : TimerCall) (r : TimerRet)
    (b : Nat) : Prop where
  /-- It is as armed as before and is not handed out; a call on a timer
  that is not armed returns false and changes nothing. -/
  | unchanged (hout : b ∉ r.timers) (hmade : b ∈ m'.made ↔ b ∈ m.made)
      (harmed : b ∈ m'.timers ↔ b ∈ m.timers)
      (hkept : (m'.heap b).cb = (m.heap b).cb
        ∧ (m'.heap b).recurring = (m.heap b).recurring)
      (hadd : ∀ ms cb recurring now, c ≠ .addTimer b ms cb recurring now)
      (hcall : c.timer = some b →
        (r.flag = false ∧ m' = m) ∨ (b ∈ m.timers ∧ c ≠ .cancle b))
  | made (ms : Nat) (cb : Option Nat) (recurring : Bool) (now : Nat)
      (hc : c = .addTimer b ms cb recurring now) (hnew : b ∉ m.made)
      (hout : b ∉ r.timers) (hmade : b ∈ m'.made) (harmed : b ∈ m'.timers)
      (hcb : (m'.heap b).cb = cb)
      (hrec : (m'.heap b).recurring = recurring)
  | cancelled (hc : c = .cancle b) (hflag : r.flag = true)
      (hout : b ∉ r.timers) (harmed : b ∈ m.timers) (hgone : b ∉ m'.timers)
      (hmade : b ∈ m'.made)
      (hrec : (m'.heap b).recurring = (m.heap b).recurring)
  | fired (hc : c.timer = none) (hout : b ∈ r.timers)
      (hrecurring : (m.heap b).recurring = true) (harmed : b ∈ m.timers)
      (harmed' : b ∈ m'.timers) (hmade : b ∈ m'.made)
      (hadd : ∀ ms cb recurring now, c ≠ .addTimer b ms cb recurring now)
      (hkept : (m'.heap b).cb = (m.heap b).cb
        ∧ (m'.heap b).recurring = (m.heap b).recurring)
  | ended (hc : c.timer = none) (hout : b ∈ r.timers)
      (hrecurring : (m.heap b).recurring = false) (harmed : b ∈ m.timers)
      (hgone : b ∉ m'.timers) (hmade : b ∈ m'.made)
      (hadd : ∀ ms cb recurring now, c ≠ .addTimer b ms cb recurring now)
      (hrec : (m'.heap b).recurring = (m.heap b).recurring)

/-- A call without timers in its return hands out none. -/
private theorem not_handed {f g : Bool} : b ∉ TimerRet.timers ⟨f, [], g⟩ :=
  List.not_mem_nil

/-- What a call does to each timer. -/
theorem Holds.fate (h : m.Holds []) (hd : Did m c m' r) (b : Nat) :
    Fate m m' c r b := by
  cases hd with
  | @added a ms cb recurring now hnew =>
      by_cases hba : b = a
      · subst hba
        refine .made ms cb recurring now rfl hnew not_handed
          List.mem_cons_self (mem_insert.mpr (.inl rfl)) ?_ ?_
        · exact congrArg Timer.cb setTimer_heap_self
        · exact congrArg Timer.recurring setTimer_heap_self
      · refine .unchanged not_handed ?_ ?_ ?_ ?_ ?_
        · show b ∈ a :: m.made ↔ b ∈ m.made
          rw [List.mem_cons, or_iff_right hba]
        · exact mem_insert.trans (or_iff_right hba)
        · show ((TimerManager.setTimer _ a _).heap b).cb = _
            ∧ ((TimerManager.setTimer _ a _).heap b).recurring = _
          rw [setTimer_heap_ne hba]
          exact ⟨rfl, rfl⟩
        · intro ms' cb' recurring' now' heq
          exact hba (TimerCall.addTimer.inj heq).1.symm
        · exact fun h => by cases h
  | @refused c a hc =>
      refine .unchanged not_handed Iff.rfl Iff.rfl ⟨rfl, rfl⟩ ?_ ?_
      · intro ms cb recurring now heq
        rw [heq] at hc
        cases hc
      · exact fun _ => .inl ⟨rfl, rfl⟩
  | @cancelled a hcb ha =>
      by_cases hba : b = a
      · subst hba
        refine .cancelled rfl rfl not_handed ha h.nodup.not_mem_erase
          (h.known b (.inl ha)) ?_
        show ((m.setTimer b _).heap b).recurring = _
        rw [setTimer_heap_self]
      · refine .unchanged not_handed Iff.rfl (List.mem_erase_of_ne hba) ?_ ?_
          ?_
        · show ((m.setTimer a _).heap b).cb = _
            ∧ ((m.setTimer a _).heap b).recurring = _
          rw [setTimer_heap_ne hba]
          exact ⟨rfl, rfl⟩
        · exact fun _ _ _ _ => TimerCall.noConfusion
        · intro hb
          exact absurd (Option.some.inj hb).symm hba
  | @requeued c a t announced hc hcancle ha hcb hrec htick =>
      refine .unchanged not_handed Iff.rfl (mem_requeue ha) ?_ ?_ ?_
      · show ((TimerManager.setTimer _ a t).heap b).cb = _
          ∧ ((TimerManager.setTimer _ a t).heap b).recurring = _
        by_cases hba : b = a
        · subst hba
          rw [setTimer_heap_self]
          exact ⟨hcb, hrec⟩
        · rw [setTimer_heap_ne hba]
          exact ⟨rfl, rfl⟩
      · intro ms cb recurring now heq
        rw [heq] at hc
        cases hc
      · intro hb
        rw [hc] at hb
        cases hb
        exact .inr ⟨ha, hcancle⟩
  | asked =>
      exact .unchanged not_handed Iff.rfl Iff.rfl ⟨rfl, rfl⟩
        (fun _ _ _ _ => TimerCall.noConfusion) (fun h => by cases h)
  | idle =>
      exact .unchanged not_handed Iff.rfl Iff.rfl ⟨rfl, rfl⟩
        (fun _ _ _ _ => TimerCall.noConfusion) (fun h => by cases h)
  | @collected now tmp cbs m' hm =>
      obtain ⟨-, hmade, -, -⟩ := h.collect hm
      obtain ⟨hrec, hkept, hout⟩ := h.collect_timer hm b
      have hadd : ∀ ms cb recurring now',
          TimerCall.listExpireCB now tmp ≠ .addTimer b ms cb recurring now' :=
        fun _ _ _ _ => TimerCall.noConfusion
      by_cases hb : b ∈ cbs.map Prod.fst
      · obtain ⟨harmed, hgone⟩ := hout hb
        have hmade' : b ∈ m'.made := hmade ▸ h.known b (.inl harmed)
        cases hr : (m.heap b).recurring with
        | true =>
            obtain ⟨hcb, hmem⟩ := hkept (.inr hr)
            exact .fired rfl hb hr harmed (hmem.mpr harmed) hmade' hadd
              ⟨hcb, hrec⟩
        | false => exact .ended rfl hb hr harmed (hgone hr) hmade' hadd hrec
      · obtain ⟨hcb, hmem⟩ := hkept (.inl hb)
        exact .unchanged hb (by rw [hmade]) hmem ⟨hcb, hrec⟩ hadd
          (fun h => by cases h)

/-- Timers are not unmade. -/
theorem Fate.made_mono (hf : Fate m m' c r b) (hb : b ∈ m.made) :
    b ∈ m'.made := by
  cases hf with
  | unchanged _ hmade => exact hmade.mpr hb
  | made _ _ _ _ _ _ _ hmade => exact hmade
  | cancelled _ _ _ _ _ hmade => exact hmade
  | fired _ _ _ _ _ hmade => exact hmade
  | ended _ _ _ _ _ hmade => exact hmade

/-- Whether a timer recurs does not change. -/
theorem Fate.recurring_eq (hf : Fate m m' c r b) (hb : b ∈ m.made) :
    (m'.heap b).recurring = (m.heap b).recurring := by
  cases hf with
  | unchanged _ _ _ hkept => exact hkept.2
  | made _ _ _ _ _ hnew => exact absurd hb hnew
  | cancelled _ _ _ _ _ _ hrec => exact hrec
  | fired _ _ _ _ _ _ _ hkept => exact hkept.2
  | ended _ _ _ _ _ _ _ hrec => exact hrec

/-- Only an armed timer is handed out. -/
theorem Fate.armed_of_handed (hf : Fate m m' c r b) (hb : b ∈ r.timers) :
    b ∈ m.timers := by
  cases hf with
  | unchanged hout => exact absurd hb hout
  | made _ _ _ _ _ _ hout => exact absurd hb hout
  | cancelled _ _ hout => exact absurd hb hout
  | fired _ _ _ harmed => exact harmed
  | ended _ _ _ harmed => exact harmed

/-- A call hands out a timer at most once. -/
theorem Holds.handed_nodup (h : m.Holds []) (hd : Did m c m' r) :
    r.timers.Nodup := by
  cases hd with
  | collected hm => exact (h.collect hm).2.2.2
  | added | refused | cancelled | requeued | asked | idle =>
      exact List.nodup_nil

end TimerManager

-- =============================================================== the record

/-- The timers handed out over a record. -/
def handed (log : List TimerEvent) : List Nat :=
  log.flatMap fun e => e.ret.timers

/-- `e` is a `cancle` of `b` that returned true. -/
def TimerEvent.Cancels (e : TimerEvent) (b : Nat) : Prop :=
  e.call = .cancle b ∧ e.ret.flag = true

/-- `e` is an `addTimer` that made `b`. -/
def TimerEvent.Makes (e : TimerEvent) (b : Nat) (cb : Option Nat)
    (recurring : Bool) : Prop :=
  ∃ ms now, e.call = .addTimer b ms cb recurring now

/-- `e` does not hand out `b`, and if it is a call on `b`, it returns
false and leaves `m_timers` as it is. -/
def TimerEvent.Spares (e : TimerEvent) (b : Nat) : Prop :=
  b ∉ e.ret.timers
    ∧ (e.call.timer = some b → e.ret.flag = false ∧ e.after = e.before)

namespace TimerRun

variable {s s' : TimerRun} {c : TimerCall}

/-- The event `e` ends the life of `b`: a `cancle` that returned true,
or a one-shot handed out. -/
def Ends (s : TimerRun) (e : TimerEvent) (b : Nat) : Prop :=
  e.Cancels b ∨ (b ∈ e.ret.timers ∧ (s.m.heap b).recurring = false)

/-- The state and the record of a run agree. -/
structure Recorded (s : TimerRun) : Prop where
  holds : s.m.Holds []
  /-- Nothing is recorded of a timer that was not made. -/
  unmade : ∀ b, b ∉ s.m.made → ∀ e ∈ s.log,
    ¬ e.Cancels b ∧ b ∉ e.ret.timers
  /-- What `addTimer` was given is what the timer has. -/
  origin : ∀ e ∈ s.log, ∀ b cb recurring, e.Makes b cb recurring →
    b ∈ s.m.made ∧ (s.m.heap b).recurring = recurring
      ∧ (b ∈ s.m.timers → (s.m.heap b).cb = cb)
  /-- A timer is out of the set once an event has ended its life. -/
  finished : ∀ b ∈ s.m.made, b ∉ s.m.timers ↔ ∃ e ∈ s.log, s.Ends e b
  /-- A one-shot that is armed has not been handed out. -/
  fresh : ∀ b, (s.m.heap b).recurring = false → b ∈ s.m.timers →
    b ∉ handed s.log
  /-- A one-shot is handed out at most once. -/
  single : ∀ b, (s.m.heap b).recurring = false →
    (handed s.log).count b ≤ 1
  /-- One event hands out a timer at most once. -/
  each : ∀ e ∈ s.log, e.ret.timers.Nodup
  /-- After its end a timer is spared. -/
  later : s.log.Pairwise fun e e' => ∀ b, s.Ends e b → e'.Spares b

/-- At the start there is neither a timer nor a log. -/
theorem new_recorded (now : Nat) : (new now).Recorded where
  holds := TimerManager.new_holds now
  unmade := fun _ _ _ he => by cases he
  origin := fun _ he => by cases he
  finished := fun _ hb => by cases hb
  fresh := fun _ _ hb => by cases hb
  single := fun _ _ => Nat.zero_le 1
  each := fun _ he => by cases he
  later := List.Pairwise.nil

-- ================================================================= one call

section Step

variable {m : TimerManager} {r : TimerRet} {b : Nat} {e : TimerEvent}

/-- The event that records a call. -/
private def event (s : TimerRun) (c : TimerCall) (r : TimerRet)
    (m : TimerManager) : TimerEvent :=
  ⟨c, r, s.m.timers, m.timers⟩

/-- A recorded event that ends a life after the call did so before. -/
private theorem ends_before (h : s.Recorded)
    (hf : TimerManager.Fate s.m m c r b) {log : List TimerEvent}
    (he : e ∈ s.log) (hends : Ends ⟨m, log⟩ e b) :
    b ∈ s.m.made ∧ s.Ends e b := by
  have hmade : b ∈ s.m.made := by
    by_contra hb
    obtain ⟨hcan, hout⟩ := h.unmade b hb e he
    rcases hends with hc | ⟨ho, -⟩
    · exact hcan hc
    · exact hout ho
  refine ⟨hmade, hends.imp_right fun ⟨ho, hr⟩ => ⟨ho, ?_⟩⟩
  exact (hf.recurring_eq hmade).symm.trans hr

/-- An end stays an end. -/
private theorem ends_after (hf : TimerManager.Fate s.m m c r b)
    (hb : b ∈ s.m.made) {log : List TimerEvent} (hends : s.Ends e b) :
    Ends ⟨m, log⟩ e b :=
  hends.imp_right fun ⟨ho, hr⟩ => ⟨ho, (hf.recurring_eq hb).trans hr⟩

/-- A call that is refused cancels nothing. -/
private theorem not_cancels (hcall : c.timer = some b →
      (r.flag = false ∧ m = s.m) ∨ (b ∈ s.m.timers ∧ c ≠ .cancle b)) :
    ¬ (event s c r m).Cancels b := by
  intro hsome
  obtain ⟨hc, hflag⟩ := hsome
  have hc' : c = .cancle b := hc
  rcases hcall (by rw [hc']; rfl) with ⟨hfalse, -⟩ | ⟨-, hne⟩
  · exact absurd (hflag.symm.trans hfalse) (by decide)
  · exact hne hc

/-- A timer that is not made is not in the call. -/
private theorem unmade_event
    (hf : TimerManager.Fate s.m m c r b) (hb : b ∉ m.made) :
    ¬ (event s c r m).Cancels b ∧ b ∉ r.timers := by
  cases hf with
  | unchanged hout hmade _ _ _ hcall =>
      exact ⟨not_cancels hcall, hout⟩
  | made _ _ _ _ _ _ _ hmade => exact absurd hmade hb
  | cancelled _ _ _ _ _ hmade => exact absurd hmade hb
  | fired _ _ _ _ _ hmade => exact absurd hmade hb
  | ended _ _ _ _ _ hmade => exact absurd hmade hb

/-- A timer that is no longer armed is spared. -/
private theorem spares_event (hf : TimerManager.Fate s.m m c r b)
    (hb : b ∈ s.m.made) (hgone : b ∉ s.m.timers) :
    (event s c r m).Spares b := by
  cases hf with
  | unchanged hout _ _ _ _ hcall =>
      refine ⟨hout, fun hc => ?_⟩
      rcases hcall hc with ⟨hflag, heq⟩ | ⟨harmed, -⟩
      · exact ⟨hflag, congrArg TimerManager.timers heq⟩
      · exact absurd harmed hgone
  | made _ _ _ _ _ hnew => exact absurd hb hnew
  | cancelled _ _ _ harmed => exact absurd harmed hgone
  | fired _ _ _ harmed => exact absurd harmed hgone
  | ended _ _ _ harmed => exact absurd harmed hgone

/-- A timer is over exactly when the log has its end. -/
private theorem over_event (h : s.Recorded)
    (hf : TimerManager.Fate s.m m c r b) (hb : b ∈ m.made) :
    b ∉ m.timers ↔ ∃ e ∈ s.log ++ [event s c r m],
      Ends ⟨m, s.log ++ [event s c r m]⟩ e b := by
  -- in terms of the events before and the new one
  have hsplit : (∃ e ∈ s.log ++ [event s c r m],
        Ends ⟨m, s.log ++ [event s c r m]⟩ e b)
      ↔ (b ∈ s.m.made ∧ b ∉ s.m.timers)
        ∨ Ends ⟨m, s.log ++ [event s c r m]⟩ (event s c r m) b := by
    constructor
    · intro hsome
      obtain ⟨e, he, hends⟩ := hsome
      rcases List.mem_append.mp he with he | he
      · obtain ⟨hmade, hends⟩ := ends_before h hf he hends
        exact .inl ⟨hmade, (h.finished b hmade).mpr ⟨e, he, hends⟩⟩
      · rw [List.mem_singleton.mp he] at hends
        exact .inr hends
    · intro hor
      rcases hor with ⟨hmade, hgone⟩ | hends
      · obtain ⟨e, he, hends⟩ := (h.finished b hmade).mp hgone
        exact ⟨e, List.mem_append_left _ he, ends_after hf hmade hends⟩
      · exact ⟨_, List.mem_append_right _ List.mem_cons_self, hends⟩
  rw [hsplit]
  cases hf with
  | unchanged hout hmade harmed _ _ hcall =>
      have hno : ¬ Ends ⟨m, s.log ++ [event s c r m]⟩ (event s c r m) b := by
        intro hor
        rcases hor with hcan | ⟨ho, -⟩
        · exact not_cancels hcall hcan
        · exact hout ho
      rw [or_iff_left hno, harmed]
      exact ⟨fun hg => ⟨hmade.mp hb, hg⟩, And.right⟩
  | made ms cb recurring now hc hnew hout hmade harmed =>
      refine iff_of_false (absurd harmed) ?_
      intro hor
      rcases hor with ⟨hm, -⟩ | ⟨hcan, -⟩ | ⟨ho, -⟩
      · exact hnew hm
      · exact TimerCall.noConfusion (hc.symm.trans hcan)
      · exact hout ho
  | cancelled hc hflag _ _ hgone =>
      exact iff_of_true hgone (.inr (.inl ⟨hc, hflag⟩))
  | fired hc hout hrec harmed harmed' _ _ hkept =>
      refine iff_of_false (absurd harmed') ?_
      intro hor
      rcases hor with ⟨-, hg⟩ | ⟨hcan, -⟩ | ⟨-, hr⟩
      · exact hg harmed
      · have hcan' : c = .cancle b := hcan
        rw [hcan'] at hc
        cases hc
      · have hr' := hkept.2.symm.trans hr
        exact absurd (hrec.symm.trans hr') (by decide)
  | ended _ hout hrec _ hgone _ _ hrec' =>
      exact iff_of_true hgone (.inr (.inr ⟨hout, hrec'.trans hrec⟩))

/-- The log has what the call handed out, at its end. -/
private theorem handed_event :
    handed (s.log ++ [event s c r m]) = handed s.log ++ r.timers := by
  simp [handed, event]

/-- A timer that was not made was not handed out. -/
private theorem not_handed_unmade (h : s.Recorded) (hb : b ∉ s.m.made) :
    b ∉ handed s.log := by
  intro ho
  obtain ⟨e, he, ho⟩ := List.mem_flatMap.mp ho
  exact (h.unmade b hb e he).2 ho

/-- One that is still in the set was not either, when it does not recur. -/
private theorem fresh_event (h : s.Recorded)
    (hf : TimerManager.Fate s.m m c r b)
    (hr : (m.heap b).recurring = false) (hb : b ∈ m.timers) :
    b ∉ handed (s.log ++ [event s c r m]) := by
  rw [handed_event, List.mem_append, not_or]
  cases hf with
  | unchanged hout _ harmed hkept =>
      exact ⟨h.fresh b (hkept.2.symm.trans hr) (harmed.mp hb), hout⟩
  | made _ _ _ _ _ hnew hout => exact ⟨not_handed_unmade h hnew, hout⟩
  | cancelled _ _ _ _ hgone => exact absurd hb hgone
  | fired _ _ hrec _ _ _ _ hkept =>
      exact absurd (hrec.symm.trans (hkept.2.symm.trans hr)) (by decide)
  | ended _ _ _ _ hgone => exact absurd hb hgone

/-- So it is handed out once at most. -/
private theorem single_event (h : s.Recorded)
    (hd : TimerManager.Did s.m c m r) (hr : (m.heap b).recurring = false) :
    (handed (s.log ++ [event s c r m])).count b ≤ 1 := by
  have hf := h.holds.fate hd b
  rw [handed_event, List.count_append]
  by_cases hmade : b ∈ s.m.made
  · have hr' : (s.m.heap b).recurring = false :=
      (hf.recurring_eq hmade).symm.trans hr
    by_cases hout : b ∈ r.timers
    · -- it was armed, so this is the first time
      have hzero := List.count_eq_zero.mpr
        (h.fresh b hr' (hf.armed_of_handed hout))
      have hone := List.nodup_iff_count.mp (h.holds.handed_nodup hd) b
      omega
    · have hzero := List.count_eq_zero.mpr hout
      have hone := h.single b hr'
      omega
  · have hzero := List.count_eq_zero.mpr (not_handed_unmade h hmade)
    have hone := List.nodup_iff_count.mp (h.holds.handed_nodup hd) b
    omega

/-- The log says which callback a timer was made with. -/
private theorem origin_event (h : s.Recorded)
    (hf : TimerManager.Fate s.m m c r b) {cb : Option Nat}
    {recurring : Bool} (he : e ∈ s.log ++ [event s c r m])
    (hmakes : e.Makes b cb recurring) :
    b ∈ m.made ∧ (m.heap b).recurring = recurring
      ∧ (b ∈ m.timers → (m.heap b).cb = cb) := by
  rcases List.mem_append.mp he with he | he
  · obtain ⟨hmade, hrec, hcb⟩ := h.origin e he b cb recurring hmakes
    refine ⟨hf.made_mono hmade, (hf.recurring_eq hmade).trans hrec, ?_⟩
    intro hb
    cases hf with
    | unchanged _ _ harmed hkept =>
        exact hkept.1.trans (hcb (harmed.mp hb))
    | made _ _ _ _ _ hnew => exact absurd hmade hnew
    | cancelled _ _ _ _ hgone => exact absurd hb hgone
    | fired _ _ _ harmed _ _ _ hkept => exact hkept.1.trans (hcb harmed)
    | ended _ _ _ _ hgone => exact absurd hb hgone
  · rw [List.mem_singleton.mp he] at hmakes
    obtain ⟨ms, now, hc⟩ := hmakes
    have hc' : c = .addTimer b ms cb recurring now := hc
    cases hf with
    | unchanged _ _ _ _ hadd => exact absurd hc' (hadd _ _ _ _)
    | made ms' cb' recurring' now' hc'' _ _ hmade _ hcb hrec =>
        obtain ⟨-, -, rfl, rfl, -⟩ := TimerCall.addTimer.inj
          (hc'.symm.trans hc'')
        exact ⟨hmade, hrec, fun _ => hcb⟩
    | cancelled hcan => exact TimerCall.noConfusion (hc'.symm.trans hcan)
    | fired _ _ _ _ _ _ hadd => exact absurd hc' (hadd _ _ _ _)
    | ended _ _ _ _ _ _ hadd => exact absurd hc' (hadd _ _ _ _)

end Step

/-- One call keeps the record right. -/
theorem step_recorded (h : s.Recorded) (hs : s.step c = some s') :
    s'.Recorded := by
  obtain ⟨⟨m, r⟩, hc, rfl⟩ := Option.map_eq_some_iff.mp hs
  have hd := h.holds.call_did hc
  have hf := h.holds.fate hd
  constructor
  · exact h.holds.did hd
  · intro b hb e he
    rcases List.mem_append.mp he with he | he
    · exact h.unmade b (fun hm => hb ((hf b).made_mono hm)) e he
    · rw [List.mem_singleton.mp he]
      exact unmade_event (hf b) hb
  · intro e he b cb recurring hmakes
    exact origin_event h (hf b) he hmakes
  · exact fun b hb => over_event h (hf b) hb
  · exact fun b hr hb => fresh_event h (hf b) hr hb
  · exact fun b hr => single_event h hd hr
  · intro e he
    rcases List.mem_append.mp he with he | he
    · exact h.each e he
    · rw [List.mem_singleton.mp he]
      exact h.holds.handed_nodup hd
  · refine List.pairwise_append.mpr
      ⟨h.later.imp_of_mem ?_, List.pairwise_singleton _ _, ?_⟩
    · intro e e' he _ hlater b hends
      exact hlater b (ends_before h (hf b) he hends).2
    · intro e he e' he' b hends
      obtain ⟨hmade, hends⟩ := ends_before h (hf b) he hends
      rw [List.mem_singleton.mp he']
      exact spares_event (hf b) hmade ((h.finished b hmade).mpr ⟨e, he, hends⟩)

/-- A one-shot timer of the record. -/
def OneShot (s : TimerRun) (b : Nat) : Prop :=
  ∃ e ∈ s.log, ∃ cb, e.Makes b cb false

/-- Over every sequence of calls: a one-shot is handed out at most once;
no collection hands out a timer twice; a recurring timer is in
`m_timers` with its callback unless a `cancle` of it returned true; and
after a `cancle` that returned true, or after a one-shot was handed out,
the timer is not handed out and calls on it return false and leave
`m_timers` as it is. -/
theorem timer_life_cycle {now₀ : Nat} {calls : List TimerCall}
    {s : TimerRun} (hrun : calls.foldlM step (new now₀) = some s) :
    (∀ b, s.OneShot b → (handed s.log).count b ≤ 1)
      ∧ (∀ e ∈ s.log, e.ret.timers.Nodup)
      ∧ (∀ e ∈ s.log, ∀ b cb, e.Makes b cb true →
          (b ∈ s.m.timers ∧ (s.m.heap b).cb = cb)
            ∨ ∃ e' ∈ s.log, e'.Cancels b)
      ∧ s.log.Pairwise fun e e' => ∀ b,
          e.Cancels b ∨ (b ∈ e.ret.timers ∧ s.OneShot b) → e'.Spares b := by
  have h : s.Recorded := run_inv step_recorded calls (new_recorded now₀) hrun
  have hshot : ∀ b, s.OneShot b → (s.m.heap b).recurring = false := by
    intro b hsome
    obtain ⟨e, he, cb, hmakes⟩ := hsome
    exact (h.origin e he b cb false hmakes).2.1
  refine ⟨fun b hb => h.single b (hshot b hb), h.each, ?_, ?_⟩
  · intro e he b cb hmakes
    obtain ⟨hmade, hrec, hcb⟩ := h.origin e he b cb true hmakes
    by_cases hb : b ∈ s.m.timers
    · exact .inl ⟨hb, hcb hb⟩
    · obtain ⟨e', he', hcan | ⟨-, hr⟩⟩ := (h.finished b hmade).mp hb
      · exact .inr ⟨e', he', hcan⟩
      · exact absurd (hrec.symm.trans hr) (by decide)
  · refine h.later.imp fun {e e'} hlater b hends => hlater b ?_
    exact hends.imp_right fun ⟨ho, hb⟩ => ⟨ho, hshot b hb⟩

/-- No call of a run is undefined; the only calls left out are `addTimer`s
at an address in use. -/
theorem call_defined {now₀ : Nat} {calls : List TimerCall} {s : TimerRun}
    (hrun : calls.foldlM step (new now₀) = some s) (c : TimerCall) :
    s.step c ≠ none
      ∨ ∃ a ms cb recurring now, c = .addTimer a ms cb recurring now
          ∧ a ∈ s.m.made := by
  have h : s.m.Holds [] :=
    (run_inv step_recorded calls (new_recorded now₀) hrun).holds
  rw [step, ne_eq, Option.map_eq_none_iff]
  cases c with
  | addTimer a ms cb recurring now =>
      by_cases ha : a ∈ s.m.made
      · exact .inr ⟨a, ms, cb, recurring, now, rfl, ha⟩
      · exact .inl (by simp [TimerManager.call, ha])
  | cancle a =>
      rcases h.cancle (a := a) with ⟨-, he⟩ | ⟨-, -, he⟩
      all_goals exact .inl (by simp [TimerManager.call, he])
  | refresh a now => exact .inl (by simp [TimerManager.call])
  | reset a ms fromNow now => exact .inl (by simp [TimerManager.call])
  | getNextTimer now => exact .inl (by simp [TimerManager.call])
  | listExpireCB now tmp =>
      rcases TimerManager.listExpireCB_cases s.m now tmp with
        ⟨-, he⟩ | ⟨-, cbs, m, -, he⟩
      all_goals exact .inl (by simp [TimerManager.call, he])

/-- A one-shot and a recurring timer, both due twice. -/
theorem timer_life_cycle_two_timers :
    ∃ s, [.addTimer 1 10 (some 1) false 0, .addTimer 2 10 (some 2) true 0,
        .listExpireCB 10 99, .listExpireCB 20 99, .cancle 1, .cancle 2,
        .reset 2 10 false 30, .listExpireCB 40 99].foldlM step (new 0)
        = some s
      ∧ handed s.log = [1, 2, 2]
      ∧ ∀ b, s.OneShot b → (handed s.log).count b ≤ 1 := by
  obtain ⟨s, hs⟩ := Option.isSome_iff_exists.mp (show
    ([.addTimer 1 10 (some 1) false 0, .addTimer 2 10 (some 2) true 0,
      .listExpireCB 10 99, .listExpireCB 20 99, .cancle 1, .cancle 2,
      .reset 2 10 false 30, .listExpireCB 40 99].foldlM step (new 0)).isSome
      = true by decide)
  refine ⟨s, hs, ?_, (timer_life_cycle hs).1⟩
  have hout := congrArg (Option.map fun s => handed s.log) hs
  exact (Option.some.inj hout).symm

end TimerRun

end TinyServer
