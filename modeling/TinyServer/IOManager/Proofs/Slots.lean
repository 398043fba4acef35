/-
The slots of an `FdEvent` and its bits.

`SlotOk` is what the code expects of a bit and its slot, and what the
assertion of `addEvent` relies on. Registering, triggering and cancelling
keep it. Two calls break it at once: a `delEvent` of a registered event,
whose `resetEvent` clears a copy of the slot, and an `addEvent` made on a
thread without a scheduler, which stores a null `scheduler`.
`slots_ok_iff` says that nothing else does, over whole runs.
-/
import TinyServer.IOManager.Proofs.Mirror

namespace TinyServer

-- ================================================================ one slot

/-- A bit and its slot fit: set with a scheduler and exactly one of fiber
and callback, or clear with all three fields empty. -/
def SlotOk (bit : Bool) (slot : Event) : Prop :=
  (bit = true ↔ slot.scheduler.isSome = true
      ∧ slot.fiber.isSome = !slot.cb.isSome)
    ∧ (bit = false → slot = .empty)

instance (bit : Bool) (slot : Event) : Decidable (SlotOk bit slot) :=
  inferInstanceAs (Decidable (_ ∧ _))

/-- An empty slot of a type without interest is right. -/
theorem slotOk_empty : SlotOk false .empty := by decide

/-- A good slot whose bit is set is empty after a trigger. -/
theorem SlotOk.drained {slot : Event} (h : SlotOk true slot) :
    SlotOk false slot.drained := by
  obtain ⟨-, hone⟩ := h.1.mp rfl
  obtain ⟨k, fb, cb⟩ := slot
  cases fb with
  | none =>
      cases cb with
      | none => cases hone
      | some c => exact slotOk_empty
  | some fb =>
      cases cb with
      | none => exact slotOk_empty
      | some c => cases hone

namespace EventSet

/-- The types of a set with one more, -/
theorem has_insert (m : EventSet) (t u : EventType) :
    (m.insert t).has u = (decide (u = t) || m.has u) := by
  cases t <;> cases u <;> simp [insert, has]

/-- with one less, -/
theorem has_erase (m : EventSet) (t u : EventType) :
    (m.erase t).has u = (!decide (u = t) && m.has u) := by
  cases t <;> cases u <;> simp [erase, has]

/-- without those of another set, -/
theorem has_diff (m n : EventSet) (t : EventType) :
    (m.diff n).has t = (m.has t && !n.has t) := by
  cases t <;> rfl

/-- and of the set of one. -/
theorem has_only_iff (t u : EventType) :
    (only t).has u = decide (u = t) := by
  cases t <;> cases u <;> rfl

end EventSet

namespace FdEvent

/-- Writing a slot leaves the other one alone. -/
theorem getEvent_setEvent (e : FdEvent) (t u : EventType) (slot : Event) :
    (e.setEvent t slot).getEvent u = if u = t then slot else e.getEvent u := by
  cases t <;> cases u <;> rfl

/-- The slots after a registration. -/
theorem getEvent_registered (e : FdEvent) (t u : EventType)
    (cb : Option Nat) (caller : Caller) :
    (e.registered t cb caller).getEvent u
      = if u = t then ⟨caller.scheduler,
          if cb.isSome then none else some caller.fiber, cb⟩
        else e.getEvent u := by
  rw [registered, getEvent_setEvent]
  cases u <;> rfl

/-- The slots after one event was triggered, -/
theorem getEvent_triggered (e : FdEvent) (t u : EventType) :
    (e.triggered t).getEvent u
      = if u = t then (e.getEvent u).drained else e.getEvent u := by
  rw [triggered, getEvent_setEvent]
  cases t <;> cases u <;> rfl

/-- and after all that are ready. -/
theorem getEvent_fired (e : FdEvent) (real : EventSet) (u : EventType) :
    (e.fired real).getEvent u
      = if real.has u = true then (e.getEvent u).drained
        else e.getEvent u := by
  obtain ⟨r, w⟩ := real
  cases r <;> cases w <;> cases u <;>
    simp [fired, getEvent_triggered, EventSet.has]

/-- Both slots of an `FdEvent` fit their bits. -/
def SlotsOk (e : FdEvent) : Prop :=
  ∀ t, SlotOk (e.et.has t) (e.getEvent t)

/-- A new entry has empty slots. -/
theorem slotsOk_new (fd : Nat) : (new fd).SlotsOk := by
  intro t
  cases t <;> exact slotOk_empty

variable {e : FdEvent}

/-- A registration by a thread with a scheduler fills the slot of its
type. -/
theorem SlotsOk.registered (h : e.SlotsOk) {t : EventType}
    {cb : Option Nat} {caller : Caller}
    (hs : caller.scheduler.isSome = true) :
    (e.registered t cb caller).SlotsOk := by
  intro u
  rw [registered_et, EventSet.has_insert, getEvent_registered]
  by_cases hu : u = t
  · cases cb <;> simp [hu, SlotOk, hs]
  · simpa [hu] using h u

/-- Triggering types that are ready keeps the slots right. -/
theorem SlotsOk.fired (h : e.SlotsOk) {real : EventSet}
    (hr : ∀ t, real.has t = true → e.Ready t) :
    (e.fired real).SlotsOk := by
  intro u
  rw [fired_et, EventSet.has_diff, getEvent_fired]
  by_cases hu : real.has u = true
  · have hslot := h u
    rw [(hr u hu).1] at hslot
    simpa [hu] using hslot.drained
  · simpa [hu] using h u

/-- A `delEvent` leaves the slot behind. -/
theorem not_slotsOk_erased (h : e.SlotsOk) {t : EventType}
    (ht : e.et.has t = true) :
    ¬ FdEvent.SlotsOk { e with et := e.et.erase t } := by
  intro hno
  have hempty := (hno t).2 (by rw [EventSet.has_erase]; simp)
  have hset := ((h t).1.mp ht).1
  have hget : ({ e with et := e.et.erase t } : FdEvent).getEvent t
      = e.getEvent t := by
    cases t <;> rfl
  rw [← hget, hempty] at hset
  cases hset

/-- A registration without a scheduler sets the bit of a bad slot. -/
theorem not_slotsOk_registered {t : EventType} {cb : Option Nat}
    {caller : Caller} (hs : caller.scheduler = none) :
    ¬ (e.registered t cb caller).SlotsOk := by
  intro hno
  have hset := ((hno t).1.mp (by simp [EventSet.has_insert])).1
  rw [getEvent_registered, if_pos rfl, hs] at hset
  cases hset

end FdEvent

-- ================================================================ one step

namespace IOManager

/-- Both slots of every descriptor fit their bits. -/
def SlotsOk (s : IOManager) : Prop :=
  ∀ fd, (s.entry fd).SlotsOk

end IOManager

namespace IoOp

open IOManager

/-- The two calls that break a slot. -/
def Leaks (s : IOManager) : IoOp → Prop
  | .delEvent fd et f => f = false ∧ (s.entry fd).et.has et = true
  | .addEvent _ _ _ caller f => f = false ∧ caller.scheduler = none
  | _ => False

variable {s s' : IOManager} {op : IoOp}

/-- An operation that does not leak leaves good slots. -/
theorem result_slotsOk {e : FdEvent} (he : e.SlotsOk)
    (hentry : s.entry op.fd = e) (hf : op.ctlFails = false)
    (hc : op.Commits e) (hl : ¬ op.Leaks s) : (op.result e).SlotsOk := by
  cases op with
  | addEvent fd et cb caller f =>
      refine he.registered (Option.isSome_iff_ne_none.mpr ?_)
      exact fun hn => hl ⟨hf, hn⟩
  | delEvent fd et f =>
      subst hentry
      exact absurd ⟨hf, hc⟩ hl
  | cancelEvent fd et f =>
      refine he.fired fun t ht => ?_
      rw [EventSet.has_only_iff, decide_eq_true_eq] at ht
      exact ht ▸ hc
  | cancelAll fd f => exact he.fired hc
  | deliver fd mask f => exact he.fired hc

/-- The entries after a step: the old ones, or all but one of them. -/
theorem step_entries (hm : s.Mirror) (h : op.step s = some s') :
    ((op.ctlFails = true ∨ op.Quiet (s.entry op.fd))
        ∧ ∀ g, s'.entry g = s.entry g)
      ∨ (op.ctlFails = false ∧ op.Commits (s.entry op.fd)
        ∧ ∀ g, s'.entry g = if g = op.fd then op.result (s.entry op.fd)
            else s.entry g) := by
  obtain ⟨hg, hentry⟩ := hm.grown op
  rcases apply_cases hm (step_eq_some.mp h) with
    ⟨hq, rfl⟩ | ⟨hf, call, hl, rfl⟩ | ⟨hf, hlt, hc, call, tasks, hl, rfl⟩
  · exact .inl ⟨.inr hq, fun _ => rfl⟩
  · exact .inl ⟨.inl hf, hentry⟩
  · rw [← hg.entry_eq hlt, hentry] at hc ⊢
    refine .inr ⟨hf, hc, fun g => ?_⟩
    rw [hg.commit_entry hlt, hentry]

/-- A step that does not leak keeps the slots right. -/
theorem slotsOk_step (hm : s.Mirror) (hs : s.SlotsOk) (hl : ¬ op.Leaks s)
    (h : op.step s = some s') : s'.SlotsOk := by
  intro g
  rcases step_entries hm h with ⟨-, hall⟩ | ⟨hf, hc, hall⟩
  · rw [hall]
    exact hs g
  · rw [hall]
    split
    next => exact result_slotsOk (hs op.fd) rfl hf hc hl
    next => exact hs g

/-- One that leaks makes a slot wrong. -/
theorem leaks_step (hm : s.Mirror) (hs : s.SlotsOk) (hl : op.Leaks s)
    (h : op.step s = some s') : ¬ s'.SlotsOk := by
  intro hno
  cases op with
  | addEvent fd et cb caller f =>
      obtain ⟨hf, hn⟩ := hl
      rcases step_entries hm h with ⟨hf' | hq, -⟩ | ⟨-, -, hall⟩
      · exact absurd (hf'.symm.trans hf) (by decide)
      · exact hq
      · have hfd := hno fd
        rw [hall, IoOp.fd, if_pos rfl] at hfd
        exact FdEvent.not_slotsOk_registered hn hfd
  | delEvent fd et f =>
      obtain ⟨hf, hbit⟩ := hl
      rcases step_entries hm h with ⟨hf' | hq, -⟩ | ⟨-, -, hall⟩
      · exact absurd (hf'.symm.trans hf) (by decide)
      · exact absurd (hbit.symm.trans hq) (by decide)
      · have hfd := hno fd
        rw [hall, IoOp.fd, if_pos rfl] at hfd
        exact FdEvent.not_slotsOk_erased (hs fd) hbit hfd
  | cancelEvent => exact hl
  | cancelAll => exact hl
  | deliver => exact hl

end IoOp

-- ================================================================ whole runs

namespace IOManager

open Lib

/-- At the start all slots are empty. -/
theorem slotsOk_init : init.SlotsOk := by
  intro fd
  have hnew : init.entry fd = FdEvent.new fd := by
    rcases Nat.lt_or_ge fd 32 with h | h
    · revert fd
      decide
    · exact entry_past (s := init) h
  rw [hnew]
  exact FdEvent.slotsOk_new fd

/-- With good slots `addEvent` on a clear bit fails no assertion. -/
theorem SlotsOk.addEvent_returns {s : IOManager} (hm : s.Mirror)
    (hs : s.SlotsOk) {fd : Nat} {et : EventType} {cb : Option Nat}
    {caller : Caller} {f : Bool} (hbit : (s.entry fd).et.has et = false)
    (hcb : cb.isSome = true ∨ caller.exec = true) :
    ∃ r, s.addEvent fd et cb caller f = .ok r := by
  obtain ⟨hm', hlt, hentry⟩ := hm.grownFor fd
  have hslot := (hs fd et).2 hbit
  rw [← hentry, hm'.entry_eq hlt] at hbit hslot
  obtain ⟨r, hr⟩ := addSection_returns hbit hslot hcb
  refine ⟨r, ?_⟩
  have hlook := hm'.lookup hlt
  unfold grownFor at hlook hr
  simp only [addEvent, hlook]
  exact hr

/-- In a run of calls that return, every state has good slots, and on no
clear bit does `addEvent` fail an assertion, exactly when no step of the
run is a `delEvent` of a registered event whose `epoll_ctl` succeeds or
an `addEvent` whose caller has no scheduler. -/
theorem slots_ok_iff {ops : List IoOp} {s : IOManager}
    (hrun : ops.foldlM IoOp.step init = some s) :
    (∀ t, Visits IoOp.step init ops t →
        (∀ fd et, SlotOk ((t.entry fd).et.has et) ((t.entry fd).getEvent et))
        ∧ ∀ fd et cb (caller : Caller) f, (t.entry fd).et.has et = false →
            (cb.isSome = true ∨ caller.exec = true) →
            ∃ r, t.addEvent fd et cb caller f = .ok r)
      ↔ ∀ t op, Takes IoOp.step init ops t op → ¬ op.Leaks t := by
  have hiff : (∀ t, Visits IoOp.step init ops t → t.SlotsOk)
      ↔ ∀ t op, Takes IoOp.step init ops t op → ¬ op.Leaks t :=
    visits_inv_iff (Q := Mirror) Mirror.step IoOp.slotsOk_step
      IoOp.leaks_step mirror_init slotsOk_init hrun
  refine Iff.trans ⟨?_, ?_⟩ hiff
  · exact fun h t ht => (h t ht).1
  · intro h t ht
    have hm := run_inv_visits Mirror.step mirror_init ht
    exact ⟨h t ht, fun fd et cb caller f hbit hcb =>
      (h t ht).addEvent_returns hm hbit hcb⟩

/-- A run whose first step is good and whose second leaves the slot of
the deleted event behind. -/
def staleRun : List IoOp :=
  [.addEvent 5 .read (some 1) ⟨some 0, 0, true⟩ false,
    .delEvent 5 .read false]

/-- After `staleRun` the read bit of descriptor 5 is clear, its slot is
not empty, and registering the event again fails the assertion. -/
theorem slot_kept_by_delEvent :
    ¬ (∀ (ops : List IoOp) (s : IOManager),
        ops.foldlM IoOp.step init = some s →
        (∀ fd et, SlotOk ((s.entry fd).et.has et) ((s.entry fd).getEvent et))
        ∧ ∀ fd et (cb : Option Nat) (caller : Caller) f,
            (s.entry fd).et.has et = false →
            (cb.isSome = true ∨ caller.exec = true) →
            ∃ r, s.addEvent fd et cb caller f = .ok r) := by
  intro hall
  have hobs : (staleRun.foldlM IoOp.step init).map
      (fun s => ((s.entry 5).et.has .read,
        (s.addEvent 5 .read (some 2) ⟨some 0, 0, true⟩ false).isOk))
        = some (false, false) := by
    decide
  obtain ⟨s, hs, hv⟩ := Option.map_eq_some_iff.mp hobs
  obtain ⟨hbit, hadd⟩ := Prod.mk.injEq .. ▸ hv
  obtain ⟨r, hr⟩ := (hall staleRun s hs).2 5 .read (some 2)
    ⟨some 0, 0, true⟩ false hbit (.inl rfl)
  rw [hr] at hadd
  cases hadd

/-- A run that cancels instead of deleting, and no step of it leaks. -/
def cancelledRun : List IoOp :=
  [.addEvent 5 .read (some 1) ⟨some 0, 0, true⟩ false,
    .cancelEvent 5 .read false]

theorem slots_ok_iff_cancelled :
    ∃ s, cancelledRun.foldlM IoOp.step init = some s
      ∧ ∀ fd et, SlotOk ((s.entry fd).et.has et)
          ((s.entry fd).getEvent et) := by
  have hsome : (cancelledRun.foldlM IoOp.step init).isSome = true := by
    decide
  obtain ⟨s, hs⟩ := Option.isSome_iff_exists.mp hsome
  have hclean : ∀ t op, Takes IoOp.step init cancelledRun t op →
      ¬ op.Leaks t := by
    intro t op hsome' hleaks
    obtain ⟨pre, post, hops, -⟩ := hsome'
    have hmem : op ∈ cancelledRun := by
      rw [hops]
      simp
    rcases List.mem_pair.mp hmem with rfl | rfl
    · cases hleaks.2
    · exact hleaks
  exact ⟨s, hs, ((slots_ok_iff hs).mpr hclean s
    ⟨cancelledRun, [], by simp, hs⟩).1⟩

end IOManager

end TinyServer
