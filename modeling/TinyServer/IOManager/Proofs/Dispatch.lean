/-
One iteration of the dispatch loop of `idle`.

`DispatchesExactly` is what the iteration is for: trigger the registered
events that the mask reports, keep the rest. The loop hands the reported
set to `triggerEvent` without masking it with `et`, so a report that is
only partly registered (an error or hang-up with one event registered)
fails the assertion there. `dispatches_exactly_iff` gives all states and
masks for which the iteration does its job.
-/
import TinyServer.IOManager.Proofs.Slots

namespace TinyServer

namespace EventSet

theorem has_inter (m n : EventSet) (t : EventType) :
    (m.inter n).has t = (m.has t && n.has t) := by
  cases t <;> rfl

theorem ext_has {m n : EventSet} (h : ∀ t, m.has t = n.has t) : m = n := by
  obtain ⟨r, w⟩ := m
  obtain ⟨r', w'⟩ := n
  have hr : r = r' := h .read
  have hw : w = w' := h .write
  rw [hr, hw]

/-- Nothing is taken away exactly when nothing is shared. -/
theorem diff_eq_self_iff {m n : EventSet} :
    m.diff n = m ↔ n.inter m = .none := by
  obtain ⟨r, w⟩ := m
  obtain ⟨r', w'⟩ := n
  cases r <;> cases w <;> cases r' <;> cases w' <;> decide

theorem inter_eq_left {m n : EventSet}
    (h : ∀ t, m.has t = true → n.has t = true) : m.inter n = m := by
  refine ext_has fun t => ?_
  rw [has_inter]
  cases hm : m.has t with
  | false => rfl
  | true => rw [h t hm]; rfl

end EventSet

namespace IOManager

variable {s : IOManager} {p : Nat} {mask : EpollMask} {f : Bool}

/-- The iteration returns, has handed over the tasks of the registered
events that `mask` reports, left the others registered, and lowered the
count by the number of triggered events. -/
def DispatchesExactly (s : IOManager) (p : Nat) (mask : EpollMask)
    (f : Bool) : Prop :=
  ∃ s', s.dispatch p mask f = .ok s'
    ∧ (s'.objs p).et = (s.objs p).et.diff mask.realEventType
    ∧ s'.scheduled = s.scheduled
        ++ (s.objs p).firedTasks (mask.realEventType.inter (s.objs p).et)
    ∧ s'.pendingEventCount = s.pendingEventCount
        - (mask.realEventType.inter (s.objs p).et).card

/-- The `epoll_ctl` call of the iteration. -/
def dispatchCall (s : IOManager) (p : Nat) (mask : EpollMask) : CtlCall :=
  s.dropCall (s.objs p).fd ((s.objs p).et.diff mask.realEventType)

theorem dispatch_quiet
    (h : mask.realEventType.inter (s.objs p).et = .none) :
    s.dispatch p mask f = .ok s := by
  simp [dispatch, h]

/-- All that is reported is ready: the iteration triggers it. -/
theorem dispatch_ready
    (hi : mask.realEventType.inter (s.objs p).et ≠ .none)
    (hl : (s.dispatchCall p mask).legal = true)
    (hready : ∀ t, mask.realEventType.has t = true → (s.objs p).Ready t) :
    ∃ s', s.dispatch p mask false = .ok s' := by
  simp only [dispatch, hi, if_false]
  rw [epollCtl_ok hl]
  exact ⟨_, fire_ok hready⟩

/-- One iteration of the dispatch loop fires exactly what is registered
and reported if and only if nothing registered is reported, or
`epoll_ctl` succeeds and every reported event is registered in a slot
with a scheduler. -/
theorem dispatches_exactly_iff (s : IOManager) (p : Nat)
    (mask : EpollMask) (f : Bool) :
    s.DispatchesExactly p mask f
      ↔ mask.realEventType.inter (s.objs p).et = .none
        ∨ (f = false ∧ (s.dispatchCall p mask).legal = true
          ∧ ∀ t, mask.realEventType.has t = true →
              (s.objs p).et.has t = true
                ∧ ((s.objs p).getEvent t).scheduler.isSome = true) := by
  constructor
  · intro hsome
    obtain ⟨s', h, het, -, -⟩ := hsome
    rcases dispatch_cases h with ⟨hi, -⟩ | ⟨hi, ⟨-, rfl⟩ | ⟨hf, hl, hready, -⟩⟩
    · exact .inl hi
    · -- refused: the events that should have fired are still registered
      exact .inl (EventSet.diff_eq_self_iff.mp het.symm)
    · exact .inr ⟨hf, hl, hready⟩
  · intro h
    by_cases hi : mask.realEventType.inter (s.objs p).et = .none
    · refine ⟨s, dispatch_quiet hi, ?_, ?_, ?_⟩
      · exact (EventSet.diff_eq_self_iff.mpr hi).symm
      · simp [hi, FdEvent.firedTasks, EventSet.none]
      · simp [hi, EventSet.card, EventSet.none]
    · obtain ⟨rfl, hl, hready⟩ := h.resolve_left hi
      obtain ⟨s', hs'⟩ := dispatch_ready hi hl hready
      have hsub : ∀ t, mask.realEventType.has t = true →
          (s.objs p).et.has t = true := fun t ht => (hready t ht).1
      refine ⟨s', hs', ?_⟩
      rcases dispatch_cases hs' with ⟨hi', -⟩ | ⟨-, ⟨hbad, -⟩ | ⟨-, -, -, rfl⟩⟩
      · exact absurd hi' hi
      · rcases hbad with hf | hl'
        · cases hf
        · exact absurd (hl.symm.trans hl') (by decide)
      · rw [EventSet.inter_eq_left hsub]
        refine ⟨by simp [commit], rfl, ?_⟩
        simp only [commit, FdEvent.fired_et, EventSet.card_diff hsub]
        omega

/-- In a run that keeps the slots good, the condition is about the report
alone: all of it is registered, or none. -/
theorem dispatches_exactly_reachable {fd : Nat} (hm : s.Mirror)
    (hs : s.SlotsOk) (hfd : fd < s.fdEvents.length) :
    s.DispatchesExactly fd mask false
      ↔ mask.realEventType.inter (s.objs fd).et = .none
        ∨ ∀ t, mask.realEventType.has t = true →
            (s.objs fd).et.has t = true := by
  rw [dispatches_exactly_iff]
  by_cases hi : mask.realEventType.inter (s.objs fd).et = .none
  · simp [hi]
  · have het : (s.objs fd).et ≠ .none := by
      intro h0
      rw [h0] at hi
      exact hi (by simp [EventSet.inter, EventSet.none])
    have hl : (s.dispatchCall fd mask).legal = true := by
      rw [dispatchCall, hm.objFd fd hfd]
      exact dropCall_legal (hm.mirrored hfd) het
    have hslot : ∀ t, (s.objs fd).et.has t = true →
        ((s.objs fd).getEvent t).scheduler.isSome = true := by
      intro t ht
      have hok := hs fd t
      rw [hm.entry_eq hfd] at hok
      exact (hok.1.mp ht).1
    simp only [hi, false_or, hl, true_and]
    exact ⟨fun h t ht => (h t ht).1, fun h t ht => ⟨h t ht, hslot t (h t ht)⟩⟩

/-- A hang-up reported for a descriptor that waits only for input fails
the assertion of `triggerEvent`. -/
theorem hangup_on_read_only_aborts :
    ¬ (∀ (ops : List IoOp) (s : IOManager),
        ops.foldlM IoOp.step init = some s →
        ∀ (fd : Nat) (mask : EpollMask), fd < s.fdEvents.length →
          s.DispatchesExactly fd mask false) := by
  intro hall
  let ops : List IoOp := [.addEvent 5 .read (some 1) ⟨some 0, 0, true⟩ false]
  have hobs : (ops.foldlM IoOp.step init).map
      (fun s => (s.fdEvents.length,
        (s.dispatch 5 ⟨false, false, false, true⟩ false).isOk))
        = some (32, false) := by
    decide
  obtain ⟨s, hs, hv⟩ := Option.map_eq_some_iff.mp hobs
  obtain ⟨hlen, hout⟩ := Prod.mk.injEq .. ▸ hv
  obtain ⟨s', hs', -⟩ := hall ops s hs 5 ⟨false, false, false, true⟩
    (by omega)
  rw [hs'] at hout
  cases hout

end IOManager

end TinyServer
