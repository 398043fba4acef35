/-
What each mutex-protected section of `IOManager` can do.

A section that returns left the state alone, made one refused
`epoll_ctl` call, or made one accepted call and replaced the `FdEvent`.
`refuse` and `commit` are these two outcomes as functions of the state,
and the `*_cases` lemmas say which of them a section reaches, with the
guards it passed on the way. Everything about runs is derived from them.
-/
import TinyServer.IOManager.Basic

namespace TinyServer

-- ================================================================ event sets

namespace EventSet

/-- A set with an event is not empty. -/
theorem insert_ne_none (m : EventSet) (t : EventType) :
    m.insert t ≠ .none := by
  cases t <;> simp [insert, none]

/-- So one that has an event is not. -/
theorem ne_none_of_has {m : EventSet} {t : EventType} (h : m.has t = true) :
    m ≠ .none := by
  intro heq
  subst heq
  cases t <;> simp [has, none] at h

/-- A new event counts one more, -/
theorem card_insert {m : EventSet} {t : EventType} (h : m.has t = false) :
    (m.insert t).card = m.card + 1 := by
  obtain ⟨r, w⟩ := m
  cases t <;> cases r <;> cases w <;> first | rfl | cases h

/-- and one that goes counts one less. -/
theorem card_erase {m : EventSet} {t : EventType} (h : m.has t = true) :
    (m.erase t).card = m.card - 1 := by
  obtain ⟨r, w⟩ := m
  cases t <;> cases r <;> cases w <;> first | rfl | cases h

/-- The set of one event type. -/
def only (t : EventType) : EventSet := EventSet.none.insert t

/-- The set of one event has it. -/
theorem has_only {t : EventType} : (only t).has t = true := by
  cases t <;> rfl

/-- Taking out a set of one is erasing. -/
theorem diff_only (m : EventSet) (t : EventType) :
    m.diff (only t) = m.erase t := by
  cases t <;> simp [diff, only, insert, erase, none]

/-- Without all of its events a set is empty. -/
theorem diff_self (m : EventSet) : m.diff m = .none := by
  simp [diff, none]

/-- The events taken out are counted off. -/
theorem card_diff {m n : EventSet}
    (h : ∀ t, n.has t = true → m.has t = true) :
    (m.diff n).card = m.card - n.card := by
  obtain ⟨r, w⟩ := m
  obtain ⟨r', w'⟩ := n
  have hr : r' = true → r = true := h .read
  have hw : w' = true → w = true := h .write
  cases r <;> cases w <;> cases r' <;> cases w' <;> simp_all [diff, card]

/-- What the kernel holds for a descriptor with the events `m`. -/
def interest (m : EventSet) : Option EventSet :=
  if m = .none then Option.none else some m

/-- A set with an event is an interest. -/
theorem interest_insert (m : EventSet) (t : EventType) :
    (m.insert t).interest = some (m.insert t) :=
  if_neg (insert_ne_none m t)

end EventSet

-- ==================================================================== slots

namespace Event

/-- The task that scheduling the slot hands over, if there is one. -/
def tasks (slot : Event) : List Task :=
  match slot.cb with
  | some c => [.cb c]
  | none => (slot.fiber.map Task.fiber).toList

/-- The slot after a trigger. -/
def drained (slot : Event) : Event :=
  ⟨none, if slot.cb.isSome then slot.fiber else none, none⟩

end Event

namespace FdEvent

/-- `triggerEvent(et)` as a change of the `FdEvent`. -/
def triggered (e : FdEvent) (et : EventType) : FdEvent :=
  { e with et := e.et.erase et }.setEvent et (e.getEvent et).drained

@[simp] theorem setEvent_et (e : FdEvent) (et : EventType) (slot : Event) :
    (e.setEvent et slot).et = e.et := by
  cases et <;> rfl

@[simp] theorem setEvent_fd (e : FdEvent) (et : EventType) (slot : Event) :
    (e.setEvent et slot).fd = e.fd := by
  cases et <;> rfl

@[simp] theorem triggered_et (e : FdEvent) (et : EventType) :
    (e.triggered et).et = e.et.erase et :=
  setEvent_et _ _ _

@[simp] theorem triggered_fd (e : FdEvent) (et : EventType) :
    (e.triggered et).fd = e.fd :=
  setEvent_fd _ _ _

/-- The tasks a trigger of `et` hands to the slot's scheduler. -/
def handed (e : FdEvent) (et : EventType) : List (Nat × Task) :=
  (e.getEvent et).scheduler.toList.flatMap fun k =>
    (e.getEvent et).tasks.map fun t => (k, t)

/-- `et` can be triggered: the bit is set and the slot names a
scheduler. -/
def Ready (e : FdEvent) (et : EventType) : Prop :=
  e.et.has et = true ∧ (e.getEvent et).scheduler.isSome = true

instance (e : FdEvent) (et : EventType) : Decidable (e.Ready et) :=
  inferInstanceAs (Decidable (_ ∧ _))

/-- What a registration makes of the `FdEvent`. -/
def registered (e : FdEvent) (et : EventType) (cb : Option Nat)
    (caller : Caller) : FdEvent :=
  { e with et := e.et.insert et }.setEvent et
    ⟨caller.scheduler, if cb.isSome then none else some caller.fiber, cb⟩

/-- What triggering all of `real` makes of the `FdEvent`. -/
def fired (e : FdEvent) (real : EventSet) : FdEvent :=
  let e := if real.read then e.triggered .read else e
  if real.write then e.triggered .write else e

/-- The tasks that triggering all of `real` hands over. -/
def firedTasks (e : FdEvent) (real : EventSet) : List (Nat × Task) :=
  (if real.read then e.handed .read else [])
    ++ if real.write then e.handed .write else []

@[simp] theorem registered_et (e : FdEvent) (et : EventType)
    (cb : Option Nat) (caller : Caller) :
    (e.registered et cb caller).et = e.et.insert et :=
  setEvent_et _ _ _

@[simp] theorem registered_fd (e : FdEvent) (et : EventType)
    (cb : Option Nat) (caller : Caller) :
    (e.registered et cb caller).fd = e.fd :=
  setEvent_fd _ _ _

@[simp] theorem fired_et (e : FdEvent) (real : EventSet) :
    (e.fired real).et = e.et.diff real := by
  obtain ⟨r, w⟩ := real
  cases r <;> cases w <;> simp [fired, EventSet.diff, EventSet.erase]

@[simp] theorem fired_fd (e : FdEvent) (real : EventSet) :
    (e.fired real).fd = e.fd := by
  obtain ⟨r, w⟩ := real
  cases r <;> cases w <;> simp [fired]

end FdEvent

-- ================================================================= outcomes

namespace IOManager

/-- The state after an `epoll_ctl` call that failed. -/
def refuse (s : IOManager) (call : CtlCall) : IOManager :=
  { s with calls := s.calls ++ [call] }

/-- The state after an `epoll_ctl` call that left `entry`. -/
def accept (s : IOManager) (call : CtlCall) (entry : Option EventSet) :
    IOManager :=
  { s with
    kernel := fun f => if f = call.fd then entry else s.kernel f
    calls := s.calls ++ [call] }

/-- The state after an `epoll_ctl` call that succeeded, with the object
`p` of the descriptor `fd` replaced by `e`. -/
def commit (s : IOManager) (call : CtlCall) (p fd : Nat) (e : FdEvent)
    (tasks : List (Nat × Task)) : IOManager :=
  { s with
    objs := fun q => if q = p then e else s.objs q
    pendingEventCount :=
      s.pendingEventCount + (e.et.card - (s.objs p).et.card)
    kernel := fun f => if f = fd then e.et.interest else s.kernel f
    calls := s.calls ++ [call]
    scheduled := s.scheduled ++ tasks }

/-- The call that `ADD` or `MOD` stand for in `addEvent`. -/
def addCall (s : IOManager) (p fd : Nat) : CtlCall :=
  ⟨if (s.objs p).et = .none then .add else .mod, fd, s.kernel fd⟩

/-- The call that leaves the events `left` registered. -/
def dropCall (s : IOManager) (fd : Nat) (left : EventSet) : CtlCall :=
  ⟨if left = .none then .del else .mod, fd, s.kernel fd⟩

/-- The kernel holds the events of the object `p` for `fd`. -/
def Mirrored (s : IOManager) (p fd : Nat) : Prop :=
  s.kernel fd = (s.objs p).et.interest

/-- The call for a registration is legal. -/
theorem addCall_legal {s : IOManager} {p fd : Nat} (h : s.Mirrored p fd) :
    (s.addCall p fd).legal = true := by
  rw [Mirrored, EventSet.interest] at h
  by_cases het : (s.objs p).et = .none
  · rw [if_pos het] at h
    simp [addCall, CtlCall.legal, h, het]
  · rw [if_neg het] at h
    simp [addCall, CtlCall.legal, h, het]

/-- And so is the call that takes events away. -/
theorem dropCall_legal {s : IOManager} {p fd : Nat} {left : EventSet}
    (h : s.Mirrored p fd) (het : (s.objs p).et ≠ .none) :
    (s.dropCall fd left).legal = true := by
  rw [Mirrored, EventSet.interest, if_neg het] at h
  by_cases hl : left = .none <;> simp [dropCall, CtlCall.legal, h, hl]

-- ================================================================== epoll_ctl

/-- A call that fails changes nothing but the log. -/
theorem epollCtl_fail {s : IOManager} {op : CtlOp} {fd : Nat}
    {mask : EventSet} {f : Bool}
    (h : f = true ∨ (CtlCall.mk op fd (s.kernel fd)).legal = false) :
    s.epollCtl op fd mask f = (false, s.refuse ⟨op, fd, s.kernel fd⟩) := by
  have hc : (f || !(CtlCall.mk op fd (s.kernel fd)).legal) = true := by
    rcases h with h | h <;> simp [h]
  simp only [epollCtl, hc, if_true, refuse]

/-- One that does not sets the interest. -/
theorem epollCtl_ok {s : IOManager} {op : CtlOp} {fd : Nat}
    {mask : EventSet}
    (h : (CtlCall.mk op fd (s.kernel fd)).legal = true) :
    s.epollCtl op fd mask false
      = (true, s.accept ⟨op, fd, s.kernel fd⟩
          (if op = .del then none else some mask)) := by
  simp only [epollCtl, h, accept]
  cases op <;> simp

/-- A call fails because it was made to, or because it is illegal. -/
theorem epollCtl_cases (op : CtlOp) (fd : Nat) (f : Bool) (s : IOManager) :
    (f = true ∨ (CtlCall.mk op fd (s.kernel fd)).legal = false)
      ∨ (f = false ∧ (CtlCall.mk op fd (s.kernel fd)).legal = true) := by
  cases f <;> cases (CtlCall.mk op fd (s.kernel fd)).legal <;> simp

/-- What runs to its end, part by part. -/
theorem bind_eq_ok {α β : Type} {x : Except Abort α}
    {g : α → Except Abort β} {b : β} :
    (x >>= g) = .ok b ↔ ∃ a, x = .ok a ∧ g a = .ok b := by
  cases x <;> simp [Bind.bind, Except.bind]

-- =================================================================== triggers

/-- Triggering an event that is ready. -/
theorem triggerAndCount_ok {s : IOManager} {p : Nat} {et : EventType}
    (h : (s.objs p).Ready et) :
    s.triggerAndCount p et = .ok { s with
      objs := fun q => if q = p then (s.objs p).triggered et else s.objs q
      pendingEventCount := s.pendingEventCount - 1
      scheduled := s.scheduled ++ (s.objs p).handed et } := by
  obtain ⟨het, hs⟩ := h
  obtain ⟨k, hk⟩ := Option.isSome_iff_exists.mp hs
  simp only [triggerAndCount, triggerEvent, het, if_true, hk,
    FdEvent.triggered, FdEvent.handed, scheduleSlot, Event.tasks,
    Event.drained, setObj]
  -- the three shapes of a slot: a callback, a fiber, neither
  cases hcb : ((s.objs p).getEvent et).cb with
  | some c => simp [Bind.bind, Except.bind, Pure.pure, Except.pure]
  | none =>
      cases hf : ((s.objs p).getEvent et).fiber with
      | some fb => simp [Bind.bind, Except.bind, Pure.pure, Except.pure]
      | none => simp [Bind.bind, Except.bind, Pure.pure, Except.pure, hf, hcb]

/-- A trigger that is not ready aborts. -/
theorem triggerAndCount_abort {s : IOManager} {p : Nat} {et : EventType}
    (h : ¬ (s.objs p).Ready et) :
    ∃ a, s.triggerAndCount p et = .error a := by
  simp only [triggerAndCount, triggerEvent]
  split
  next het =>
      cases hk : ((s.objs p).getEvent et).scheduler with
      | none => exact ⟨.nullDeref, rfl⟩
      | some k => exact absurd ⟨het, by simp [hk]⟩ h
  next => exact ⟨.assertion, rfl⟩

/-- The trigger part of `dispatch`, and of `cancelAll` at the registered
events. -/
def fire (s : IOManager) (p : Nat) (real : EventSet) :
    Except Abort IOManager := do
  let s ← s.triggerIf real p .read
  s.triggerIf real p .write

/-- Triggering all that are. -/
theorem fire_ok {s : IOManager} {p : Nat} {real : EventSet}
    (h : ∀ t, real.has t = true → (s.objs p).Ready t) :
    s.fire p real = .ok { s with
      objs := fun q => if q = p then (s.objs p).fired real else s.objs q
      pendingEventCount := s.pendingEventCount - real.card
      scheduled := s.scheduled ++ (s.objs p).firedTasks real } := by
  obtain ⟨r, w⟩ := real
  cases r with
  | false =>
      cases w with
      | false =>
          have hobjs : (fun q => if q = p then s.objs p else s.objs q)
              = s.objs := by
            funext q
            split <;> simp_all
          simp [fire, triggerIf, EventSet.has, FdEvent.fired,
            FdEvent.firedTasks, EventSet.card, Bind.bind, Except.bind, hobjs]
      | true =>
          have hw := triggerAndCount_ok (h .write rfl)
          simp [fire, triggerIf, EventSet.has, FdEvent.fired,
            FdEvent.firedTasks, EventSet.card, Bind.bind, Except.bind, hw]
  | true =>
      have hr := triggerAndCount_ok (h .read rfl)
      cases w with
      | false =>
          simp [fire, triggerIf, EventSet.has, FdEvent.fired,
            FdEvent.firedTasks, EventSet.card, Bind.bind, Except.bind, hr]
      | true =>
          -- the first trigger leaves the write bit and slot alone
          have hw : ((s.objs p).triggered .read).Ready .write :=
            h .write rfl
          simp only [fire, triggerIf, EventSet.has, if_true, hr, Bind.bind,
            Except.bind]
          rw [triggerAndCount_ok (by simpa using hw), Except.ok.injEq]
          refine IOManager.ext rfl ?_ rfl ?_ rfl rfl ?_
          · funext q
            by_cases hq : q = p <;> simp [hq, FdEvent.fired]
          · show s.pendingEventCount - 1 - 1 = s.pendingEventCount - (1 + 1)
            omega
          · simp only [if_true, FdEvent.firedTasks, List.append_assoc]
            rfl

/-- A pending trigger that is not ready aborts the whole. -/
theorem fire_abort {s : IOManager} {p : Nat} {real : EventSet}
    {t : EventType} (ht : real.has t = true) (h : ¬ (s.objs p).Ready t) :
    ∃ a, s.fire p real = .error a := by
  by_cases hr : real.has .read = true ∧ ¬ (s.objs p).Ready .read
  · obtain ⟨a, ha⟩ := triggerAndCount_abort hr.2
    exact ⟨a, by simp [fire, triggerIf, hr.1, ha, Bind.bind, Except.bind]⟩
  · -- the read trigger returns, the write trigger does not
    cases t with
    | read => exact absurd ⟨ht, h⟩ hr
    | write =>
        cases hb : real.has .read with
        | false =>
            obtain ⟨a, ha⟩ := triggerAndCount_abort h
            exact ⟨a, by simp [fire, triggerIf, hb, ht, ha, Bind.bind,
              Except.bind]⟩
        | true =>
            have hready := not_not.mp fun hn => hr ⟨hb, hn⟩
            have hw : ¬ ((s.objs p).triggered .read).Ready .write := h
            simp only [fire, triggerIf, hb, ht, if_true,
              triggerAndCount_ok hready, Bind.bind, Except.bind]
            exact triggerAndCount_abort (by simpa using hw)

/-- A set of one is triggered as the event itself. -/
theorem fire_only (s : IOManager) (p : Nat) (et : EventType) :
    s.fire p (.only et) = s.triggerAndCount p et := by
  cases et with
  | read =>
      simp only [fire, triggerIf, EventSet.has, EventSet.only,
        EventSet.insert, EventSet.none, if_true, Bool.false_eq_true, if_false]
      cases s.triggerAndCount p .read <;> rfl
  | write => rfl

/-- The triggers of `cancelAll`: the second test looks at the object the
first trigger left, whose write bit is the original one. -/
theorem fire_all {s t u : IOManager} {p : Nat}
    (ht : s.triggerIf (s.objs p).et p .read = .ok t)
    (hu : t.triggerIf (t.objs p).et p .write = .ok u) :
    s.fire p (s.objs p).et = .ok u := by
  have hw : (t.objs p).et.has .write = (s.objs p).et.has .write := by
    unfold triggerIf at ht
    split at ht
    next =>
        by_cases hready : (s.objs p).Ready .read
        · rw [triggerAndCount_ok hready, Except.ok.injEq] at ht
          rw [← ht]
          simp [EventSet.erase, EventSet.has]
        · obtain ⟨a, ha⟩ := triggerAndCount_abort hready
          rw [ha] at ht
          cases ht
    next =>
        cases ht
        rfl
  rw [triggerIf, hw] at hu
  exact bind_eq_ok.mpr ⟨t, ht, hu⟩

-- =================================================================== sections

variable {s s' : IOManager} {p fd : Nat} {et : EventType} {f : Bool}

/-- The interest mask that `epoll_ctl` leaves, where `op` is chosen by
whether events are left. -/
theorem drop_entry (left : EventSet) :
    (if (if left = .none then CtlOp.del else CtlOp.mod) = .del
      then Option.none else some left) = left.interest := by
  unfold EventSet.interest
  by_cases h : left = .none <;> simp [h]

/-- `addEvent` under the mutex: refused, or the event is registered in an
empty slot. -/
theorem addSection_cases {cb : Option Nat} {caller : Caller} {r : Int}
    (h : s.addSection p fd et cb caller f = .ok (r, s')) :
    (s.objs p).et.has et = false ∧
      ((r = -1 ∧ (f = true ∨ (s.addCall p fd).legal = false)
          ∧ s' = s.refuse (s.addCall p fd))
        ∨ (r = 0 ∧ f = false ∧ (s.addCall p fd).legal = true
          ∧ (s.objs p).getEvent et = .empty
          ∧ (cb.isSome = true ∨ caller.exec = true)
          ∧ s' = s.commit (s.addCall p fd) p fd
              ((s.objs p).registered et cb caller) [])) := by
  unfold addSection at h
  cases het : (s.objs p).et.has et with
  | true => simp [het] at h
  | false =>
      refine ⟨rfl, ?_⟩
      simp only [het, Bool.false_eq_true, if_false] at h
      rcases epollCtl_cases (if (s.objs p).et = .none then .add else .mod)
        fd f s with hbad | ⟨rfl, hok⟩
      · rw [epollCtl_fail hbad] at h
        simp only [Bool.false_eq_true, if_false, Except.ok.injEq,
          Prod.mk.injEq] at h
        exact .inl ⟨h.1.symm, hbad, h.2.symm⟩
      · rw [epollCtl_ok hok] at h
        have hget : { s.objs p with et := (s.objs p).et.insert et }.getEvent et
            = (s.objs p).getEvent et := by
          cases et <;> rfl
        have hop : ¬ (if (s.objs p).et = .none then CtlOp.add else .mod)
            = .del := by
          split <;> simp
        simp only [if_true, hget, hop, if_false] at h
        split at h
        next => cases h
        next hempty =>
          have hslot := not_not.mp hempty
          have hcard : (1 : Int) = ((s.objs p).registered et cb caller).et.card
              - (s.objs p).et.card := by
            rw [FdEvent.registered_et, EventSet.card_insert het]
            omega
          have hentry : some ((s.objs p).et.insert et)
              = ((s.objs p).registered et cb caller).et.interest := by
            rw [FdEvent.registered_et, EventSet.interest_insert]
          cases cb with
          | some c =>
              simp only [Except.ok.injEq, Prod.mk.injEq] at h
              refine .inr ⟨h.1.symm, rfl, hok, hslot, .inl rfl,
                h.2.symm.trans ?_⟩
              exact IOManager.ext rfl rfl rfl
                (congrArg (s.pendingEventCount + ·) hcard)
                (by rw [hentry]; rfl) rfl (List.append_nil _).symm
          | none =>
              simp only at h
              split at h
              next hexec =>
                simp only [Except.ok.injEq, Prod.mk.injEq] at h
                refine .inr ⟨h.1.symm, rfl, hok, hslot, .inr hexec,
                  h.2.symm.trans ?_⟩
                exact IOManager.ext rfl rfl rfl
                  (congrArg (s.pendingEventCount + ·) hcard)
                  (by rw [hentry]; rfl) rfl (List.append_nil _).symm
              next => cases h

/-- On a clear bit with an empty slot `addEvent` fails no assertion. -/
theorem addSection_returns {cb : Option Nat} {caller : Caller}
    (hbit : (s.objs p).et.has et = false)
    (hslot : (s.objs p).getEvent et = .empty)
    (hcb : cb.isSome = true ∨ caller.exec = true) :
    ∃ r, s.addSection p fd et cb caller f = .ok r := by
  unfold addSection
  have hget : { s.objs p with et := (s.objs p).et.insert et }.getEvent et
      = (s.objs p).getEvent et := by
    cases et <;> rfl
  simp only [hbit, Bool.false_eq_true, if_false, hget, hslot, ne_eq,
    not_true]
  generalize s.epollCtl _ fd _ f = r
  cases r.1 with
  | false => exact ⟨_, rfl⟩
  | true =>
      cases cb with
      | some c => exact ⟨_, rfl⟩
      | none =>
          have hexec : caller.exec = true := by simpa using hcb
          simp only [hexec]
          exact ⟨_, rfl⟩

/-- `delEvent` under the mutex: nothing registered, refused, or the bit
is cleared and the slot is not. -/
theorem delSection_cases {r : Bool}
    (h : s.delSection p fd et f = .ok (r, s')) :
    (r = false ∧ (s.objs p).et.has et = false ∧ s' = s)
      ∨ (s.objs p).et.has et = true ∧
        ((r = false
            ∧ (f = true
              ∨ (s.dropCall fd ((s.objs p).et.erase et)).legal = false)
            ∧ s' = s.refuse (s.dropCall fd ((s.objs p).et.erase et)))
          ∨ (r = true ∧ f = false
            ∧ (s.dropCall fd ((s.objs p).et.erase et)).legal = true
            ∧ s' = s.commit (s.dropCall fd ((s.objs p).et.erase et)) p fd
                { s.objs p with et := (s.objs p).et.erase et } [])) := by
  unfold delSection at h
  cases het : (s.objs p).et.has et with
  | false =>
      simp only [het, Bool.false_eq_true, if_false, Except.ok.injEq,
        Prod.mk.injEq] at h
      exact .inl ⟨h.1.symm, rfl, h.2.symm⟩
  | true =>
      refine .inr ⟨rfl, ?_⟩
      simp only [het, if_true] at h
      rcases epollCtl_cases
        (if (s.objs p).et.erase et = .none then .del else .mod) fd f s with
        hbad | ⟨rfl, hok⟩
      · rw [epollCtl_fail hbad] at h
        simp only [Bool.false_eq_true, if_false, Except.ok.injEq,
          Prod.mk.injEq] at h
        exact .inl ⟨h.1.symm, hbad, h.2.symm⟩
      · rw [epollCtl_ok hok] at h
        simp only [if_true, drop_entry, Except.ok.injEq,
          Prod.mk.injEq] at h
        refine .inr ⟨h.1.symm, rfl, hok, h.2.symm.trans ?_⟩
        refine IOManager.ext rfl rfl rfl ?_ rfl rfl (List.append_nil _).symm
        show s.pendingEventCount - 1 = _ + (_ - _)
        rw [EventSet.card_erase het]
        omega

/-- `commit` after a successful `epoll_ctl` and the triggers of `real`. -/
theorem fire_commit {call : CtlCall} {entry : Option EventSet}
    {real : EventSet} (hentry : entry = ((s.objs p).et.diff real).interest)
    (h : (s.accept call entry).fire p real = .ok s') :
    (∀ t, real.has t = true → (s.objs p).Ready t)
      ∧ s' = s.commit call p call.fd ((s.objs p).fired real)
          ((s.objs p).firedTasks real) := by
  have hready : ∀ t, real.has t = true → (s.objs p).Ready t := by
    intro t ht
    by_contra hno
    obtain ⟨a, ha⟩ := @fire_abort (s.accept call entry) p real t ht hno
    rw [ha] at h
    cases h
  refine ⟨hready, ?_⟩
  rw [@fire_ok (s.accept call entry) p real hready, Except.ok.injEq] at h
  refine h.symm.trans (IOManager.ext rfl rfl rfl ?_ ?_ rfl rfl)
  · show s.pendingEventCount - real.card = _ + (_ - _)
    rw [FdEvent.fired_et, EventSet.card_diff fun t ht => (hready t ht).1]
    omega
  · rw [hentry, ← FdEvent.fired_et]
    rfl

/-- `cancelEvent` under the mutex: nothing registered, refused, or the
event is triggered. -/
theorem cancelSection_cases {r : Bool}
    (h : s.cancelSection p fd et f = .ok (r, s')) :
    (r = false ∧ (s.objs p).et.has et = false ∧ s' = s)
      ∨ (s.objs p).et.has et = true ∧
        ((r = false
            ∧ (f = true
              ∨ (s.dropCall fd ((s.objs p).et.erase et)).legal = false)
            ∧ s' = s.refuse (s.dropCall fd ((s.objs p).et.erase et)))
          ∨ (r = true ∧ f = false
            ∧ (s.dropCall fd ((s.objs p).et.erase et)).legal = true
            ∧ (s.objs p).Ready et
            ∧ s' = s.commit (s.dropCall fd ((s.objs p).et.erase et)) p fd
                ((s.objs p).fired (.only et))
                ((s.objs p).firedTasks (.only et)))) := by
  unfold cancelSection at h
  cases het : (s.objs p).et.has et with
  | false =>
      simp only [het, Bool.false_eq_true, if_false, Except.ok.injEq,
        Prod.mk.injEq] at h
      exact .inl ⟨h.1.symm, rfl, h.2.symm⟩
  | true =>
      refine .inr ⟨rfl, ?_⟩
      simp only [het, if_true] at h
      rcases epollCtl_cases
        (if (s.objs p).et.erase et = .none then .del else .mod) fd f s with
        hbad | ⟨rfl, hok⟩
      · rw [epollCtl_fail hbad] at h
        simp only [Bool.false_eq_true, if_false, Except.ok.injEq,
          Prod.mk.injEq] at h
        exact .inl ⟨h.1.symm, hbad, h.2.symm⟩
      · rw [epollCtl_ok hok] at h
        simp only [if_true, drop_entry] at h
        obtain ⟨t, ht, hrt⟩ := bind_eq_ok.mp h
        rw [← fire_only] at ht
        obtain ⟨hready, rfl⟩ := fire_commit (by rw [EventSet.diff_only]) ht
        simp only [Pure.pure, Except.pure, Except.ok.injEq,
          Prod.mk.injEq] at hrt
        exact .inr ⟨hrt.1.symm, rfl, hok, hready et EventSet.has_only,
          hrt.2.symm⟩

/-- `cancelAll` under the mutex: nothing registered, refused, or all that
is registered is triggered. -/
theorem cancelAllSection_cases {r : Bool}
    (h : s.cancelAllSection p fd f = .ok (r, s')) :
    (r = false ∧ (s.objs p).et = .none ∧ s' = s)
      ∨ (s.objs p).et ≠ .none ∧
        ((r = false ∧ (f = true ∨ (s.dropCall fd .none).legal = false)
            ∧ s' = s.refuse (s.dropCall fd .none))
          ∨ (r = true ∧ f = false ∧ (s.dropCall fd .none).legal = true
            ∧ (∀ t, (s.objs p).et.has t = true → (s.objs p).Ready t)
            ∧ s' = s.commit (s.dropCall fd .none) p fd
                ((s.objs p).fired (s.objs p).et)
                ((s.objs p).firedTasks (s.objs p).et))) := by
  unfold cancelAllSection at h
  by_cases het : (s.objs p).et = .none
  · simp only [het, if_true, Except.ok.injEq, Prod.mk.injEq] at h
    exact .inl ⟨h.1.symm, het, h.2.symm⟩
  · refine .inr ⟨het, ?_⟩
    simp only [het, if_false] at h
    rcases epollCtl_cases .del fd f s with hbad | ⟨rfl, hok⟩
    · rw [epollCtl_fail hbad] at h
      simp only [Bool.false_eq_true, if_false, Except.ok.injEq,
        Prod.mk.injEq] at h
      exact .inl ⟨h.1.symm, hbad, h.2.symm⟩
    · rw [epollCtl_ok hok] at h
      simp only [if_true] at h
      obtain ⟨t, ht, h⟩ := bind_eq_ok.mp h
      obtain ⟨u, hu, hru⟩ := bind_eq_ok.mp h
      have hnone : none = ((s.objs p).et.diff (s.objs p).et).interest := by
        rw [EventSet.diff_self]
        rfl
      obtain ⟨hready, rfl⟩ := fire_commit hnone (fire_all ht hu)
      split at hru
      next =>
        simp only [Pure.pure, Except.pure, Except.ok.injEq,
          Prod.mk.injEq] at hru
        exact .inr ⟨hru.1.symm, rfl, hok, hready, hru.2.symm⟩
      next => cases hru

/-- One iteration of the dispatch loop: nothing of what is registered was
reported, refused, or all that was reported is triggered. -/
theorem dispatch_cases {mask : EpollMask}
    (h : s.dispatch p mask f = .ok s') :
    (mask.realEventType.inter (s.objs p).et = .none ∧ s' = s)
      ∨ mask.realEventType.inter (s.objs p).et ≠ .none ∧
        (((f = true ∨ (s.dropCall (s.objs p).fd
              ((s.objs p).et.diff mask.realEventType)).legal = false)
            ∧ s' = s.refuse (s.dropCall (s.objs p).fd
                ((s.objs p).et.diff mask.realEventType)))
          ∨ (f = false
            ∧ (s.dropCall (s.objs p).fd
                ((s.objs p).et.diff mask.realEventType)).legal = true
            ∧ (∀ t, mask.realEventType.has t = true → (s.objs p).Ready t)
            ∧ s' = s.commit (s.dropCall (s.objs p).fd
                ((s.objs p).et.diff mask.realEventType)) p (s.objs p).fd
                ((s.objs p).fired mask.realEventType)
                ((s.objs p).firedTasks mask.realEventType))) := by
  unfold dispatch at h
  by_cases hi : mask.realEventType.inter (s.objs p).et = .none
  · simp only [hi, if_true, Except.ok.injEq] at h
    exact .inl ⟨hi, h.symm⟩
  · refine .inr ⟨hi, ?_⟩
    simp only [hi, if_false] at h
    rcases epollCtl_cases (if (s.objs p).et.diff mask.realEventType = .none
      then .del else .mod) (s.objs p).fd f s with hbad | ⟨rfl, hok⟩
    · rw [epollCtl_fail hbad] at h
      simp only [Bool.false_eq_true, if_false, Except.ok.injEq] at h
      exact .inl ⟨hbad, h.symm⟩
    · rw [epollCtl_ok hok] at h
      simp only [if_true, drop_entry] at h
      obtain ⟨hready, hs'⟩ := fire_commit rfl h
      exact .inr ⟨rfl, hok, hready, hs'⟩

end IOManager

end TinyServer
