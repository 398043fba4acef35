/-
The kernel's interest list and the pending count follow the event table.

`Mirror` is the invariant of a run: the table is the identity on object
numbers (it never shrinks when operations run one after the other, since
`fd >= size >= 32` makes `fd * 1.5` larger than `fd`), every object knows
its descriptor, the kernel holds exactly the registered events, the
counter is the number of registered bits, and every `epoll_ctl` call so
far was legal.

`apply_cases` is the inversion of one operation, from which the invariant
(and the slot invariant in `Slots.lean`) is derived.
-/
import TinyServer.IOManager.Proofs.Sections
import TinyServer.Lib.Run
import TinyServer.Lib.Range

namespace TinyServer

-- ================================================================ the entries

namespace IOManager

/-- The `FdEvent` of a descriptor; past the end of the table nothing is
registered. -/
def entry (s : IOManager) (fd : Nat) : FdEvent :=
  s.fdEvents[fd]?.elim (FdEvent.new fd) s.objs

/-- The number of set bits over all entries. -/
def registeredBits (s : IOManager) : Int :=
  (s.fdEvents.map fun p => (s.objs p).et.card).sum

/-- The table in which `addEvent` looks up `fd`. -/
def grownFor (s : IOManager) (fd : Nat) : IOManager :=
  if fd < s.fdEvents.length then s else s.eventResize (fd * 3 / 2)

/-- The invariant of sequential runs. -/
structure Mirror (s : IOManager) : Prop where
  size : 32 ≤ s.fdEvents.length
  table : s.fdEvents = List.range s.fdEvents.length
  next : s.nextObj = s.fdEvents.length
  objFd : ∀ p < s.fdEvents.length, (s.objs p).fd = p
  kernel : ∀ fd, s.kernel fd = (s.entry fd).et.interest
  count : s.pendingEventCount = s.registeredBits
  legal : ∀ c ∈ s.calls, c.legal = true

end IOManager

namespace IoOp

open IOManager

def fd : IoOp → Nat
  | .addEvent fd .. => fd
  | .delEvent fd .. => fd
  | .cancelEvent fd .. => fd
  | .cancelAll fd .. => fd
  | .deliver fd .. => fd

/-- The state in which the operation looks up its `FdEvent`. -/
def grown (s : IOManager) : IoOp → IOManager
  | .addEvent fd .. => s.grownFor fd
  | _ => s

/-- What the operation makes of its `FdEvent` once `epoll_ctl` has
succeeded. -/
def result : IoOp → FdEvent → FdEvent
  | .addEvent _ et cb caller _, e => e.registered et cb caller
  | .delEvent _ et _, e => { e with et := e.et.erase et }
  | .cancelEvent _ et _, e => e.fired (.only et)
  | .cancelAll _ _, e => e.fired e.et
  | .deliver _ mask _, e => e.fired mask.realEventType

/-- The guards passed by an operation that changed its `FdEvent`. -/
def Commits : IoOp → FdEvent → Prop
  | .addEvent _ et cb caller _, e =>
      e.et.has et = false ∧ e.getEvent et = .empty
        ∧ (cb.isSome = true ∨ caller.exec = true)
  | .delEvent _ et _, e => e.et.has et = true
  | .cancelEvent _ et _, e => e.Ready et
  | .cancelAll _ _, e => ∀ t, e.et.has t = true → e.Ready t
  | .deliver _ mask _, e =>
      ∀ t, mask.realEventType.has t = true → e.Ready t

/-- The operation finds nothing of its own registered and returns. -/
def Quiet : IoOp → FdEvent → Prop
  | .addEvent .., _ => False
  | .delEvent _ et _, e => e.et.has et = false
  | .cancelEvent _ et _, e => e.et.has et = false
  | .cancelAll _ _, e => e.et = .none
  | .deliver _ mask _, e => mask.realEventType.inter e.et = .none

/-- One call of a run, when it returns. -/
def step (s : IOManager) (op : IoOp) : Option IOManager :=
  (op.apply s).toOption

theorem step_eq_some {s s' : IOManager} {op : IoOp} :
    op.step s = some s' ↔ op.apply s = .ok s' := by
  unfold step
  cases op.apply s <;> simp [Except.toOption]

end IoOp

namespace IOManager

variable {s s' : IOManager}

-- ================================================================= the lookup

theorem Mirror.lookup (hm : s.Mirror) {fd : Nat}
    (h : fd < s.fdEvents.length) : s.fdEvents[fd]? = some fd := by
  rw [hm.table, List.getElem?_range h]

theorem Mirror.entry_eq (hm : s.Mirror) {fd : Nat}
    (h : fd < s.fdEvents.length) : s.entry fd = s.objs fd := by
  rw [entry, hm.lookup h]
  rfl

theorem entry_past {fd : Nat} (h : s.fdEvents.length ≤ fd) :
    s.entry fd = FdEvent.new fd := by
  rw [entry, List.getElem?_eq_none h]
  rfl

theorem Mirror.mirrored (hm : s.Mirror) {fd : Nat}
    (h : fd < s.fdEvents.length) : s.Mirrored fd fd := by
  rw [Mirrored, hm.kernel, hm.entry_eq h]

-- =================================================================== growth

/-- Growing a table that is too short for `fd` reaches past `fd`. -/
theorem target_gt (hm : s.Mirror) {fd : Nat}
    (h : ¬ fd < s.fdEvents.length) : fd < fd * 3 / 2 := by
  have := hm.size
  omega

theorem range_append_map (n k : Nat) :
    List.range n ++ (List.range k).map (n + ·) = List.range (n + k) := by
  rw [List.range_add]

/-- `eventResize` to a larger size keeps the invariant and every entry. -/
theorem Mirror.eventResize (hm : s.Mirror) {size : Nat}
    (h : s.fdEvents.length ≤ size) :
    (s.eventResize size).Mirror
      ∧ (s.eventResize size).fdEvents.length = size
      ∧ ∀ fd, (s.eventResize size).entry fd = s.entry fd := by
  obtain ⟨k, rfl⟩ := Nat.exists_eq_add_of_le h
  have htable : (s.eventResize (s.fdEvents.length + k)).fdEvents
      = List.range (s.fdEvents.length + k) := by
    rw [← range_append_map, ← hm.table]
    simp [IOManager.eventResize, hm.next]
  have hobjs : ∀ q, (s.eventResize (s.fdEvents.length + k)).objs q
      = if s.fdEvents.length ≤ q ∧ q < s.fdEvents.length + k
        then FdEvent.new q else s.objs q := by
    intro q
    simp only [IOManager.eventResize, hm.next, Nat.add_sub_cancel_left]
    split
    next hq => rw [Nat.add_sub_cancel' hq.1]
    next => rfl
  have hlen : (s.eventResize (s.fdEvents.length + k)).fdEvents.length
      = s.fdEvents.length + k := by
    rw [htable, List.length_range]
  have hentry : ∀ fd, (s.eventResize (s.fdEvents.length + k)).entry fd
      = s.entry fd := by
    intro fd
    by_cases hfd : fd < s.fdEvents.length + k
    · rw [entry, htable, List.getElem?_range hfd, Option.elim, hobjs]
      split
      next hq => rw [entry_past hq.1]
      next hq => rw [hm.entry_eq (by omega)]
    · rw [entry_past (by omega), entry_past (by omega)]
  refine ⟨⟨?_, ?_, ?_, ?_, ?_, ?_, hm.legal⟩, hlen, hentry⟩
  · have := hm.size
    omega
  · rw [hlen, htable]
  · rw [hlen]
    simp [IOManager.eventResize, hm.next]
  · intro p hp
    rw [hobjs]
    split
    next => rfl
    next hq => exact hm.objFd p (by omega)
  · intro fd
    rw [hentry]
    exact hm.kernel fd
  · -- the new entries register nothing
    have hbits : s.registeredBits
        = ((List.range s.fdEvents.length).map
            fun p => ((s.eventResize (s.fdEvents.length + k)).objs p).et.card
          ).sum := by
      rw [registeredBits]
      conv_lhs => rw [hm.table]
      congr 1
      refine List.map_congr_left fun p hp => ?_
      rw [hobjs, if_neg (by have := List.mem_range.mp hp; omega)]
    have hnew : ∀ q, s.fdEvents.length ≤ q → q < s.fdEvents.length + k →
        ((s.eventResize (s.fdEvents.length + k)).objs q).et.card = 0 := by
      intro q h1 h2
      rw [hobjs, if_pos ⟨h1, h2⟩]
      rfl
    rw [registeredBits, htable, Lib.sum_range_add_zero _ _ _ hnew, ← hbits]
    exact hm.count

theorem Mirror.grownFor (hm : s.Mirror) (fd : Nat) :
    (s.grownFor fd).Mirror ∧ fd < (s.grownFor fd).fdEvents.length
      ∧ ∀ g, (s.grownFor fd).entry g = s.entry g := by
  unfold IOManager.grownFor
  split
  next h => exact ⟨hm, h, fun _ => rfl⟩
  next h =>
      have hgt := target_gt hm h
      have hle : s.fdEvents.length ≤ fd * 3 / 2 := by omega
      obtain ⟨hm', hlen, hentry⟩ := hm.eventResize hle
      exact ⟨hm', by omega, hentry⟩

-- ================================================================= outcomes

theorem Mirror.refuse (hm : s.Mirror) {call : CtlCall}
    (hl : call.legal = true) : (s.refuse call).Mirror := by
  refine ⟨hm.size, hm.table, hm.next, hm.objFd, hm.kernel, hm.count, ?_⟩
  intro c hc
  rcases List.mem_append.mp hc with hc | hc
  · exact hm.legal c hc
  · rw [List.mem_singleton.mp hc]
    exact hl

/-- The entries after a commit: only the one of `fd` is replaced. -/
theorem Mirror.commit_entry (hm : s.Mirror) {call : CtlCall} {fd g : Nat}
    {e : FdEvent} {tasks : List (Nat × Task)}
    (hfd : fd < s.fdEvents.length) :
    (s.commit call fd fd e tasks).entry g
      = if g = fd then e else s.entry g := by
  by_cases hg : g < s.fdEvents.length
  · rw [hm.entry_eq hg, entry]
    show Option.elim s.fdEvents[g]? _ _ = _
    rw [hm.lookup hg]
    rfl
  · rw [entry_past (Nat.le_of_not_lt hg), if_neg (by omega)]
    exact entry_past (Nat.le_of_not_lt hg)

theorem Mirror.commit (hm : s.Mirror) {call : CtlCall} {fd : Nat}
    {e : FdEvent} {tasks : List (Nat × Task)} (hl : call.legal = true)
    (hfd : fd < s.fdEvents.length) (he : e.fd = fd) :
    (s.commit call fd fd e tasks).Mirror := by
  refine ⟨hm.size, hm.table, hm.next, ?_, ?_, ?_, (hm.refuse hl).legal⟩
  · intro p hp
    show FdEvent.fd (if p = fd then e else s.objs p) = p
    split
    next h => rw [he, h]
    next => exact hm.objFd p hp
  · intro g
    rw [hm.commit_entry hfd]
    show (if g = fd then e.et.interest else s.kernel g) = _
    split
    next => rfl
    next => exact hm.kernel g
  · have hobjs : ∀ q, q ≠ fd →
        ((s.commit call fd fd e tasks).objs q).et.card
          = (s.objs q).et.card := by
      intro q hq
      simp [IOManager.commit, hq]
    have hsum := Lib.sum_range_update (f := fun q => (s.objs q).et.card)
      (g := fun q => ((s.commit call fd fd e tasks).objs q).et.card)
      hfd hobjs
    rw [← hm.table] at hsum
    refine Eq.trans ?_ hsum.symm
    show s.pendingEventCount + _ = _
    rw [hm.count, registeredBits]
    simp [IOManager.commit]

-- ============================================================ one operation

private theorem map_eq_ok {α β : Type} {x : Except Abort α} {g : α → β}
    {b : β} : g <$> x = .ok b ↔ ∃ a, x = .ok a ∧ g a = b := by
  cases x <;> simp [Functor.map, Except.map]

/-- A refused call was made to fail, since a mirrored call is legal. -/
private theorem refused {c : CtlCall} {f : Bool} (hl : c.legal = true)
    (h : f = true ∨ c.legal = false) : f = true := by
  rcases h with h | h
  · exact h
  · rw [hl] at h
    cases h

/-- Everything one returning operation can do. -/
theorem apply_cases {op : IoOp} (hm : s.Mirror) (h : op.apply s = .ok s') :
    (op.Quiet (s.entry op.fd) ∧ s' = s)
      ∨ (op.ctlFails = true
        ∧ ∃ call, call.legal = true ∧ s' = (op.grown s).refuse call)
      ∨ (op.ctlFails = false ∧ op.fd < (op.grown s).fdEvents.length
        ∧ op.Commits ((op.grown s).objs op.fd)
        ∧ ∃ call tasks, call.legal = true
          ∧ s' = (op.grown s).commit call op.fd op.fd
              (op.result ((op.grown s).objs op.fd)) tasks) := by
  cases op with
  | addEvent fd et cb caller f =>
      obtain ⟨hm', hlt, -⟩ := hm.grownFor fd
      obtain ⟨⟨r, t⟩, hret, rfl⟩ := map_eq_ok.mp h
      have hsec : (s.grownFor fd).addSection fd fd et cb caller f
          = .ok (r, t) := by
        have hlook := hm'.lookup hlt
        unfold IOManager.grownFor at hlook ⊢
        simpa only [addEvent, hlook] using hret
      have hl := addCall_legal (hm'.mirrored hlt)
      obtain ⟨hbit, ⟨-, hf, ht⟩ | ⟨-, hf, -, hslot, hcb, ht⟩⟩ :=
        addSection_cases hsec
      · exact .inr (.inl ⟨refused hl hf, _, hl, ht⟩)
      · exact .inr (.inr ⟨hf, hlt, ⟨hbit, hslot, hcb⟩, _, _, hl, ht⟩)
  | delEvent fd et f =>
      obtain ⟨⟨r, t⟩, hret, rfl⟩ := map_eq_ok.mp h
      rcases Nat.lt_or_ge fd s.fdEvents.length with hlt | hge
      · simp only [delEvent, hm.lookup hlt] at hret
        rcases delSection_cases hret with ⟨-, hbit, ht⟩ | ⟨het, hrest⟩
        · exact .inl ⟨(hm.entry_eq hlt).symm ▸ hbit, ht⟩
        · have hl := @dropCall_legal _ _ _ ((s.objs fd).et.erase et)
            (hm.mirrored hlt) (EventSet.ne_none_of_has het)
          rcases hrest with ⟨-, hf, ht⟩ | ⟨-, hf, -, ht⟩
          · exact .inr (.inl ⟨refused hl hf, _, hl, ht⟩)
          · exact .inr (.inr ⟨hf, hlt, het, _, _, hl, ht⟩)
      · simp only [delEvent, List.getElem?_eq_none hge, Except.ok.injEq,
          Prod.mk.injEq] at hret
        exact .inl ⟨by rw [IoOp.fd, entry_past hge]; cases et <;> rfl,
          hret.2.symm⟩
  | cancelEvent fd et f =>
      obtain ⟨⟨r, t⟩, hret, rfl⟩ := map_eq_ok.mp h
      rcases Nat.lt_or_ge fd s.fdEvents.length with hlt | hge
      · simp only [cancelEvent, hm.lookup hlt] at hret
        rcases cancelSection_cases hret with ⟨-, hbit, ht⟩ | ⟨het, hrest⟩
        · exact .inl ⟨(hm.entry_eq hlt).symm ▸ hbit, ht⟩
        · have hl := @dropCall_legal _ _ _ ((s.objs fd).et.erase et)
            (hm.mirrored hlt) (EventSet.ne_none_of_has het)
          rcases hrest with ⟨-, hf, ht⟩ | ⟨-, hf, -, hready, ht⟩
          · exact .inr (.inl ⟨refused hl hf, _, hl, ht⟩)
          · exact .inr (.inr ⟨hf, hlt, hready, _, _, hl, ht⟩)
      · simp only [cancelEvent, List.getElem?_eq_none hge, Except.ok.injEq,
          Prod.mk.injEq] at hret
        exact .inl ⟨by rw [IoOp.fd, entry_past hge]; cases et <;> rfl,
          hret.2.symm⟩
  | cancelAll fd f =>
      obtain ⟨⟨r, t⟩, hret, rfl⟩ := map_eq_ok.mp h
      rcases Nat.lt_or_ge fd s.fdEvents.length with hlt | hge
      · simp only [cancelAll, hm.lookup hlt] at hret
        rcases cancelAllSection_cases hret with ⟨-, hbit, ht⟩ | ⟨het, hrest⟩
        · exact .inl ⟨(hm.entry_eq hlt).symm ▸ hbit, ht⟩
        · have hl := @dropCall_legal _ _ _ .none (hm.mirrored hlt) het
          rcases hrest with ⟨-, hf, ht⟩ | ⟨-, hf, -, hready, ht⟩
          · exact .inr (.inl ⟨refused hl hf, _, hl, ht⟩)
          · exact .inr (.inr ⟨hf, hlt, hready, _, _, hl, ht⟩)
      · simp only [cancelAll, List.getElem?_eq_none hge, Except.ok.injEq,
          Prod.mk.injEq] at hret
        exact .inl ⟨by rw [IoOp.fd, entry_past hge]; rfl, hret.2.symm⟩
  | deliver fd mask f =>
      rcases Nat.lt_or_ge fd s.fdEvents.length with hlt | hge
      · simp only [IoOp.apply, hm.lookup hlt] at h
        rcases dispatch_cases h with ⟨hbit, ht⟩ | ⟨hi, hrest⟩
        · exact .inl ⟨(hm.entry_eq hlt).symm ▸ hbit, ht⟩
        · have het : (s.objs fd).et ≠ .none := by
            intro h0
            rw [h0] at hi
            exact hi (by simp [EventSet.inter, EventSet.none])
          rw [hm.objFd fd hlt] at hrest
          have hl := @dropCall_legal _ _ _
            ((s.objs fd).et.diff mask.realEventType) (hm.mirrored hlt) het
          rcases hrest with ⟨hf, ht⟩ | ⟨hf, -, hready, ht⟩
          · exact .inr (.inl ⟨refused hl hf, _, hl, ht⟩)
          · exact .inr (.inr ⟨hf, hlt, hready, _, _, hl, ht⟩)
      · simp only [IoOp.apply, List.getElem?_eq_none hge,
          Except.ok.injEq] at h
        refine .inl ⟨?_, h.symm⟩
        rw [IoOp.fd, entry_past hge]
        simp [IoOp.Quiet, FdEvent.new, EventSet.inter, EventSet.none]

/-- The entry of an operation that changed it keeps its descriptor. -/
theorem result_fd (op : IoOp) (e : FdEvent) : (op.result e).fd = e.fd := by
  cases op <;> simp [IoOp.result]

theorem Mirror.grown (hm : s.Mirror) (op : IoOp) :
    (op.grown s).Mirror ∧ ∀ g, (op.grown s).entry g = s.entry g := by
  cases op with
  | addEvent fd et cb caller f =>
      obtain ⟨hm', -, hentry⟩ := hm.grownFor fd
      exact ⟨hm', hentry⟩
  | delEvent => exact ⟨hm, fun _ => rfl⟩
  | cancelEvent => exact ⟨hm, fun _ => rfl⟩
  | cancelAll => exact ⟨hm, fun _ => rfl⟩
  | deliver => exact ⟨hm, fun _ => rfl⟩

/-- Growing the table touches neither the kernel nor the counter. -/
theorem grown_frame (op : IoOp) (s : IOManager) :
    (op.grown s).kernel = s.kernel
      ∧ (op.grown s).pendingEventCount = s.pendingEventCount
      ∧ (op.grown s).scheduled = s.scheduled := by
  cases op with
  | addEvent fd et cb caller f =>
      simp only [IoOp.grown, grownFor]
      split <;> exact ⟨rfl, rfl, rfl⟩
  | delEvent => exact ⟨rfl, rfl, rfl⟩
  | cancelEvent => exact ⟨rfl, rfl, rfl⟩
  | cancelAll => exact ⟨rfl, rfl, rfl⟩
  | deliver => exact ⟨rfl, rfl, rfl⟩

/-- One operation keeps the invariant. -/
theorem Mirror.step {op : IoOp} (hm : s.Mirror)
    (h : op.step s = some s') : s'.Mirror := by
  obtain ⟨hg, -⟩ := hm.grown op
  rcases apply_cases hm (IoOp.step_eq_some.mp h) with
    ⟨-, rfl⟩ | ⟨-, call, hl, rfl⟩ | ⟨-, hlt, -, call, tasks, hl, rfl⟩
  · exact hm
  · exact hg.refuse hl
  · refine hg.commit hl hlt ?_
    rw [result_fd, hg.objFd _ hlt]

theorem mirror_init : init.Mirror := by
  refine ⟨by decide, by decide, by decide, by decide, ?_, by decide,
    by decide⟩
  intro fd
  rcases Nat.lt_or_ge fd 32 with h | h
  · revert fd
    decide
  · rw [entry_past (s := init) h]
    rfl

/-- Every state of a run keeps the invariant. -/
theorem mirror_run {ops : List IoOp}
    (h : ops.foldlM IoOp.step init = some s) : s.Mirror :=
  Lib.run_inv (fun hm hs => Mirror.step hm hs) ops mirror_init h

-- ================================================================ the mirror

/-- In every state that a run of `addEvent`, `delEvent`, `cancelEvent`,
`cancelAll` and event deliveries reaches, the kernel's interest mask of
every descriptor is its `et`, the pending count is the number of set
bits, and every `epoll_ctl` call so far was legal when it was made. An
operation whose `epoll_ctl` fails changes no entry, no interest mask and
not the count. -/
theorem kernel_and_count_mirror_table {ops : List IoOp}
    (hrun : ops.foldlM IoOp.step init = some s) :
    (∀ fd, s.kernel fd = (s.entry fd).et.interest)
      ∧ (∀ c ∈ s.calls, c.legal = true)
      ∧ s.pendingEventCount
          = (s.fdEvents.map fun p => (s.objs p).et.card).sum
      ∧ ∀ (op : IoOp) (s' : IOManager), op.step s = some s' →
          op.ctlFails = true →
          (∀ fd, s'.entry fd = s.entry fd) ∧ s'.kernel = s.kernel
            ∧ s'.pendingEventCount = s.pendingEventCount
            ∧ s'.scheduled = s.scheduled := by
  have hm := mirror_run hrun
  refine ⟨hm.kernel, hm.legal, hm.count, ?_⟩
  intro op s' hstep hfails
  obtain ⟨-, hentry⟩ := hm.grown op
  rcases apply_cases hm (IoOp.step_eq_some.mp hstep) with
    ⟨-, rfl⟩ | ⟨-, call, -, rfl⟩ | ⟨hok, -⟩
  · exact ⟨fun _ => rfl, rfl, rfl, rfl⟩
  · obtain ⟨hk, hc, hs⟩ := grown_frame op s
    exact ⟨hentry, hk, hc, hs⟩
  · rw [hfails] at hok
    cases hok

/-- A run in which the table grows, a registration is refused and an
event is cancelled. -/
def growingRun : List IoOp :=
  [.addEvent 5 .read (some 1) ⟨some 0, 0, true⟩ false,
    .addEvent 40 .write none ⟨some 0, 7, true⟩ false,
    .addEvent 40 .read (some 2) ⟨some 0, 7, true⟩ true,
    .cancelEvent 5 .read false]

theorem kernel_and_count_mirror_table_grown :
    ∃ s, growingRun.foldlM IoOp.step init = some s
      ∧ s.fdEvents.length = 60 ∧ s.pendingEventCount = 1
      ∧ ∀ fd, s.kernel fd = (s.entry fd).et.interest := by
  have hobs : ((growingRun.foldlM IoOp.step init).map
      fun s => (s.fdEvents.length, s.pendingEventCount)) = some (60, 1) := by
    decide
  obtain ⟨s, hs, hv⟩ := Option.map_eq_some_iff.mp hobs
  obtain ⟨hlen, hcount⟩ := Prod.mk.injEq .. ▸ hv
  exact ⟨s, hs, hlen, hcount, (kernel_and_count_mirror_table hs).1⟩

end IOManager

end TinyServer
