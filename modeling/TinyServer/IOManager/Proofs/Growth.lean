/-
What survives the growth of the table.

`eventResize` also shrinks: a thread that found the table too short for
its descriptor resizes to `fd * 1.5` even when another thread has made
the table longer in the meantime. `Shrinks` is such a step over a
registered entry. `entries_survive_iff`: registered entries stay where
they are in a run exactly when the run has no such step.
-/
import TinyServer.IOManager.Growth
import TinyServer.IOManager.Proofs.Sections
import TinyServer.Lib.Run

namespace TinyServer

namespace AddSys

open IOManager

variable {s s' : AddSys}

-- ================================================================ the step

/-- The object `p` is stored at `fd` and has registered events. -/
def Registered (s : AddSys) (fd p : Nat) : Prop :=
  s.io.fdEvents[fd]? = some p ∧ (s.io.objs p).et ≠ .none

/-- The step is a write-locked resize to a size that cuts off a
registered entry. -/
def Shrinks (s : AddSys) (a : AddAct) : Prop :=
  ∃ i call g p, a = .grow i ∧ s.pc i = .short call
    ∧ call.fd * 3 / 2 ≤ g ∧ s.Registered g p

/-- Everything a step can do. -/
theorem step_cases {a : AddAct} (h : s.step a = some s') :
    (∃ i call, a = .lookup i call
        ∧ ((∃ p, p ∈ s.io.fdEvents ∧ s' = s.setPc i (.found p call))
          ∨ s' = s.setPc i (.short call)))
      ∨ (∃ i call p, a = .grow i ∧ s.pc i = .short call
        ∧ p ∈ (s.io.eventResize (call.fd * 3 / 2)).fdEvents
        ∧ s' = { s with io := s.io.eventResize (call.fd * 3 / 2) }.setPc i
            (.found p call))
      ∨ (∃ i p call r io f, a = .register i f ∧ s.pc i = .found p call
        ∧ s.io.addSection p call.fd call.et call.cb call.caller f
            = .ok (r, io)
        ∧ s' = { s with io := io }.setPc i .idle) := by
  cases a with
  | lookup i call =>
      simp only [step] at h
      split at h
      next =>
          split at h
          next p hp =>
              cases h
              exact .inl ⟨i, call, rfl,
                .inl ⟨p, List.mem_of_getElem? hp, rfl⟩⟩
          next =>
              cases h
              exact .inl ⟨i, call, rfl, .inr rfl⟩
      next => cases h
  | grow i =>
      simp only [step] at h
      split at h
      next call hpc =>
          split at h
          next p hp =>
              cases h
              exact .inr (.inl ⟨i, call, p, rfl, hpc,
                List.mem_of_getElem? hp, rfl⟩)
          next => cases h
      next => cases h
  | register i f =>
      simp only [step] at h
      split at h
      next p call hpc =>
          split at h
          next r io hsec =>
              cases h
              exact .inr (.inr ⟨i, p, call, r, io, f, rfl, hpc, hsec, rfl⟩)
          next => cases h
      next => cases h

-- =============================================================== the objects

/-- Table entries and threads only know allocated objects, so that a new
`FdEvent` is none of them. -/
structure Allocated (s : AddSys) : Prop where
  table : ∀ p ∈ s.io.fdEvents, p < s.io.nextObj
  pc : ∀ i p call, s.pc i = .found p call → p < s.io.nextObj

theorem mem_eventResize {io : IOManager} {size p : Nat}
    (h : p ∈ (io.eventResize size).fdEvents) :
    p ∈ io.fdEvents ∨ io.nextObj ≤ p ∧ p < (io.eventResize size).nextObj := by
  rcases List.mem_append.mp h with h | h
  · exact .inl (List.mem_of_mem_take h)
  · obtain ⟨k, hk, rfl⟩ := List.mem_map.mp h
    have := List.mem_range.mp hk
    exact .inr ⟨by omega, by simp only [eventResize]; omega⟩

theorem le_nextObj_eventResize (io : IOManager) (size : Nat) :
    io.nextObj ≤ (io.eventResize size).nextObj :=
  Nat.le_add_right _ _

/-- `addEvent`'s last section touches no table entry and allocates
nothing. -/
theorem addSection_frame {io io' : IOManager} {p : Nat} {call : AddCall}
    {r : Int} {f : Bool}
    (h : io.addSection p call.fd call.et call.cb call.caller f
      = .ok (r, io')) :
    io'.fdEvents = io.fdEvents ∧ io'.nextObj = io.nextObj := by
  obtain ⟨-, ⟨-, -, rfl⟩ | ⟨-, -, -, -, -, rfl⟩⟩ := addSection_cases h
  · exact ⟨rfl, rfl⟩
  · exact ⟨rfl, rfl⟩

/-- Events are only ever added. -/
theorem addSection_et {io io' : IOManager} {p q : Nat} {call : AddCall}
    {r : Int} {f : Bool}
    (h : io.addSection p call.fd call.et call.cb call.caller f
      = .ok (r, io')) (hq : (io.objs q).et ≠ .none) :
    (io'.objs q).et ≠ .none := by
  obtain ⟨-, ⟨-, -, rfl⟩ | ⟨-, -, -, -, -, rfl⟩⟩ := addSection_cases h
  · exact hq
  · by_cases hqp : q = p
    · subst hqp
      simp only [commit, if_true, FdEvent.registered_et]
      exact EventSet.insert_ne_none _ _
    · simpa [commit, hqp] using hq

theorem allocated_init : init.Allocated := by
  refine ⟨by decide, ?_⟩
  intro i p call h
  cases h

theorem Allocated.step {a : AddAct} (ha : s.Allocated)
    (h : s.step a = some s') : s'.Allocated := by
  rcases step_cases h with ⟨i, call, -, ⟨p, hp, rfl⟩ | rfl⟩
    | ⟨i, call, p, -, -, hp, rfl⟩ | ⟨i, p, call, r, io, f, -, -, hsec, rfl⟩
  · refine ⟨ha.table, fun j q c hj => ?_⟩
    simp only [setPc] at hj
    split at hj
    next =>
        cases hj
        exact ha.table p hp
    next => exact ha.pc j q c hj
  · refine ⟨ha.table, fun j q c hj => ?_⟩
    simp only [setPc] at hj
    split at hj
    next => cases hj
    next => exact ha.pc j q c hj
  · have hle := le_nextObj_eventResize s.io (call.fd * 3 / 2)
    have htable : ∀ q ∈ (s.io.eventResize (call.fd * 3 / 2)).fdEvents,
        q < (s.io.eventResize (call.fd * 3 / 2)).nextObj := by
      intro q hq
      rcases mem_eventResize hq with hq | ⟨-, hq⟩
      · exact Nat.lt_of_lt_of_le (ha.table q hq) hle
      · exact hq
    refine ⟨htable, fun j q c hj => ?_⟩
    simp only [setPc] at hj
    split at hj
    next =>
        cases hj
        exact htable p hp
    next => exact Nat.lt_of_lt_of_le (ha.pc j q c hj) hle
  · obtain ⟨htab, hnext⟩ := addSection_frame hsec
    refine ⟨?_, fun j q c hj => ?_⟩
    · show ∀ q ∈ io.fdEvents, q < io.nextObj
      rw [htab, hnext]
      exact ha.table
    · simp only [setPc] at hj
      split at hj
      next => cases hj
      next =>
          show q < io.nextObj
          rw [hnext]
          exact ha.pc j q c hj

-- ================================================================== survival

/-- Registered entries are still registered, in the same place. -/
def Survives (s s' : AddSys) : Prop :=
  ∀ fd p, s.Registered fd p → s'.Registered fd p

/-- A resize keeps a registered entry below the new size. -/
theorem registered_eventResize (ha : s.Allocated) {size fd p : Nat}
    (h : s.Registered fd p) (hfd : fd < size) :
    (s.io.eventResize size).fdEvents[fd]? = some p
      ∧ ((s.io.eventResize size).objs p).et ≠ .none := by
  obtain ⟨hget, het⟩ := h
  have hlt := (List.getElem?_eq_some_iff.mp hget).1
  have hp := ha.table p (List.mem_of_getElem? hget)
  constructor
  · simp only [eventResize]
    rw [List.getElem?_append_left (by simp; omega), List.getElem?_take,
      if_pos hfd]
    exact hget
  · simp only [eventResize]
    rw [if_neg (by omega)]
    exact het

theorem survives_step {a : AddAct} (ha : s.Allocated)
    (hno : ¬ s.Shrinks a) (h : s.step a = some s') : s.Survives s' := by
  intro fd p hreg
  rcases step_cases h with ⟨i, call, -, ⟨q, -, rfl⟩ | rfl⟩
    | ⟨i, call, q, rfl, hpc, -, rfl⟩ | ⟨i, q, call, r, io, f, -, -, hsec, rfl⟩
  · exact hreg
  · exact hreg
  · refine registered_eventResize ha hreg ?_
    by_contra hge
    exact hno ⟨i, call, fd, p, rfl, hpc, Nat.le_of_not_lt hge, hreg⟩
  · obtain ⟨htab, -⟩ := addSection_frame hsec
    refine ⟨?_, addSection_et hsec hreg.2⟩
    show io.fdEvents[fd]? = some p
    rw [htab]
    exact hreg.1

/-- A shrinking step drops the entry at once. -/
theorem shrinks_step {a : AddAct} (hs : s.Shrinks a)
    (h : s.step a = some s') :
    ∃ fd p, s.Registered fd p ∧ s'.io.fdEvents[fd]? ≠ some p := by
  obtain ⟨i, call, g, p, rfl, hpc, hle, hreg⟩ := hs
  refine ⟨g, p, hreg, ?_⟩
  have hlt := (List.getElem?_eq_some_iff.mp hreg.1).1
  rcases step_cases h with ⟨i', call', ha, -⟩
    | ⟨i', call', q, ha, hpc', -, rfl⟩ | ⟨i', q, call', r, io, f, ha, -⟩
  · cases ha
  · cases ha
    rw [hpc] at hpc'
    cases hpc'
    have hlen : (s.io.eventResize (call.fd * 3 / 2)).fdEvents.length ≤ g := by
      simp [eventResize]
      omega
    intro hget
    have := (List.getElem?_eq_some_iff.mp hget).1
    exact absurd this (Nat.not_lt.mpr hlen)
  · cases ha

open Lib

/-- Once an `FdEvent` with registered events is stored at an index it
stays there in every later state of a run, if and only if no step of the
run is a write-locked resize to `fd * 1.5` while an entry at that index
or beyond is registered. -/
theorem entries_survive_iff {acts : List AddAct} {u : AddSys}
    (hrun : acts.foldlM step init = some u) :
    (∀ s t, Later step init acts s t →
        ∀ fd p : Nat, s.io.fdEvents[fd]? = some p →
          (s.io.objs p).et ≠ .none → t.io.fdEvents[fd]? = some p)
      ↔ ∀ s a, Takes step init acts s a → ¬ s.Shrinks a := by
  constructor
  · intro hall s a hsome hshrinks
    obtain ⟨pre, post, rfl, hpre⟩ := hsome
    obtain ⟨s₁, hs₁, hrest⟩ := run_append.mp hrun
    rw [hpre] at hs₁
    cases hs₁
    obtain ⟨t, ht, -⟩ := run_cons.mp hrest
    obtain ⟨fd, p, ⟨hget, het⟩, hlost⟩ := shrinks_step hshrinks ht
    refine hlost (hall s t ⟨pre, [a], post, rfl, hpre, ?_⟩ fd p hget het)
    exact run_cons.mpr ⟨t, ht, rfl⟩
  · intro hno s t hlater fd p hget het
    have hsurvives : s.Survives t := by
      refine run_rel (fun _ _ _ h => h) (fun h h' fd p hr =>
        h' fd p (h fd p hr))
        ?_ hlater
      intro s a s' htakes hstep
      obtain ⟨pre, post, hacts, hpre⟩ := htakes
      have ha := run_inv Allocated.step pre allocated_init hpre
      exact survives_step ha (hno s a ⟨pre, post, hacts, hpre⟩) hstep
    exact (hsurvives fd p ⟨hget, het⟩).1

/-- Threads 0 and 1 find the table too short for descriptors 100 and 40;
thread 0 grows it to 150 and registers, then thread 1 cuts it to 60. -/
def shrinkingRun : List AddAct :=
  [.lookup 0 ⟨100, .read, some 1, ⟨some 0, 0, true⟩⟩,
    .lookup 1 ⟨40, .read, some 2, ⟨some 0, 0, true⟩⟩,
    .grow 0, .register 0 false, .grow 1]

/-- The registered entry of descriptor 100 is lost. -/
theorem registered_entry_cut_off :
    ¬ (∀ (acts : List AddAct) (u : AddSys), acts.foldlM step init = some u →
        ∀ s t, Later step init acts s t →
          ∀ fd p : Nat, s.io.fdEvents[fd]? = some p →
            (s.io.objs p).et ≠ .none → t.io.fdEvents[fd]? = some p) := by
  intro hall
  have hbefore : ((shrinkingRun.take 4).foldlM step init).map
      (fun s => (s.io.fdEvents[100]?, (s.io.objs 100).et))
        = some (some 100, ⟨true, false⟩) := by
    decide
  have hafter : (shrinkingRun.foldlM step init).map
      (fun s => s.io.fdEvents[100]?) = some none := by
    decide +kernel
  obtain ⟨s, hs, hv⟩ := Option.map_eq_some_iff.mp hbefore
  obtain ⟨u, hu, hnone⟩ := Option.map_eq_some_iff.mp hafter
  obtain ⟨hget, het⟩ := Prod.mk.injEq .. ▸ hv
  have hlast : [AddAct.grow 1].foldlM step s = some u := by
    have hsplit := run_append.mp
      (show (shrinkingRun.take 4 ++ [AddAct.grow 1]).foldlM step init = some u
        from hu)
    obtain ⟨s', hs', hlast⟩ := hsplit
    rw [hs] at hs'
    cases hs'
    exact hlast
  have hkept := hall shrinkingRun u hu s u
    ⟨shrinkingRun.take 4, [.grow 1], [], rfl, hs, hlast⟩ 100 100 hget
    (by rw [het]; decide)
  rw [hnone] at hkept
  cases hkept

/-- A single thread grows a table in which nothing is registered. -/
def growingAlone : List AddAct :=
  [.lookup 0 ⟨40, .read, some 1, ⟨some 0, 0, true⟩⟩, .grow 0,
    .register 0 false]

theorem entries_survive_iff_alone :
    ∃ u, growingAlone.foldlM step init = some u
      ∧ ∀ s t, Later step init growingAlone s t →
          ∀ fd p : Nat, s.io.fdEvents[fd]? = some p →
            (s.io.objs p).et ≠ .none → t.io.fdEvents[fd]? = some p := by
  have hsome : (growingAlone.foldlM step init).isSome = true := by
    decide
  obtain ⟨u, hu⟩ := Option.isSome_iff_exists.mp hsome
  refine ⟨u, hu, (entries_survive_iff hu).mpr ?_⟩
  intro s a hsome' hsome₁
  obtain ⟨pre, post, hacts, hpre⟩ := hsome'
  obtain ⟨i, call, g, p, rfl, -, -, -, het⟩ := hsome₁
  -- the only `grow` is the second action, and the first registers nothing
  have hpre' : pre = growingAlone.take 1 := by
    clear hu hpre
    rcases pre with _ | ⟨a, _ | ⟨b, _ | ⟨c, pre⟩⟩⟩ <;>
      simp [growingAlone] at hacts ⊢
    exact hacts.1.symm
  subst hpre'
  cases hpre
  apply het
  simp only [setPc, init, IOManager.init, eventResize]
  split <;> rfl

end AddSys

end TinyServer
