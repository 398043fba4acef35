/-
Sections between the guards of thread.h are atomic.

`Agrees` ties the counts of the lock and the guards to how the places say
the lock is held; every step of the threads is then one of
`Lib.SmallStep`, and `Lib.runs_atomic` puts the sections one after the
other. This is what the other models take for granted when a section
under a lock is one step. And who holds the lock goes on, so the threads
do not stand still (`Agrees.goes`). The threads that call
`Scheduler::schedule` are an instance.
-/
import TinyServer.Thread.Lock
import TinyServer.Scheduler.Ranges
import TinyServer.Lib.Run
import TinyServer.Lib.Range
import Mathlib.Data.List.Induction

namespace TinyServer

open Lib

variable {D P : Type} {code : P → D → Option (GuardMove D P)}
  {own : P → Option ScopeLock} {p p' : P} {d : D} {g : ScopeLock}

-- ==================================================================== the code

/-- What a place holds is what its guard holds. -/
theorem holdAt_of (h : own p = some g) : holdAt own p = g.hold := by
  unfold holdAt
  rw [h]
  rfl

/-- A place without a guard holds nothing. -/
theorem holdAt_none (h : own p = none) : holdAt own p = none := by
  unfold holdAt
  rw [h]
  rfl

/-- An unlocked guard holds nothing. -/
theorem hold_eq_none : g.hold = none ↔ g.locked = false := by
  unfold ScopeLock.hold
  cases g.locked <;> simp

/-- So does a place with an unlocked guard. -/
theorem holdAt_eq_none (h : own p = some g) :
    holdAt own p = none ↔ g.locked = false := by
  rw [holdAt_of h]
  exact hold_eq_none

/-- A place with a locked guard holds the lock. -/
theorem holdAt_locked {kind : LockKind} (h : own p = some ⟨kind, true⟩) :
    holdAt own p ≠ none := by
  rw [holdAt_of h]
  nofun

/-- `lock` enters a section, unless the guard is locked. -/
theorem asSection_lock : GuardMove.asSection own p d (.lock p')
    = if holdAt own p = none then .enter p' else .work d p' :=
  rfl

/-- `unlock` leaves the section, if there is one. -/
theorem asSection_unlock : GuardMove.asSection own p d (.unlock p')
    = if holdAt own p = none then .work d p' else .leave p' :=
  rfl

/-- And so does the destructor. -/
theorem asSection_destruct : GuardMove.asSection own p d (.destruct p')
    = if holdAt own p = none then .work d p' else .leave p' :=
  rfl

/-- `lock` goes through where the lock can be taken. -/
theorem ScopeLock.lock_goes {m : RWLock}
    (h : g.locked = false → ∃ m', g.kind.take m = some m') :
    ∃ r, g.lock m = some r := by
  unfold ScopeLock.lock
  cases hl : g.locked with
  | true => exact ⟨_, rfl⟩
  | false =>
      obtain ⟨m', hm⟩ := h hl
      exact ⟨_, Option.map_eq_some_iff.mpr ⟨m', hm, rfl⟩⟩

/-- Its sections are guarded. -/
theorem KeepsGuards.guarded (hc : KeepsGuards code own) :
    Guarded (sectionCode code own) where
  enter := by
    intro p d p' hnext
    obtain ⟨m, hm, hs⟩ := Option.map_eq_some_iff.mp hnext
    have hmove := hc.moves hm
    cases m with
    | construct kind q =>
        cases hs
        exact ⟨holdAt_none hmove.1, holdAt_locked hmove.2⟩
    | lock q =>
        rw [asSection_lock] at hs
        split at hs
        next hout =>
            cases hs
            obtain ⟨g, -, hq⟩ := hmove
            exact ⟨hout, holdAt_locked hq⟩
        next => cases hs
    | unlock q =>
        rw [asSection_unlock] at hs
        split at hs <;> cases hs
    | destruct q =>
        rw [asSection_destruct] at hs
        split at hs <;> cases hs
    | work d' q => cases hs
  leave := by
    intro p d p' hnext
    obtain ⟨m, hm, hs⟩ := Option.map_eq_some_iff.mp hnext
    have hmove := hc.moves hm
    cases m with
    | construct kind q => cases hs
    | lock q =>
        rw [asSection_lock] at hs
        split at hs <;> cases hs
    | unlock q =>
        rw [asSection_unlock] at hs
        split at hs
        next => cases hs
        next hin =>
            cases hs
            obtain ⟨g, -, hq⟩ := hmove
            exact ⟨hin, holdAt_of hq⟩
    | destruct q =>
        rw [asSection_destruct] at hs
        split at hs
        next => cases hs
        next hin =>
            cases hs
            exact ⟨hin, holdAt_none hmove.2⟩
    | work d' q => cases hs
  work := by
    intro p d d' p' hnext
    obtain ⟨m, hm, hs⟩ := Option.map_eq_some_iff.mp hnext
    have hmove := hc.moves hm
    cases m with
    | construct kind q => cases hs
    | lock q =>
        rw [asSection_lock] at hs
        split at hs
        next => cases hs
        next hin =>
            cases hs
            obtain ⟨g, hp, hq⟩ := hmove
            have hlocked : g.locked = true :=
              (Bool.not_eq_false _).mp fun hl =>
                hin ((holdAt_eq_none hp).mpr hl)
            have hsame : { g with locked := true } = g := by rw [← hlocked]
            rw [hsame] at hq
            exact ⟨(holdAt_of hq).trans (holdAt_of hp).symm, fun _ => rfl⟩
    | unlock q =>
        rw [asSection_unlock] at hs
        split at hs
        next hout =>
            cases hs
            obtain ⟨g, -, hq⟩ := hmove
            exact ⟨(holdAt_of hq).trans hout.symm, fun _ => rfl⟩
        next => cases hs
    | destruct q =>
        rw [asSection_destruct] at hs
        split at hs
        next hout =>
            cases hs
            exact ⟨(holdAt_none hmove.2).trans hout.symm, fun _ => rfl⟩
        next => cases hs
    | work e q =>
        cases hs
        exact ⟨congrArg (Option.bind · ScopeLock.hold) hmove.1, hmove.2⟩
  blind := by
    intro p d p' hout hnext e
    obtain ⟨m, hm, hs⟩ := Option.map_eq_some_iff.mp hnext
    have he := hc.blind hout hm e
    have hout' : holdAt own p = none := hout
    refine Option.map_eq_some_iff.mpr ⟨_, he, ?_⟩
    cases m with
    | construct kind q => cases hs
    | lock q =>
        rw [asSection_lock, if_pos hout'] at hs
        cases hs
    | unlock q =>
        rw [asSection_unlock, if_pos hout'] at hs
        cases hs
        exact if_pos hout'
    | destruct q =>
        rw [asSection_destruct, if_pos hout'] at hs
        cases hs
        exact if_pos hout'
    | work d' q =>
        cases hs
        rfl

-- ================================================================= the threads

namespace LockedThreads

variable {n t : Nat} {s s' : LockedThreads D P}

/-- What a thread holds. -/
def hold (own : P → Option ScopeLock) (s : LockedThreads D P) (t : Nat) :
    Option Hold :=
  holdAt own (s.place t)

/-- The guards are those of the places, and the lock counts them. -/
structure Agrees (n : Nat) (own : P → Option ScopeLock)
    (s : LockedThreads D P) : Prop where
  guard : ∀ t, s.guard t = own (s.place t)
  idle : ∀ t, n ≤ t → s.hold own t = none
  readers : s.mutex.readers
    = (List.range n).countP fun t => s.hold own t = some .shared
  writer : s.mutex.writer = true ↔ ∃ t, s.hold own t = some .alone
  sole : ∀ t u, s.hold own t = some .alone → u ≠ t → s.hold own u = none

/-- The data and the places of the threads. -/
def state (s : LockedThreads D P) : SectionState Nat D P := ⟨s.data, s.place⟩

/-- The thread `t` has come to `p`. -/
structure Came (s s' : LockedThreads D P) (own : P → Option ScopeLock) (t : Nat)
    (p : P) : Prop where
  place : s'.place = Function.update s.place t p
  guard : s'.guard = Function.update s.guard t (own p)

/-- The thread holds what its new place says. -/
theorem Came.hold_self (hc : Came s s' own t p) :
    s'.hold own t = holdAt own p := by
  unfold hold
  rw [hc.place, Function.update_self]

/-- The others hold what they held. -/
theorem Came.hold_ne (hc : Came s s' own t p) {u : Nat} (hu : u ≠ t) :
    s'.hold own u = s.hold own u := by
  unfold hold
  rw [hc.place, Function.update_of_ne hu]

/-- The guards stay those of the places. -/
theorem Agrees.guards (ha : s.Agrees n own) (hc : Came s s' own t p) (u : Nat) :
    s'.guard u = own (s'.place u) := by
  rw [hc.guard, hc.place]
  by_cases hu : u = t
  · rw [hu, Function.update_self, Function.update_self]
  · rw [Function.update_of_ne hu, Function.update_of_ne hu]
    exact ha.guard u

/-- A thread that there is not holds nothing. -/
theorem Agrees.idle_came (ha : s.Agrees n own) (hc : Came s s' own t p)
    (ht : t < n) (u : Nat) (hu : n ≤ u) : s'.hold own u = none := by
  rw [hc.hold_ne (Nat.ne_of_gt (Nat.lt_of_lt_of_le ht hu))]
  exact ha.idle u hu

/-- A step that leaves the lock alone. -/
theorem Agrees.keep (ha : s.Agrees n own) (hc : Came s s' own t p)
    (hm : s'.mutex = s.mutex) (hp : holdAt own p = s.hold own t) :
    s'.Agrees n own := by
  have hsame : ∀ u, s'.hold own u = s.hold own u := by
    intro u
    by_cases hu : u = t
    · rw [hu, hc.hold_self, hp]
    · exact hc.hold_ne hu
  refine ⟨ha.guards hc, fun u hu => ?_, ?_, ?_, fun u v hu hv => ?_⟩
  · rw [hsame]
    exact ha.idle u hu
  · simp only [hsame, hm]
    exact ha.readers
  · simp only [hsame, hm]
    exact ha.writer
  · rw [hsame] at hu ⊢
    exact ha.sole u v hu hv

/-- The threads that share the lock, when one has come to another place. -/
theorem Agrees.count (ha : s.Agrees n own) (hc : Came s s' own t p)
    (ht : t < n) :
    ((List.range n).countP fun u => s'.hold own u = some .shared)
        + (decide (s.hold own t = some .shared)).toNat
      = s.mutex.readers + (decide (holdAt own p = some .shared)).toNat := by
  have hothers : ∀ u, u ≠ t → decide (s'.hold own u = some .shared)
      = decide (s.hold own u = some .shared) := fun u hu => by
        rw [hc.hold_ne hu]
  rw [ha.readers, ← hc.hold_self]
  exact countP_range_update ht hothers

/-- Taking the lock is a step that enters a section. -/
theorem Agrees.take (ha : s.Agrees n own) (hc : Came s s' own t p) (ht : t < n)
    {kind : LockKind} (hout : s.hold own t = none)
    (hm : kind.take s.mutex = some s'.mutex)
    (hp : holdAt own p = some (if kind = .read then .shared else .alone)) :
    Admits (sectionCode code own) s.state t p ∧ s'.Agrees n own := by
  have hcount := ha.count hc ht
  have hidle := ha.idle_came hc ht
  cases kind with
  | read =>
      obtain ⟨hw, hm⟩ := Option.ite_none_left_eq_some.mp hm
      have hnone : ∀ u, s.hold own u ≠ some .alone := fun u hu =>
        hw (ha.writer.mpr ⟨u, hu⟩)
      rw [if_pos rfl] at hp
      refine ⟨fun u _ => ⟨hnone u, fun halone => ?_⟩,
        ha.guards hc, hidle, ?_, ?_, ?_⟩
      · cases hp.symm.trans halone
      · rw [hout, hp] at hcount
        rw [← Option.some.inj hm]
        simpa using hcount.symm
      · rw [← Option.some.inj hm]
        refine ⟨fun h => absurd h hw, fun ⟨u, hu⟩ => ?_⟩
        by_cases hut : u = t
        · rw [hut, hc.hold_self, hp] at hu
          cases hu
        · rw [hc.hold_ne hut] at hu
          exact absurd hu (hnone u)
      · intro u v hu _
        by_cases hut : u = t
        · rw [hut, hc.hold_self, hp] at hu
          cases hu
        · rw [hc.hold_ne hut] at hu
          exact absurd hu (hnone u)
  | write =>
      obtain ⟨hw, hm⟩ := Option.ite_none_left_eq_some.mp hm
      simp only [Bool.or_eq_true, bne_iff_ne, ne_eq, not_or,
        Decidable.not_not] at hw
      rw [if_neg nofun] at hp
      have hfree : ∀ u, s.hold own u = none := by
        intro u
        cases hu : s.hold own u with
        | none => rfl
        | some h =>
            cases h with
            | alone => exact absurd (ha.writer.mpr ⟨u, hu⟩) hw.1
            | shared =>
                have hlt : u < n := by
                  by_contra hge
                  cases hu.symm.trans (ha.idle u (Nat.not_lt.mp hge))
                have hzero := ha.readers.symm.trans hw.2
                have := List.countP_eq_zero.mp hzero u (List.mem_range.mpr hlt)
                exact absurd (decide_eq_true hu) this
      refine ⟨fun u _ => ⟨?_, fun _ => hfree u⟩, ha.guards hc, hidle, ?_, ?_,
        ?_⟩
      · show s.hold own u ≠ _
        rw [hfree u]
        nofun
      · rw [hout, hp] at hcount
        rw [← Option.some.inj hm]
        simpa using hcount.symm
      · rw [← Option.some.inj hm]
        exact ⟨fun _ => ⟨t, hc.hold_self.trans hp⟩, fun _ => rfl⟩
      · intro u v hu hv
        by_cases hut : u = t
        · rw [hc.hold_ne (hut ▸ hv)]
          exact hfree v
        · rw [hc.hold_ne hut, hfree u] at hu
          cases hu

/-- The holder gives the lock back. -/
theorem Agrees.release (ha : s.Agrees n own) (hc : Came s s' own t p)
    (ht : t < n)
    (hin : s.hold own t ≠ none) (hm : s'.mutex = s.mutex.unlock)
    (hp : holdAt own p = none) : s'.Agrees n own := by
  have hcount := ha.count hc ht
  have hidle := ha.idle_came hc ht
  have hself : s'.hold own t = none := hc.hold_self.trans hp
  have hsole : ∀ u v, s'.hold own u = some .alone → v ≠ u →
      s'.hold own v = none := by
    intro u v hu hv
    have hut : u ≠ t := by
      intro hut
      rw [hut, hself] at hu
      cases hu
    rw [hc.hold_ne hut] at hu
    by_cases hvt : v = t
    · rw [hvt]
      exact hself
    · rw [hc.hold_ne hvt]
      exact ha.sole u v hu hv
  unfold RWLock.unlock at hm
  rw [hp] at hcount
  cases hw : s.mutex.writer with
  | true =>
      obtain ⟨u, hu⟩ := ha.writer.mp hw
      have hut : t = u := by
        by_contra hne
        exact hin (ha.sole u t hu hne)
      rw [← hut] at hu
      rw [hw] at hm
      rw [hu] at hcount
      refine ⟨ha.guards hc, hidle, ?_, ?_, hsole⟩
      · rw [hm]
        simpa using hcount.symm
      · rw [hm]
        refine ⟨nofun, fun ⟨v, hv⟩ => ?_⟩
        by_cases hvt : v = t
        · rw [hvt, hself] at hv
          cases hv
        · rw [hc.hold_ne hvt] at hv
          cases (ha.sole t v hu hvt).symm.trans hv
  | false =>
      have hshared : s.hold own t = some .shared := by
        cases ht' : s.hold own t with
        | none => exact absurd ht' hin
        | some h =>
            cases h with
            | shared => rfl
            | alone =>
                rw [ha.writer.mpr ⟨t, ht'⟩] at hw
                cases hw
      rw [hw] at hm
      rw [hshared] at hcount
      refine ⟨ha.guards hc, hidle, ?_, ?_, hsole⟩
      · rw [hm]
        simp only [decide_true, Bool.toNat_true, reduceCtorEq, decide_false,
          Bool.toNat_false, Nat.add_zero] at hcount
        show s.mutex.readers - 1 = _
        omega
      · rw [hm]
        show false = true ↔ _
        refine ⟨nofun, fun ⟨v, hv⟩ => ?_⟩
        by_cases hvt : v = t
        · rw [hvt, hself] at hv
          cases hv
        · rw [hc.hold_ne hvt] at hv
          rw [ha.writer.mpr ⟨v, hv⟩] at hw
          cases hw

/-- `unlock` and the destructor. -/
theorem Agrees.unlocks (ha : s.Agrees n own) (hg : own (s.place t) = some g)
    (hc : Came s s' own t p) (ht : t < n) (hdata : s'.data = s.data)
    (hm : s'.mutex = (g.unlock s.mutex).2) (hp : holdAt own p = none)
    (hnext : (sectionCode code own).next (s.place t) s.data = some
      (if holdAt own (s.place t) = none then .work s.data p else .leave p)) :
    SmallStep (sectionCode code own) s.state t s'.state ∧ s'.Agrees n own := by
  have hstate : s'.state = ⟨s.data, Function.update s.place t p⟩ := by
    unfold state
    rw [hdata, hc.place]
  rw [hstate]
  unfold ScopeLock.unlock at hm
  cases hl : g.locked with
  | false =>
      have hout := (holdAt_eq_none hg).mpr hl
      rw [hl] at hm
      rw [if_pos hout] at hnext
      exact ⟨.work hnext, ha.keep hc hm (hp.trans hout.symm)⟩
  | true =>
      have hin : holdAt own (s.place t) ≠ none := by
        rw [Ne, holdAt_eq_none hg, hl]
        nofun
      rw [hl] at hm
      rw [if_neg hin] at hnext
      exact ⟨.leave hnext, ha.release hc ht hin hm hp⟩

/-- A step of the threads is one of the sections. -/
theorem Agrees.step (ha : s.Agrees n own) (hc : KeepsGuards code own)
    (hs : s.step n code t = some s') :
    SmallStep (sectionCode code own) s.state t s'.state ∧ s'.Agrees n own := by
  obtain ⟨ht, hs⟩ := Option.ite_none_right_eq_some.mp hs
  obtain ⟨m, hm, hmove⟩ := Option.bind_eq_some_iff.mp hs
  have hcare := hc.moves hm
  have hnext : (sectionCode code own).next (s.place t) s.data
      = some (m.asSection own (s.place t) s.data) :=
    Option.map_eq_some_iff.mpr ⟨m, hm, rfl⟩
  cases m with
  | construct kind p =>
      obtain ⟨hown, hp⟩ := hcare
      obtain ⟨-, hmove⟩ := Option.ite_none_right_eq_some.mp hmove
      obtain ⟨r, hr, rfl⟩ := Option.map_eq_some_iff.mp hmove
      obtain ⟨m', hm', rfl⟩ := Option.map_eq_some_iff.mp hr
      have hcame : Came s (s.set t (some ⟨kind, true⟩) m' p) own t p :=
        ⟨rfl, by rw [hp]; rfl⟩
      obtain ⟨hadm, hagree⟩ := ha.take hcame ht (holdAt_none hown) hm'
        ((holdAt_of hp).trans rfl)
      exact ⟨.enter hnext hadm, hagree⟩
  | lock p =>
      obtain ⟨g, hg, hp⟩ := hcare
      obtain ⟨g', hg', hmove⟩ := Option.bind_eq_some_iff.mp hmove
      cases (ha.guard t).symm.trans hg' |>.symm.trans hg
      obtain ⟨r, hr, rfl⟩ := Option.map_eq_some_iff.mp hmove
      unfold ScopeLock.lock at hr
      rw [asSection_lock] at hnext
      cases hl : g.locked with
      | true =>
          rw [hl] at hr
          cases hr
          have hsame : { g with locked := true } = g := by rw [← hl]
          have hin : holdAt own (s.place t) ≠ none := by
            rw [Ne, holdAt_eq_none hg, hl]
            nofun
          rw [if_neg hin] at hnext
          refine ⟨.work hnext, ha.keep (p := p) ⟨rfl, ?_⟩ rfl ?_⟩
          · rw [hp, hsame]
            rfl
          · rw [holdAt_of hp, hsame]
            exact (holdAt_of hg).symm
      | false =>
          rw [hl] at hr
          obtain ⟨m', hm', rfl⟩ := Option.map_eq_some_iff.mp hr
          have hout := (holdAt_eq_none hg).mpr hl
          rw [if_pos hout] at hnext
          have hcame :
              Came s (s.set t (some { g with locked := true }) m' p) own t p :=
            ⟨rfl, by rw [hp]; rfl⟩
          obtain ⟨hadm, hagree⟩ := ha.take hcame ht hout hm'
            ((holdAt_of hp).trans rfl)
          exact ⟨.enter hnext hadm, hagree⟩
  | unlock p =>
      obtain ⟨g, hg, hp⟩ := hcare
      obtain ⟨g', hg', rfl⟩ := Option.map_eq_some_iff.mp hmove
      cases (ha.guard t).symm.trans hg' |>.symm.trans hg
      have hguard : (g.unlock s.mutex).1 = { g with locked := false } := by
        unfold ScopeLock.unlock
        cases hl : g.locked with
        | true => rfl
        | false =>
            show g = _
            rw [← hl]
      exact ha.unlocks hg ⟨rfl, by rw [hp, hguard]; rfl⟩ ht rfl rfl
        ((holdAt_of hp).trans rfl) hnext
  | destruct p =>
      obtain ⟨hown, hp⟩ := hcare
      obtain ⟨g, hg, rfl⟩ := Option.map_eq_some_iff.mp hmove
      exact ha.unlocks ((ha.guard t).symm.trans hg) ⟨rfl, by rw [hp]; rfl⟩ ht
        rfl rfl (holdAt_none hp) hnext
  | work d p =>
      obtain ⟨hp, -⟩ := hcare
      cases hmove
      refine ⟨.work hnext, ha.keep (p := p) ⟨rfl, ?_⟩ rfl ?_⟩
      · rw [hp, ← ha.guard t]
        exact (Function.update_eq_self t s.guard).symm
      · exact congrArg (Option.bind · ScopeLock.hold) hp

/-- A run of the threads is one of their sections. -/
theorem Agrees.run (hc : KeepsGuards code own) {ts : List Nat}
    {f : LockedThreads D P} (ha : s.Agrees n own)
    (hrun : ts.foldlM (LockedThreads.step n code) s = some f) :
    RunsBy (SmallStep (sectionCode code own)) s.state ts f.state
      ∧ f.Agrees n own := by
  induction ts using List.reverseRecOn generalizing f with
  | nil =>
      cases hrun
      exact ⟨.nil, ha⟩
  | append_singleton ts t ih =>
      obtain ⟨u, hu, hlast⟩ := run_append.mp hrun
      obtain ⟨v, hv, hnil⟩ := run_cons.mp hlast
      cases hnil
      obtain ⟨hfine, hagree⟩ := ih hu
      obtain ⟨hstep, hagree'⟩ := hagree.step hc hv
      exact ⟨.snoc hfine hstep, hagree'⟩

/-- At the start nobody holds the lock. -/
theorem agrees_new (n : Nat) {place : Nat → P} (h₀ : ∀ t, own (place t) = none)
    (d : D) : (new d place).Agrees n own := by
  have hnone : ∀ t, (new d place).hold own t = none :=
    fun t => holdAt_none (h₀ t)
  refine ⟨fun t => (h₀ t).symm, fun t _ => hnone t, ?_, ?_,
    fun t u _ _ => hnone u⟩
  · exact (List.countP_eq_zero.mpr fun t _ => by simp [hnone t]).symm
  · exact ⟨nofun, fun ⟨t, ht⟩ => by cases (hnone t).symm.trans ht⟩

/-- Where no guard is locked nobody holds the lock. -/
theorem Agrees.hold_none (ha : s.Agrees n own)
    (hfree : ∀ t g, s.guard t = some g → g.locked = false) (t : Nat) :
    s.hold own t = none := by
  cases hg : s.guard t with
  | none => exact holdAt_none ((ha.guard t).symm.trans hg)
  | some g =>
      have hown : own (s.place t) = some g := (ha.guard t).symm.trans hg
      exact (holdAt_eq_none hown).mpr (hfree t g hg)

/-- Where no guard is locked the lock is free. -/
theorem Agrees.free (ha : s.Agrees n own) (hnone : ∀ t, s.hold own t = none) :
    s.mutex = ⟨0, false⟩ := by
  have hreaders : s.mutex.readers = 0 := by
    rw [ha.readers]
    exact List.countP_eq_zero.mpr fun t _ => by simp [hnone t]
  have hwriter : s.mutex.writer = false := by
    rw [Bool.eq_false_iff]
    intro hw
    obtain ⟨t, ht⟩ := ha.writer.mp hw
    cases (hnone t).symm.trans ht
  exact congr (congrArg RWLock.mk hreaders) hwriter

/-- A thread goes on where it holds the lock, or can take it. -/
theorem Agrees.goes (ha : s.Agrees n own) (hc : KeepsGuards code own)
    (ht : t < n)
    (hlive : code (s.place t) s.data ≠ none)
    (hfree : s.hold own t = none →
      ∀ kind : LockKind, ∃ m, kind.take s.mutex = some m) :
    ∃ s', s.step n code t = some s' := by
  obtain ⟨m, hm⟩ := Option.ne_none_iff_exists'.mp hlive
  have hcare := hc.moves hm
  have hstep : s.step n code t = s.move t m := by
    unfold LockedThreads.step
    rw [if_pos ht, hm]
    rfl
  rw [hstep]
  cases m with
  | construct kind p =>
      obtain ⟨hown, -⟩ := hcare
      obtain ⟨r, hr⟩ := ScopeLock.lock_goes (g := ⟨kind, false⟩)
        fun _ => hfree (holdAt_none hown) kind
      exact ⟨_, (if_pos ((ha.guard t).trans hown)).trans
        (Option.map_eq_some_iff.mpr ⟨r, hr, rfl⟩)⟩
  | lock p =>
      obtain ⟨g, hg, -⟩ := hcare
      obtain ⟨r, hr⟩ := ScopeLock.lock_goes
        fun hl => hfree ((holdAt_eq_none hg).mpr hl) g.kind
      exact ⟨_, Option.bind_eq_some_iff.mpr
        ⟨g, (ha.guard t).trans hg, Option.map_eq_some_iff.mpr ⟨r, hr, rfl⟩⟩⟩
  | unlock p =>
      obtain ⟨g, hg, -⟩ := hcare
      exact ⟨_, Option.map_eq_some_iff.mpr ⟨g, (ha.guard t).trans hg, rfl⟩⟩
  | destruct p =>
      obtain ⟨g, hg⟩ := Option.ne_none_iff_exists'.mp hcare.1
      exact ⟨_, Option.map_eq_some_iff.mpr ⟨g, (ha.guard t).trans hg, rfl⟩⟩
  | work d p => exact ⟨_, rfl⟩

end LockedThreads

/-- Guards exclude each other, and sections between them are atomic. For
all code that keeps to its guards, any number of threads and every run:
while a write guard is locked no other guard is; and where no guard is
locked the lock is free, and the data and the threads are as if whole
sections had been executed one at a time, in the order in which the
threads left them. -/
theorem guarded_sections_atomic (hc : KeepsGuards code own) {n : Nat} {d : D}
    {place : Nat → P} (h₀ : ∀ t, own (place t) = none) {ts : List Nat}
    {f : LockedThreads D P}
    (hrun : ts.foldlM (LockedThreads.step n code) (.new d place) = some f) :
    (∀ t u g, f.guard t = some ⟨.write, true⟩ → u ≠ t → f.guard u = some g →
        g.locked = false)
      ∧ ((∀ t g, f.guard t = some g → g.locked = false) →
        f.mutex = ⟨0, false⟩ ∧ ∃ us, us.Sublist ts
          ∧ RunsBy (WholeStep (sectionCode code own)) ⟨d, place⟩ us
            f.state) := by
  obtain ⟨hfine, ha⟩ := (LockedThreads.agrees_new n h₀ d).run hc hrun
  refine ⟨fun t u g ht hu hg => ?_, fun hfree => ?_⟩
  · have halone : f.hold own t = some .alone :=
      holdAt_of ((ha.guard t).symm.trans ht)
    have hown : own (f.place u) = some g := (ha.guard u).symm.trans hg
    exact (holdAt_eq_none hown).mp (ha.sole t u halone hu)
  · have hnone := ha.hold_none hfree
    exact ⟨ha.free hnone,
      runs_atomic hc.guarded (fun t => holdAt_none (h₀ t)) hfine hnone⟩

/-- Guards do not let the threads stand still: where code ends without a
locked guard, and some thread is not at its end, some thread can take a
step. -/
theorem guarded_threads_go_on (hc : KeepsGuards code own)
    (hend : ∀ {p d}, code p d = none → holdAt own p = none) {n : Nat} {d : D}
    {place : Nat → P} (h₀ : ∀ t, own (place t) = none) {ts : List Nat}
    {f : LockedThreads D P}
    (hrun : ts.foldlM (LockedThreads.step n code) (.new d place) = some f)
    {t : Nat} (ht : t < n) (hlive : code (f.place t) f.data ≠ none) :
    ∃ u f', f.step n code u = some f' := by
  obtain ⟨-, ha⟩ := (LockedThreads.agrees_new n h₀ d).run hc hrun
  by_cases hheld : ∃ u, f.hold own u ≠ none
  · -- who holds the lock goes on
    obtain ⟨u, hu⟩ := hheld
    have hlt : u < n := by
      by_contra hge
      exact hu (ha.idle u (Nat.not_lt.mp hge))
    exact ⟨u, ha.goes hc hlt (fun hnone => hu (hend hnone))
      fun hnone => absurd hnone hu⟩
  · have hmutex := ha.free fun u => by
      by_contra hu
      exact hheld ⟨u, hu⟩
    refine ⟨t, ha.goes hc ht hlive fun _ kind => ?_⟩
    rw [hmutex]
    cases kind with
    | read => exact ⟨_, rfl⟩
    | write => exact ⟨_, rfl⟩

-- ========================================================= Scheduler::schedule

/-- `schedule` pushes under its guard only. -/
theorem scheduleCode_keeps : KeepsGuards scheduleCode SchedulePlace.guard where
  moves := by
    intro p d m hm
    cases p with
    | entry range =>
        cases hm
        exact ⟨rfl, fun _ => rfl⟩
    | declared range needTickle =>
        cases hm
        exact ⟨rfl, rfl⟩
    | loop range needTickle =>
        cases range with
        | nil =>
            cases hm
            exact ⟨nofun, rfl⟩
        | cons fc range =>
            cases hm
            exact ⟨rfl, fun _ => rfl⟩
    | looked fc range needTickle empty =>
        cases hm
        exact ⟨rfl, fun h => absurd rfl h⟩
    | left needTickle => cases hm
  blind := by
    intro p d m hout hm e
    cases p with
    | entry range | declared range needTickle =>
        cases hm
        rfl
    | loop range needTickle | looked fc range needTickle empty => cases hout
    | left needTickle => cases hm

/-- A thread with a fiber and a null callback, and one with a callback. -/
def twoRanges : LockedThreads (List QueueEntry) SchedulePlace :=
  .new [] fun t =>
    .entry (if t = 0 then [.fiber (some 7), .cb none] else [.cb (some 9)])

/-- The second thread is at the lock while the first is in its section. -/
def twoSchedules : Option (LockedThreads (List QueueEntry) SchedulePlace) :=
  [0, 0, 1, 0, 0, 0, 0, 0, 1, 1, 1, 1].foldlM
    (LockedThreads.step 2 scheduleCode)
    twoRanges

/-- At the end of the example both guards are gone. -/
theorem twoSchedules_unlocked
    {f : LockedThreads (List QueueEntry) SchedulePlace}
    (hf : twoSchedules = some f) (t : Nat) (g : ScopeLock)
    (hg : f.guard t = some g) : g.locked = false := by
  have hguard : twoSchedules.map (fun f => f.guard t) = some none := by
    cases t with
    | zero => rfl
    | succ t =>
        cases t with
        | zero => rfl
        | succ t => rfl
  rw [hf, Option.map_some, hg] at hguard
  cases hguard

theorem guarded_sections_atomic_schedule :
    ∃ f us, twoSchedules = some f ∧ f.place 0 = .left true
      ∧ f.place 1 = .left false
      ∧ f.data = [⟨some 7, none, none⟩, ⟨none, some 9, none⟩]
      ∧ f.mutex = ⟨0, false⟩
      ∧ us.Sublist [0, 0, 1, 0, 0, 0, 0, 0, 1, 1, 1, 1]
      ∧ RunsBy (WholeStep (sectionCode scheduleCode SchedulePlace.guard))
          twoRanges.state us f.state := by
  have hobs : twoSchedules.map (fun f => (f.place 0, f.place 1, f.data))
      = some (.left true, .left false,
        [⟨some 7, none, none⟩, ⟨none, some 9, none⟩]) := by
    rfl
  obtain ⟨f, hf, hv⟩ := Option.map_eq_some_iff.mp hobs
  simp only [Prod.mk.injEq] at hv
  obtain ⟨hmutex, us, hsub, hrun⟩ :=
    (guarded_sections_atomic scheduleCode_keeps (fun _ => rfl) hf).2
      (twoSchedules_unlocked hf)
  exact ⟨f, us, hf, hv.1, hv.2.1, hv.2.2, hmutex, hsub, hrun⟩

/-- `schedule` ends without its guard. -/
theorem scheduleCode_ends {p : SchedulePlace} {fibers : List QueueEntry}
    (h : scheduleCode p fibers = none) :
    holdAt SchedulePlace.guard p = none := by
  cases p with
  | left needTickle => rfl
  | loop range needTickle => cases range <;> cases h
  | entry range | declared range needTickle => cases h
  | looked fc range needTickle empty => cases h

/-- The second thread waits, and the first goes on. -/
theorem guarded_threads_go_on_schedule :
    ∃ f u f',
      [0, 0, 1].foldlM (LockedThreads.step 2 scheduleCode) twoRanges = some f
      ∧ f.step 2 scheduleCode 1 = none ∧ f.step 2 scheduleCode u = some f' := by
  have hobs :
      ([0, 0, 1].foldlM (LockedThreads.step 2 scheduleCode) twoRanges).map
      (fun f => (f.place 1, (f.step 2 scheduleCode 1).isSome))
        = some (.declared [.cb (some 9)] false, false) := by
    rfl
  obtain ⟨f, hf, hv⟩ := Option.map_eq_some_iff.mp hobs
  simp only [Prod.mk.injEq] at hv
  have hlive : scheduleCode (f.place 1) f.data ≠ none := by
    rw [hv.1]
    nofun
  obtain ⟨u, f', hstep⟩ := guarded_threads_go_on scheduleCode_keeps
    scheduleCode_ends (fun _ => rfl) hf (by decide : 1 < 2) hlive
  have hwaits : f.step 2 scheduleCode 1 = none :=
    Option.isNone_iff_eq_none.mp (Option.isSome_eq_false_iff.mp hv.2)
  exact ⟨f, u, f', hf, hwaits, hstep⟩

end TinyServer
