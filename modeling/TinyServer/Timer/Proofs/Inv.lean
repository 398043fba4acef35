/-
The invariant of `m_timers`.

# Timers in hand

Every operation takes timers out of the set, changes them and puts them
back or lets them go; a timer's `m_next` is written only while the timer
is out of the set. `Holds out m` is the invariant with the timers `out`
in hand: the set is in order, and a timer with a callback is in the set
or in hand. The lemmas from `Holds.takeOut` to `Holds.takeFront` are the
moves an operation is made of; each operation's lemma is a chain of them.
-/
import Mathlib.Data.List.TakeWhile
import TinyServer.Lib.Run
import TinyServer.Timer.Basic

namespace TinyServer

open Lib

/-- The comparator orders the timers by time, then by address. -/
theorem compare_strictTotal (heap : Nat → Timer) :
    StrictTotal (compare heap) where
  irrefl := by
    intro a
    simp [compare]
  trans := by
    intro a b c hab hbc
    simp only [compare, Bool.if_true_left, Bool.if_false_left,
      Bool.or_eq_true, Bool.and_eq_true, Bool.not_eq_true',
      decide_eq_true_eq, decide_eq_false_iff_not] at hab hbc ⊢
    omega
  total := by
    intro a b hne
    simp only [compare, Bool.if_true_left, Bool.if_false_left,
      Bool.or_eq_true, Bool.and_eq_true, Bool.not_eq_true',
      decide_eq_true_eq, decide_eq_false_iff_not]
    omega

namespace TimerManager

variable {m m' : TimerManager} {a b : Nat} {t : Timer} {out : List Nat}

@[simp] theorem setTimer_timers : (m.setTimer a t).timers = m.timers := rfl

@[simp] theorem setTimer_made : (m.setTimer a t).made = m.made := rfl

@[simp] theorem setTimer_heap_self : (m.setTimer a t).heap a = t := by
  simp [setTimer]

@[simp] theorem insert_heap : (m.insert a).heap = m.heap := rfl

@[simp] theorem insert_made : (m.insert a).made = m.made := rfl

/-- The other timers stay. -/
theorem setTimer_heap_ne (h : b ≠ a) :
    (m.setTimer a t).heap b = m.heap b := by
  simp [setTimer, h]

/-- An insertion adds the timer. -/
theorem mem_insert : b ∈ (m.insert a).timers ↔ b = a ∨ b ∈ m.timers :=
  mem_setInsert (compare_strictTotal m.heap)

-- ============================================================== the invariant

/-- The invariant with the timers `out` in hand. -/
structure Holds (out : List Nat) (m : TimerManager) : Prop where
  /-- `m_timers` is in the order of the current `m_next`. -/
  sorted : Ascending (compare m.heap) m.timers
  /-- A timer with a callback is in `m_timers` or in hand. -/
  held : ∀ a, (m.heap a).cb ≠ none → a ∈ m.timers ∨ a ∈ out
  /-- The timers in `m_timers` and in hand were made. -/
  known : ∀ a, a ∈ m.timers ∨ a ∈ out → a ∈ m.made
  /-- A timer in hand is not in `m_timers`. -/
  apart : ∀ a ∈ out, a ∉ m.timers
  /-- A timer is in hand once. -/
  once : out.Nodup

/-- No timer is in the set twice. -/
theorem Holds.nodup (h : m.Holds out) : m.timers.Nodup :=
  ascending_nodup (compare_strictTotal m.heap) h.sorted

/-- A timer of the set is found by its address. -/
theorem Holds.find (h : m.Holds out) (ha : a ∈ m.timers) :
    setFind (compare m.heap) a m.timers = some a :=
  setFind_mem (compare_strictTotal m.heap) h.sorted ha

/-- Take the timer `a` out of the set. -/
theorem Holds.takeOut (h : m.Holds out) (ha : a ∈ m.timers) :
    Holds (a :: out) { m with timers := m.timers.erase a } := by
  refine ⟨h.sorted.sublist List.erase_sublist, ?_, ?_, ?_, ?_⟩
  · intro b hb
    by_cases hba : b = a
    · exact .inr (hba ▸ List.mem_cons_self)
    · rcases h.held b hb with hm | ho
      · exact .inl ((List.mem_erase_of_ne hba).mpr hm)
      · exact .inr (List.mem_cons_of_mem a ho)
  · intro b hb
    rcases hb with hb | hb
    · exact h.known b (.inl (List.mem_of_mem_erase hb))
    · rcases List.mem_cons.mp hb with rfl | hb
      · exact h.known b (.inl ha)
      · exact h.known b (.inr hb)
  · intro b hb hm
    rcases List.mem_cons.mp hb with rfl | hb
    · exact h.nodup.not_mem_erase hm
    · exact h.apart b hb (List.mem_of_mem_erase hm)
  · exact List.nodup_cons.mpr ⟨fun ho => h.apart a ho ha, h.once⟩

/-- Write a timer in hand. -/
theorem Holds.write (h : m.Holds (a :: out)) (t : Timer) :
    (m.setTimer a t).Holds (a :: out) := by
  have hout : a ∉ m.timers := h.apart a List.mem_cons_self
  refine ⟨ascending_congr ?_ h.sorted, ?_, h.known, h.apart, h.once⟩
  · intro b hb c hc
    have hba : b ≠ a := fun heq => hout (heq ▸ hb)
    have hca : c ≠ a := fun heq => hout (heq ▸ hc)
    rw [compare, compare, setTimer_heap_ne hba, setTimer_heap_ne hca]
  · intro b hb
    by_cases hba : b = a
    · exact .inr (hba ▸ List.mem_cons_self)
    · rw [setTimer_heap_ne hba] at hb
      exact h.held b hb

/-- Put the timer in hand into the set. -/
theorem Holds.putIn (h : m.Holds (a :: out)) : (m.insert a).Holds out := by
  refine ⟨setInsert_ascending (compare_strictTotal m.heap) h.sorted,
    ?_, ?_, ?_, (List.nodup_cons.mp h.once).2⟩
  · intro b hb
    rw [mem_insert]
    rcases h.held b hb with hm | ho
    · exact .inl (.inr hm)
    · rcases List.mem_cons.mp ho with rfl | ho
      · exact .inl (.inl rfl)
      · exact .inr ho
  · intro b hb
    rw [mem_insert] at hb
    rcases hb with (rfl | hb) | hb
    · exact h.known b (.inr List.mem_cons_self)
    · exact h.known b (.inl hb)
    · exact h.known b (.inr (List.mem_cons_of_mem a hb))
  · intro b hb hm
    rcases mem_insert.mp hm with rfl | hm
    · exact (List.nodup_cons.mp h.once).1 hb
    · exact h.apart b (List.mem_cons_of_mem a hb) hm

/-- Let go of a timer in hand that has no callback. -/
theorem Holds.letGo (h : m.Holds (a :: out)) (hcb : (m.heap a).cb = none) :
    m.Holds out := by
  refine ⟨h.sorted, ?_, ?_, ?_, (List.nodup_cons.mp h.once).2⟩
  · intro b hb
    rcases h.held b hb with hm | ho
    · exact .inl hm
    · rcases List.mem_cons.mp ho with rfl | ho
      · exact absurd hcb hb
      · exact .inr ho
  · intro b hb
    rcases hb with hb | hb
    · exact h.known b (.inl hb)
    · exact h.known b (.inr (List.mem_cons_of_mem a hb))
  · intro b hb
    exact h.apart b (List.mem_cons_of_mem a hb)

/-- Take a new timer in hand. -/
theorem Holds.make (h : m.Holds []) (ha : a ∉ m.made) :
    Holds [a] { m with made := a :: m.made } := by
  refine ⟨h.sorted, ?_, ?_, ?_, List.pairwise_singleton _ a⟩
  · intro b hb
    exact .inl ((h.held b hb).resolve_right List.not_mem_nil)
  · intro b hb
    rcases hb with hb | hb
    · exact List.mem_cons_of_mem a (h.known b (.inl hb))
    · exact List.mem_singleton.mp hb ▸ List.mem_cons_self
  · intro b hb hm
    rw [List.mem_singleton.mp hb] at hm
    exact ha (h.known a (.inl hm))

/-- Take the first `n` timers out of the set. -/
theorem Holds.takeFront (h : m.Holds []) (n : Nat) :
    Holds (m.timers.take n) { m with timers := m.timers.drop n } := by
  have hsplit : m.timers.take n ++ m.timers.drop n = m.timers :=
    List.take_append_drop n m.timers
  have hnodup : (m.timers.take n ++ m.timers.drop n).Nodup := by
    rw [hsplit]
    exact h.nodup
  obtain ⟨hfront, -, hapart⟩ := List.nodup_append.mp hnodup
  refine ⟨h.sorted.sublist (List.drop_sublist n m.timers), ?_, ?_, ?_, hfront⟩
  · intro b hb
    have hm : b ∈ m.timers := (h.held b hb).resolve_right List.not_mem_nil
    rw [← hsplit, List.mem_append] at hm
    exact hm.symm
  · intro b hb
    refine h.known b (.inl ?_)
    rw [← hsplit, List.mem_append]
    exact hb.symm
  · intro b hb hm
    exact hapart b hb b hm rfl

/-- A new manager has no timers. -/
theorem new_holds (now : Nat) : (new now).Holds [] where
  sorted := List.Pairwise.nil
  held := fun _ h => absurd rfl h
  known := by
    rintro a (h | h) <;> cases h
  apart := fun _ h => by cases h
  once := List.nodup_nil

-- ============================================================= one operation

/-- What `refresh` and `reset` do to a timer of the set. -/
def requeue (m : TimerManager) (a : Nat) (t : Timer) : TimerManager :=
  ({ m with timers := m.timers.erase a }.setTimer a t).insert a

/-- A timer that is taken out, changed and put back. -/
theorem Holds.requeue (h : m.Holds []) (ha : a ∈ m.timers) (t : Timer) :
    (m.requeue a t).Holds [] :=
  ((h.takeOut ha).write t).putIn

/-- The set has the same timers then. -/
theorem mem_requeue (ha : a ∈ m.timers) :
    b ∈ (m.requeue a t).timers ↔ b ∈ m.timers := by
  rw [requeue, mem_insert]
  by_cases hba : b = a
  · rw [hba]
    exact ⟨fun _ => ha, fun _ => .inl rfl⟩
  · show b = a ∨ b ∈ m.timers.erase a ↔ b ∈ m.timers
    rw [List.mem_erase_of_ne hba]
    exact or_iff_right hba

/-- A timer with a callback is in the set. -/
theorem Holds.armed (h : m.Holds []) (ha : (m.heap a).cb ≠ none) :
    a ∈ m.timers :=
  (h.held a ha).resolve_right List.not_mem_nil

/-- The flag does not matter for the invariant. -/
theorem Holds.tickle (h : m.Holds out) (k : Bool) :
    Holds out { m with tickled := k } :=
  ⟨h.sorted, h.held, h.known, h.apart, h.once⟩

/-- The time of the last call is not in the invariant. -/
theorem Holds.clock (h : m.Holds out) (now : Nat) :
    Holds out { m with previousTime := now } :=
  ⟨h.sorted, h.held, h.known, h.apart, h.once⟩

/-- A new timer has a callback and is put into the set. -/
theorem Holds.addTimer (h : m.Holds []) (ha : a ∉ m.made) {ms : Nat}
    {cb : Option Nat} {recurring : Bool} {now : Nat} :
    (m.addTimer a ms cb recurring now).2.Holds [] :=
  ((h.make ha).write _).putIn.tickle _

/-- The state after a `cancle` that returns true. -/
def disarm (m : TimerManager) (a : Nat) : TimerManager :=
  { m.setTimer a { m.heap a with cb := none } with
    timers := m.timers.erase a }

/-- A timer that leaves the set loses its callback. -/
theorem Holds.disarm (h : m.Holds []) (ha : a ∈ m.timers) :
    (m.disarm a).Holds [] :=
  ((h.takeOut ha).write { m.heap a with cb := none }).letGo
    (by rw [setTimer_heap_self])

/-- `cancle` never erases `end()`. -/
theorem Holds.cancle (h : m.Holds []) :
    ((m.heap a).cb = none ∧ m.cancle a = .ok (false, m))
      ∨ ((m.heap a).cb ≠ none ∧ a ∈ m.timers
        ∧ m.cancle a = .ok (true, m.disarm a)) := by
  by_cases hcb : (m.heap a).cb = none
  · exact .inl ⟨hcb, by rw [TimerManager.cancle, if_pos hcb]⟩
  · have ha : a ∈ m.timers := h.armed hcb
    -- the callback does not enter the order
    have hsame : compare (m.setTimer a { m.heap a with cb := none }).heap
        = compare m.heap := by
      funext b c
      have hnext : ∀ d, ((m.setTimer a
          { m.heap a with cb := none }).heap d).next = (m.heap d).next := by
        intro d
        by_cases hda : d = a
        · rw [hda, setTimer_heap_self]
        · rw [setTimer_heap_ne hda]
      rw [compare, compare, hnext b, hnext c]
    refine .inr ⟨hcb, ha, ?_⟩
    rw [TimerManager.cancle, if_neg hcb]
    simp only [hsame, setTimer_timers, h.find ha]
    rfl

/-- What `refresh` does: nothing, or it puts the timer back with a new
time. -/
theorem Holds.refresh (h : m.Holds []) {now : Nat} :
    ((m.heap a).cb = none ∧ m.refresh a now = (false, m))
      ∨ (a ∈ m.timers ∧ m.refresh a now = (true, m.requeue a
          { m.heap a with next := wrap (now + (m.heap a).ms) })) := by
  by_cases hcb : (m.heap a).cb = none
  · exact .inl ⟨hcb, by rw [TimerManager.refresh, if_pos hcb]⟩
  · have ha : a ∈ m.timers := h.armed hcb
    refine .inr ⟨ha, ?_⟩
    rw [TimerManager.refresh, if_neg hcb, h.find ha]
    rfl

/-- `reset` refuses to change the timer. -/
def Refuses (m : TimerManager) (a ms : Nat) (fromNow : Bool) : Prop :=
  (ms = (m.heap a).ms ∧ fromNow = false) ∨ (m.heap a).cb = none

/-- The `m_next` that `reset` gives a timer. -/
def resetNext (m : TimerManager) (a ms : Nat) (fromNow : Bool)
    (now : Nat) : Nat :=
  wrap ((if fromNow then now
    else wrap ((m.heap a).next + (2 ^ 64 - (m.heap a).ms))) + ms)

/-- What `reset` does: it refuses, or puts the timer back with a new
period. -/
theorem Holds.reset (h : m.Holds []) {ms : Nat} {fromNow : Bool}
    {now : Nat} :
    (m.Refuses a ms fromNow
        ∧ m.reset a ms fromNow now = (false, m, false))
      ∨ (¬ m.Refuses a ms fromNow ∧ a ∈ m.timers ∧ ∃ announced,
          (m.tickled = true → announced = false)
          ∧ m.reset a ms fromNow now = (true, { m.requeue a
            { m.heap a with
              ms := ms
              next := m.resetNext a ms fromNow now } with
              tickled := m.tickled || announced }, announced)) := by
  have hcond : (ms = (m.heap a).ms && !fromNow) = true
      ↔ ms = (m.heap a).ms ∧ fromNow = false := by
    rw [Bool.and_eq_true, decide_eq_true_eq, Bool.not_eq_true']
  by_cases hms : (ms = (m.heap a).ms && !fromNow) = true
  · refine .inl ⟨.inl (hcond.mp hms), ?_⟩
    rw [TimerManager.reset, if_pos hms]
  · by_cases hcb : (m.heap a).cb = none
    · refine .inl ⟨.inr hcb, ?_⟩
      rw [TimerManager.reset, if_neg hms, if_pos hcb]
    · have ha : a ∈ m.timers := h.armed hcb
      refine .inr ⟨not_or.mpr ⟨mt hcond.mpr hms, hcb⟩, ha, ?_⟩
      rw [TimerManager.reset, if_neg hms, if_neg hcb, h.find ha]
      refine ⟨_, fun ht => ?_, rfl⟩
      simp only [setTimer, ht, Bool.not_true, Bool.and_false]

-- ============================================================= handing out

/-- What handing out the timers `out` does to the timer `b`. -/
structure HandedOut (out : List Nat) (m m' : TimerManager) (b : Nat) :
    Prop where
  recurring : (m'.heap b).recurring = (m.heap b).recurring
  /-- A timer that was not handed out, or is recurring, keeps its
  callback. -/
  kept : b ∉ out ∨ (m.heap b).recurring = true →
    (m'.heap b).cb = (m.heap b).cb
  /-- It is in the set if it was, or was handed out and is recurring. -/
  mem : b ∈ m'.timers ↔
    b ∈ m.timers ∨ (b ∈ out ∧ (m.heap b).recurring = true)

variable {now tmp : Nat}

/-- A timer that was handed out is put back, or loses its callback. -/
theorem Holds.rearm (h : m.Holds (a :: out)) :
    (m.rearm now a).Holds out := by
  rw [TimerManager.rearm]
  split
  next => exact (h.write _).putIn
  next => exact (h.write _).letGo (by rw [setTimer_heap_self])

/-- Only the timer that is put back changes. -/
theorem rearm_handedOut : HandedOut [a] m (m.rearm now a) b := by
  by_cases hr : (m.heap a).recurring = true
  · have heq : m.rearm now a = (m.setTimer a { m.heap a with
        next := wrap (now + (m.heap a).ms) }).insert a := by
      rw [TimerManager.rearm, if_pos hr]
    by_cases hba : b = a
    · subst hba
      constructor
      · rw [heq, insert_heap, setTimer_heap_self]
      · intro _
        rw [heq, insert_heap, setTimer_heap_self]
      · rw [heq, mem_insert]
        exact ⟨fun _ => .inr ⟨List.mem_cons_self, hr⟩, fun _ => .inl rfl⟩
    · constructor
      · rw [heq, insert_heap, setTimer_heap_ne hba]
      · intro _
        rw [heq, insert_heap, setTimer_heap_ne hba]
      · rw [heq, mem_insert, List.mem_singleton, setTimer_timers]
        simp only [hba, false_or, false_and, or_false]
  · have heq : m.rearm now a
        = m.setTimer a { m.heap a with cb := none } := by
      rw [TimerManager.rearm, if_neg hr]
    by_cases hba : b = a
    · subst hba
      constructor
      · rw [heq, setTimer_heap_self]
      · intro hk
        rcases hk with hk | hk
        · exact absurd List.mem_cons_self hk
        · exact absurd hk hr
      · rw [heq, setTimer_timers]
        simp only [hr, Bool.false_eq_true, and_false, or_false]
    · constructor
      · rw [heq, setTimer_heap_ne hba]
      · intro _
        rw [heq, setTimer_heap_ne hba]
      · rw [heq, setTimer_timers, List.mem_singleton]
        simp only [hba, false_and, or_false]

/-- The timers that were made stay so. -/
theorem rearm_made : (m.rearm now a).made = m.made := by
  rw [TimerManager.rearm]
  split <;> rfl

/-- `m_tickled` stays as it was. -/
theorem rearm_tickled : (m.rearm now a).tickled = m.tickled := by
  rw [TimerManager.rearm]
  split <;> rfl

/-- The loop that hands out the timers in hand: the pushes are for these
timers in order, and afterwards none is in hand. -/
theorem handOut_spec (out : List Nat) :
    ∀ {m : TimerManager}, m.Holds out →
      (handOut now out m).1.map Prod.fst = out
        ∧ (handOut now out m).2.Holds []
        ∧ (handOut now out m).2.made = m.made
        ∧ (handOut now out m).2.tickled = m.tickled
        ∧ ∀ b, HandedOut out m (handOut now out m).2 b := by
  induction out with
  | nil =>
      intro m h
      refine ⟨rfl, h, rfl, rfl, fun b => ⟨rfl, fun _ => rfl, ?_⟩⟩
      simp only [handOut, List.not_mem_nil, false_and, or_false]
  | cons a out ih =>
      intro m h
      have hr : (m.rearm now a).Holds out := h.rearm
      obtain ⟨hcbs, hholds, hmade, htick, hrest⟩ := ih hr
      refine ⟨congrArg (a :: ·) hcbs, hholds, hmade.trans rearm_made,
        htick.trans rearm_tickled, fun b => ?_⟩
      have hone : HandedOut [a] m (m.rearm now a) b := rearm_handedOut
      have hmore := hrest b
      constructor
      · exact hmore.recurring.trans hone.recurring
      · intro hk
        refine (hmore.kept ?_).trans (hone.kept ?_)
        · rw [hone.recurring]
          exact hk.imp_left fun hn hb => hn (List.mem_cons_of_mem a hb)
        · refine hk.imp_left fun hn hb => hn ?_
          rw [List.mem_singleton.mp hb]
          exact List.mem_cons_self
      · refine hmore.mem.trans ?_
        rw [hone.mem, hone.recurring, List.mem_singleton, List.mem_cons]
        tauto

-- ============================================================= the collection

/-- The clock has gone back by more than an hour since the last
collection. -/
def rollover (m : TimerManager) (now : Nat) : Bool :=
  (m.detectClockRollover now).1

/-- The expired timers are the first ones of the set. -/
theorem expired_eq_take :
    m.expired now tmp = m.timers.take (m.expired now tmp).length := by
  refine List.prefix_iff_eq_take.mp ?_
  have hsplit := List.prefix_iff_eq_append.mp
    (List.takeWhile_prefix (l := m.timers) fun a =>
      (m.heap a).next < now || ((m.heap a).next = now && a < tmp))
  refine List.IsPrefix.trans ?_ ⟨[], (List.append_nil _).trans hsplit⟩
  exact (List.prefix_append_right_inj _).mpr (List.takeWhile_prefix _)

/-- Their times have come. -/
theorem expired_le (ha : a ∈ m.expired now tmp) : (m.heap a).next ≤ now := by
  rw [expired, List.mem_append] at ha
  rcases ha with ha | ha
  · have hp := List.mem_takeWhile_imp ha
    simp only [Bool.or_eq_true, Bool.and_eq_true, decide_eq_true_eq] at hp
    omega
  · have hp := List.mem_takeWhile_imp ha
    simp only [decide_eq_true_eq] at hp
    omega

/-- The collection dereferences `end()`, or hands out the first `n`
timers of the set; these have expired, unless the clock went back. -/
theorem collect_cases (m : TimerManager) (now tmp : Nat) :
    (m.timers = [] ∧ m.rollover now = false
        ∧ m.collect now tmp = .error .derefEnd)
      ∨ ((m.timers ≠ [] ∨ m.rollover now = true) ∧ ∃ n,
        m.collect now tmp = .ok (handOut now (m.timers.take n)
          { m with timers := m.timers.drop n, previousTime := now })
        ∧ (m.rollover now = true
          ∨ ∀ a ∈ m.timers.take n, (m.heap a).next ≤ now)) := by
  have hm : (m.detectClockRollover now).2
      = { m with previousTime := now } := rfl
  by_cases hroll : m.rollover now = true
  · refine .inr ⟨.inr hroll, m.timers.length, ?_, .inl hroll⟩
    rw [List.take_length, List.drop_length, collect]
    simp only [hm, show (m.detectClockRollover now).1 = true from hroll,
      if_true]
  · have hroll' : (m.detectClockRollover now).1 = false :=
      Bool.eq_false_iff.mpr hroll
    rw [collect]
    simp only [hm, hroll', Bool.false_eq_true, if_false]
    cases hts : m.timers with
    | nil => exact .inl ⟨rfl, hroll', rfl⟩
    | cons a rest =>
        refine .inr ⟨.inl (List.cons_ne_nil a rest), ?_⟩
        simp only
        split
        next hlt =>
            refine ⟨0, ?_, .inr fun b hb => by cases hb⟩
            rw [← hts]
            rfl
        next =>
            have htake : m.expired now tmp
                = m.timers.take (m.expired now tmp).length :=
              expired_eq_take
            refine ⟨(m.expired now tmp).length, ?_, .inr fun b hb => ?_⟩
            · rw [← hts, ← htake]
              rfl
            · rw [← hts, ← htake] at hb
              exact expired_le hb

/-- A collection that returns: it keeps the invariant and hands out a
timer once. -/
theorem Holds.collect (h : m.Holds []) {cbs : List (Nat × Option Nat)}
    (hc : m.collect now tmp = .ok (cbs, m')) :
    m'.Holds [] ∧ m'.made = m.made ∧ m'.tickled = m.tickled
      ∧ (cbs.map Prod.fst).Nodup := by
  rcases collect_cases m now tmp with ⟨-, -, he⟩ | ⟨-, n, ho, -⟩
  · rw [he] at hc
    cases hc
  · rw [ho, Except.ok.injEq] at hc
    have hout := (h.takeFront n).clock now
    obtain ⟨hcbs, hholds, hmade, htick, -⟩ := handOut_spec _ hout
    rw [hc] at hcbs hholds hmade htick
    exact ⟨hholds, hmade, htick, hcbs ▸ hout.once⟩

/-- What a collection does to one timer. -/
theorem Holds.collect_timer (h : m.Holds [])
    {cbs : List (Nat × Option Nat)}
    (hc : m.collect now tmp = .ok (cbs, m')) (b : Nat) :
    (m'.heap b).recurring = (m.heap b).recurring
      ∧ (b ∉ cbs.map Prod.fst ∨ (m.heap b).recurring = true →
          (m'.heap b).cb = (m.heap b).cb
            ∧ (b ∈ m'.timers ↔ b ∈ m.timers))
      ∧ (b ∈ cbs.map Prod.fst → b ∈ m.timers
          ∧ ((m.heap b).recurring = false → b ∉ m'.timers)) := by
  rcases collect_cases m now tmp with ⟨-, -, he⟩ | ⟨-, n, ho, -⟩
  · rw [he] at hc
    cases hc
  · rw [ho, Except.ok.injEq] at hc
    have hout := (h.takeFront n).clock now
    obtain ⟨hcbs, -, -, -, hrest⟩ := handOut_spec _ hout
    obtain ⟨hrec, hkept, hmem⟩ := hrest b
    rw [hc] at hcbs hrec hkept hmem
    have hsplit : b ∈ m.timers
        ↔ b ∈ m.timers.take n ∨ b ∈ m.timers.drop n := by
      rw [← List.mem_append, List.take_append_drop]
    rw [hcbs]
    refine ⟨hrec, fun hk => ⟨hkept hk, ?_⟩, fun hb => ⟨?_, fun hr hm => ?_⟩⟩
    · rw [hsplit]
      refine hmem.trans ?_
      tauto
    · exact hsplit.mpr (.inl hb)
    · rcases hmem.mp hm with hd | ⟨-, hr'⟩
      · exact hout.apart b hb hd
      · exact absurd (hr.symm.trans hr') Bool.false_ne_true

-- ============================================================== calls and runs

variable {c : TimerCall} {r : TimerRet}

/-- `listExpireCB` without another call in between: nothing to collect,
or a collection. It does not dereference `end()`. -/
theorem listExpireCB_cases (m : TimerManager) (now tmp : Nat) :
    (m.timers = [] ∧ m.listExpireCB now tmp = .ok ([], m))
      ∨ (m.timers ≠ [] ∧ ∃ cbs m', m.collect now tmp = .ok (cbs, m')
        ∧ m.listExpireCB now tmp = .ok (cbs, m')) := by
  by_cases hts : m.timers = []
  · exact .inl ⟨hts, by rw [listExpireCB, if_pos hts]⟩
  · refine .inr ⟨hts, ?_⟩
    rw [listExpireCB, if_neg hts]
    rcases collect_cases m now tmp with ⟨hnil, -⟩ | ⟨-, n, ho, -⟩
    · exact absurd hnil hts
    · exact ⟨_, _, ho, ho⟩

/-- What a call can do. -/
inductive Did (m : TimerManager) :
    TimerCall → TimerManager → TimerRet → Prop where
  | added {a ms : Nat} {cb : Option Nat} {recurring : Bool} {now : Nat}
      (hnew : a ∉ m.made) :
      Did m (.addTimer a ms cb recurring now)
        (m.addTimer a ms cb recurring now).2
        ⟨true, [], (m.addTimer a ms cb recurring now).1⟩
  | refused {c : TimerCall} {a : Nat}
    (hc : c.timer = some a) : Did m c m ⟨false, [], false⟩
  | cancelled {a : Nat} (hcb : (m.heap a).cb ≠ none) (ha : a ∈ m.timers) :
      Did m (.cancle a) (m.disarm a) ⟨true, [], false⟩
  | requeued {c : TimerCall} {a : Nat} {t : Timer} {announced : Bool}
      (hc : c.timer = some a)
      (hcancle : c ≠ .cancle a) (ha : a ∈ m.timers)
      (hcb : t.cb = (m.heap a).cb)
      (hrec : t.recurring = (m.heap a).recurring)
      (htick : m.tickled = true → announced = false) :
      Did m c { m.requeue a t with tickled := m.tickled || announced }
        ⟨true, [], announced⟩
  | asked {now : Nat} :
      Did m (.getNextTimer now) { m with tickled := true } ⟨true, [], false⟩
  | idle {now tmp : Nat} : Did m (.listExpireCB now tmp) m ⟨true, [], false⟩
  | collected {now tmp : Nat} {cbs : List (Nat × Option Nat)}
      {m' : TimerManager} (hm : m.collect now tmp = .ok (cbs, m')) :
      Did m (.listExpireCB now tmp) m' ⟨true, cbs, false⟩

/-- Each call does what `Did` says of it. -/
theorem Holds.call_did (h : m.Holds []) (hc : m.call c = some (m', r)) :
    Did m c m' r := by
  cases c with
  | addTimer a ms cb recurring now =>
      simp only [call] at hc
      split at hc
      next => cases hc
      next hnew =>
          cases hc
          exact .added hnew
  | cancle a =>
      rcases h.cancle (a := a) with ⟨-, he⟩ | ⟨hcb, ha, he⟩
      · simp only [call, he] at hc
        cases hc
        exact .refused rfl
      · simp only [call, he] at hc
        cases hc
        exact .cancelled hcb ha
  | refresh a now =>
      have hr : some ((m.refresh a now).2,
          (⟨(m.refresh a now).1, [], false⟩ : TimerRet)) = some (m', r) := hc
      rcases h.refresh (a := a) with ⟨-, he⟩ | ⟨ha, he⟩
      · rw [he] at hr
        cases hr
        exact .refused rfl
      · rw [he] at hr
        cases hr
        have htick : (m.tickled || false) = m.tickled := Bool.or_false _
        have hdid : Did m (.refresh a now) { m.requeue a { m.heap a with
            next := wrap (now + (m.heap a).ms) } with
              tickled := m.tickled || false } ⟨true, [], false⟩ :=
          .requeued rfl TimerCall.noConfusion ha rfl rfl fun _ => rfl
        rw [htick] at hdid
        exact hdid
  | reset a ms fromNow now =>
      have hr : some ((m.reset a ms fromNow now).2.1,
          (⟨(m.reset a ms fromNow now).1, [],
            (m.reset a ms fromNow now).2.2⟩ : TimerRet)) = some (m', r) := hc
      rcases h.reset (a := a) with ⟨-, he⟩ | ⟨-, ha, announced, htick, he⟩
      · rw [he] at hr
        cases hr
        exact .refused rfl
      · rw [he] at hr
        cases hr
        exact .requeued rfl TimerCall.noConfusion ha rfl rfl htick
  | getNextTimer now =>
      have hm : (m.getNextTimer now).2 = { m with tickled := true } := by
        rw [getNextTimer]
        simp only
        split <;> rfl
      simp only [call, hm] at hc
      cases hc
      exact .asked
  | listExpireCB now tmp =>
      rcases listExpireCB_cases m now tmp with ⟨-, he⟩ | ⟨-, cbs, m₁, hm, he⟩
      · simp only [call, he] at hc
        cases hc
        exact .idle
      · simp only [call, he] at hc
        cases hc
        exact .collected hm

/-- And that keeps the invariant. -/
theorem Holds.did (h : m.Holds []) (hd : Did m c m' r) : m'.Holds [] := by
  cases hd with
  | added hnew => exact h.addTimer hnew
  | refused _ => exact h
  | cancelled _ ha => exact h.disarm ha
  | requeued _ _ ha _ _ _ => exact (h.requeue ha _).tickle _
  | asked => exact h.tickle true
  | idle => exact h
  | collected hm => exact (h.collect hm).1

end TimerManager

namespace TimerThreads

variable {s s' : TimerThreads} {i : TimerStep}

/-- What a step of the threads can do. -/
theorem step_cases (hs : s.step i = some s') :
    (∃ c m r, i = .op c ∧ s.m.call c = some (m, r) ∧ s' = { s with m := m })
      ∨ (∃ t now, i = .test t now
        ∧ (s' = s ∨ (s.m.timers ≠ [] ∧ s' = s.setTested t (some now))))
      ∨ ∃ t tmp now cbs m, i = .collect t tmp ∧ s.tested t = some now
        ∧ s.m.collect now tmp = .ok (cbs, m)
        ∧ s' = { s with m := m }.setTested t none := by
  cases i with
  | op c =>
      simp only [step, TimerManager.step, Option.map_map,
        Option.map_eq_some_iff] at hs
      obtain ⟨⟨m, r⟩, hc, rfl⟩ := hs
      exact .inl ⟨c, m, r, rfl, hc, rfl⟩
  | test t now =>
      simp only [step] at hs
      split at hs
      next => cases hs
      next =>
          refine .inr (.inl ⟨t, now, rfl, ?_⟩)
          split at hs
          next =>
              cases hs
              exact .inl rfl
          next hne =>
              cases hs
              exact .inr ⟨hne, rfl⟩
  | collect t tmp =>
      simp only [step] at hs
      split at hs
      next => cases hs
      next now ht =>
          split at hs
          next => cases hs
          next cbs m hm =>
              cases hs
              exact .inr (.inr ⟨t, tmp, now, cbs, m, rfl, ht, hm, rfl⟩)

/-- So every section keeps it. -/
theorem step_holds (h : s.m.Holds []) (hs : s.step i = some s') :
    s'.m.Holds [] := by
  rcases step_cases hs with ⟨c, m, r, -, hc, rfl⟩ | ⟨t, now, -, htest⟩ |
    ⟨t, tmp, now, cbs, m, -, -, hm, rfl⟩
  · exact h.did (h.call_did hc)
  · rcases htest with rfl | ⟨-, rfl⟩
    · exact h
    · exact h
  · exact (h.collect hm).1

/-- In every state that any interleaving of the sections reaches,
`m_timers` is strictly sorted by the current `m_next`, holds no timer
twice and holds every timer that has a callback, and `cancle` does not
erase `end()`. -/
theorem timers_sorted_and_complete {now₀ : Nat} {is : List TimerStep}
    {s : TimerThreads} (h : Visits step (new now₀) is s) :
    Ascending (compare s.m.heap) s.m.timers
      ∧ s.m.timers.Nodup
      ∧ (∀ a, (s.m.heap a).cb ≠ none → a ∈ s.m.timers)
      ∧ ∀ a, s.m.cancle a ≠ .error .eraseEnd := by
  have hinv : s.m.Holds [] :=
    run_inv_visits (P := fun s => s.m.Holds []) step_holds
      (TimerManager.new_holds now₀) h
  refine ⟨hinv.sorted, hinv.nodup, fun a ha => hinv.armed ha, fun a => ?_⟩
  rcases hinv.cancle (a := a) with ⟨-, he⟩ | ⟨-, -, he⟩
  all_goals
    rw [he]
    exact fun h => by cases h

theorem timers_sorted_and_complete_two_threads :
    ∃ s, [.op (.addTimer 7 10 (some 1) true 0),
        .op (.addTimer 3 10 (some 2) true 0), .test 0 10, .op (.cancle 7),
        .collect 0 99].foldlM step (new 0) = some s
      ∧ s.m.timers = [3] ∧ ∀ a, s.m.cancle a ≠ .error .eraseEnd := by
  obtain ⟨s, hs⟩ := Option.isSome_iff_exists.mp (show
    ([.op (.addTimer 7 10 (some 1) true 0),
      .op (.addTimer 3 10 (some 2) true 0), .test 0 10, .op (.cancle 7),
      .collect 0 99].foldlM step (new 0)).isSome = true by decide)
  refine ⟨s, hs, ?_, ?_⟩
  · have hts := congrArg (Option.map fun s => s.m.timers) hs
    exact (Option.some.inj hts).symm
  · exact (timers_sorted_and_complete (visits_last hs)).2.2.2

end TimerThreads

end TinyServer
