/-
`schedule(begin, end)` by several threads at once.

The sections between the guards pass one at a time (`runs_atomic`), and a
whole section does what `Scheduled.scheduleRange` does in one
(`schedule_section`). So the threads have come to where the calls come
when they are made one after the other.
-/
import TinyServer.Thread.Proofs.Lock

namespace TinyServer

open Lib

variable {ranges : Nat → List FiberOrCb} {range : List FiberOrCb}
  {d d₀ : List QueueEntry} {p p' : SchedulePlace} {order : List Nat} {t : Nat}

-- ================================================================= one section

/-- The sections of `scheduleCode`. -/
def scheduleSections : SectionCode (List QueueEntry) SchedulePlace :=
  sectionCode scheduleCode SchedulePlace.guard

/-- `m_fibers` and `need_tickle` after the loop over what is left. -/
def afterLoop (fibers : List QueueEntry) (needTickle : Bool)
    (range : List FiberOrCb) : List QueueEntry × Bool :=
  ((Scheduled.rangeLoop fibers needTickle range).1,
    (Scheduled.rangeLoop fibers needTickle range).2.1)

/-- In the section the loop comes to what the whole loop comes to. -/
theorem schedule_inside {b : Bool}
    (h : InSection scheduleSections (.declared range b) d₀ p d) :
    (∃ rest c, p = .loop rest c ∧ afterLoop d c rest = afterLoop d₀ b range)
      ∨ ∃ fc rest c, p = .looked fc rest c d.isEmpty
        ∧ afterLoop d c (fc :: rest) = afterLoop d₀ b range := by
  induction h with
  | enter hnext =>
      cases hnext
      exact .inl ⟨range, b, rfl, rfl⟩
  | work _ hnext ih =>
      rcases ih with ⟨rest, c, rfl, hd⟩ | ⟨fc, rest, c, rfl, hd⟩
      · cases rest with
        | nil => cases hnext
        | cons fc rest =>
            cases hnext
            exact .inr ⟨fc, rest, c, rfl, hd⟩
      · cases hnext
        exact .inl ⟨rest, _, rfl, hd⟩

/-- A whole section is the loop in one. -/
theorem schedule_section {b : Bool}
    (h : InSection scheduleSections (.declared range b) d₀ p d)
    (hleave : scheduleSections.next p d = some (.leave p')) :
    d = (afterLoop d₀ b range).1 ∧ p' = .left (afterLoop d₀ b range).2 := by
  rcases schedule_inside h with ⟨rest, c, rfl, hd⟩ | ⟨fc, rest, c, rfl, hd⟩
  · cases rest with
    | nil =>
        cases hleave
        rw [← hd]
        exact ⟨rfl, rfl⟩
    | cons fc rest => cases hleave
  · cases hleave

-- =================================================================== the order

/-- `m_fibers` after calls of `schedule` one after the other. -/
def queueAfter (ranges : Nat → List FiberOrCb) (order : List Nat) :
    List QueueEntry :=
  order.foldl (fun fibers t =>
    (Scheduled.scheduleRange fibers (ranges t)).fibers) []

/-- The threads in `order` have left, one after the other, and the others
have not entered. -/
structure Served (ranges : Nat → List FiberOrCb) (order : List Nat)
    (s : SectionState Nat (List QueueEntry) SchedulePlace) : Prop where
  nodup : order.Nodup
  left : ∀ pre t post, order = pre ++ t :: post →
    s.loc t = .left (afterLoop (queueAfter ranges pre) false (ranges t)).2
  outside : ∀ t, t ∉ order →
    s.loc t = .entry (ranges t) ∨ s.loc t = .declared (ranges t) false
  data : s.data = queueAfter ranges order

theorem Served.left_of_mem
    {s : SectionState Nat (List QueueEntry) SchedulePlace}
    (h : Served ranges order s) (ht : t ∈ order) : ∃ b, s.loc t = .left b := by
  obtain ⟨pre, post, hsplit⟩ := List.append_of_mem ht
  exact ⟨_, h.left pre t post hsplit⟩

theorem Served.step {s s' : SectionState Nat (List QueueEntry) SchedulePlace}
    (h : Served ranges order s) (hs : WholeStep scheduleSections s t s') :
    ∃ order', Served ranges order' s' := by
  -- a thread that has left has no next step
  have hleft : ∀ {m}, scheduleSections.next (s.loc t) s.data = some m →
      t ∉ order := by
    intro m hm hmem
    obtain ⟨b, hb⟩ := h.left_of_mem hmem
    rw [hb] at hm
    cases hm
  have hothers : ∀ {pre u post}, order = pre ++ u :: post → t ∉ order →
      u ≠ t := by
    rintro pre u post rfl hout rfl
    exact hout (List.mem_append_right pre List.mem_cons_self)
  cases hs with
  | work _ hnext =>
      have hout := hleft hnext
      rcases h.outside t hout with hloc | hloc
      · rw [hloc] at hnext
        cases hnext
        refine ⟨order, h.nodup, fun pre u post hsplit => ?_, fun u hu => ?_,
          h.data⟩
        · dsimp only
          rw [Function.update_of_ne (hothers hsplit hout)]
          exact h.left pre u post hsplit
        · dsimp only
          by_cases hut : u = t
          · rw [hut, Function.update_self]
            exact .inr rfl
          · rw [Function.update_of_ne hut]
            exact h.outside u hu
      · rw [hloc] at hnext
        cases hnext
  | pass hin hnext =>
      obtain ⟨l, henter⟩ := hin.enters
      have hout := hleft henter
      rcases h.outside t hout with hloc | hloc
      · rw [hloc] at henter
        cases henter
      · rw [hloc, h.data] at hin
        obtain ⟨hd, rfl⟩ := schedule_section hin hnext
        refine ⟨order ++ [t], ?_, fun pre u post hsplit => ?_, fun u hu =>
          ?_, ?_⟩
        · exact List.nodup_append.mpr ⟨h.nodup, by simp, fun u hu v hv => by
            rw [List.mem_singleton.mp hv]
            exact fun hut => hout (hut ▸ hu)⟩
        · dsimp only
          rcases List.eq_nil_or_concat post with rfl | ⟨post', v, rfl⟩
          · obtain ⟨rfl, heq⟩ := List.append_inj' hsplit rfl
            cases heq
            rw [Function.update_self]
          · have hsplit' : order ++ [t] = (pre ++ u :: post') ++ [v] := by
              simpa using hsplit
            have horder := (List.append_inj' hsplit' rfl).1
            rw [Function.update_of_ne (hothers horder hout)]
            exact h.left pre u post' horder
        · dsimp only
          have hut : u ≠ t := fun hut =>
            hu (List.mem_append_right _ (List.mem_singleton.mpr hut))
          rw [Function.update_of_ne hut]
          exact h.outside u fun hu' => hu (List.mem_append_left _ hu')
        · dsimp only
          unfold queueAfter
          rw [hd, List.foldl_append]
          rfl

theorem Served.run {us : List Nat}
    {s f : SectionState Nat (List QueueEntry) SchedulePlace}
    (h : Served ranges order s)
    (hrun : RunsBy (WholeStep scheduleSections) s us f) :
    ∃ order', Served ranges order' f := by
  induction hrun with
  | nil => exact ⟨order, h⟩
  | snoc _ hstep ih =>
      obtain ⟨order', hu⟩ := ih
      exact hu.step hstep

/-- Calls of `schedule(begin, end)` are atomic. In every run of any number
of threads that make one each: where no guard is locked, `m_fibers` is as
if the threads that have left had called `scheduleRange` one after the
other, in some order, and each of them calls `tickle` as it does there. -/
theorem schedules_linearizable {n : Nat} {ts : List Nat}
    {f : LockedThreads (List QueueEntry) SchedulePlace}
    (hrun : ts.foldlM (LockedThreads.step n scheduleCode)
      (.new [] fun t => .entry (ranges t)) = some f)
    (hfree : ∀ t g, f.guard t = some g → g.locked = false) :
    ∃ order : List Nat, order.Nodup
      ∧ (∀ t, t ∈ order ↔ ∃ b, f.place t = .left b)
      ∧ f.data = queueAfter ranges order
      ∧ ∀ pre t post, order = pre ++ t :: post → ∃ b, f.place t = .left b
        ∧ (Scheduled.scheduleRange (queueAfter ranges pre) (ranges t)).tickles
          = if b then 1 else 0 := by
  have h₀ : Served ranges [] ⟨[], fun t => .entry (ranges t)⟩ :=
    ⟨List.nodup_nil, fun pre t post hsplit => by simp at hsplit,
      fun t _ => .inl rfl, rfl⟩
  obtain ⟨hfine, ha⟩ := (LockedThreads.agrees_new n (fun _ => rfl) []).run
    scheduleCode_keeps hrun
  obtain ⟨us, -, hus⟩ := runs_atomic scheduleCode_keeps.guarded (fun _ => rfl)
    hfine (ha.hold_none hfree)
  obtain ⟨order, h⟩ := h₀.run hus
  refine ⟨order, h.nodup, fun t => ⟨h.left_of_mem, fun ⟨b, hb⟩ => ?_⟩, h.data,
    fun pre t post hsplit => ⟨_, h.left pre t post hsplit, rfl⟩⟩
  by_contra hout
  have hloc : f.state.loc t = .left b := hb
  rcases h.outside t hout with ht | ht
  · rw [hloc] at ht
    cases ht
  · rw [hloc] at ht
    cases ht

theorem schedules_linearizable_two :
    ∃ f, ∃ order : List Nat, twoSchedules = some f ∧ order.Nodup
      ∧ (∀ t, t ∈ order ↔ ∃ b, f.place t = .left b) := by
  have hobs : twoSchedules.isSome = true := by
    rfl
  obtain ⟨f, hf⟩ := Option.isSome_iff_exists.mp hobs
  obtain ⟨order, hnodup, hmem, -⟩ :=
    schedules_linearizable hf (twoSchedules_unlocked hf)
  exact ⟨f, order, hf, hnodup, hmem⟩

end TinyServer
