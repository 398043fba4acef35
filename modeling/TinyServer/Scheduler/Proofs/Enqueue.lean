/-
Scheduling tasks one by one and in a range.

Both append one entry a task (`entries`), whichever constructor makes it.
They differ in `tickle`: the overload for one task declares
`need_tickle = false` and never assigns it.
-/
import TinyServer.Scheduler.Enqueue

namespace TinyServer

namespace QueueEntry

/-- Copying and swapping make the same entry. -/
theorem swap_eq (fc : FiberOrCb) (threadId : Option Nat) :
    swap fc threadId = (copy fc threadId, fc.emptied) := by
  cases fc <;> rfl

/-- An entry is queued unless its task is null. -/
theorem scheduleNoLock_copy (fibers : List QueueEntry) (fc : FiberOrCb)
    (threadId : Option Nat) :
    scheduleNoLock fibers (copy fc threadId)
      = (fibers.isEmpty,
        if fc.isNull then fibers else fibers ++ [copy fc threadId]) := by
  unfold scheduleNoLock
  rcases fc with (_ | f) | (_ | c) <;> rfl

/-- The entries that a list of tasks is queued as. -/
def entries (tasks : List FiberOrCb) : List QueueEntry :=
  (tasks.filter fun fc => !fc.isNull).map (copy · none)

theorem entries_cons (fc : FiberOrCb) (tasks : List FiberOrCb) :
    entries (fc :: tasks)
      = (if fc.isNull then [] else [copy fc none]) ++ entries tasks := by
  unfold entries
  cases h : fc.isNull with
  | true => simp [h]
  | false => simp [h]

theorem entries_of_not_null {tasks : List FiberOrCb}
    (h : ∀ fc ∈ tasks, fc.isNull = false) :
    entries tasks = tasks.map (copy · none) := by
  unfold entries
  rw [List.filter_eq_self.mpr]
  intro fc hfc
  rw [h fc hfc]
  rfl

end QueueEntry

namespace Scheduled

open QueueEntry

variable {fibers : List QueueEntry} {tasks : List FiberOrCb}

/-- One task after the other: the entries in order, and no `tickle`. -/
theorem foldl_schedule (tasks : List FiberOrCb) :
    ∀ s : Scheduled, tasks.foldl (fun s fc => s.schedule fc none) s
      = { s with fibers := s.fibers ++ entries tasks } := by
  induction tasks with
  | nil =>
      intro s
      show s = { s with fibers := s.fibers ++ [] }
      rw [List.append_nil]
  | cons fc tasks ih =>
      intro s
      have hone : s.schedule fc none = { s with
          fibers := s.fibers ++ if fc.isNull then [] else [copy fc none] } := by
        unfold schedule
        rw [scheduleNoLock_copy]
        cases fc.isNull <;> simp
      rw [List.foldl_cons, ih, hone, entries_cons]
      simp [List.append_assoc]

theorem scheduleEach_eq :
    scheduleEach fibers tasks = ⟨fibers ++ entries tasks, tasks, 0⟩ :=
  foldl_schedule tasks _

/-- The range: the same entries, `need_tickle` if the queue was empty
before one of them, and every task null. -/
theorem rangeLoop_eq (tasks : List FiberOrCb) :
    ∀ (fibers : List QueueEntry) (need : Bool),
      ∃ need', rangeLoop fibers need tasks
          = (fibers ++ entries tasks, need', tasks.map FiberOrCb.emptied)
        ∧ (need' = true ↔ need = true
          ∨ ∃ pre fc post, tasks = pre ++ fc :: post
              ∧ fibers ++ entries pre = []) := by
  induction tasks with
  | nil =>
      intro fibers need
      refine ⟨need, ?_, ?_⟩
      · show (fibers, need, []) = (fibers ++ [], need, [])
        rw [List.append_nil]
      · simp
  | cons fc tasks ih =>
      intro fibers need
      obtain ⟨need', hloop, hneed⟩ := ih
        (if fc.isNull then fibers else fibers ++ [copy fc none])
        (fibers.isEmpty || need)
      have hqueue : (if fc.isNull then fibers else fibers ++ [copy fc none])
          ++ entries tasks = fibers ++ entries (fc :: tasks) := by
        rw [entries_cons]
        cases fc.isNull <;> simp
      refine ⟨need', ?_, ?_⟩
      · unfold rangeLoop
        simp only [swap_eq, scheduleNoLock_copy, hloop, hqueue, List.map_cons]
      · rw [hneed]
        constructor
        · rintro (hor | ⟨pre, gc, post, rfl, hnil⟩)
          · rcases Bool.or_eq_true_iff.mp hor with hempty | hneed
            · refine .inr ⟨[], fc, tasks, rfl, ?_⟩
              simpa [entries] using hempty
            · exact .inl hneed
          · refine .inr ⟨fc :: pre, gc, post, rfl, ?_⟩
            rw [← hnil, entries_cons]
            cases fc.isNull <;> simp
        · rintro (hneed | ⟨pre, gc, post, heq, hnil⟩)
          · exact .inl (by simp [hneed])
          · left
            have hfibers : fibers = [] := (List.append_eq_nil_iff.mp hnil).1
            simp [hfibers]

/-- The caller's tasks are null after the range was scheduled. -/
theorem scheduleRange_eq :
    (scheduleRange fibers tasks).fibers = fibers ++ entries tasks
      ∧ (scheduleRange fibers tasks).tasks = tasks.map FiberOrCb.emptied
      ∧ (0 < (scheduleRange fibers tasks).tickles
        ↔ fibers = [] ∧ tasks ≠ []) := by
  obtain ⟨need, hloop, hneed⟩ := rangeLoop_eq tasks fibers false
  have htickle : need = true ↔ fibers = [] ∧ tasks ≠ [] := by
    rw [hneed]
    constructor
    · rintro (hfalse | ⟨pre, fc, post, rfl, hnil⟩)
      · cases hfalse
      · exact ⟨(List.append_eq_nil_iff.mp hnil).1, by simp⟩
    · rintro ⟨rfl, hne⟩
      obtain ⟨fc, rest, rfl⟩ := List.exists_cons_of_ne_nil hne
      exact .inr ⟨[], fc, rest, rfl, rfl⟩
  unfold scheduleRange
  rw [hloop]
  refine ⟨rfl, rfl, ?_⟩
  rw [← htickle]
  cases need <;> simp

/-- The two ways leave the same queue, the tasks in order behind what was
there; and whenever the queue was empty before the first task both have
called `tickle`. -/
def Agree (fibers : List QueueEntry) (tasks : List FiberOrCb) : Prop :=
  (scheduleEach fibers tasks).fibers = (scheduleRange fibers tasks).fibers
    ∧ (scheduleRange fibers tasks).fibers = fibers ++ tasks.map (copy · none)
    ∧ (fibers = [] → tasks ≠ [] → 0 < (scheduleEach fibers tasks).tickles
      ∧ 0 < (scheduleRange fibers tasks).tickles)

/-- They do exactly if the queue is not empty or there is no task. -/
theorem schedules_agree_iff
    (hnull : ∀ fc ∈ tasks, fc.isNull = false) :
    Agree fibers tasks ↔ fibers ≠ [] ∨ tasks = [] := by
  obtain ⟨hfibers, -, htickles⟩ := @scheduleRange_eq fibers tasks
  unfold Agree
  rw [scheduleEach_eq, hfibers, entries_of_not_null hnull]
  constructor
  · rintro ⟨-, -, htick⟩
    by_contra hno
    obtain ⟨hempty, htasks⟩ := not_or.mp hno
    have hpos := (htick (not_not.mp hempty) htasks).1
    exact absurd hpos (Nat.lt_irrefl 0)
  · intro hor
    refine ⟨rfl, rfl, fun hempty htasks => ?_⟩
    rcases hor with hne | hnone
    · exact absurd hempty hne
    · exact absurd hnone htasks

theorem schedules_agree_iff_behind :
    Agree [⟨some 1, none, none⟩] [.fiber (some 2), .cb (some 3)] := by
  have hnull : ∀ fc ∈ [FiberOrCb.fiber (some 2), .cb (some 3)],
      fc.isNull = false := by decide
  exact (schedules_agree_iff hnull).mpr (.inl (by decide))

/-- A callback that is scheduled alone on an empty queue wakes nobody. -/
theorem single_never_tickles :
    ¬ ∀ (fibers : List QueueEntry) (tasks : List FiberOrCb),
      (∀ fc ∈ tasks, fc.isNull = false) → Agree fibers tasks := by
  intro hall
  obtain ⟨-, -, htick⟩ := hall [] [.cb (some 3)] (by decide)
  exact absurd (htick rfl (by decide)).1 (by decide)

end Scheduled

-- ================================================================= the workers

namespace Scheduler

open QueueEntry

variable {s : Scheduler}

/-- What `schedule` does to the workers' queue is what `scheduleNoLock`
does to the entries. -/
theorem scheduleNoLock_entry (task : Option Task) (threadId : Option Nat) :
    (s.scheduleNoLock task threadId).fibers.map FiberAndThread.queueEntry
      = (QueueEntry.scheduleNoLock (s.fibers.map FiberAndThread.queueEntry)
        (copy (Task.fiberOrCb task) threadId)).2 := by
  rw [scheduleNoLock_copy]
  rcases task with _ | (f | c)
  · rfl
  · simp [Scheduler.scheduleNoLock, Task.fiberOrCb, FiberOrCb.isNull,
      FiberAndThread.queueEntry]
  · simp [Scheduler.scheduleNoLock, Task.fiberOrCb, FiberOrCb.isNull,
      FiberAndThread.queueEntry]

/-- A batch of the workers' scheduler is the range. -/
theorem scheduleAll_entries (tasks : List (Option Task)) :
    ∀ s : Scheduler,
      (tasks.foldl (fun s t => s.scheduleNoLock t none) s).fibers.map
          FiberAndThread.queueEntry
        = (Scheduled.scheduleRange (s.fibers.map FiberAndThread.queueEntry)
          (tasks.map Task.fiberOrCb)).fibers := by
  intro s
  rw [Scheduled.scheduleRange_eq.1]
  induction tasks generalizing s with
  | nil => simp [entries]
  | cons t tasks ih =>
      rw [List.foldl_cons, ih, scheduleNoLock_entry, scheduleNoLock_copy,
        List.map_cons, entries_cons]
      cases (Task.fiberOrCb t).isNull <;> simp

end Scheduler

end TinyServer
