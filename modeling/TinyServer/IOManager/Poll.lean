/-
How long `IOManager::idle` waits in `epoll_wait` (iomanager.cpp).

`next_timeout` is the `uint64_t` that `getNextTimer` returned. It is
compared with 5000 as an `int` and kept when it is less, and the call
takes it as an `int` again. A remaining time with the bit 31 set is
negative there: it is less than 5000, and `epoll_wait` waits without
limit. After `EINTR` the loop goes through the comparison again, with
what the last round left in `next_timeout`.
-/
import TinyServer.Timer.Proofs.Expiry

namespace TinyServer

open Lib

/-- A `uint64_t` as an `int`. -/
def asInt (n : Nat) : Int :=
  if n % 0x100000000 < 0x80000000 then (n % 0x100000000 : Nat)
  else (n % 0x100000000 : Nat) - 0x100000000

/-- The assignment of `next_timeout` in the loop around `epoll_wait`. -/
def narrowTimeout (nextTimeout : Nat) : Nat :=
  if nextTimeout ≠ noTimer then
    if asInt nextTimeout < 5000 then nextTimeout else 5000
  else 5000

/-- `next_timeout` at the call of `epoll_wait` after `interrupts` calls
that failed with `EINTR`. -/
def nextTimeout (timeOut : Nat) : Nat → Nat
  | 0 => narrowTimeout timeOut
  | interrupts + 1 => narrowTimeout (nextTimeout timeOut interrupts)

/-- The argument of that call. -/
def pollTimeout (timeOut interrupts : Nat) : Int :=
  asInt (nextTimeout timeOut interrupts)

variable {timeOut k : Nat}

theorem asInt_nonneg_iff {n : Nat} :
    0 ≤ asInt n ↔ n % 0x100000000 < 0x80000000 := by
  unfold asInt
  split
  next hlow => omega
  next hhigh => omega

theorem asInt_le {n : Nat} (h : 0 ≤ asInt n) : asInt n ≤ n := by
  unfold asInt at h ⊢
  split at h
  next hlow =>
      rw [if_pos hlow]
      omega
  next hhigh => omega

/-- What a round leaves is kept by the next one. -/
theorem narrowTimeout_again :
    narrowTimeout (narrowTimeout timeOut) = narrowTimeout timeOut := by
  have hmax : narrowTimeout 5000 = 5000 := by decide
  by_cases hnone : timeOut = noTimer
  · have hfirst : narrowTimeout timeOut = 5000 := if_neg (not_not.mpr hnone)
    rw [hfirst, hmax]
  · by_cases hlt : asInt timeOut < 5000
    · have hfirst : narrowTimeout timeOut = timeOut := by
        rw [narrowTimeout, if_pos hnone, if_pos hlt]
      rw [hfirst, hfirst]
    · have hfirst : narrowTimeout timeOut = 5000 := by
        rw [narrowTimeout, if_pos hnone, if_neg hlt]
      rw [hfirst, hmax]

theorem nextTimeout_eq : nextTimeout timeOut k = narrowTimeout timeOut := by
  induction k with
  | zero => rfl
  | succ k ih => rw [nextTimeout, ih, narrowTimeout_again]

/-- The time waited is at most 5000, and at most what is left if it is
not negative as an `int`. -/
theorem pollTimeout_eq : pollTimeout timeOut k
    = if timeOut = noTimer then 5000 else min (asInt timeOut) 5000 := by
  have hmax : asInt 5000 = 5000 := by decide
  rw [pollTimeout, nextTimeout_eq, narrowTimeout]
  by_cases hnone : timeOut = noTimer
  · rw [if_neg (not_not.mpr hnone), if_pos hnone, hmax]
  · rw [if_pos hnone, if_neg hnone]
    split
    next hlt => omega
    next hge => omega

theorem pollTimeout_bounds_iff {left : Nat} :
    (0 ≤ pollTimeout left k ∧ pollTimeout left k ≤ 5000
        ∧ pollTimeout left k ≤ left)
      ↔ left % 2 ^ 32 < 2 ^ 31 ∨ left = 2 ^ 64 - 1 := by
  rw [pollTimeout_eq, noTimer]
  have hsign := asInt_nonneg_iff (n := left)
  split
  next hnone => omega
  next hsome =>
      constructor
      · intro h
        omega
      · intro h
        have hle := asInt_le (n := left) (by omega)
        omega

namespace TimerThreads

/-- In every state that the threads reach and at every reading of the
clock, the timeout that `idle` passes to `epoll_wait`, at the first call
and after any number of interrupts, is between 0 and 5000 and at most the
time until each timer is due, exactly if the time until the earliest is
not negative as an `int`, or is the largest `uint64_t`. -/
theorem poll_timeout_iff {now₀ : Nat} {is : List TimerStep}
    {s : TimerThreads} (h : Visits TimerThreads.step (new now₀) is s)
    (now interrupts : Nat) :
    (0 ≤ pollTimeout (s.m.getNextTimer now).1 interrupts
        ∧ pollTimeout (s.m.getNextTimer now).1 interrupts ≤ 5000
        ∧ ∀ a ∈ s.m.timers, pollTimeout (s.m.getNextTimer now).1 interrupts
            ≤ ((s.m.heap a).next - now : Nat))
      ↔ ∀ a ∈ s.m.timers,
          (∀ b ∈ s.m.timers, (s.m.heap a).next ≤ (s.m.heap b).next) →
          ((s.m.heap a).next - now) % 2 ^ 32 < 2 ^ 31
            ∨ (s.m.heap a).next - now = 2 ^ 64 - 1 := by
  have hsorted := (visits_holds h).sorted
  unfold TimerManager.getNextTimer
  cases hts : s.m.timers with
  | nil => simp [pollTimeout_eq, noTimer]
  | cons a rest =>
      rw [hts] at hsorted
      have hfirst : ∀ b ∈ a :: rest, (s.m.heap a).next ≤ (s.m.heap b).next := by
        intro b hb
        rcases List.mem_cons.mp hb with rfl | hb
        · exact Nat.le_refl _
        · have hab := (List.pairwise_cons.mp hsorted).1 b hb
          rw [TimerManager.compare_eq_true] at hab
          omega
      have hleft : (if (s.m.heap a).next < now then 0
          else (s.m.heap a).next - now) = (s.m.heap a).next - now := by
        split
        next hpast => omega
        next => rfl
      simp only [hleft]
      have hbounds := @pollTimeout_bounds_iff interrupts
        ((s.m.heap a).next - now)
      constructor
      · rintro ⟨hlow, hhigh, hall⟩ b hb hearliest
        have hsame : (s.m.heap b).next = (s.m.heap a).next :=
          Nat.le_antisymm (hearliest a List.mem_cons_self) (hfirst b hb)
        rw [hsame]
        exact hbounds.mp ⟨hlow, hhigh, hall a List.mem_cons_self⟩
      · intro hcond
        obtain ⟨hlow, hhigh, hle⟩ := hbounds.mpr
          (hcond a List.mem_cons_self hfirst)
        refine ⟨hlow, hhigh, fun b hb => ?_⟩
        have hab := hfirst b hb
        omega

/-- A timer due in 2^32 + 40 ms: the wait is 40 ms. -/
theorem poll_timeout_iff_one_timer :
    ∃ s, [.op (.addTimer 1 (2 ^ 32 + 70) (some 1) false 0)].foldlM
        TimerThreads.step (new 0) = some s
      ∧ 0 ≤ pollTimeout (s.m.getNextTimer 30).1 1
      ∧ pollTimeout (s.m.getNextTimer 30).1 1 ≤ 5000
      ∧ ∀ a ∈ s.m.timers, pollTimeout (s.m.getNextTimer 30).1 1
          ≤ ((s.m.heap a).next - 30 : Nat) := by
  have hrun : ([.op (.addTimer 1 (2 ^ 32 + 70) (some 1) false 0)].foldlM
      TimerThreads.step (new 0)).map (fun s => (s.m.timers, (s.m.heap 1).next))
      = some ([1], 2 ^ 32 + 70) := by decide +kernel
  obtain ⟨s, hs, hstate⟩ := Option.map_eq_some_iff.mp hrun
  obtain ⟨hts, hnext⟩ := Prod.mk.inj hstate
  refine ⟨s, hs, (poll_timeout_iff (visits_last hs) 30 1).mpr ?_⟩
  intro a ha _
  rw [hts, List.mem_singleton] at ha
  rw [ha, hnext]
  omega

/-- 2^31 milliseconds before the only timer is due, `epoll_wait` is called
with a negative timeout. -/
theorem poll_without_limit :
    ∃ s, [.op (.addTimer 1 (2 ^ 31) (some 1) false 1000)].foldlM
        TimerThreads.step (new 1000) = some s
      ∧ pollTimeout (s.m.getNextTimer 1000).1 0 = -0x80000000 := by
  have hrun : ([.op (.addTimer 1 (2 ^ 31) (some 1) false 1000)].foldlM
      TimerThreads.step (new 1000)).map (fun s =>
        pollTimeout (s.m.getNextTimer 1000).1 0)
      = some (-0x80000000) := by decide +kernel
  exact Option.map_eq_some_iff.mp hrun

end TimerThreads

end TinyServer
