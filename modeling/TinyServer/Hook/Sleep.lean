/-
The hooked `sleep`, `usleep` and `nanosleep` (hook.cpp).

Each turns its argument into a period in milliseconds for `addTimer`,
whose callback schedules the fiber again, and yields. The conversions are
`unsigned int` for `sleep` and `usleep`; `nanosleep` computes in `long`
and stores the result in an `int`, which becomes the `uint64_t` of
`addTimer`. `sleep` is wrong where the product wraps, `usleep` and
`nanosleep` where the division leaves a remainder, and `nanosleep` also
where the `int` does not hold the period.
-/
import TinyServer.IOManager.Poll

namespace TinyServer

/-- What a call does. -/
inductive SleepEffect
  /-- The original function is called. -/
  | original
  /-- `addTimer` with this period, `YieldToHold` and 0. -/
  | timer (ms : Nat)
  /-- Overflow of a signed number, which is undefined. -/
  | overflow
  deriving DecidableEq, Repr

/-- A valid `timespec`. -/
structure Timespec where
  sec : Nat
  nsec : Nat
  sec_lt : sec < 0x8000000000000000
  nsec_lt : nsec < 1000000000

/-- An `int` as a `uint64_t`. -/
def intToWord (n : Int) : Nat := (n % 0x10000000000000000).toNat

/-- `sleep`; `hook` is `t_hook_enable`. -/
def sleep (hook : Bool) (seconds : UInt32) : SleepEffect :=
  if !hook then .original else .timer (seconds * 1000).toNat

/-- `usleep`. -/
def usleep (hook : Bool) (usec : UInt32) : SleepEffect :=
  if !hook then .original else .timer (usec / 1000).toNat

/-- `nanosleep`. -/
def nanosleep (hook : Bool) (req : Timespec) : SleepEffect :=
  if !hook then .original
  else
    let ms := req.sec * 1000 + req.nsec / 1000 / 1000
    if 0x8000000000000000 ≤ ms then .overflow
    else .timer (intToWord (asInt ms))

/-- The timer waits for `ns` nanoseconds or up to a millisecond longer. -/
def SleepEffect.Covers (e : SleepEffect) (ns : Nat) : Prop :=
  ∃ ms, e = .timer ms ∧ ns ≤ ms * 1000000 ∧ ms * 1000000 < ns + 1000000

@[simp] theorem timer_covers {ms ns : Nat} :
    (SleepEffect.timer ms).Covers ns
      ↔ ns ≤ ms * 1000000 ∧ ms * 1000000 < ns + 1000000 := by
  unfold SleepEffect.Covers
  simp

@[simp] theorem overflow_covers {ns : Nat} :
    ¬ SleepEffect.overflow.Covers ns := by
  unfold SleepEffect.Covers
  simp

theorem sleep_covers_iff (seconds : UInt32) :
    (sleep true seconds).Covers (seconds.toNat * 1000000000)
      ↔ seconds.toNat * 1000 < 2 ^ 32 := by
  have hmul : (seconds * 1000).toNat = seconds.toNat * 1000 % 2 ^ 32 := by
    rw [UInt32.toNat_mul]
    rfl
  rw [show sleep true seconds = .timer (seconds * 1000).toNat from rfl,
    timer_covers, hmul]
  omega

theorem usleep_covers_iff (usec : UInt32) :
    (usleep true usec).Covers (usec.toNat * 1000)
      ↔ usec.toNat % 1000 = 0 := by
  have hdiv : (usec / 1000).toNat = usec.toNat / 1000 := by
    rw [UInt32.toNat_div]
    rfl
  rw [show usleep true usec = .timer (usec / 1000).toNat from rfl,
    timer_covers, hdiv]
  omega

theorem nanosleep_covers_iff (req : Timespec) :
    (nanosleep true req).Covers (req.sec * 1000000000 + req.nsec)
      ↔ req.nsec % 1000000 = 0
        ∧ req.sec * 1000 + req.nsec / 1000000 < 2 ^ 31 := by
  have hdiv : req.nsec / 1000 / 1000 = req.nsec / 1000000 :=
    Nat.div_div_eq_div_mul _ _ _
  have hnsec := req.nsec_lt
  unfold nanosleep
  simp only [hdiv, Bool.not_true, Bool.false_eq_true, if_false]
  split
  next hover =>
      simp only [overflow_covers, false_iff]
      omega
  next hfits =>
      rw [timer_covers]
      unfold intToWord asInt
      split
      next hlow => omega
      next hhigh => omega

/-- For every argument, with the hook enabled, the timer of a sleep lasts
as long as was asked or less than a millisecond longer exactly if: for
`sleep`, the milliseconds fit in an `unsigned int`; for `usleep`, the
time is a whole number of milliseconds; for `nanosleep`, it is that and
the milliseconds fit in an `int`. -/
theorem sleeps_cover_iff (seconds usec : UInt32) (req : Timespec) :
    ((sleep true seconds).Covers (seconds.toNat * 1000000000)
        ↔ seconds.toNat * 1000 < 2 ^ 32)
      ∧ ((usleep true usec).Covers (usec.toNat * 1000)
        ↔ usec.toNat % 1000 = 0)
      ∧ ((nanosleep true req).Covers (req.sec * 1000000000 + req.nsec)
        ↔ req.nsec % 1000000 = 0
          ∧ req.sec * 1000 + req.nsec / 1000000 < 2 ^ 31) :=
  ⟨sleep_covers_iff seconds, usleep_covers_iff usec, nanosleep_covers_iff req⟩

/-- Fifty days become less than a second, 999 microseconds become none,
and 25 days become 2^64 - 2134967296 milliseconds: no timer covers the
sleep. -/
theorem sleeps_too_short :
    (sleep true 4294968 = .timer 704
        ∧ ¬ (sleep true 4294968).Covers (4294968 * 1000000000))
      ∧ (usleep true 999 = .timer 0
        ∧ ¬ (usleep true 999).Covers (999 * 1000))
      ∧ (nanosleep true ⟨0, 999999, by decide, by decide⟩ = .timer 0
        ∧ ¬ (nanosleep true ⟨0, 999999, by decide, by decide⟩).Covers 999999)
      ∧ (nanosleep true ⟨2160000, 0, by decide, by decide⟩
          = .timer (0x10000000000000000 - 2134967296)
        ∧ ¬ (nanosleep true ⟨2160000, 0, by decide, by decide⟩).Covers
          (2160000 * 1000000000)) := by
  have hsleep : sleep true 4294968 = .timer 704 := by decide
  have husleep : usleep true 999 = .timer 0 := by decide
  have hshort : nanosleep true ⟨0, 999999, by decide, by decide⟩
      = .timer 0 := by decide
  have hlong : nanosleep true ⟨2160000, 0, by decide, by decide⟩
      = .timer (0x10000000000000000 - 2134967296) := by decide
  refine ⟨⟨hsleep, ?_⟩, ⟨husleep, ?_⟩, ⟨hshort, ?_⟩, ⟨hlong, ?_⟩⟩
  · rw [hsleep, timer_covers]
    decide
  · rw [husleep, timer_covers]
    decide
  · rw [hshort, timer_covers]
    decide
  · rw [hlong, timer_covers]
    decide

end TinyServer
