/-
Which formatter an attached appender has.

`addAppender` gives an appender the logger's formatter only if it has
none. An appender that inherited one from another logger, or from this
logger before `setFormatter`, has one and keeps it. And an attached
appender that is set to null has none until its logger is set again.
These two kinds of calls break the inheritance at once, and no other call
does.
-/
import TinyServer.Log.Attach
import TinyServer.Lib.Run

namespace TinyServer

open Http (Bytes)
open Lib

namespace LogObjects

variable {s s' : LogObjects} {l a : Nat} {call : LoggerCall}

-- =============================================================== the invariant

/-- The appender has a formatter: the one it was given if it has its own,
the one of the logger `l` otherwise. -/
def Fits (s : LogObjects) (l a : Nat) : Prop :=
  ∃ f, (s.appenders a).formatter = some f
    ∧ if (s.appenders a).hasFormatter then s.given a = some f
      else f = (s.loggers l).formatter

/-- Every attached appender has the formatter it should have. -/
def Inherits (s : LogObjects) : Prop :=
  ∀ l a, a ∈ (s.loggers l).appenders → s.Fits l a

/-- An appender is in the list of its owner, once; one with its own
formatter has the one it was given. -/
structure Sound (s : LogObjects) : Prop where
  owned : ∀ l a, a ∈ (s.loggers l).appenders ↔ s.owner a = some l
  once : ∀ l, (s.loggers l).appenders.Nodup
  own : ∀ a, (s.appenders a).hasFormatter = true →
    ∃ f, (s.appenders a).formatter = some f ∧ s.given a = some f

/-- The call adds an appender that inherited another formatter, or takes
the formatter of an attached appender away. -/
def Breaks (s : LogObjects) : LoggerCall → Prop
  | .addAppender l a =>
      (s.appenders a).hasFormatter = false
        ∧ ∃ f, (s.appenders a).formatter = some f
          ∧ f ≠ (s.loggers l).formatter
  | .setAppenderFormatter a val => val = none ∧ s.owner a ≠ none
  | _ => False

theorem start_sound (own : Nat → Nat) : (start own).Sound where
  owned := by
    intro l a
    exact iff_of_false List.not_mem_nil (fun h => by cases h)
  once := fun _ => List.nodup_nil
  own := fun _ h => by cases h

theorem start_inherits (own : Nat → Nat) : (start own).Inherits :=
  fun _ _ h => (List.not_mem_nil h).elim

-- =================================================================== the calls

/-- What `addAppender` leaves behind. -/
theorem addAppender_eq (s : LogObjects) (l a : Nat) :
    (s.addAppender l a).loggers
        = (s.setLogger l { s.loggers l with
            appenders := (s.loggers l).appenders ++ [a] }).loggers
      ∧ (s.addAppender l a).appenders
        = (if (s.appenders a).formatter = none then
            s.setAppender a { s.appenders a with
              formatter := some (s.loggers l).formatter }
          else s).appenders
      ∧ (s.addAppender l a).given = s.given
      ∧ (s.addAppender l a).owner = (s.setOwner a (some l)).owner := by
  unfold addAppender
  split
  next => exact ⟨rfl, rfl, rfl, rfl⟩
  next => exact ⟨rfl, rfl, rfl, rfl⟩

/-- The appender that is added fits unless it inherited another
formatter. -/
theorem addAppender_fits (h : s.Sound) :
    (s.addAppender l a).Fits l a ↔ ¬ s.Breaks (.addAppender l a) := by
  obtain ⟨hloggers, happenders, hgiven, -⟩ := addAppender_eq s l a
  unfold Fits
  rw [hloggers, happenders, hgiven]
  have hfmt : ((s.setLogger l { s.loggers l with
      appenders := (s.loggers l).appenders ++ [a] }).loggers l).formatter
      = (s.loggers l).formatter := by
    simp [setLogger]
  rw [hfmt]
  show _ ↔ ¬ ((s.appenders a).hasFormatter = false ∧ _)
  cases hf : (s.appenders a).formatter with
  | none =>
      have hno : (s.appenders a).hasFormatter = false := by
        by_contra hyes
        obtain ⟨f, hsome, -⟩ := h.own a (Bool.not_eq_false _ ▸ hyes)
        rw [hf] at hsome
        cases hsome
      simp [setAppender, hno]
  | some f =>
      cases hhas : (s.appenders a).hasFormatter with
      | true =>
          obtain ⟨g, hg, hgiven⟩ := h.own a hhas
          rw [hf] at hg
          cases hg
          simp [hf, hhas, hgiven]
      | false => simp [hf, hhas]

/-- `addAppender` leaves the other appenders as they fit. -/
theorem addAppender_fits_ne {m b : Nat} (hb : b ≠ a) :
    (s.addAppender l a).Fits m b ↔ s.Fits m b := by
  obtain ⟨hloggers, happenders, hgiven, -⟩ := addAppender_eq s l a
  unfold Fits
  rw [hloggers, happenders, hgiven]
  have hfmt : ((s.setLogger l { s.loggers l with
      appenders := (s.loggers l).appenders ++ [a] }).loggers m).formatter
      = (s.loggers m).formatter := by
    unfold setLogger
    simp only
    split
    next hm => rw [hm]
    next => rfl
  have hcell : (if (s.appenders a).formatter = none then
      s.setAppender a { s.appenders a with
        formatter := some (s.loggers l).formatter }
      else s).appenders b = s.appenders b := by
    split
    next => exact if_neg hb
    next => rfl
  rw [hfmt, hcell]

theorem addAppender_sound (h : s.Sound) (hfree : s.owner a = none) :
    (s.addAppender l a).Sound := by
  obtain ⟨hloggers, happenders, hgiven, howner⟩ := addAppender_eq s l a
  have hnot : a ∉ (s.loggers l).appenders := by
    intro hmem
    rw [(h.owned l a).mp hmem] at hfree
    cases hfree
  refine ⟨fun m b => ?_, fun m => ?_, fun b => ?_⟩
  · rw [hloggers, howner]
    simp only [setLogger, setOwner]
    by_cases hm : m = l
    · subst hm
      by_cases hb : b = a
      · simp [hb]
      · simp [hb, h.owned]
    · by_cases hb : b = a
      · subst hb
        simp [hm, h.owned, hfree, Ne.symm hm]
      · simp [hm, hb, h.owned]
  · rw [hloggers]
    unfold setLogger
    simp only
    split
    next =>
        refine List.nodup_append.mpr ⟨h.once l, by simp, ?_⟩
        intro x hx y hy heq
        rw [List.mem_singleton.mp hy] at heq
        exact hnot (heq ▸ hx)
    next => exact h.once m
  · rw [happenders, hgiven]
    intro hhas
    split at hhas
    next hnone =>
        by_cases hb : b = a
        · -- with a formatter of its own it is not null
          subst hb
          have hyes : (s.appenders b).hasFormatter = true := by
            simpa [setAppender] using hhas
          obtain ⟨f, hsome, -⟩ := h.own b hyes
          rw [hnone] at hsome
          cases hsome
        · rw [if_pos hnone]
          simp only [setAppender, hb, if_false] at hhas ⊢
          exact h.own b hhas
    next hsome =>
        rw [if_neg hsome]
        exact h.own b hhas

/-- Adding an appender keeps the inheritance exactly where the new one fits
in. -/
theorem addAppender_inherits_iff (h : s.Sound) (hi : s.Inherits)
    (hfree : s.owner a = none) :
    (s.addAppender l a).Inherits ↔ ¬ s.Breaks (.addAppender l a) := by
  have hsound := addAppender_sound (l := l) h hfree
  have hmem : a ∈ ((s.addAppender l a).loggers l).appenders := by
    rw [(addAppender_eq s l a).1]
    simp [setLogger]
  rw [← addAppender_fits h]
  refine ⟨fun hall => hall l a hmem, fun hfits m b hb => ?_⟩
  by_cases hba : b = a
  · subst hba
    have heq := ((hsound.owned m b).mp hb).symm.trans
      ((hsound.owned l b).mp hmem)
    rw [Option.some.inj heq]
    exact hfits
  · apply (addAppender_fits_ne hba).mpr
    apply hi m b
    have howner := (hsound.owned m b).mp hb
    rw [(addAppender_eq s l a).2.2.2] at howner
    simp only [setOwner, hba, if_false] at howner
    exact (h.owned m b).mpr howner

theorem removeAppender_sound (h : s.Sound) : (s.removeAppender l a).Sound := by
  unfold removeAppender
  split
  next hmem =>
      have hown : s.owner a = some l := (h.owned l a).mp hmem
      refine ⟨fun m b => ?_, fun m => ?_, h.own⟩
      · simp only [setLogger, setOwner]
        by_cases hb : b = a
        · subst hb
          by_cases hm : m = l
          · subst hm
            simp [(h.once m).not_mem_erase]
          · simp [hm, h.owned, hown, Ne.symm hm]
        · by_cases hm : m = l
          · subst hm
            simp [hb, List.mem_erase_of_ne hb, h.owned]
          · simp [hm, hb, h.owned]
      · unfold setOwner setLogger
        simp only
        split
        next => exact (h.once l).erase a
        next => exact h.once m
  next => exact h

/-- The appenders that are left fit as before. -/
theorem removeAppender_inherits (hi : s.Inherits) :
    (s.removeAppender l a).Inherits := by
  intro m b hb
  unfold removeAppender at hb ⊢
  split at hb
  next hmem =>
      rw [if_pos hmem]
      simp only [setLogger, setOwner] at hb
      have hold : b ∈ (s.loggers m).appenders := by
        split at hb
        next hm =>
            rw [hm]
            exact List.mem_of_mem_erase hb
        next => exact hb
      have hfits := hi m b hold
      unfold Fits at hfits ⊢
      simp only [setLogger, setOwner]
      by_cases hm : m = l
      · subst hm
        simpa using hfits
      · simpa [hm] using hfits
  next hmem =>
      rw [if_neg hmem]
      exact hi m b hb

theorem clearAppenders_sound (h : s.Sound) : (s.clearAppenders l).Sound := by
  refine ⟨fun m b => ?_, fun m => ?_, h.own⟩
  · simp only [clearAppenders, setLogger]
    by_cases hm : m = l
    · subst hm
      simp [h.owned]
    · by_cases hb : s.owner b = some l
      · simp [hm, h.owned, hb, Ne.symm hm]
      · simp [hm, h.owned, hb]
  · simp only [clearAppenders, setLogger]
    split
    next => exact List.nodup_nil
    next => exact h.once m

theorem clearAppenders_inherits (hi : s.Inherits) :
    (s.clearAppenders l).Inherits := by
  intro m b hb
  simp only [clearAppenders, setLogger] at hb
  split at hb
  next => cases hb
  next hm =>
      have hfits := hi m b hb
      unfold Fits at hfits ⊢
      simpa [clearAppenders, setLogger, hm] using hfits

theorem setFormatter_sound (h : s.Sound) (val : Nat) :
    (s.setFormatter l val).Sound := by
  have hlist : ∀ m, ((s.setFormatter l val).loggers m).appenders
      = (s.loggers m).appenders := by
    intro m
    simp only [setFormatter, setLogger]
    split
    next hm => rw [hm]
    next => rfl
  refine ⟨fun m b => ?_, fun m => ?_, fun b hb => ?_⟩
  · rw [hlist]
    exact h.owned m b
  · rw [hlist]
    exact h.once m
  · simp only [setFormatter] at hb ⊢
    split at hb
    next hc =>
        rw [hc.2] at hb
        cases hb
    next hc =>
        rw [if_neg hc]
        exact h.own b hb

/-- `Logger::setFormatter` reaches every appender of the logger. -/
theorem setFormatter_inherits (h : s.Sound) (hi : s.Inherits) (val : Nat) :
    (s.setFormatter l val).Inherits := by
  intro m b hmem
  have hmem' : b ∈ (s.loggers m).appenders := by
    simp only [setFormatter, setLogger] at hmem
    split at hmem
    next hm => rwa [hm]
    next => exact hmem
  obtain ⟨f, hf, hfits⟩ := hi m b hmem'
  unfold Fits
  simp only [setFormatter, setLogger]
  by_cases hm : m = l
  · subst hm
    cases hhas : (s.appenders b).hasFormatter with
    | true =>
        rw [hhas] at hfits
        exact ⟨f, by simp [hf], by simpa [hhas] using hfits⟩
    | false => exact ⟨val, by simp [hmem'], by simp [hmem']⟩
  · -- an appender of another logger is not in this one's list
    have hnot : b ∉ (s.loggers l).appenders := by
      intro hl
      have heq := ((h.owned l b).mp hl).symm.trans ((h.owned m b).mp hmem')
      exact hm (Option.some.inj heq).symm
    refine ⟨f, ?_, ?_⟩
    · simpa [hnot] using hf
    · simpa [hnot, hm] using hfits

theorem setAppenderFormatter_sound (h : s.Sound) (val : Option Nat) :
    (s.setAppenderFormatter a val).Sound := by
  refine ⟨h.owned, h.once, fun b hb => ?_⟩
  by_cases hba : b = a
  · subst hba
    simp only [setAppenderFormatter, setAppender, if_true] at hb ⊢
    obtain ⟨f, rfl⟩ := Option.isSome_iff_exists.mp hb
    exact ⟨f, rfl, rfl⟩
  · simp only [setAppenderFormatter, setAppender, hba, if_false] at hb ⊢
    exact h.own b hb

/-- An appender whose formatter is set fits unless it is set to null. -/
theorem setAppenderFormatter_fits {m b : Nat} {val : Option Nat}
    (hfits : b ≠ a → s.Fits m b) :
    (s.setAppenderFormatter a val).Fits m b ↔ b = a → val ≠ none := by
  unfold Fits setAppenderFormatter setAppender
  by_cases hb : b = a
  · subst hb
    cases val with
    | none => simp
    | some f => simp
  · have hf := hfits hb
    unfold Fits at hf
    simpa [hb] using hf

/-- Setting the formatter of an appender keeps the inheritance unless it
takes it from an attached one. -/
theorem setAppenderFormatter_inherits_iff (h : s.Sound) (hi : s.Inherits)
    (val : Option Nat) : (s.setAppenderFormatter a val).Inherits
      ↔ ¬ s.Breaks (.setAppenderFormatter a val) := by
  have hfits : ∀ m b, b ∈ (s.loggers m).appenders →
      ((s.setAppenderFormatter a val).Fits m b ↔ b = a → val ≠ none) :=
    fun m b hb => setAppenderFormatter_fits fun _ => hi m b hb
  constructor
  · rintro hall ⟨rfl, howned⟩
    obtain ⟨m, hm⟩ := Option.ne_none_iff_exists'.mp howned
    have hmem : a ∈ (s.loggers m).appenders := (h.owned m a).mpr hm
    exact (hfits m a hmem).mp (hall m a hmem) rfl rfl
  · intro hno m b hb
    apply (hfits m b hb).mpr
    rintro rfl rfl
    refine hno ⟨rfl, ?_⟩
    rw [(h.owned m b).mp hb]
    exact Option.some_ne_none m

-- ==================================================================== the runs

theorem step_sound (h : s.Sound) (hs : s.step call = some s') : s'.Sound := by
  cases call with
  | addAppender l a =>
      simp only [step] at hs
      split at hs
      next hfree =>
          cases hs
          exact addAppender_sound h hfree
      next => cases hs
  | removeAppender l a =>
      cases hs
      exact removeAppender_sound h
  | clearAppenders l =>
      cases hs
      exact clearAppenders_sound h
  | setFormatter l val =>
      cases hs
      exact setFormatter_sound h val
  | setFormatterString l fmt val =>
      cases hs
      unfold setFormatterString
      split
      next => exact h
      next => exact setFormatter_sound h val
  | setAppenderFormatter a val =>
      cases hs
      exact setAppenderFormatter_sound h val

/-- A call keeps the inheritance exactly unless it breaks it. -/
theorem step_inherits_iff (h : s.Sound) (hi : s.Inherits)
    (hs : s.step call = some s') : s'.Inherits ↔ ¬ s.Breaks call := by
  cases call with
  | addAppender l a =>
      simp only [step] at hs
      split at hs
      next hfree =>
          cases hs
          exact addAppender_inherits_iff h hi hfree
      next => cases hs
  | removeAppender l a =>
      cases hs
      exact iff_of_true (removeAppender_inherits hi) not_false
  | clearAppenders l =>
      cases hs
      exact iff_of_true (clearAppenders_inherits hi) not_false
  | setFormatter l val =>
      cases hs
      exact iff_of_true (setFormatter_inherits h hi val) not_false
  | setFormatterString l fmt val =>
      cases hs
      refine iff_of_true ?_ not_false
      unfold setFormatterString
      split
      next => exact hi
      next => exact setFormatter_inherits h hi val
  | setAppenderFormatter a val =>
      cases hs
      exact setAppenderFormatter_inherits_iff h hi val

/-- Over any calls on any loggers and appenders, every attached appender
always has the formatter it was given or inherits if and only if no call
adds an appender with a formatter inherited elsewhere or sets an attached
one to null. -/
theorem inherits_iff {own : Nat → Nat} {calls : List LoggerCall}
    {s₁ : LogObjects} (hrun : calls.foldlM step (start own) = some s₁) :
    (∀ s, Visits step (start own) calls s → s.Inherits)
      ↔ ∀ s call, Takes step (start own) calls s call → ¬ s.Breaks call :=
  visits_inv_iff step_sound
    (fun hq hp hno hs => (step_inherits_iff hq hp hs).mpr hno)
    (fun hq hp hb hs hi => (step_inherits_iff hq hp hs).mp hi hb)
    (start_sound own) (start_inherits own) hrun

/-- An appender is added, given its own formatter and moved to another
logger. -/
def movedWithOwn : List LoggerCall :=
  [.addAppender 0 0, .setFormatter 0 10, .setAppenderFormatter 0 (some 11),
    .removeAppender 0 0, .addAppender 1 0, .setFormatter 1 12]

theorem inherits_iff_moved_with_own :
    ∃ s, movedWithOwn.foldlM step (start id) = some s
      ∧ s.owner 0 = some 1 ∧ (s.appenders 0).formatter = some 11
      ∧ s.Inherits := by
  have hno : ∀ s call, Takes step (start id) movedWithOwn s call →
      ¬ s.Breaks call := by
    refine forall_takes_cons ?_ fun t ht => ?_
    · rintro ⟨-, f, hf, -⟩
      cases hf
    cases ht
    refine forall_takes_cons id fun t ht => ?_
    cases ht
    refine forall_takes_cons ?_ fun t ht => ?_
    · rintro ⟨hval, -⟩
      cases hval
    cases ht
    refine forall_takes_cons id fun t ht => ?_
    cases ht
    refine forall_takes_cons ?_ fun t ht => ?_
    · rintro ⟨hhas, -⟩
      cases hhas
    cases ht
    exact forall_takes_cons id fun t ht => forall_takes_nil
  exact ⟨_, rfl, rfl, rfl, (inherits_iff rfl).mpr hno _ (visits_last rfl)⟩

/-- An appender that is taken from logger 0 and added to logger 1 keeps
the formatter of logger 0. -/
theorem moved_keeps_formatter :
    ¬ ∀ (own : Nat → Nat) (calls : List LoggerCall) (s : LogObjects),
      Visits step (start own) calls s → s.Inherits := by
  intro hall
  have hinherits := hall id
    [.addAppender 0 0, .removeAppender 0 0, .addAppender 1 0] _
    (visits_last rfl)
  obtain ⟨f, hf, hfits⟩ := hinherits 1 0 (by decide)
  have hf0 : f = 0 := (Option.some.inj hf).symm
  have hf1 : f = 1 := hfits
  exact absurd (hf0.symm.trans hf1) (by decide)

end LogObjects

end TinyServer
