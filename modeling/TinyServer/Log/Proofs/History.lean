/-
A sequence of reloads of the log configuration.

The pattern of a logger is the last one that any configuration gave it
(`lastPattern`): a definition without a formatter, or with one that has
an error, leaves the old one in place, and so does the removal of a
logger. Level and appenders are set anew by every definition that is
applied. So two histories that end in the same configuration leave the
same loggers exactly when the last patterns agree.
-/
import TinyServer.Log.Proofs.Reload

namespace TinyServer

open Http (Bytes ascii)

namespace LogIniter

variable {m m' : LoggerManager} {n : Bytes} {d : LogDefine}
  {s s' : LogDefines × LoggerManager} {v : LogDefines} {pat : Bytes → Bytes}

-- =============================================================== last patterns

/-- The patterns after a configuration, when they were `pat` before. -/
def givePatterns (pat : Bytes → Bytes) (v : LogDefines) (n : Bytes) : Bytes :=
  match v.items.find? fun e => e.name = n with
  | some d => (validPattern d.formatter).getD (pat n)
  | none => pat n

/-- The last valid pattern that the configurations give a name, or `base`. -/
def lastPattern (base : Bytes → Bytes) (vs : List LogDefines) : Bytes → Bytes :=
  vs.foldl givePatterns base

theorem givePatterns_mem (hd : d ∈ v.items) :
    givePatterns pat v d.name
      = (validPattern d.formatter).getD (pat d.name) := by
  have hf : v.items.find? (fun e => e.name = d.name) = some d :=
    LogDefines.find_self.mpr hd
  unfold givePatterns
  rw [hf]

theorem givePatterns_not_mem (hn : ∀ d ∈ v.items, d.name ≠ n) :
    givePatterns pat v n = pat n := by
  have hf : v.items.find? (fun e => e.name = n) = none :=
    List.find?_eq_none.mpr fun d hd => by simpa using hn d hd
  unfold givePatterns
  rw [hf]

-- ============================================================== the invariant

/-- The loggers are as the current configuration has them, with the
patterns `pat`. -/
structure Settled (pat : Bytes → Bytes) (s : LogDefines × LoggerManager) :
    Prop where
  pattern : ∀ n, (s.2.getLogger n).formatter.pattern = pat n
  view : ∀ d ∈ s.1.items,
    (s.2.loggers d.name).map Logger.view = some (d.view (pat d.name))
  given : ∀ d ∈ s.1.items, (validPattern d.formatter).getD (pat d.name)
    = pat d.name

/-- The configuration that is there already changes no pattern. -/
theorem Settled.again (h : Settled pat s) : givePatterns pat s.1 = pat := by
  funext n
  by_cases hn : ∀ d ∈ s.1.items, d.name ≠ n
  · exact givePatterns_not_mem hn
  · push Not at hn
    obtain ⟨d, hd, rfl⟩ := hn
    rw [givePatterns_mem hd, h.given d hd]

theorem getLogger_of_loggers {l : Logger} (h : m.loggers n = some l) :
    m.getLogger n = l := by
  unfold LoggerManager.getLogger
  rw [h]
  rfl

theorem Settled.setValue (h : Settled pat s) (hv : setValue s v = some s') :
    Settled (givePatterns pat v) s' ∧ s'.1 = v := by
  unfold LogIniter.setValue at hv
  split at hv
  next heq =>
    cases hv
    subst heq
    rw [h.again]
    exact ⟨h, rfl⟩
  next =>
    obtain ⟨m', hm', hv⟩ := Option.bind_eq_some_iff.mp hv
    cases hv
    obtain ⟨-, hown, -, hother⟩ := onChange_eq hm'
    have hview : ∀ d ∈ v.items, (m'.loggers d.name).map Logger.view
        = some (d.view (givePatterns pat v d.name)) := by
      intro d hd
      rw [hown d hd, givePatterns_mem hd, h.pattern]
    refine ⟨⟨fun n => ?_, hview, fun d hd => ?_⟩, rfl⟩
    · by_cases hn : ∀ d ∈ v.items, d.name ≠ n
      · rw [hother n hn, h.pattern, givePatterns_not_mem hn]
      · push Not at hn
        obtain ⟨d, hd, rfl⟩ := hn
        obtain ⟨l, hl, hlview⟩ := Option.map_eq_some_iff.mp (hview d hd)
        rw [getLogger_of_loggers hl]
        exact congrArg (fun view => view.2.1) hlview
    · -- A valid pattern has just been given; without one the fallback counts.
      rw [givePatterns_mem hd]
      cases validPattern d.formatter with
      | none => rfl
      | some p => rfl

theorem Settled.run {vs : List LogDefines} (h : Settled pat s)
    (hrun : vs.foldlM LogIniter.setValue s = some s') :
    Settled (lastPattern pat vs) s' := by
  induction vs generalizing pat s with
  | nil =>
      cases hrun
      exact h
  | cons v vs ih =>
      obtain ⟨s₁, h₁, hrun⟩ := Option.bind_eq_some_iff.mp hrun
      exact ih (h.setValue h₁).1 hrun

/-- Before the first configuration. -/
theorem settled_empty (m : LoggerManager) :
    Settled (fun n => (m.getLogger n).formatter.pattern) (.empty, m) :=
  ⟨fun _ => rfl, fun _ hd => (nomatch hd), fun _ hd => (nomatch hd)⟩

-- =============================================================== two histories

/-- Two histories without fault that end in the same configuration leave
its loggers with the same level, pattern and appenders exactly when they
gave each of them the same last valid pattern. -/
theorem history_independent_iff (m : LoggerManager) {vs₁ vs₂ : List LogDefines}
    {v : LogDefines} {m₁ m₂ : LoggerManager}
    (h₁ : vs₁.foldlM setValue (.empty, m) = some (v, m₁))
    (h₂ : vs₂.foldlM setValue (.empty, m) = some (v, m₂)) :
    (∀ d ∈ v.items, ∃ l₁ l₂, m₁.loggers d.name = some l₁
        ∧ m₂.loggers d.name = some l₂ ∧ l₁.view = l₂.view)
      ↔ ∀ d ∈ v.items,
        lastPattern (fun n => (m.getLogger n).formatter.pattern) vs₁ d.name
          = lastPattern (fun n => (m.getLogger n).formatter.pattern) vs₂
            d.name := by
  have hs₁ := (settled_empty m).run h₁
  have hs₂ := (settled_empty m).run h₂
  refine forall_congr' fun d => forall_congr' fun hd => ?_
  obtain ⟨l₁, hl₁, hv₁⟩ := Option.map_eq_some_iff.mp (hs₁.view d hd)
  obtain ⟨l₂, hl₂, hv₂⟩ := Option.map_eq_some_iff.mp (hs₂.view d hd)
  constructor
  · intro h
    obtain ⟨k₁, k₂, hk₁, hk₂, hview⟩ := h
    cases hl₁.symm.trans hk₁
    cases hl₂.symm.trans hk₂
    rw [hv₁, hv₂] at hview
    exact congrArg (fun view => view.2.1) hview
  · intro h
    refine ⟨l₁, l₂, hl₁, hl₂, ?_⟩
    rw [hv₁, hv₂, h]

/-- Configurations that follow one another without an unchanged definition
are applied without fault. -/
theorem run_isSome (vs : List LogDefines)
    (hdiff : List.IsChain (fun v w => ∀ d ∈ w.items, d ∉ v.items) (v :: vs))
    (hknown : ∀ w ∈ vs, ∀ d ∈ w.items, ∀ ap ∈ d.appenders, ap.Known) :
    ∃ m', vs.foldlM setValue (v, m) = some (vs.getLastD v, m') := by
  induction vs generalizing v m with
  | nil => exact ⟨m, rfl⟩
  | cons w vs ih =>
      obtain ⟨hvw, hdiff⟩ := List.isChain_cons_cons.mp hdiff
      obtain ⟨hw, hknown⟩ := List.forall_mem_cons.mp hknown
      have hstep : ∃ m₁, setValue (v, m) w = some (w, m₁) := by
        unfold setValue
        split
        next heq => exact ⟨m, congrArg (fun v => some (v, m)) heq⟩
        next =>
          obtain ⟨m₁, h₁⟩ := onChange_isSome (m := m) fun d hd =>
            ⟨hvw d hd, hw d hd⟩
          rw [h₁]
          exact ⟨m₁, rfl⟩
      obtain ⟨m₁, h₁⟩ := hstep
      obtain ⟨m', hm'⟩ := ih (m := m₁) hdiff hknown
      refine ⟨m', ?_⟩
      rw [List.foldlM_cons, h₁, List.getLastD_cons]
      exact hm'

/-- The level of "root" is changed. -/
theorem history_independent_iff_level :
    ∃ m₁ m₂, [only (rootDefine .info []), only (rootDefine .warn [])].foldlM
        setValue (.empty, .new) = some (only (rootDefine .warn []), m₁)
      ∧ [only (rootDefine .warn [])].foldlM setValue (.empty, .new)
        = some (only (rootDefine .warn []), m₂)
      ∧ ∀ d ∈ (only (rootDefine .warn [])).items, ∃ l₁ l₂,
        m₁.loggers d.name = some l₁ ∧ m₂.loggers d.name = some l₂
          ∧ l₁.view = l₂.view := by
  obtain ⟨m₁, h₁⟩ := run_isSome (m := .new) (v := .empty)
    [only (rootDefine .info []), only (rootDefine .warn [])] (by decide)
      (by decide)
  obtain ⟨m₂, h₂⟩ := run_isSome (m := .new) (v := .empty)
    [only (rootDefine .warn [])] (by decide) (by decide)
  exact ⟨m₁, m₂, h₁, h₂, (history_independent_iff .new h₁ h₂).mpr
    (by decide +kernel)⟩

/-- A formatter that is no longer configured is still used. -/
theorem dropped_formatter_survives :
    ∃ m₁ m₂, [only (rootDefine .info (ascii "%m%n")),
        only (rootDefine .warn [])].foldlM setValue (.empty, .new)
        = some (only (rootDefine .warn []), m₁)
      ∧ [only (rootDefine .warn [])].foldlM setValue (.empty, .new)
        = some (only (rootDefine .warn []), m₂)
      ∧ ¬ ∀ d ∈ (only (rootDefine .warn [])).items, ∃ l₁ l₂,
        m₁.loggers d.name = some l₁ ∧ m₂.loggers d.name = some l₂
          ∧ l₁.view = l₂.view := by
  obtain ⟨m₁, h₁⟩ := run_isSome (m := .new) (v := .empty)
    [only (rootDefine .info (ascii "%m%n")), only (rootDefine .warn [])]
    (by decide) (by decide)
  obtain ⟨m₂, h₂⟩ := run_isSome (m := .new) (v := .empty)
    [only (rootDefine .warn [])] (by decide) (by decide)
  refine ⟨m₁, m₂, h₁, h₂, fun h => ?_⟩
  have hmem := List.mem_singleton_self (rootDefine .warn [])
  obtain ⟨l₁, l₂, hl₁, hl₂, hview⟩ := h _ hmem
  have hv₁ := ((settled_empty .new).run h₁).view _ hmem
  have hv₂ := ((settled_empty .new).run h₂).view _ hmem
  rw [hl₁] at hv₁
  rw [hl₂, Option.map_some, ← hview, ← Option.map_some, hv₁] at hv₂
  have hpattern := congrArg (fun view => view.2.1) (Option.some.inj hv₂)
  exact absurd hpattern (by decide +kernel)

end LogIniter

end TinyServer
