/-
One reload of the log configuration.

`configure` is what the callback does to one logger; its result is given
by the definition and the pattern the logger had before
(`configure_view`). The two loops work on loggers of different names, so
the result for a name is that of its own iteration (`onChange_eq`).

The callback fails on a definition that is in the old and in the new
configuration unchanged: its `logger` stays null and is used all the same.
-/
import Mathlib.Data.List.Nodup
import TinyServer.Log.Basic

namespace TinyServer

open Http (Bytes ascii)

-- ==================================================================== finding

namespace LogDefines

variable {s : LogDefines} {d e : LogDefine}

/-- No two definitions have one name. -/
theorem nodup (s : LogDefines) : (s.items.map LogDefine.name).Nodup := by
  refine List.pairwise_map.mpr (s.ascending.imp fun {a b} hab heq => ?_)
  rw [heq] at hab
  exact List.lt_irrefl _ hab

/-- A set has one definition of a name. -/
theorem eq_of_name (hd : d ∈ s.items) (he : e ∈ s.items)
    (hname : d.name = e.name) : d = e :=
  List.inj_on_of_nodup_map s.nodup hd he hname

/-- The definition of a name is the only one, -/
theorem find_eq_some : s.find d = some e ↔ e ∈ s.items ∧ e.name = d.name := by
  unfold find
  constructor
  · intro h
    exact ⟨List.mem_of_find?_eq_some h, by simpa using List.find?_some h⟩
  · intro h
    obtain ⟨he, hname⟩ := h
    cases hf : s.items.find? fun e => e.name = d.name with
    | none => exact absurd hname (by simpa using List.find?_eq_none.mp hf e he)
    | some e' =>
        have hmem := List.mem_of_find?_eq_some hf
        have hname' : e'.name = d.name := by simpa using List.find?_some hf
        rw [eq_of_name hmem he (hname'.trans hname.symm)]

/-- or there is none. -/
theorem find_eq_none : s.find d = none ↔ ∀ e ∈ s.items, e.name ≠ d.name := by
  unfold find
  rw [List.find?_eq_none]
  simp only [decide_eq_true_eq, ne_eq]

/-- The entry is in the set unchanged. -/
theorem find_self : s.find d = some d ↔ d ∈ s.items := by
  rw [find_eq_some]
  exact ⟨fun h => h.1, fun h => ⟨h, rfl⟩⟩

end LogDefines

-- ================================================================= one logger

/-- The pattern that a text gives, if it gives one. -/
def validPattern (fmt : Bytes) : Option Bytes :=
  if fmt ≠ [] ∧ (LogFormatter.new fmt).error = false then some fmt else none

/-- The kind, level and effective pattern of an appender. -/
def LogAppender.view (a : LogAppender) :
    AppenderKind × LogLevel × Option Bytes :=
  (a.kind, a.level, a.formatter.map LogFormatter.pattern)

/-- Level, pattern and appenders of a logger. -/
def Logger.view (l : Logger) :
    LogLevel × Bytes × List (AppenderKind × LogLevel × Option Bytes) :=
  (l.level, l.formatter.pattern, l.appenders.map LogAppender.view)

namespace LogAppenderDefine

/-- The types that there are. -/
def Known (ap : LogAppenderDefine) : Prop := ap.type = 1 ∨ ap.type = 2

instance (ap : LogAppenderDefine) : Decidable ap.Known :=
  inferInstanceAs (Decidable (_ ∨ _))

/-- The kind of appender that a definition asks for. -/
def kind (ap : LogAppenderDefine) : AppenderKind :=
  if ap.type = 1 then .file ap.file else .console

/-- The appender of a logger with the pattern `p`. -/
def view (p : Bytes) (ap : LogAppenderDefine) :
    AppenderKind × LogLevel × Option Bytes :=
  (ap.kind, ap.level, some ((validPattern ap.formatter).getD p))

end LogAppenderDefine

/-- The logger of a definition, when its pattern is `p`. -/
def LogDefine.view (p : Bytes) (d : LogDefine) :
    LogLevel × Bytes × List (AppenderKind × LogLevel × Option Bytes) :=
  (d.level, p, d.appenders.map (LogAppenderDefine.view p))

namespace LogIniter

variable {l l' : Logger} {ap : LogAppenderDefine} {a : LogAppender}
  {d : LogDefine}

/-- It is made as one of that kind. -/
theorem newAppender_eq (h : newAppender ap = some a) :
    a = .new ap.kind := by
  unfold newAppender at h
  unfold LogAppenderDefine.kind
  split at h
  next h1 =>
    rw [if_pos h1]
    exact (Option.some.inj h).symm
  next h1 =>
    rw [if_neg h1]
    split at h
    next => exact (Option.some.inj h).symm
    next => nomatch h

/-- The appender that is made, before it is added to a logger. -/
theorem appender_eq (h : appender ap = some a) :
    a.kind = ap.kind ∧ a.level = ap.level
      ∧ a.formatter.map LogFormatter.pattern = validPattern ap.formatter := by
  unfold appender at h
  obtain ⟨a, ha, h⟩ := Option.bind_eq_some_iff.mp h
  cases h
  rw [newAppender_eq ha]
  unfold validPattern
  simp only [Bool.not_eq_true']
  split
  next => exact ⟨rfl, rfl, rfl⟩
  next => exact ⟨rfl, rfl, rfl⟩

/-- For a known type there is one. -/
theorem appender_isSome (h : ap.Known) : ∃ a, appender ap = some a := by
  unfold appender newAppender
  rcases h with h | h
  · rw [if_pos h]
    exact ⟨_, rfl⟩
  · rw [if_neg (by omega), if_pos h]
    exact ⟨_, rfl⟩

/-- An added appender takes the pattern of the logger when it has none. -/
theorem addAppender_view (h : appender ap = some a) :
    (l.addAppender a).view = (l.view.1, l.view.2.1,
      l.view.2.2 ++ [ap.view l.formatter.pattern]) := by
  obtain ⟨hkind, hlevel, hfmt⟩ := appender_eq h
  have ha : (if a.formatter = none then { a with formatter := some l.formatter }
      else a).view = ap.view l.formatter.pattern := by
    unfold LogAppender.view LogAppenderDefine.view
    rw [← hfmt, ← hkind, ← hlevel]
    cases hf : a.formatter with
    | none => rfl
    | some f =>
        rw [if_neg (Option.some_ne_none f), hf]
        rfl
  unfold Logger.addAppender Logger.view
  rw [List.map_append, List.map_singleton, ha]

/-- The appenders are added in their order, and nothing else changes. -/
theorem addAppenders_view {aps : List LogAppenderDefine}
    (h : addAppenders l aps = some l') :
    l'.view = (l.view.1, l.view.2.1,
      l.view.2.2 ++ aps.map (LogAppenderDefine.view l.formatter.pattern)) := by
  induction aps generalizing l with
  | nil =>
      cases h
      rw [List.map_nil, List.append_nil]
  | cons ap aps ih =>
      obtain ⟨l₁, h₁, h⟩ := Option.bind_eq_some_iff.mp h
      obtain ⟨a, ha, h₁⟩ := Option.bind_eq_some_iff.mp h₁
      cases h₁
      rw [ih h, addAppender_view ha, List.append_assoc]
      rfl

/-- They all are when their types are known. -/
theorem addAppenders_isSome {aps : List LogAppenderDefine}
    (h : ∀ ap ∈ aps, ap.Known) : ∃ l', addAppenders l aps = some l' := by
  induction aps generalizing l with
  | nil => exact ⟨l, rfl⟩
  | cons ap aps ih =>
      obtain ⟨a, ha⟩ := appender_isSome (h ap (List.mem_cons_self ..))
      obtain ⟨l', hl'⟩ := ih (l := l.addAppender a) fun ap hap =>
        h ap (List.mem_cons_of_mem _ hap)
      refine ⟨l', ?_⟩
      unfold addAppenders at hl' ⊢
      rw [List.foldlM_cons, ha]
      exact hl'

/-- The pattern of a logger after a text was given to it. -/
theorem setFormatter_pattern (l : Logger) (fmt : Bytes) :
    (if fmt ≠ [] then l.setFormatter fmt else l).formatter.pattern
      = (validPattern fmt).getD l.formatter.pattern := by
  unfold validPattern
  by_cases hf : fmt = []
  · rw [if_neg (fun h => h hf), if_neg (fun h => h.1 hf)]
    rfl
  · rw [if_pos hf]
    unfold Logger.setFormatter
    dsimp only
    cases he : (LogFormatter.new fmt).error with
    | true =>
        rw [if_pos rfl, if_neg (fun h => nomatch h.2)]
        rfl
    | false =>
        rw [if_neg (fun h => nomatch h), if_pos ⟨hf, rfl⟩]
        rfl

/-- The callback gives a logger the level and the appenders of its
definition; of what the logger was before, only the pattern is left. -/
theorem configure_view (h : configure l d = some l') :
    l'.view = d.view ((validPattern d.formatter).getD l.formatter.pattern) := by
  unfold configure at h
  rw [addAppenders_view h, ← setFormatter_pattern]
  unfold Logger.view LogDefine.view Logger.clearAppenders
  have hlevel : ∀ l : Logger, (if d.formatter ≠ [] then
      l.setFormatter d.formatter else l).level = l.level := by
    intro l
    unfold Logger.setFormatter
    split
    · dsimp only
      split <;> rfl
    · rfl
  have hpattern : ∀ k : LogLevel, (if d.formatter ≠ [] then
      { l with level := k }.setFormatter d.formatter
      else { l with level := k }).formatter
      = (if d.formatter ≠ [] then l.setFormatter d.formatter
        else l).formatter := by
    intro k
    unfold Logger.setFormatter
    split
    · dsimp only
      split <;> rfl
    · rfl
  rw [hlevel, hpattern]
  rfl

/-- So the logger is configured. -/
theorem configure_isSome (h : ∀ ap ∈ d.appenders, ap.Known) :
    ∃ l', configure l d = some l' :=
  addAppenders_isSome h

-- ================================================================== the loops

variable {old new : LogDefines} {m m' : LoggerManager} {n : Bytes}
  {items : List LogDefine}

/-- A definition that is new is applied to its logger. -/
theorem apply_eq_some : apply old m d = some m' ↔ d ∉ old.items
    ∧ ∃ l, configure (m.getLogger d.name) d = some l
      ∧ m' = m.update d.name fun _ => l := by
  unfold apply
  split
  next hd =>
    exact ⟨fun h => (nomatch h),
      fun h => absurd (LogDefines.find_self.mp hd) h.1⟩
  next hd =>
    rw [LogDefines.find_self] at hd
    constructor
    · intro h
      obtain ⟨l, hl, h⟩ := Option.bind_eq_some_iff.mp h
      exact ⟨hd, l, hl, (Option.some.inj h).symm⟩
    · intro h
      obtain ⟨-, l, hl, h⟩ := h
      rw [hl, h]
      rfl

/-- An update of a logger, -/
theorem update_self (f : Logger → Logger) :
    (m.update n f).loggers n = some (f (m.getLogger n)) :=
  if_pos rfl

/-- leaves the others alone. -/
theorem update_other {k : Bytes} (f : Logger → Logger) (h : n ≠ k) :
    (m.update k f).loggers n = m.loggers n :=
  if_neg h

/-- What the first loop leaves: the loggers of `items` as configured, the
others as they were. -/
structure Applied (items : List LogDefine) (m m' : LoggerManager) : Prop where
  own : ∀ d ∈ items, (m'.loggers d.name).map Logger.view
    = some (d.view ((validPattern d.formatter).getD
      (m.getLogger d.name).formatter.pattern))
  other : ∀ n, (∀ d ∈ items, d.name ≠ n) → m'.loggers n = m.loggers n

/-- Definitions of different names are applied one by one. -/
theorem applied_of_run (hnd : (items.map LogDefine.name).Nodup)
    (h : items.foldlM (apply old) m = some m') :
    (∀ d ∈ items, d ∉ old.items) ∧ Applied items m m' := by
  induction items generalizing m with
  | nil =>
      cases h
      exact ⟨fun d hd => (nomatch hd), fun d hd => (nomatch hd), fun _ _ => rfl⟩
  | cons d items ih =>
      obtain ⟨m₁, h₁, h⟩ := Option.bind_eq_some_iff.mp h
      obtain ⟨hd, l, hl, rfl⟩ := apply_eq_some.mp h₁
      obtain ⟨hnot, hnd⟩ := List.nodup_cons.mp hnd
      obtain ⟨hnew, hown, hother⟩ := ih hnd h
      have hne : ∀ e ∈ items, e.name ≠ d.name := fun e he heq =>
        hnot (heq ▸ List.mem_map_of_mem he)
      refine ⟨List.forall_mem_cons.mpr ⟨hd, hnew⟩,
        List.forall_mem_cons.mpr ⟨?_, fun e he => ?_⟩, fun n hn => ?_⟩
      · rw [hother _ hne, update_self, Option.map_some, configure_view hl]
      · have hget : (m.update d.name fun _ => l).getLogger e.name
            = m.getLogger e.name :=
          congrArg (·.getD (.new e.name)) (update_other _ (hne e he))
        rw [hown e he, hget]
      · obtain ⟨hdn, hn⟩ := List.forall_mem_cons.mp hn
        rw [hother n hn, update_other _ hdn.symm]

/-- And none of them fails when the types are known. -/
theorem apply_run_isSome
    (h : ∀ d ∈ items, d ∉ old.items ∧ ∀ ap ∈ d.appenders, ap.Known) :
    ∃ m', items.foldlM (apply old) m = some m' := by
  induction items generalizing m with
  | nil => exact ⟨m, rfl⟩
  | cons d items ih =>
      obtain ⟨⟨hd, hknown⟩, h⟩ := List.forall_mem_cons.mp h
      obtain ⟨l, hl⟩ := configure_isSome (l := m.getLogger d.name) hknown
      obtain ⟨m', hm'⟩ := ih (m := m.update d.name fun _ => l) h
      refine ⟨m', ?_⟩
      rw [List.foldlM_cons, apply_eq_some.mpr ⟨hd, l, hl, rfl⟩]
      exact hm'

/-- The logger has been taken out of the configuration. -/
def Cleared (m : LoggerManager) (n : Bytes) : Prop :=
  ∃ l, m.loggers n = some l ∧ l.level = .unknow ∧ l.appenders = []

/-- A logger that is no longer defined is cleared, -/
theorem remove_removed (h : ∀ e ∈ new.items, e.name ≠ d.name) :
    Cleared (remove new m d) d.name := by
  unfold remove
  rw [if_pos (LogDefines.find_eq_none.mpr h)]
  exact ⟨_, update_self _, rfl, rfl⟩

/-- and one that is stays. -/
theorem remove_kept (h : d.name = n → ∃ e ∈ new.items, e.name = n) :
    (remove new m d).loggers n = m.loggers n := by
  unfold remove
  split
  next hnone =>
    refine update_other _ fun hn => ?_
    obtain ⟨e, he, hen⟩ := h hn.symm
    exact LogDefines.find_eq_none.mp hnone e he (hen.trans hn)
  next => rfl

/-- What is cleared stays so. -/
theorem Cleared.remove (h : Cleared m n) : Cleared (remove new m d) n := by
  unfold LogIniter.remove
  split
  next =>
    by_cases hn : n = d.name
    · subst hn
      exact ⟨_, update_self _, rfl, rfl⟩
    · obtain ⟨l, hl, h⟩ := h
      exact ⟨l, (update_other _ hn).trans hl, h⟩
  next => exact h

/-- So all loggers are cleared that are no longer defined, -/
theorem removeAll_removed (hd : d ∈ items)
    (h : ∀ e ∈ new.items, e.name ≠ d.name) :
    Cleared (items.foldl (remove new) m) d.name := by
  have hkeep : ∀ (items : List LogDefine) (m : LoggerManager),
      Cleared m d.name → Cleared (items.foldl (remove new) m) d.name := by
    intro items
    induction items with
    | nil => exact fun m hm => hm
    | cons e items ih => exact fun m hm => ih _ hm.remove
  induction items generalizing m with
  | nil => nomatch hd
  | cons e items ih =>
      rcases List.mem_cons.mp hd with rfl | hd
      · exact hkeep items _ (remove_removed h)
      · exact ih hd

/-- and no other one. -/
theorem removeAll_kept
    (h : ∀ d ∈ items, d.name = n → ∃ e ∈ new.items, e.name = n) :
    (items.foldl (remove new) m).loggers n = m.loggers n := by
  induction items generalizing m with
  | nil => rfl
  | cons d items ih =>
      obtain ⟨hd, h⟩ := List.forall_mem_cons.mp h
      exact (ih h).trans (remove_kept hd)

/-- What has been taken out keeps its pattern. -/
theorem removeAll_formatter :
    ((items.foldl (remove new) m).getLogger n).formatter
      = (m.getLogger n).formatter := by
  induction items generalizing m with
  | nil => rfl
  | cons d items ih =>
      refine ih.trans ?_
      unfold remove
      split
      next =>
        unfold LoggerManager.getLogger
        by_cases hn : n = d.name
        · subst hn
          rw [update_self]
          rfl
        · rw [update_other _ hn]
      next => rfl

-- ================================================================== one reload

/-- The callback, when it runs to the end. -/
theorem onChange_eq (h : onChange old new m = some m') :
    (∀ d ∈ new.items, d ∉ old.items)
      ∧ (∀ d ∈ new.items, (m'.loggers d.name).map Logger.view
        = some (d.view ((validPattern d.formatter).getD
          (m.getLogger d.name).formatter.pattern)))
      ∧ (∀ d ∈ old.items, (∀ e ∈ new.items, e.name ≠ d.name) →
        Cleared m' d.name)
      ∧ ∀ n, (∀ d ∈ new.items, d.name ≠ n) →
        (m'.getLogger n).formatter = (m.getLogger n).formatter := by
  obtain ⟨m₁, h₁, h⟩ := Option.bind_eq_some_iff.mp h
  cases h
  obtain ⟨hnew, happ⟩ := applied_of_run new.nodup h₁
  refine ⟨hnew, fun d hd => ?_, fun d hd hnone => ?_, fun n hn => ?_⟩
  · rw [removeAll_kept fun _ _ _ => ⟨d, hd, rfl⟩]
    exact happ.own d hd
  · exact removeAll_removed hd hnone
  · rw [removeAll_formatter]
    exact congrArg (fun l => (l.getD (Logger.new n)).formatter)
      (happ.other n hn)

/-- The listener goes through when all types are known and no definition
is an old one. -/
theorem onChange_isSome
    (h : ∀ d ∈ new.items, d ∉ old.items ∧ ∀ ap ∈ d.appenders, ap.Known) :
    ∃ m', onChange old new m = some m' := by
  obtain ⟨m₁, h₁⟩ := apply_run_isSome (m := m) h
  unfold onChange
  rw [h₁]
  exact ⟨_, rfl⟩

/-- The result of a reload that the configurations call for. -/
structure Reloaded (old new : LogDefines) (m : LoggerManager) : Prop where
  configured : ∀ d ∈ new.items, ∃ l, m.loggers d.name = some l
    ∧ l.level = d.level ∧ l.appenders.map (fun a => (a.kind, a.level))
      = d.appenders.map fun ap => (ap.kind, ap.level)
  removed : ∀ d ∈ old.items, (∀ e ∈ new.items, e.name ≠ d.name) →
    ∃ l, m.loggers d.name = some l ∧ l.level = .unknow ∧ l.appenders = []

/-- A reload runs to the end, with the result it should have, exactly when
no definition is in both configurations unchanged: for such a one the
callback does not look up the logger. -/
theorem reload_total_iff (old new : LogDefines) (m : LoggerManager)
    (hknown : ∀ d ∈ new.items, ∀ ap ∈ d.appenders, ap.Known) :
    (∃ m', onChange old new m = some m' ∧ Reloaded old new m')
      ↔ ∀ d ∈ new.items, d ∉ old.items := by
  constructor
  · intro h
    obtain ⟨m', h, -⟩ := h
    exact (onChange_eq h).1
  · intro h
    obtain ⟨m', hrun⟩ := onChange_isSome (m := m) fun d hd =>
      ⟨h d hd, hknown d hd⟩
    obtain ⟨-, hown, hremoved, -⟩ := onChange_eq hrun
    refine ⟨m', hrun, fun d hd => ?_, hremoved⟩
    obtain ⟨l, hl, hview⟩ := Option.map_eq_some_iff.mp (hown d hd)
    refine ⟨l, hl, congrArg (·.1) hview, ?_⟩
    have happ := congrArg (fun v => v.2.2.map fun a => (a.1, a.2.1)) hview
    unfold Logger.view LogDefine.view at happ
    rw [List.map_map, List.map_map] at happ
    exact happ

/-- A configuration of one logger. -/
def only (d : LogDefine) : LogDefines := ⟨[d], List.pairwise_singleton ..⟩

/-- The logger "root" with a level, a pattern and the console. -/
def rootDefine (level : LogLevel) (formatter : Bytes) : LogDefine :=
  ⟨ascii "root", level, formatter, [⟨2, .debug, [], []⟩]⟩

/-- The configuration of "root" is changed. -/
theorem reload_total_iff_changed :
    ∃ m', onChange (only (rootDefine .info [])) (only (rootDefine .warn []))
      .new
        = some m'
      ∧ Reloaded (only (rootDefine .info [])) (only (rootDefine .warn [])) m' :=
  (reload_total_iff _ _ .new (by decide)).mpr (by decide)

/-- A second logger comes into the configuration. -/
def rootAndSystem : LogDefines :=
  ⟨[rootDefine .info [], ⟨ascii "system", .debug, [], []⟩], by decide⟩

/-- For "root", which does not change, the null pointer is used. -/
theorem reload_unchanged_null :
    ¬ ∃ m', onChange (only (rootDefine .info [])) rootAndSystem .new = some m'
      ∧ Reloaded (only (rootDefine .info [])) rootAndSystem m' := by
  intro h
  obtain ⟨m', h, -⟩ := h
  have hmem : rootDefine .info [] ∈ rootAndSystem.items := List.mem_cons_self ..
  exact (onChange_eq h).1 _ hmem (List.mem_singleton_self _)

end LogIniter

end TinyServer
