/-
The loggers written as text and read as a configuration.

A logger comes back as `readBack`: the reader does not look for the level
of an appender, and the writers have another key for its formatter than
the reader. Everything else is read as it was written. Every state of a
`LoggerManager` has its list of loggers (`lists_new`, `Lists.update`).
-/
import TinyServer.Log.Dump
import TinyServer.Log.Proofs.RoundTrip

namespace TinyServer

open Http (Bytes ascii)

variable {y : YamlCpp} {a : LogAppender} {l : Logger} {ls : List Logger}

-- ============================================================ what is expected

/-- The pattern that was set. -/
def LogAppender.explicit (a : LogAppender) : Bytes :=
  if a.hasFormatter then (a.formatter.map LogFormatter.pattern).getD [] else []

/-- The definition of an appender. -/
def LogAppender.define (a : LogAppender) : LogAppenderDefine :=
  match a.kind with
  | .console => ⟨2, a.level, a.explicit, []⟩
  | .file fileName => ⟨1, a.level, a.explicit, fileName⟩

/-- The definition of a logger. -/
def Logger.define (l : Logger) : LogDefine :=
  ⟨l.name, l.level, l.formatter.pattern, l.appenders.map LogAppender.define⟩

/-- The text is read as the definitions of the loggers. -/
def Reloaded (y : YamlCpp) (ls : List Logger) : Prop :=
  ∃ s, LexicalCast.fromString y (LoggerManager.toYamlString y ls) = some s
    ∧ ∀ l ∈ ls, l.define ∈ s.items

/-- The nodes that are emitted are loaded as they were. -/
structure Reloads (y : YamlCpp) (ls : List Logger) : Prop where
  appender : ∀ l ∈ ls, ∀ a ∈ l.appenders, y.load (y.emit a.node) = a.node
  logger : ∀ l ∈ ls, y.load (y.emit (l.node y)) = l.node y
  manager : y.load (y.emit (LoggerManager.node y ls)) = LoggerManager.node y ls

-- ================================================================== appenders

/-- What is left of an appender. -/
def LogAppender.readBack (a : LogAppender) : LogAppenderDefine :=
  { a.define with level := .unknow, formatter := [] }

/-- What is left of a logger. -/
def Logger.readBack (l : Logger) : LogDefine :=
  { l.define with appenders := l.appenders.map LogAppender.readBack }

/-- The entries that both kinds write are the level and the formatter. -/
theorem LogAppender.common_lookup {key : Bytes} (hlevel : key ≠ ascii "level")
    (hformatter : key ≠ ascii "fomatter") :
    a.commonEntries.lookup key = none := by
  unfold commonEntries
  rw [List.lookup_append, YamlNode.lookup_entry_ne _ hlevel, Option.none_or]
  cases a.formatter with
  | none => rfl
  | some f => exact YamlNode.lookup_entry_ne _ hformatter

namespace LexicalCast

/-- A field with a text. -/
theorem optional_scalar {n : YamlNode} {key dflt text : Bytes}
    (h : n.field key = some (some (.scalar text))) :
    optional y n key dflt = some text := by
  unfold optional
  rw [h]
  exact y.asString_scalar text

/-- A console appender is read without its level, -/
theorem readAppender_console (y : YamlCpp) (a : LogAppender) :
    readAppender y a.consoleNode = some (some ⟨2, .unknow, [], []⟩) := by
  have htype : a.consoleNode.field (ascii "type")
      = some (some (.scalar (ascii "ConsoleLog"))) :=
    YamlNode.field_ofEntries _ _
  unfold readAppender
  rw [htype]
  simp only [Option.bind_eq_bind, Option.bind_some, y.asString_scalar]
  rfl

/-- and a file appender with its file only. -/
theorem readAppender_file (y : YamlCpp) (a : LogAppender) (fileName : Bytes) :
    readAppender y (a.fileNode fileName)
      = some (some ⟨1, .unknow, [], fileName⟩) := by
  have htype : (a.fileNode fileName).field (ascii "type")
      = some (some (.scalar (ascii "FileLog"))) :=
    YamlNode.field_ofEntries _ _
  have hfile : (a.fileNode fileName).field (ascii "file")
      = some (some (.scalar fileName)) :=
    YamlNode.field_ofEntries _ _
  have hno : a.commonEntries.lookup (ascii "formatter") = none :=
    LogAppender.common_lookup (by decide) (by decide)
  have hformatter : (a.fileNode fileName).field (ascii "formatter")
      = some none :=
    (YamlNode.field_ofEntries _ _).trans (congrArg some hno)
  unfold readAppender
  rw [htype, hfile, optional, hformatter]
  simp only [Option.bind_eq_bind, Option.bind_some, y.asString_scalar]
  rfl

/-- An appender is read back as its `readBack`. -/
theorem readAppender_node (y : YamlCpp) (a : LogAppender) :
    readAppender y a.node = some (some a.readBack) := by
  unfold LogAppender.node LogAppender.readBack LogAppender.define
  cases a.kind with
  | console => exact readAppender_console y a
  | file fileName => exact readAppender_file y a fileName

/-- All appenders are read, in their order. -/
theorem readAppenders_nodes (y : YamlCpp) (as : List LogAppender) :
    readAppenders y (as.map LogAppender.node)
      = some (as.map LogAppender.readBack) := by
  unfold readAppenders
  rw [mapM_written fun a _ => readAppender_node y a]
  exact congrArg some (filterMap_some _ _)

-- ==================================================================== loggers

/-- A level is read back. -/
theorem fromString_toBytes (level : LogLevel) :
    LogLevel.fromString level.toBytes = level := by
  cases level <;> decide

/-- The appenders of a logger's node. -/
theorem logger_appenders (y : YamlCpp) (l : Logger) :
    (l.node y).field (ascii "appenders")
      = some (if l.appenders ≠ [] then
        some (.ofNodes (l.appenders.map fun a => y.load (a.toYamlString y)))
        else none) := by
  unfold Logger.node
  rw [YamlNode.field_ofEntries, List.lookup_append, YamlNode.lookup_entry]
  rfl

/-- A logger is read back as its `readBack`. -/
theorem readDefine_node
    (h : ∀ a ∈ l.appenders, y.load (y.emit a.node) = a.node) :
    readDefine y (l.node y) = some (some l.readBack) := by
  have hname : (l.node y).field (ascii "name") = some (some (.scalar l.name)) :=
    YamlNode.field_ofEntries _ _
  have hlevel : (l.node y).field (ascii "level")
      = some (some (.scalar l.level.toBytes)) :=
    YamlNode.field_ofEntries _ _
  have hformatter : (l.node y).field (ascii "formatter")
      = some (some (.scalar l.formatter.pattern)) :=
    YamlNode.field_ofEntries _ _
  have hnodes : (l.appenders.map fun a => y.load (a.toYamlString y))
      = l.appenders.map LogAppender.node :=
    List.map_congr_left h
  unfold readDefine Logger.readBack Logger.define
  rw [hname, optional_scalar hlevel, optional_scalar hformatter,
    logger_appenders,
    hnodes]
  simp only [Option.bind_eq_bind, Option.bind_some, y.asString_scalar,
    fromString_toBytes]
  by_cases hnil : l.appenders = []
  · rw [if_neg (not_not_intro hnil), hnil]
    rfl
  · rw [if_pos hnil]
    simp only [YamlNode.items_ofNodes, readAppenders_nodes]
    rfl

/-- The text is read, and this is what it is read as. -/
theorem fromString_dump (hls : ls.Pairwise fun a b => a.name < b.name)
    (hload : Reloads y ls) :
    ∃ s, fromString y (LoggerManager.toYamlString y ls) = some s
      ∧ s.items = ls.map Logger.readBack := by
  have hnodes : (ls.map fun l => y.load (l.toYamlString y))
      = ls.map (Logger.node y) :=
    List.map_congr_left hload.logger
  have hread : (ls.map (Logger.node y)).mapM (readDefine y)
      = some (ls.map fun l => some l.readBack) :=
    mapM_written fun l hl => readDefine_node (hload.appender l hl)
  refine ⟨(ls.map Logger.readBack).foldl LogDefines.insert .empty, ?_, ?_⟩
  · unfold fromString LoggerManager.toYamlString
    rw [hload.manager]
    unfold LoggerManager.node
    rw [YamlNode.items_ofNodes, hnodes, hread]
    exact congrArg (fun ds => some (ds.foldl LogDefines.insert .empty))
      (filterMap_some _ _)
  · refine (LogDefines.foldl_insert ?_).trans (List.nil_append _)
    exact List.pairwise_map.mpr hls

end LexicalCast

/-- An appender loses nothing when it has neither a level nor a formatter
of its own. -/
theorem LogAppender.readBack_eq_iff : a.readBack = a.define
    ↔ a.level = .unknow ∧ a.explicit = [] := by
  have hlevel : a.define.level = a.level := by
    unfold define
    cases a.kind <;> rfl
  have hformatter : a.define.formatter = a.explicit := by
    unfold define
    cases a.kind <;> rfl
  rw [← hlevel, ← hformatter]
  unfold readBack
  generalize a.define = d
  obtain ⟨type, level, formatter, file⟩ := d
  rw [LogAppenderDefine.mk.injEq]
  exact ⟨fun h => ⟨h.2.1.symm, h.2.2.1.symm⟩,
    fun h => ⟨rfl, h.1.symm, h.2.symm, rfl⟩⟩

/-- A logger loses nothing when its appenders do not. -/
theorem Logger.readBack_eq_iff : l.readBack = l.define
    ↔ ∀ a ∈ l.appenders, a.level = .unknow ∧ a.explicit = [] := by
  unfold readBack define
  rw [LogDefine.mk.injEq]
  simp only [true_and, List.map_inj_left, LogAppender.readBack_eq_iff]

/-- The dump is reloaded when no logger loses anything. -/
theorem reloaded_iff_readBack {m : LoggerManager} (hls : m.Lists ls)
    (hload : Reloads y ls) :
    Reloaded y ls ↔ ∀ l ∈ ls, l.readBack = l.define := by
  obtain ⟨s, hs, hitems⟩ := LexicalCast.fromString_dump hls.ascending hload
  constructor
  · rintro ⟨s', hs', hall⟩ l hl
    cases hs.symm.trans hs'
    obtain ⟨l', hl', hback⟩ := List.mem_map.mp (hitems ▸ hall l hl)
    -- there is one logger with this name
    have hname : l'.name = l.name := congrArg LogDefine.name hback
    have hsome := (hls.mem l.name l').mpr ⟨hl', hname⟩
    cases hsome.symm.trans ((hls.mem l.name l).mpr ⟨hl, rfl⟩)
    exact hback
  · intro h
    refine ⟨s, hs, fun l hl => ?_⟩
    rw [hitems, ← h l hl]
    exact List.mem_map_of_mem hl

-- ====================================================================== states

namespace LoggerManager

/-- A manager with one logger. -/
def only (l : Logger) : LoggerManager :=
  ⟨fun name => if name = l.name then some l else none⟩

/-- A manager with one logger, -/
theorem lists_only (l : Logger) : (only l).Lists [l] where
  ascending := List.pairwise_singleton ..
  mem name l' := by
    show (if name = l.name then some l else none) = some l' ↔ _
    rw [List.mem_singleton]
    by_cases hname : name = l.name
    · rw [if_pos hname, Option.some.injEq]
      constructor
      · rintro rfl
        exact ⟨rfl, hname.symm⟩
      · exact fun h => h.1.symm
    · rw [if_neg hname]
      refine iff_of_false nofun ?_
      rintro ⟨rfl, rfl⟩
      exact hname rfl

/-- The logger that there is at first. -/
def rootLogger : Logger :=
  (Logger.new (ascii "root")).addAppender (.new .console)

/-- and a new one. -/
theorem lists_new : LoggerManager.new.Lists [rootLogger] := by
  have hnew : LoggerManager.new = only rootLogger := by
    unfold LoggerManager.new only
    congr 1
    funext name
    show _ = if name = ascii "root" then some rootLogger else none
    split
    next hname => rw [hname]; rfl
    next => rfl
  rw [hnew]
  exact lists_only rootLogger

/-- A logger has the name that it is asked for. -/
theorem getLogger_name {m : LoggerManager} (h : m.Lists ls) (name : Bytes) :
    (m.getLogger name).name = name := by
  unfold getLogger
  cases hl : m.loggers name with
  | none => rfl
  | some l => exact ((h.mem name l).mp hl).2

/-- Names are in order. -/
theorem name_cases (s t : Bytes) : s < t ∨ s = t ∨ t < s := by
  by_cases hst : s < t
  · exact .inl hst
  · by_cases hts : t < s
    · exact .inr (.inr hts)
    · exact .inr (.inl (List.le_antisymm hts hst))

/-- The logger that is changed takes its place between the others. -/
theorem Lists.update {m : LoggerManager} (h : m.Lists ls) (name : Bytes)
    {f : Logger → Logger} (hf : ∀ l, (f l).name = l.name) :
    ∃ ls', (m.update name f).Lists ls' := by
  have hname : (f (m.getLogger name)).name = name :=
    (hf _).trans (getLogger_name h name)
  refine ⟨ls.filter (·.name < name) ++ f (m.getLogger name)
    :: ls.filter (name < ·.name), ?_, fun n l => ?_⟩
  · refine List.pairwise_append.mpr ⟨h.ascending.filter _, ?_, ?_⟩
    · refine List.pairwise_cons.mpr ⟨fun l hl => ?_, h.ascending.filter _⟩
      rw [hname]
      exact of_decide_eq_true (List.mem_filter.mp hl).2
    · intro l hl l' hl'
      have hlt : l.name < name := of_decide_eq_true (List.mem_filter.mp hl).2
      rcases List.mem_cons.mp hl' with rfl | hl'
      · rwa [hname]
      · exact List.lt_trans hlt (of_decide_eq_true (List.mem_filter.mp hl').2)
  · show (if n = name then some (f (m.getLogger name)) else m.loggers n)
        = some l ↔ _
    rw [List.mem_append, List.mem_cons, List.mem_filter, List.mem_filter]
    simp only [decide_eq_true_eq]
    by_cases hn : n = name
    · rw [if_pos hn, Option.some.injEq, hn]
      constructor
      · rintro rfl
        exact ⟨.inr (.inl rfl), hname⟩
      · rintro ⟨⟨-, hlt⟩ | rfl | ⟨-, hlt⟩, hl⟩
        · exact absurd (hl ▸ hlt) (List.lt_irrefl _)
        · rfl
        · exact absurd (hl ▸ hlt) (List.lt_irrefl _)
    · rw [if_neg hn, h.mem]
      constructor
      · rintro ⟨hl, rfl⟩
        rcases name_cases l.name name with hlt | heq | hgt
        · exact ⟨.inl ⟨hl, hlt⟩, rfl⟩
        · exact absurd heq hn
        · exact ⟨.inr (.inr ⟨hl, hgt⟩), rfl⟩
      · rintro ⟨⟨hl, -⟩ | rfl | ⟨hl, -⟩, hl'⟩
        · exact ⟨hl, hl'⟩
        · exact absurd (hl'.symm.trans hname) hn
        · exact ⟨hl, hl'⟩

end LoggerManager

-- ================================================================== the result

/-- The states whose dump is read as the definitions of the loggers. -/
theorem reloaded_iff {m : LoggerManager} (hls : m.Lists ls)
    (hload : Reloads y ls) : Reloaded y ls
      ↔ ∀ l ∈ ls, ∀ a ∈ l.appenders, a.level = .unknow ∧ a.explicit = [] := by
  rw [reloaded_iff_readBack hls hload]
  exact forall_congr' fun l => forall_congr' fun _ => Logger.readBack_eq_iff

/-- yaml-cpp on the nodes of an appender, a logger and the manager, and on
their texts. -/
def yamlOnDump (appender logger manager : YamlNode × Bytes) : YamlCpp :=
  { LexicalCast.yamlOn manager.1 manager.2 with
    emit := fun node =>
      match node with
      | .map entries =>
          if (entries.lookup (ascii "name")).isSome then logger.2
            else appender.2
      | _ => manager.2
    load := fun text =>
      if text = appender.2 then appender.1
      else if text = logger.2 then logger.1
      else manager.1 }

/-- A manager of one logger with one appender. -/
theorem reloads_single (happenders : l.appenders = [a])
    (happender : y.load (y.emit a.node) = a.node)
    (hlogger : y.load (y.emit (l.node y)) = l.node y)
    (hmanager : y.load (y.emit (LoggerManager.node y [l]))
      = LoggerManager.node y [l]) : Reloads y [l] where
  appender l' hl' a' ha' := by
    cases List.mem_singleton.mp hl'
    rw [happenders] at ha'
    rwa [List.mem_singleton.mp ha']
  logger l' hl' := by rwa [List.mem_singleton.mp hl']
  manager := hmanager

/-- A logger with a file appender that has neither a level nor a formatter. -/
theorem reloaded_iff_file :
    let a : LogAppender := ⟨.file (ascii "a.txt"), .unknow,
      some (.new (ascii "%m%n")), false⟩
    let l : Logger := ⟨ascii "root", .info, .new (ascii "%m%n"), [a]⟩
    let node : YamlNode := .map [(ascii "name", .scalar (ascii "root")),
      (ascii "level", .scalar (ascii "INFO")),
      (ascii "formatter", .scalar (ascii "%m%n")),
      (ascii "appenders", .seq [a.node])]
    let y := yamlOnDump (a.node, ascii "type: FileLog\nfile: a.txt")
      (node, ascii "name: root\nlevel: INFO\nformatter: \"%m%n\"\n"
        ++ ascii "appenders:\n  - type: FileLog\n    file: a.txt")
      (.seq [node], ascii "- name: root\n  level: INFO\n  formatter: \"%m%n\"\n"
        ++ ascii "  appenders:\n    - type: FileLog\n      file: a.txt")
    Reloaded y [l] :=
  (reloaded_iff (LoggerManager.lists_only _)
    (reloads_single rfl rfl rfl rfl)).mpr (by decide)

/-- The level and the formatter of an appender are not read. -/
theorem appender_dump_lost :
    let a : LogAppender := ⟨.console, .error, some (.new (ascii "%p")), true⟩
    let l : Logger := ⟨ascii "root", .info, .new (ascii "%m%n"), [a]⟩
    let node : YamlNode := .map [(ascii "name", .scalar (ascii "root")),
      (ascii "level", .scalar (ascii "INFO")),
      (ascii "formatter", .scalar (ascii "%m%n")),
      (ascii "appenders", .seq [a.node])]
    let y := yamlOnDump
      (a.node, ascii "type: ConsoleLog\nlevel: ERROR\nfomatter: \"%p\"")
      (node, ascii "name: root\nlevel: INFO\nformatter: \"%m%n\"\nappenders:\n"
        ++ ascii "  - type: ConsoleLog\n    level: ERROR\n    fomatter: \"%p\"")
      (.seq [node], ascii "- name: root\n  level: INFO\n  formatter: \"%m%n\"\n"
        ++ ascii "  appenders:\n    - type: ConsoleLog\n      level: ERROR\n"
        ++ ascii "      fomatter: \"%p\"")
    (LoggerManager.only l).Lists [l] ∧ Reloads y [l] ∧ ¬ Reloaded y [l] := by
  intro a l node y
  have hload : Reloads y [l] := reloads_single rfl rfl rfl rfl
  refine ⟨LoggerManager.lists_only l, hload, fun h => ?_⟩
  have hback :=
    (reloaded_iff_readBack (LoggerManager.lists_only l) hload).mp h l
    List.mem_cons_self
  cases (Logger.readBack_eq_iff.mp hback a List.mem_cons_self).1

end TinyServer
