/-
The log configuration written as text and read again.

A definition comes back as `readBack`: the reader does not look for the
level of an appender, and it looks for a formatter only at a file
appender. Everything else is read as it was written, and the definitions
come in the order of the set, so that the set is rebuilt entry by entry.
-/
import TinyServer.Log.Yaml
import TinyServer.Log.Proofs.Reload

namespace TinyServer

open Http (Bytes ascii)

-- ====================================================================== nodes

namespace YamlNode

/-- A field of a map that was built from entries. -/
@[simp] theorem field_ofEntries (entries : List (Bytes × YamlNode))
    (key : Bytes) :
    (ofEntries entries).field key = some (entries.lookup key) := by
  cases entries with
  | nil => rfl
  | cons e entries => rfl

/-- The items of a sequence that was built from nodes. -/
@[simp] theorem items_ofNodes (nodes : List YamlNode) :
    (ofNodes nodes).items = nodes := by
  cases nodes with
  | nil => rfl
  | cons n nodes => rfl

/-- The entry that is written when `c` holds. -/
theorem lookup_entry {c : Prop} [Decidable c] (key : Bytes) (v : YamlNode) :
    (if c then [(key, v)] else []).lookup key = if c then some v else none := by
  by_cases hc : c
  · rw [if_pos hc, if_pos hc, List.lookup_cons_self]
  · rw [if_neg hc, if_neg hc, List.lookup_nil]

/-- An entry that may be missing is not one of another key. -/
theorem lookup_entry_ne {c : Prop} [Decidable c] {key k : Bytes}
    (v : YamlNode) (hk : k ≠ key) :
    (if c then [(key, v)] else []).lookup k = none := by
  by_cases hc : c
  · rw [if_pos hc, List.lookup_cons, beq_eq_false_iff_ne.mpr hk,
      List.lookup_nil]
  · rw [if_neg hc, List.lookup_nil]

end YamlNode

namespace LexicalCast

variable {y : YamlCpp} {ap : LogAppenderDefine} {d : LogDefine}

/-- A text that is written when `c` holds. -/
theorem optional_eq {n : YamlNode} {key text : Bytes} {c : Prop} [Decidable c]
    (h : n.field key = some (if c then some (.scalar text) else none)) :
    optional y n key [] = some (if c then text else []) := by
  unfold optional
  rw [h]
  by_cases hc : c
  · rw [if_pos hc, if_pos hc]
    exact y.asString_scalar text
  · rw [if_neg hc, if_neg hc]
    rfl

/-- Empty is what a list is when it is not taken. -/
theorem ite_ne_nil {α : Type} [DecidableEq α] (xs : List α) :
    (if xs ≠ [] then xs else []) = xs := by
  split
  next => rfl
  next h => exact (Decidable.not_not.mp h).symm

end LexicalCast

-- ================================================================== appenders

/-- What is left of an appender. -/
def LogAppenderDefine.readBack (ap : LogAppenderDefine) : LogAppenderDefine :=
  if ap.type = 1 then ⟨1, .unknow, ap.formatter, ap.file⟩
  else ⟨2, .unknow, [], []⟩

/-- What is left of a definition. -/
def LogDefine.readBack (d : LogDefine) : LogDefine :=
  { d with appenders := d.appenders.map LogAppenderDefine.readBack }

namespace LexicalCast

variable {y : YamlCpp} {ap : LogAppenderDefine} {d : LogDefine}

/-- The formatter is written where there is one. -/
theorem appender_formatter (h : ap.type = 1) :
    (appenderNode ap).field (ascii "formatter")
      = some (if ap.formatter ≠ [] then some (.scalar ap.formatter)
        else none) := by
  unfold appenderNode typeEntries levelEntry formatterEntry
  rw [YamlNode.field_ofEntries, if_pos h, List.lookup_append,
    List.lookup_append, YamlNode.lookup_entry_ne _ (by decide),
    YamlNode.lookup_entry]
  rfl

/-- An appender of a known type is read back. -/
theorem readAppender_appenderNode (h : ap.Known) :
    readAppender y (appenderNode ap) = some (some ap.readBack) := by
  unfold readAppender LogAppenderDefine.readBack
  rcases h with h | h
  · have htype : (appenderNode ap).field (ascii "type")
        = some (some (.scalar (ascii "FileLog"))) := by
      unfold appenderNode typeEntries
      rw [YamlNode.field_ofEntries, if_pos h]
      rfl
    have hfile : (appenderNode ap).field (ascii "file")
        = some (some (.scalar ap.file)) := by
      unfold appenderNode typeEntries
      rw [YamlNode.field_ofEntries, if_pos h]
      rfl
    rw [htype, hfile, optional_eq (appender_formatter h), ite_ne_nil, if_pos h]
    simp only [Option.bind_eq_bind, Option.bind_some, y.asString_scalar]
    rfl
  · have htype : (appenderNode ap).field (ascii "type")
        = some (some (.scalar (ascii "ConsoleLog"))) := by
      unfold appenderNode typeEntries
      rw [YamlNode.field_ofEntries, if_neg (by omega), if_pos h]
      rfl
    rw [htype, if_neg (by omega)]
    simp only [Option.bind_eq_bind, Option.bind_some, y.asString_scalar]
    rfl

/-- A loop over nodes that were written one for each `x`. -/
theorem mapM_written {α β : Type} {write : α → YamlNode} {back : α → β}
    {read : YamlNode → Option (Option β)} {xs : List α}
    (h : ∀ x ∈ xs, read (write x) = some (some (back x))) :
    (xs.map write).mapM read = some (xs.map fun x => some (back x)) := by
  induction xs with
  | nil => rfl
  | cons x xs ih =>
      obtain ⟨hx, h⟩ := List.forall_mem_cons.mp h
      rw [List.map_cons, List.mapM_cons, hx, ih h]
      rfl

/-- No appender of a known type is passed over. -/
theorem filterMap_some {α β : Type} (f : α → β) (xs : List α) :
    (xs.map fun x => some (f x)).filterMap id = xs.map f := by
  rw [List.filterMap_map]
  exact congrFun List.filterMap_eq_map' xs

/-- All appenders are read back, in their order. -/
theorem readAppenders_written (h : ∀ ap ∈ d.appenders, ap.Known) :
    readAppenders y (d.appenders.map appenderNode)
      = some (d.appenders.map LogAppenderDefine.readBack) := by
  unfold readAppenders
  rw [mapM_written fun ap hap => readAppender_appenderNode (h ap hap)]
  exact congrArg some (filterMap_some _ _)

-- ================================================================= definitions

/-- A level is read back, and without one it is `UNKNOW`. -/
theorem fromString_level (level : LogLevel) :
    LogLevel.fromString (if level ≠ .unknow then level.toBytes else [])
      = level := by
  cases level <;> decide

/-- The fields of a logger's node: its level, -/
theorem define_level : (defineNode d).field (ascii "level")
    = some (if d.level ≠ .unknow then some (.scalar d.level.toBytes)
      else none) := by
  unfold defineNode levelEntry formatterEntry appendersEntry
  rw [YamlNode.field_ofEntries, List.lookup_append, List.lookup_append,
    List.lookup_append, YamlNode.lookup_entry,
    YamlNode.lookup_entry_ne _ (by decide),
    YamlNode.lookup_entry_ne _ (by decide), Option.or_none, Option.or_none]
  rfl

/-- its formatter, -/
theorem define_formatter : (defineNode d).field (ascii "formatter")
    = some (if d.formatter ≠ [] then some (.scalar d.formatter) else none) := by
  unfold defineNode levelEntry formatterEntry appendersEntry
  rw [YamlNode.field_ofEntries, List.lookup_append, List.lookup_append,
    List.lookup_append, YamlNode.lookup_entry,
    YamlNode.lookup_entry_ne _ (by decide),
    YamlNode.lookup_entry_ne _ (by decide), Option.or_none]
  rfl

/-- and its appenders. -/
theorem define_appenders : (defineNode d).field (ascii "appenders")
    = some (if d.appenders ≠ [] then
      some (.ofNodes (d.appenders.map appenderNode)) else none) := by
  unfold defineNode levelEntry formatterEntry appendersEntry
  rw [YamlNode.field_ofEntries, List.lookup_append, List.lookup_append,
    List.lookup_append, YamlNode.lookup_entry,
    YamlNode.lookup_entry_ne _ (by decide),
    YamlNode.lookup_entry_ne _ (by decide)]
  rfl

/-- A logger is read back. -/
theorem readDefine_defineNode (h : ∀ ap ∈ d.appenders, ap.Known) :
    readDefine y (defineNode d) = some (some d.readBack) := by
  have hname : (defineNode d).field (ascii "name")
      = some (some (.scalar d.name)) :=
    YamlNode.field_ofEntries _ _
  unfold readDefine LogDefine.readBack
  rw [hname, optional_eq define_level, optional_eq define_formatter, ite_ne_nil,
    define_appenders]
  simp only [Option.bind_eq_bind, Option.bind_some, y.asString_scalar,
    fromString_level]
  by_cases hnil : d.appenders = []
  · rw [if_neg (not_not_intro hnil), hnil]
    rfl
  · rw [if_pos hnil]
    simp only [YamlNode.items_ofNodes, readAppenders_written h]
    rfl

end LexicalCast

-- ======================================================================= sets

namespace LogDefines

/-- The loggers come in their order, so each is put last. -/
theorem insertItem_last {d : LogDefine} {es : List LogDefine}
    (h : ∀ e ∈ es, e.name < d.name) : insertItem d es = es ++ [d] := by
  induction es with
  | nil => rfl
  | cons e es ih =>
      obtain ⟨he, h⟩ := List.forall_mem_cons.mp h
      unfold insertItem
      rw [if_neg fun hlt => List.lt_irrefl _ (List.lt_trans he hlt), if_pos he,
        ih h]
      rfl

/-- Definitions in the order of their names are put behind one another. -/
theorem foldl_insert {ds : List LogDefine} {s : LogDefines}
    (h : (s.items ++ ds).Pairwise fun a b => a.name < b.name) :
    (ds.foldl insert s).items = s.items ++ ds := by
  induction ds generalizing s with
  | nil => exact (List.append_nil _).symm
  | cons d ds ih =>
      have hlast : (s.insert d).items = s.items ++ [d] :=
        insertItem_last fun e he =>
          (List.pairwise_append.mp h).2.2 e he d (List.mem_cons_self ..)
      rw [List.foldl_cons, ih (by rwa [hlast, List.append_assoc]), hlast,
        List.append_assoc]
      rfl

end LogDefines

namespace LexicalCast

variable {y : YamlCpp} {s : LogDefines}

/-- All loggers are read back, when yaml-cpp is true to the node. -/
theorem fromString_toString (h : ∀ d ∈ s.items, ∀ ap ∈ d.appenders, ap.Known)
    (hload : y.load (y.emit (setNode s)) = setNode s) :
    ∃ s', fromString y (toString y s) = some s'
      ∧ s'.items = s.items.map LogDefine.readBack := by
  have hread : (s.items.map defineNode).mapM (readDefine y)
      = some (s.items.map fun d => some d.readBack) :=
    mapM_written fun d hd => readDefine_defineNode (h d hd)
  refine ⟨(s.items.map LogDefine.readBack).foldl LogDefines.insert .empty, ?_,
    ?_⟩
  · unfold fromString toString
    rw [hload]
    unfold setNode
    rw [YamlNode.items_ofNodes, hread]
    exact congrArg (fun ds => some (ds.foldl LogDefines.insert .empty))
      (filterMap_some _ _)
  · refine (LogDefines.foldl_insert ?_).trans (List.nil_append _)
    exact List.pairwise_map.mpr s.ascending

/-- The fields of an appender that get lost. -/
theorem readBack_eq_iff {ap : LogAppenderDefine} (h : ap.Known) :
    ap.readBack = ap ↔ ap.level = .unknow
      ∧ (ap.type = 2 → ap.formatter = [] ∧ ap.file = []) := by
  obtain ⟨type, level, formatter, file⟩ := ap
  unfold LogAppenderDefine.readBack
  rcases h with rfl | rfl
  · have hne : (1 : Int) ≠ 2 := by decide
    rw [if_pos rfl, LogAppenderDefine.mk.injEq]
    exact ⟨fun h => ⟨h.2.1.symm, fun h => absurd h hne⟩,
      fun h => ⟨rfl, h.1.symm, rfl, rfl⟩⟩
  · have hne : (2 : Int) ≠ 1 := by decide
    rw [if_neg hne, LogAppenderDefine.mk.injEq]
    exact ⟨fun h => ⟨h.2.1.symm, fun _ => ⟨h.2.2.1.symm, h.2.2.2.symm⟩⟩,
      fun h => ⟨rfl, h.1.symm, (h.2 rfl).1.symm, (h.2 rfl).2.symm⟩⟩

/-- A list is unchanged by a map when every element is. -/
theorem map_eq_self_iff {α : Type} {f : α → α} {xs : List α} :
    xs.map f = xs ↔ ∀ x ∈ xs, f x = x := by
  refine ⟨fun h x hx => ?_, fun h => ?_⟩
  · exact List.map_inj_left.mp (h.trans (List.map_id xs).symm) x hx
  · exact (List.map_congr_left h).trans (List.map_id xs)

/-- A configuration with file and console appenders survives the way to
text and back exactly when no appender has a level and no console appender
has a formatter (or a file). -/
theorem define_round_trip_iff (y : YamlCpp) (s : LogDefines)
    (h : ∀ d ∈ s.items, ∀ ap ∈ d.appenders, ap.Known)
    (hload : y.load (y.emit (setNode s)) = setNode s) :
    fromString y (toString y s) = some s
      ↔ ∀ d ∈ s.items, ∀ ap ∈ d.appenders, ap.level = .unknow
        ∧ (ap.type = 2 → ap.formatter = [] ∧ ap.file = []) := by
  obtain ⟨s', hs', hitems⟩ := fromString_toString h hload
  have hset : s' = s ↔ s.items.map LogDefine.readBack = s.items := by
    rw [← hitems]
    constructor
    · intro heq
      rw [heq]
    · intro heq
      cases s
      cases s'
      cases heq
      rfl
  rw [hs', Option.some.injEq, hset, map_eq_self_iff]
  refine forall_congr' fun d => forall_congr' fun hd => ?_
  have hdefine : d.readBack = d
      ↔ d.appenders.map LogAppenderDefine.readBack = d.appenders := by
    obtain ⟨name, level, formatter, appenders⟩ := d
    unfold LogDefine.readBack
    rw [LogDefine.mk.injEq]
    exact ⟨fun h => h.2.2.2, fun h => ⟨rfl, rfl, rfl, h⟩⟩
  rw [hdefine, map_eq_self_iff]
  exact forall_congr' fun ap => forall_congr' fun hap =>
    readBack_eq_iff (h d hd ap hap)

/-- yaml-cpp on one node and its text. -/
def yamlOn (node : YamlNode) (text : Bytes) : YamlCpp where
  emit _ := text
  load _ := node
  asString
    | .scalar text => some text
    | _ => none
  asString_scalar _ := rfl

/-- The logger "root" with one appender. -/
def rootWith (ap : LogAppenderDefine) : LogDefines :=
  LogIniter.only ⟨ascii "root", .info, [], [ap]⟩

/-- A file appender without a level of its own. -/
theorem define_round_trip_iff_file :
    let s := rootWith ⟨1, .unknow, ascii "%m%n", ascii "a.txt"⟩
    let y := yamlOn (setNode s)
      (ascii "- name: root\n  level: INFO\n  appenders:\n    - type: FileLog\n"
        ++ ascii "      file: a.txt\n      formatter: \"%m%n\"")
    fromString y (toString y s) = some s :=
  (define_round_trip_iff _ _ (by decide) rfl).mpr (by decide)

/-- The level and the formatter of a console appender are not read. -/
theorem console_appender_lost :
    let s := rootWith ⟨2, .error, ascii "%m%n", []⟩
    let y := yamlOn (setNode s)
      (ascii
        "- name: root\n  level: INFO\n  appenders:\n    - type: ConsoleLog\n"
        ++ ascii "      level: ERROR\n      formatter: \"%m%n\"")
    fromString y (toString y s) ≠ some s := by
  decide

end LexicalCast

end TinyServer
