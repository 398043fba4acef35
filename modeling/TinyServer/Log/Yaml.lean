/-
`LexicalCast` between text and `std::set<LogDefine>` (config.h).

# The library

yaml-cpp is a parameter: `YamlCpp` has the emitter, the loader and the
conversion of a node to a string. The trees are values here. `field` is
`operator[]` with a string and `items` the nodes from `node[0]` on;
`operator[]` throws on a scalar and is not defined on what has no such
child. A map whose keys are numbers is not indexed by them.

# Reading

`none` is an exception. An entry that is left out by `continue` is
`some none`.
-/
import TinyServer.Log.Basic

namespace TinyServer

open Http (Bytes ascii)

-- ======================================================================= trees

/-- `YAML::Node`. -/
inductive YamlNode
  | null
  | scalar (text : Bytes)
  | seq (nodes : List YamlNode)
  | map (entries : List (Bytes × YamlNode))

namespace YamlNode

/-- A node to which these entries have been assigned one after the other. -/
def ofEntries (entries : List (Bytes × YamlNode)) : YamlNode :=
  if entries.isEmpty then null else map entries

/-- A node to which these nodes have been pushed. -/
def ofNodes (nodes : List YamlNode) : YamlNode :=
  if nodes.isEmpty then null else seq nodes

def items : YamlNode → List YamlNode
  | seq nodes => nodes
  | _ => []

def field (n : YamlNode) (key : Bytes) : Option (Option YamlNode) :=
  match n with
  | scalar _ => none
  | map entries => some (entries.lookup key)
  | _ => some none

end YamlNode

/-- What is used of yaml-cpp. -/
structure YamlCpp where
  emit : YamlNode → Bytes
  load : Bytes → YamlNode
  asString : YamlNode → Option Bytes
  asString_scalar : ∀ text, asString (.scalar text) = some text

-- ======================================================================= sets

namespace LogDefines

def insertItem (d : LogDefine) : List LogDefine → List LogDefine
  | [] => [d]
  | e :: es =>
      if d.name < e.name then d :: e :: es
      else if e.name < d.name then e :: insertItem d es
      else e :: es

theorem mem_insertItem {d x : LogDefine} {es : List LogDefine}
    (h : x ∈ insertItem d es) : x = d ∨ x ∈ es := by
  induction es with
  | nil => exact .inl (List.mem_singleton.mp h)
  | cons e es ih =>
      unfold insertItem at h
      split at h
      next => exact List.mem_cons.mp h
      next =>
        split at h
        next =>
          rcases List.mem_cons.mp h with rfl | h
          · exact .inr (List.mem_cons_self ..)
          · exact (ih h).imp_right (List.mem_cons_of_mem e)
        next => exact .inr h

theorem insertItem_ascending {d : LogDefine} {es : List LogDefine}
    (h : es.Pairwise fun a b => a.name < b.name) :
    (insertItem d es).Pairwise fun a b => a.name < b.name := by
  induction es with
  | nil => exact List.pairwise_singleton ..
  | cons e es ih =>
      obtain ⟨he, hes⟩ := List.pairwise_cons.mp h
      unfold insertItem
      split
      next hlt =>
        refine List.pairwise_cons.mpr ⟨fun x hx => ?_, h⟩
        rcases List.mem_cons.mp hx with rfl | hx
        · exact hlt
        · exact List.lt_trans hlt (he x hx)
      next =>
        split
        next hlt =>
          refine List.pairwise_cons.mpr ⟨fun x hx => ?_, ih hes⟩
          rcases mem_insertItem hx with rfl | hx
          · exact hlt
          · exact he x hx
        next => exact h

/-- `insert`: a name that is there already stays as it is. -/
def insert (s : LogDefines) (d : LogDefine) : LogDefines :=
  ⟨insertItem d s.items, insertItem_ascending s.ascending⟩

end LogDefines

-- ===================================================================== writing

namespace LexicalCast

/-- `level` is written unless it is `UNKNOW`. -/
def levelEntry (level : LogLevel) : List (Bytes × YamlNode) :=
  if level ≠ .unknow then [(ascii "level", .scalar level.toBytes)] else []

/-- `formatter` is written unless it is empty. -/
def formatterEntry (formatter : Bytes) : List (Bytes × YamlNode) :=
  if formatter ≠ [] then [(ascii "formatter", .scalar formatter)] else []

/-- `type`, and the `file` of a file appender. -/
def typeEntries (i : LogAppenderDefine) : List (Bytes × YamlNode) :=
  if i.type = 1 then
    [(ascii "type", .scalar (ascii "FileLog")), (ascii "file", .scalar i.file)]
  else if i.type = 2 then [(ascii "type", .scalar (ascii "ConsoleLog"))]
  else []

/-- `na`, the node of an appender. -/
def appenderNode (i : LogAppenderDefine) : YamlNode :=
  .ofEntries (typeEntries i ++ levelEntry i.level ++ formatterEntry i.formatter)

/-- `appenders` comes with the first push. -/
def appendersEntry (appenders : List LogAppenderDefine) :
    List (Bytes × YamlNode) :=
  if appenders ≠ [] then
    [(ascii "appenders", .ofNodes (appenders.map appenderNode))]
  else []

/-- `n`, the node of a definition. -/
def defineNode (item : LogDefine) : YamlNode :=
  .ofEntries ([(ascii "name", .scalar item.name)] ++ levelEntry item.level
    ++ formatterEntry item.formatter ++ appendersEntry item.appenders)

/-- `node`. -/
def setNode (vec : LogDefines) : YamlNode :=
  .ofNodes (vec.items.map defineNode)

/-- `LexicalCast<std::set<LogDefine>, std::string>`. -/
def toString (y : YamlCpp) (vec : LogDefines) : Bytes := y.emit (setNode vec)

-- ===================================================================== reading

/-- A field that may be missing; `dflt` is what the variable has then. -/
def optional (y : YamlCpp) (n : YamlNode) (key dflt : Bytes) :
    Option Bytes := do
  match ← n.field key with
  | some v => y.asString v
  | none => pure dflt

/-- The body of the loop over the appenders. -/
def readAppender (y : YamlCpp) (ap : YamlNode) :
    Option (Option LogAppenderDefine) := do
  match ← ap.field (ascii "type") with
  | none => pure none
  | some v =>
      let type ← y.asString v
      if type = ascii "FileLog" then
        match ← ap.field (ascii "file") with
        | none => pure none
        | some v =>
            let file ← y.asString v
            let formatter ← optional y ap (ascii "formatter") []
            pure (some ⟨1, .unknow, formatter, file⟩)
      else if type = ascii "ConsoleLog" then pure (some ⟨2, .unknow, [], []⟩)
      else pure none

/-- The loop over the appenders. -/
def readAppenders (y : YamlCpp) (aps : List YamlNode) :
    Option (List LogAppenderDefine) := do
  pure ((← aps.mapM (readAppender y)).filterMap id)

/-- The body of the loop over the definitions. -/
def readDefine (y : YamlCpp) (n : YamlNode) : Option (Option LogDefine) := do
  match ← n.field (ascii "name") with
  | none => pure none
  | some v =>
      let name ← y.asString v
      let level ← optional y n (ascii "level") []
      let formatter ← optional y n (ascii "formatter") []
      let appenders ←
        match ← n.field (ascii "appenders") with
        | some v => readAppenders y v.items
        | none => pure []
      pure (some ⟨name, .fromString level, formatter, appenders⟩)

/-- `LexicalCast<std::string, std::set<LogDefine>>`. -/
def fromString (y : YamlCpp) (val : Bytes) : Option LogDefines := do
  let lds ← (y.load val).items.mapM (readDefine y)
  pure ((lds.filterMap id).foldl LogDefines.insert .empty)

end LexicalCast

end TinyServer
