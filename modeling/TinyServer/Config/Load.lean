/-
`Config::LoadFromYaml` (config.cpp).

# Trees

A `YamlTree` is what `YAML::Node` is for `LoadFromYaml`: the keys of a
map are nodes too, and `Scalar()` of what is not a scalar is empty. The
text of a node that is not a scalar is what the emitter writes, which is
a parameter.

# Variables

Every registered variable is an object of its own with its own type. A
`ConfigObject` has `FromStr`, where an exception is `none`, the value
with its callbacks, and the callback invocations so far. A
name that is registered has passed the test in `Lookup`.
-/
import TinyServer.Config.Basic
import TinyServer.Config.Registry

namespace TinyServer

open Http (Bytes toLower ascii)

-- ======================================================================= trees

/-- `YAML::Node`. -/
inductive YamlTree
  | null
  | scalar (text : Bytes)
  | seq (nodes : List YamlTree)
  | map (entries : List (YamlTree × YamlTree))

/-- `Scalar`. -/
def YamlTree.text : YamlTree → Bytes
  | scalar text => text
  | _ => []

/-- `abcdefghijklmnopqrstuvwxyzABCDEFGHIJKLMNOPQRSTUVWXYZ._0123456789`. -/
def isMemberChar (b : UInt8) : Bool := isNameChar b || (65 ≤ b && b ≤ 90)

/-- The name of a member of the node with this name. -/
def memberName (pre key : Bytes) : Bytes :=
  if pre = [] then key else pre ++ ascii "." ++ key

mutual

/-- `ListAllMember`. -/
def listAllMember (pre : Bytes) (node : YamlTree) : List (Bytes × YamlTree) :=
  if pre.any fun b => !isMemberChar b then []
  else (pre, node) ::
    match node with
    | .map entries => listEntries pre entries
    | _ => []

/-- The loop over the entries of a map. -/
def listEntries (pre : Bytes) :
    List (YamlTree × YamlTree) → List (Bytes × YamlTree)
  | [] => []
  | (first, second) :: entries =>
      listAllMember (memberName pre first.text) second
        ++ listEntries pre entries

end

-- =================================================================== variables

/-- A `ConfigVar<T, FromStr>`. -/
structure ConfigObject where
  T : Type
  eq : DecidableEq T
  fromStr : Bytes → Option T
  run : ConfigRun T

namespace ConfigObject

instance (c : ConfigObject) : DecidableEq c.T := c.eq

/-- `fromString`: an exception of `FromStr` is caught. -/
def fromString (c : ConfigObject) (val : Bytes) : ConfigObject :=
  match c.fromStr val with
  | some value => { c with run := c.run.setValue value }
  | none => c

end ConfigObject

/-- `s_datas`, with the variables themselves. -/
structure ConfigObjects where
  datas : Bytes → Option ConfigObject
  names : ∀ k c, datas k = some c → k.all isNameChar = true

namespace ConfigObjects

/-- The variable `key`, if there is one, changes. -/
def modify (s : ConfigObjects) (key : Bytes)
    (f : ConfigObject → ConfigObject) : ConfigObjects where
  datas n := if n = key then (s.datas n).map f else s.datas n
  names := by
    intro n c hc
    have hsome : ∃ d, s.datas n = some d := by
      split at hc
      next =>
          obtain ⟨d, hd, -⟩ := Option.map_eq_some_iff.mp hc
          exact ⟨d, hd⟩
      next => exact ⟨c, hc⟩
    obtain ⟨d, hd⟩ := hsome
    exact s.names n d hd

/-- `Scalar()` of a scalar, and else what is written to a stream. -/
def textOf (emit : YamlTree → Bytes) : YamlTree → Bytes
  | .scalar text => text
  | node => emit node

/-- The body of the loop in `LoadFromYaml`. -/
def apply (emit : YamlTree → Bytes) (s : ConfigObjects)
    (item : Bytes × YamlTree) : ConfigObjects :=
  if item.1 = [] then s
  else s.modify (item.1.map toLower) (·.fromString (textOf emit item.2))

/-- `Config::LoadFromYaml(root)`. -/
def loadFromYaml (emit : YamlTree → Bytes) (s : ConfigObjects)
    (root : YamlTree) : ConfigObjects :=
  (listAllMember [] root).foldl (apply emit) s

end ConfigObjects

end TinyServer
