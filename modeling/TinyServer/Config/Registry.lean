/-
The registered variables of `Config` (config.h, config.cpp).

A variable is known by its address; of the object only the name and the
type are kept, which are what a lookup depends on. `Ty` stands for the
types `T` that there are variables of. The map `s_datas` is the function
from names to variables. Nothing is ever removed from it.
-/
import TinyServer.Http.Basic

namespace TinyServer

open Http (Bytes toLower)

variable {Ty : Type}

/-- A `ConfigVar<T>` with its `m_name`. -/
structure ConfigVarRef (Ty : Type) where
  addr : Nat
  name : Bytes
  type : Ty
  deriving DecidableEq, Repr

/-- `s_datas`, and the address of the next variable. -/
structure ConfigDatas (Ty : Type) where
  datas : Bytes → Option (ConfigVarRef Ty)
  next : Nat

/-- What `Lookup` with a default value comes to: a variable, null for a
name that belongs to another type, or `std::invalid_argument`. -/
inductive LookupResult (Ty : Type)
  | var (v : ConfigVarRef Ty)
  | null
  | invalid
  deriving DecidableEq, Repr

/-- `abcdefghijklmnopqrstuvwxyz._0123456789`. -/
def isNameChar (b : UInt8) : Bool :=
  (97 ≤ b && b ≤ 122) || b = 46 || b = 95 || (48 ≤ b && b ≤ 57)

namespace ConfigDatas

/-- Nothing is registered. -/
def empty : ConfigDatas Ty := ⟨fun _ => none, 0⟩

/-- `ConfigVar<T>(name, default_value, description)` under `name`. The
constructor of `ConfigVarBase` lower-cases the name once more. -/
def register (s : ConfigDatas Ty) (type : Ty) (name : Bytes) :
    ConfigVarRef Ty × ConfigDatas Ty :=
  let config : ConfigVarRef Ty := ⟨s.next, name.map toLower, type⟩
  (config, {
    datas := fun n => if n = name then some config else s.datas n
    next := s.next + 1 })

/-- `Config::LookupBase(name)`. -/
def lookupBase (s : ConfigDatas Ty) (name : Bytes) :
    Option (ConfigVarRef Ty) :=
  s.datas name

variable [DecidableEq Ty]

/-- `std::dynamic_pointer_cast<ConfigVar<T>>`. -/
def pointerCast (type : Ty) (v : ConfigVarRef Ty) :
    Option (ConfigVarRef Ty) :=
  if v.type = type then some v else none

/-- `Config::Lookup<T>(n, default_value)`. -/
def lookupDefault (s : ConfigDatas Ty) (type : Ty) (n : Bytes) :
    LookupResult Ty × ConfigDatas Ty :=
  let name := n.map toLower
  match s.datas name with
  | some v =>
      match pointerCast type v with
      | some temp => (.var temp, s)
      | none => (.null, s)
  | none =>
      if name.any fun b => !isNameChar b then (.invalid, s)
      else
        let (config, s) := s.register type name
        (.var config, s)

/-- `Config::Lookup<T>(name)`. -/
def lookup (s : ConfigDatas Ty) (type : Ty) (name : Bytes) :
    Option (ConfigVarRef Ty) :=
  match s.datas name with
  | none => none
  | some v => pointerCast type v

/-- The variables after calls of `Lookup` with a default value. -/
def run (s : ConfigDatas Ty) (calls : List (Ty × Bytes)) : ConfigDatas Ty :=
  calls.foldl (fun s call => (s.lookupDefault call.1 call.2).2) s

end ConfigDatas

end TinyServer
