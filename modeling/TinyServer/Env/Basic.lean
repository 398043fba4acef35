/-
`Env` (env.cpp): the arguments of the command line.

`m_args` is a function. The arguments are C strings, so there is no NUL in
them, and the first byte of one that is empty is no `-`; `program` is
`argv[0]`, and `path` what `readlink` has to say about `/proc/<pid>/exe`.
The help texts, and the variables of the environment, are left out.
-/
import Mathlib.Data.List.DropRight
import Mathlib.Logic.Function.Basic
import TinyServer.Http.Basic

namespace TinyServer

open Http (Bytes)

/-- `Env`. -/
structure Env where
  args : Bytes → Option Bytes
  program : Bytes
  exe : Bytes
  cwd : Bytes

namespace Env

/-- `Env::add`. -/
def add (key value : Bytes) (env : Env) : Env :=
  { env with args := Function.update env.args key (some value) }

/-- `Env::has`, which does not look at its second argument. -/
def has (env : Env) (key : Bytes) : Bool := (env.args key).isSome

/-- `Env::get`. -/
def get (env : Env) (key defaultValue : Bytes) : Bytes :=
  (env.args key).getD defaultValue

/-- `s.substr(0, s.find_last_of('/'))`. -/
def directory (s : Bytes) : Bytes :=
  if 47 ∈ s then (s.rdropWhile (· ≠ 47)).dropLast else s

/-- `if (now_key) add(now_key, "")`. -/
def flush (nowKey : Option Bytes) (env : Env) : Env :=
  match nowKey with
  | some key => env.add key []
  | none => env

/-- The loop of `Env::init`, and what is behind it. -/
def initLoop (nowKey : Option Bytes) : List Bytes → Env → Bool × Env
  | [], env => (true, env.flush nowKey)
  | arg :: rest, env =>
      if arg.head? = some 45 then
        if 1 < arg.length then initLoop (some arg.tail) rest (env.flush nowKey)
        else (false, env)
      else
        match nowKey with
        | some key => initLoop none rest (env.add key arg)
        | none => (false, env)

/-- `Env::init`. -/
def init (path program : Bytes) (args : List Bytes) (env : Env) : Bool × Env :=
  initLoop none args { env with exe := path, cwd := directory path ++ [47],
                                program := program }

end Env

end TinyServer
