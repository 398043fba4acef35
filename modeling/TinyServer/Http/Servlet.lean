/-
The dispatch of servlets (servlet.h, servlet.cpp).

`Ref<Servlet>` is none where it is null. The object is one that the
program made, the `FunctionServlet` that wraps a callback, or the
`NotFountServlet` that a dispatch starts with. `m_datas` is an
`std::unordered_map`, of which only single keys are looked at; `m_globs`
is a vector in its order. Each call holds `m_mutex` from its first line
to its last, but for `setDefault` and `getDefault`.

`fnmatch` is a parameter: it gets the C strings and the flags, and 0 is a
match.
-/
import Mathlib.Data.List.AList
import TinyServer.Http.Basic
import TinyServer.Lib.LastSet

namespace TinyServer.Http

open Lib

/-- The classes under `Servlet`: `O` are the servlets of the program, `C`
the callbacks. -/
inductive Servlet (O C : Type)
  | notFount
  | function (cb : C)
  | object (o : O)
  deriving DecidableEq, Repr

/-- `Ref<Servlet>`. -/
abbrev ServletRef (O C : Type) := Option (Servlet O C)

/-- `ServletDispatch`. -/
structure ServletDispatch (O C : Type) where
  datas : AList fun _ : Bytes => ServletRef O C
  globs : List (Bytes × ServletRef O C)
  default : ServletRef O C

namespace ServletDispatch

variable {O C : Type}

/-- `ServletDispatch()`. -/
def new : ServletDispatch O C := ⟨∅, [], some .notFount⟩

/-- `addServlet(uri, slt)`. -/
def addServlet (d : ServletDispatch O C) (uri : Bytes)
    (slt : ServletRef O C) : ServletDispatch O C :=
  { d with datas := d.datas.insert uri slt }

/-- `addServlet(uri, cb)`. -/
def addServletFunction (d : ServletDispatch O C) (uri : Bytes) (cb : C) :
    ServletDispatch O C :=
  { d with datas := d.datas.insert uri (some (.function cb)) }

/-- The loop of `addGlobServlet` and `delGlobServlet`: erase the first
pair with the pattern and break. -/
def eraseGlob (globs : List (Bytes × ServletRef O C)) (uri : Bytes) :
    List (Bytes × ServletRef O C) :=
  globs.eraseP fun glob => glob.1 = uri

/-- `addGlobServlet(uri, slt)`. -/
def addGlobServlet (d : ServletDispatch O C) (uri : Bytes)
    (slt : ServletRef O C) : ServletDispatch O C :=
  { d with globs := eraseGlob d.globs uri ++ [(uri, slt)] }

/-- `addGlobServlet(uri, cb)`. -/
def addGlobServletFunction (d : ServletDispatch O C) (uri : Bytes) (cb : C) :
    ServletDispatch O C :=
  d.addGlobServlet uri (some (.function cb))

/-- `delServlet`. -/
def delServlet (d : ServletDispatch O C) (uri : Bytes) :
    ServletDispatch O C :=
  { d with datas := d.datas.erase uri }

/-- `delGlobServlet`. -/
def delGlobServlet (d : ServletDispatch O C) (uri : Bytes) :
    ServletDispatch O C :=
  { d with globs := eraseGlob d.globs uri }

/-- `setDefault`. -/
def setDefault (d : ServletDispatch O C) (v : ServletRef O C) :
    ServletDispatch O C :=
  { d with default := v }

/-- `getServlet`. -/
def getServlet (d : ServletDispatch O C) (uri : Bytes) : ServletRef O C :=
  match d.datas.lookup uri with
  | none => none
  | some slt => slt

/-- `getGlobServlet`. -/
def getGlobServlet (d : ServletDispatch O C) (uri : Bytes) :
    ServletRef O C :=
  match d.globs.find? fun glob => glob.1 = uri with
  | some glob => glob.2
  | none => none

/-- `getMatchedServlet`. -/
def getMatchedServlet (fnmatch : Bytes → Bytes → Nat → Int)
    (d : ServletDispatch O C) (uri : Bytes) : ServletRef O C :=
  match d.datas.lookup uri with
  | some slt => slt
  | none =>
      match d.globs.find? fun glob =>
        fnmatch (cStr glob.1) (cStr uri) 0 = 0 with
      | some glob => glob.2
      | none => d.default

end ServletDispatch

-- ============================================================ registrations

/-- The calls that change a dispatch. -/
inductive DispatchCall (O C : Type)
  | addServlet (uri : Bytes) (slt : ServletRef O C)
  | addServletFunction (uri : Bytes) (cb : C)
  | addGlobServlet (uri : Bytes) (slt : ServletRef O C)
  | addGlobServletFunction (uri : Bytes) (cb : C)
  | delServlet (uri : Bytes)
  | delGlobServlet (uri : Bytes)
  | setDefault (v : ServletRef O C)
  deriving DecidableEq, Repr

namespace DispatchCall

variable {O C : Type}

/-- What the call does to the servlet under exactly `p`. -/
def exactly (p : Bytes) :
    DispatchCall O C → Option (Option (ServletRef O C))
  | addServlet uri slt => if uri = p then some (some slt) else none
  | addServletFunction uri cb =>
      if uri = p then some (some (some (.function cb))) else none
  | delServlet uri => if uri = p then some none else none
  | _ => none

/-- What the call does to the servlet under the pattern `g`. -/
def glob (g : Bytes) : DispatchCall O C → Option (Option (ServletRef O C))
  | addGlobServlet uri slt => if uri = g then some (some slt) else none
  | addGlobServletFunction uri cb =>
      if uri = g then some (some (some (.function cb))) else none
  | delGlobServlet uri => if uri = g then some none else none
  | _ => none

/-- What the call does to the default. -/
def default : DispatchCall O C → Option (Option (ServletRef O C))
  | setDefault v => some (some v)
  | _ => none

end DispatchCall

/-- The call on a dispatch. -/
def ServletDispatch.call {O C : Type} (d : ServletDispatch O C) :
    DispatchCall O C → ServletDispatch O C
  | .addServlet uri slt => d.addServlet uri slt
  | .addServletFunction uri cb => d.addServletFunction uri cb
  | .addGlobServlet uri slt => d.addGlobServlet uri slt
  | .addGlobServletFunction uri cb => d.addGlobServletFunction uri cb
  | .delServlet uri => d.delServlet uri
  | .delGlobServlet uri => d.delGlobServlet uri
  | .setDefault v => d.setDefault v

/-- Calls on a new dispatch, one after the other. -/
def ServletDispatch.calls {O C : Type} (cs : List (DispatchCall O C)) :
    ServletDispatch O C :=
  cs.foldl ServletDispatch.call .new

/-- The servlet `slt` of the pattern `g`, registered at `i`, is in charge
of `p`: it matches, and no pattern registered before it does. -/
def InCharge {O C : Type} (fnmatch : Bytes → Bytes → Nat → Int)
    (cs : List (DispatchCall O C)) (p : Bytes) (slt : ServletRef O C) : Prop :=
  ∃ i g, SetAt (DispatchCall.glob g) cs i slt
    ∧ fnmatch (cStr g) (cStr p) 0 = 0
    ∧ ∀ j g' slt', j < i → SetAt (DispatchCall.glob g') cs j slt' →
      fnmatch (cStr g') (cStr p) 0 ≠ 0

/-- The servlet for a path after the calls: the one under exactly the
path, else that of the pattern registered the longest ago of those that
match, else the default. -/
def Dispatched {O C : Type} (fnmatch : Bytes → Bytes → Nat → Int)
    (cs : List (DispatchCall O C)) (p : Bytes) (slt : ServletRef O C) : Prop :=
  LastSet (DispatchCall.exactly p) cs slt
    ∨ (∀ s, ¬ LastSet (DispatchCall.exactly p) cs s)
      ∧ (InCharge fnmatch cs p slt
        ∨ (∀ i g s, SetAt (DispatchCall.glob g) cs i s →
            fnmatch (cStr g) (cStr p) 0 ≠ 0)
          ∧ (LastSet DispatchCall.default cs slt
            ∨ (∀ c ∈ cs, c.default = none) ∧ slt = some .notFount))

end TinyServer.Http
