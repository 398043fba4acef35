/-
The regions of the machine of requests, and the texts of its tokens.

Between the action that starts a token and the one that stores it the
machine makes silent moves in a part of its own: a region. A text is a
token of a region when the machine goes over it in that way (`follow`).

# Paths

The path of a request is read in one of three places: behind the method,
behind the scheme of an absolute URI, and behind the `@` of a JSON
message (or the `<` of an XML one). `mirrors` gives, for a state of such
a region, the states in which the machine can be over the same bytes
behind a method. There are none where a `:` or a `[` is in the way.
-/
import TinyServer.Http.Reading

namespace TinyServer.Http

open Lib RequestTable

-- =================================================================== following

/-- The state after silent moves over a text. -/
def walk (relaxed : Bool) (cs : Nat) : Bytes → Option Nat
  | [] => some cs
  | b :: bs =>
      match transition relaxed cs b with
      | some (acts, t) => if acts = [] then walk relaxed t bs else none
      | none => none

/-- The state after a text whose first byte has the action `a`, and the
others none. -/
def follow (relaxed : Bool) (a : HttpAction) (cs : Nat) : Bytes → Option Nat
  | [] => some cs
  | b :: bs =>
      match transition relaxed cs b with
      | some (acts, t) => if acts = [a] then walk relaxed t bs else none
      | none => none

-- ===================================================================== regions

inductive Region
  | method
  | path
  | query
  | fragment
  | name
  /-- Behind the `:` of a field, before its value. -/
  | lead
  | value
  /-- Where no token is read that is looked at here. -/
  | rest
  deriving DecidableEq, Repr

def regionOf (cs : Nat) : Region :=
  if cs = 2 ∨ 175 ≤ cs ∧ cs ≤ 193 then .method
  else if cs = 14 ∨ cs = 18 then .name
  else if cs = 15 then .lead
  else if cs = 16 then .value
  else if 21 ≤ cs ∧ cs ≤ 23 then .fragment
  else if 30 ≤ cs ∧ cs ≤ 32 then .query
  else if cs = 19 ∨ 24 ≤ cs ∧ cs ≤ 28 ∨ 33 ≤ cs ∧ cs ≤ 173
      ∨ cs ∈ [194, 195, 198] ∨ 202 ≤ cs ∧ cs ≤ 347 then .path
  else .rest

-- ======================================================================= paths

/-- The first segment of a path behind a method; a `:` ends a scheme
there. -/
def firstSegment (cs : Nat) : Bool := cs ∈ [3, 19, 24, 25, 173]

/-- The states behind a method for a state in which a path is read. -/
def mirrors (cs : Nat) : List Nat :=
  if cs = 26 then [19, 26, 173]
  else if cs = 27 then [24, 27]
  else if cs = 28 then [25, 28]
  else if cs ≤ 173 then [cs]
  else if cs ∈ [198, 202] then [19]
  else if cs = 203 then [24]
  else if cs = 204 then [25]
  else if cs ∈ [206, 211, 215, 219] then [27]
  else if cs ∈ [207, 212, 216, 220] then [28]
  else if 205 ≤ cs ∧ cs ≤ 221 then [26]
  else []

/-- The states in which a path can end. -/
def pathEnds : List Nat :=
  [19, 26, 33, 34, 35, 38, 42, 43, 46, 61, 173, 195, 198, 202, 205, 208, 209,
    210, 213, 217, 218, 221, 236]

/-- The states in which a path behind a method can end. -/
def targetEnds : List Nat := [19, 26, 33, 34, 35, 38, 42, 43, 46, 61, 173]

/-- A path that means the same behind a method as where it was read: it
is not the name of an XML message, it has no `:` in front of its first
`/`, and no address in brackets behind the `@` of a JSON message. -/
structure PlainPath (t : Bytes) : Prop where
  not_xml : t.head? ≠ some 60
  colon : ∀ c e, t = c ++ 58 :: e → 47 ∈ c
  not_literal : t.head? = some 64 → 91 ∉ t

-- ======================================================================= jumps

section

variable (cs : Nat) (acts : List HttpAction) (t : Nat)

/-- A token starts. -/
def Enters (origins : List Nat) (a : HttpAction) : Prop :=
  cs ∈ origins ∧ acts = [a]

/-- A token goes on. -/
def Stays : Prop := regionOf cs = regionOf t ∧ acts = []

/-- Actions that store no token of a region. -/
def HttpAction.isQuiet : HttpAction → Bool
  | .mark | .startField | .httpVersion | .requestUri | .done | .xml | .json =>
      true
  | _ => false

/-- A token is stored, or none is at hand. -/
def Closes : Prop :=
  (acts.all HttpAction.isQuiet = true)
  ∨ (regionOf cs = .method ∧ acts = [.requestMethod])
  ∨ (cs ∈ pathEnds
    ∧ (acts = [.requestPath] ∨ acts = [.requestPath, .requestUri]))
  ∨ (acts = [.mark, .requestPath] ∨ acts = [.mark, .requestPath, .requestUri])
  ∨ (cs = 30 ∧ acts = [.queryString, .requestUri])
  ∨ acts = [.startQuery, .queryString, .requestUri]
  ∨ (cs = 21 ∧ acts = [.fragment])
  ∨ acts = [.mark, .fragment]
  ∨ (cs = 16 ∧ acts = [.writeValue])
  ∨ (cs = 15 ∧ acts = [.mark, .writeValue])

/-- What a jump into a state of a region can be. -/
def Jump : Region → Prop
  | .method => Enters cs acts [1] .mark ∨ Stays cs acts t
  | .path => Enters cs acts [1, 3, 174] .mark ∨ Stays cs acts t
  | .query => Enters cs acts [29] .startQuery ∨ Stays cs acts t
  | .fragment => Enters cs acts [20] .mark ∨ Stays cs acts t
  | .name => Enters cs acts [13] .startField ∨ Stays cs acts t
  | .lead => (cs ∈ [14, 18] ∧ acts = [.writeField]) ∨ (cs = 15 ∧ acts = [.mark])
  | .value => Enters cs acts [15] .mark ∨ Stays cs acts t
  | .rest => Closes cs acts

instance (origins : List Nat) (a : HttpAction) :
    Decidable (Enters cs acts origins a) :=
  inferInstanceAs (Decidable (_ ∧ _))

instance : Decidable (Stays cs acts t) := inferInstanceAs (Decidable (_ ∧ _))

instance : Decidable (Closes cs acts) := inferInstanceAs (Decidable (_ ∨ _))

instance (ρ : Region) : Decidable (Jump cs acts t ρ) :=
  match ρ with
  | .method | .path | .query | .fragment | .name | .lead | .value =>
      inferInstanceAs (Decidable (_ ∨ _))
  | .rest => inferInstanceAs (Decidable (Closes cs acts))

end

end TinyServer.Http
