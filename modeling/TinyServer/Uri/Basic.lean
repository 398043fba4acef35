/-
`Uri` (uri.h, uri.rl, uri.cpp).

`mark` is an offset into the text, or null. A `std::string` made from a
null pointer and a length that is not zero throws `logic_error`, and
`atoi` of a null pointer ends the program: both are `Thrown`.
-/
import Mathlib.Algebra.Group.Int.Defs
import TinyServer.Http.ResponseParser
import TinyServer.Lib.Overlay
import TinyServer.Uri.Table

namespace TinyServer

open Lib
open Http (Bytes ascii toDecimal strtol toInt)

/-- `Uri`. -/
structure Uri where
  scheme : Bytes
  userinfo : Bytes
  host : Bytes
  path : Bytes
  query : Bytes
  fragment : Bytes
  port : Nat
  deriving DecidableEq, Repr

namespace Uri

/-- `Uri()`. -/
def new : Uri := ⟨[], [], [], [], [], [], 0⟩

-- ===================================================================== parsing

/-- A null `mark` was used. -/
inductive Thrown
  | nullMark
  deriving DecidableEq, Repr

/-- `mark`, and the object under construction. -/
structure Regs where
  mark : Option Nat
  uri : Uri
  deriving DecidableEq, Repr

/-- `std::string(mark, fpc - mark)`. -/
def text (s : Bytes) (mark : Option Nat) (p : Nat) : Except Thrown Bytes :=
  match mark with
  | some m => .ok (slice s m (p - m))
  | none => .error .nullMark

/-- `setPort(atoi(mark))`: an `int` stored in a `uint32_t`. -/
def atoiPort (s : Bytes) : Nat := (toInt (strtol 10 s) % 2 ^ 32).toNat

/-- The action `a` at offset `p` of the text. -/
def perform (s : Bytes) (p : Nat) (a : UriAction) (x : Regs) :
    Except Thrown Regs :=
  match a with
  | .mark => .ok { x with mark := some p }
  | .saveScheme => do
      pure ⟨none, { x.uri with scheme := ← text s x.mark p }⟩
  | .savePort =>
      match x.mark with
      | some m =>
          if p ≠ m then .ok ⟨none, { x.uri with port := atoiPort (s.drop m) }⟩
          else .ok ⟨none, x.uri⟩
      | none => .error .nullMark
  | .saveUserinfo => do
      if x.mark.isSome then
        pure ⟨none, { x.uri with userinfo := ← text s x.mark p }⟩
      else pure ⟨none, x.uri⟩
  | .saveHost => do
      if x.mark.isSome then
        pure { x with uri := { x.uri with host := ← text s x.mark p } }
      else pure x
  | .savePath => do
      pure ⟨none, { x.uri with path := ← text s x.mark p }⟩
  | .saveQuery => do
      pure ⟨none, { x.uri with query := ← text s x.mark p }⟩
  | .saveFragment => do
      pure ⟨none, { x.uri with fragment := ← text s x.mark p }⟩

/-- The actions of a list at offset `p`. -/
def performAll (s : Bytes) (p : Nat) (acts : List UriAction) (x : Regs) :
    Except Thrown Regs :=
  acts.foldlM (fun x a => perform s p a x) x

/-- `Uri::Create`; `none` is a null pointer. No action leaves the loop. -/
def create (s : Bytes) : Except Thrown (Option Uri) := do
  let stop ← drive UriTable.transition (fun _ => false) (perform s) 0 s
    UriTable.start ⟨none, .new⟩
  if stop.halt = .failed then pure none
  else
    let x ← performAll s stop.pos (UriTable.eofActions stop.cs) stop.regs
    pure (if UriTable.firstFinal ≤ stop.cs then some x.uri else none)

-- ==================================================================== printing

/-- `getPort`, as an `int32_t`. -/
def getPort (u : Uri) : Int :=
  if u.port ≠ 0 then toInt u.port
  else if u.scheme = ascii "http" then 80
  else if u.scheme = ascii "https" then 443
  else toInt u.port

/-- `isDefaultPort`. -/
def isDefaultPort (u : Uri) : Bool :=
  if u.port = 0 then true
  else if u.scheme = ascii "http" then u.port = 80
  else if u.scheme = ascii "https" then u.port = 443
  else false

/-- `getPath`. -/
def getPath (u : Uri) : Bytes := if u.path = [] then ascii "/" else u.path

/-- `Uri::dump`, `toString`. -/
def dump (u : Uri) : Bytes :=
  u.scheme ++ ascii "://" ++ u.userinfo
    ++ (if u.userinfo = [] then [] else ascii "@")
    ++ u.host
    ++ (if u.isDefaultPort then [] else ascii ":" ++ toDecimal u.port)
    ++ ascii "/" ++ u.getPath
    ++ (if u.query = [] then [] else ascii "?") ++ u.query
    ++ (if u.fragment = [] then [] else ascii "#") ++ u.fragment

end Uri

end TinyServer
