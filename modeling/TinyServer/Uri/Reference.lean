/-
URI references and their components, after RFC 3986.

`Reference.split` cuts a text at the first `:` of a scheme, at `//`, at
`?` and at `#`, and an authority at `@` and at the `:` of the port.
`Reference.toBytes` puts the components together again with their
separators. A component may be missing, which is not the same as empty.
Every text is cut into components that make it up again (`toBytes_split`).
-/
import TinyServer.Http.Basic
import TinyServer.Lib.Cut

namespace TinyServer

open Lib
open Http (Bytes)

/-- The parts of an authority. -/
structure Authority where
  userinfo : Option Bytes
  host : Bytes
  port : Option Bytes
  deriving DecidableEq, Repr

/-- The components of a reference. -/
structure Reference where
  scheme : Option Bytes
  authority : Option Authority
  path : Bytes
  query : Option Bytes
  fragment : Option Bytes
  deriving DecidableEq, Repr

/-- A component in front of a separator. -/
def before (sep : Bytes) : Option Bytes → Bytes
  | some t => t ++ sep
  | none => []

/-- A component behind a separator. -/
def behind (sep : Bytes) : Option Bytes → Bytes
  | some t => sep ++ t
  | none => []

def Authority.toBytes (a : Authority) : Bytes :=
  before [64] a.userinfo ++ a.host ++ behind [58] a.port

namespace Reference

/-- What stands behind the path. -/
def tail (query fragment : Option Bytes) : Bytes :=
  behind [63] query ++ behind [35] fragment

def toBytes (r : Reference) : Bytes :=
  before [58] r.scheme ++ behind [47, 47] (r.authority.map Authority.toBytes)
    ++ r.path ++ tail r.query r.fragment

end Reference

-- ===================================================================== cutting

/-- Neither `/` nor `?` nor `#`. -/
def notSlash (b : UInt8) : Bool := b ≠ 47 && b ≠ 63 && b ≠ 35

/-- Neither `?` nor `#`. -/
def notTail (b : UInt8) : Bool := b ≠ 63 && b ≠ 35

/-- The text in front of a `:` that no `/`, `?` or `#` precedes, and the
rest. -/
def cutScheme (s : Bytes) : Option Bytes × Bytes :=
  let t := s.takeWhile fun b => b ≠ 58 && notSlash b
  match s.dropWhile fun b => b ≠ 58 && notSlash b with
  | 58 :: rest => if t = [] then (none, s) else (some t, rest)
  | _ => (none, s)

/-- The text behind `//`, and the rest. -/
def cutAuthority (s : Bytes) : Option Bytes × Bytes :=
  match s with
  | 47 :: 47 :: rest =>
    (some (rest.takeWhile notSlash), rest.dropWhile notSlash)
  | _ => (none, s)

/-- The query and the fragment. -/
def cutTail (s : Bytes) : Option Bytes × Option Bytes :=
  match s with
  | 63 :: rest =>
      (some (rest.takeWhile (· ≠ 35)),
        match rest.dropWhile (· ≠ 35) with
        | _ :: t => some t
        | [] => none)
  | _ :: t => (none, some t)
  | [] => (none, none)

/-- User information, if there is an `@`, and the rest. -/
def cutUserinfo (s : Bytes) : Option Bytes × Bytes :=
  match s.dropWhile (· ≠ 64) with
  | _ :: rest => (some (s.takeWhile (· ≠ 64)), rest)
  | [] => (none, s)

/-- The host: up to a `:`, which does not count between brackets. -/
def cutHost (s : Bytes) : Bytes :=
  if s.head? = some 91 then
    s.takeWhile (· ≠ 93) ++ (s.dropWhile (· ≠ 93)).takeWhile (· ≠ 58)
  else s.takeWhile (· ≠ 58)

def cutPort (s : Bytes) : Option Bytes :=
  match s with
  | _ :: t => some t
  | [] => none

def Authority.split (s : Bytes) : Authority :=
  let (userinfo, rest) := cutUserinfo s
  ⟨userinfo, cutHost rest, cutPort (rest.drop (cutHost rest).length)⟩

def Reference.split (s : Bytes) : Reference :=
  let (scheme, s₁) := cutScheme s
  let (authority, s₂) := cutAuthority s₁
  let (query, fragment) := cutTail (s₂.dropWhile notTail)
  ⟨scheme, authority.map Authority.split, s₂.takeWhile notTail, query, fragment⟩

-- ============================================================ putting together

theorem cutScheme_eq (s : Bytes) :
    before [58] (cutScheme s).1 ++ (cutScheme s).2 = s := by
  unfold cutScheme
  dsimp only
  split
  next rest hrest =>
    split
    next => rfl
    next =>
      have hcut := (cut (fun b => b ≠ 58 && notSlash b) s).eq
      rw [hrest] at hcut
      exact (List.append_assoc ..).trans hcut.symm
  next => rfl

theorem cutAuthority_eq (s : Bytes) :
    behind [47, 47] (cutAuthority s).1 ++ (cutAuthority s).2 = s := by
  unfold cutAuthority
  split
  next rest =>
    exact congrArg (47 :: 47 :: ·) List.takeWhile_append_dropWhile
  next => rfl

/-- What is behind a path begins with `?` or `#`, if there is anything. -/
theorem cutTail_eq {s : Bytes} (h : ∀ b bs, s = b :: bs → notTail b = false) :
    Reference.tail (cutTail s).1 (cutTail s).2 = s := by
  unfold cutTail
  split
  next rest =>
    have hcut := cut (· ≠ 35) rest
    dsimp only
    split
    next b t ht =>
      have hb : b = 35 := by simpa using hcut.stop b t ht
      rw [ht, hb] at hcut
      exact congrArg (63 :: ·) hcut.eq.symm
    next ht =>
      rw [ht] at hcut
      exact congrArg (63 :: ·) hcut.eq.symm
  next b t hne =>
    have hb : b = 35 := by
      have hb := h b t rfl
      unfold notTail at hb
      by_contra hne'
      exact hne (by simpa [hne'] using hb)
    rw [hb]
    rfl
  next => rfl

theorem cutUserinfo_eq (s : Bytes) :
    before [64] (cutUserinfo s).1 ++ (cutUserinfo s).2 = s := by
  have hcut := cut (· ≠ 64) s
  unfold cutUserinfo
  split
  next b rest hrest =>
    have hb : b = 64 := by simpa using hcut.stop b rest hrest
    rw [hrest, hb] at hcut
    exact (List.append_assoc ..).trans hcut.eq.symm
  next => rfl

/-- The host ends at the end or in front of a `:`. -/
theorem cutHost_prefix (s : Bytes) : ∃ rest, s = cutHost s ++ rest
    ∧ ∀ b bs, rest = b :: bs → b = 58 := by
  have hcolon : ∀ (r : Bytes) (b : UInt8) (bs : Bytes),
      r.dropWhile (· ≠ 58) = b :: bs → b = 58 := fun r b bs h => by
    simpa using (cut (· ≠ 58) r).stop b bs h
  unfold cutHost
  split
  · refine ⟨(s.dropWhile (· ≠ 93)).dropWhile (· ≠ 58), ?_, hcolon _⟩
    rw [List.append_assoc, List.takeWhile_append_dropWhile,
      List.takeWhile_append_dropWhile]
  · exact ⟨s.dropWhile (· ≠ 58), List.takeWhile_append_dropWhile.symm,
      hcolon s⟩

theorem cutHost_eq (s : Bytes) :
    cutHost s ++ behind [58] (cutPort (s.drop (cutHost s).length)) = s := by
  obtain ⟨rest, hs, hcolon⟩ := cutHost_prefix s
  rw [drop_of_append hs]
  refine Eq.trans ?_ hs.symm
  cases hrest : rest with
  | nil => rfl
  | cons b bs =>
      rw [hcolon b bs hrest]
      rfl

theorem Authority.toBytes_split (s : Bytes) :
    (Authority.split s).toBytes = s := by
  unfold Authority.split Authority.toBytes
  dsimp only
  rw [List.append_assoc, cutHost_eq, cutUserinfo_eq]

/-- The components make up the text. -/
theorem Reference.toBytes_split (s : Bytes) :
    (Reference.split s).toBytes = s := by
  have hauth : ∀ a : Option Bytes,
      (a.map Authority.split).map Authority.toBytes = a := by
    intro a
    cases a with
    | none => rfl
    | some a => exact congrArg some (Authority.toBytes_split a)
  unfold Reference.split Reference.toBytes
  dsimp only
  rw [hauth, cutTail_eq (cut notTail _).stop, List.append_assoc,
    List.takeWhile_append_dropWhile, List.append_assoc, cutAuthority_eq,
    cutScheme_eq]

end TinyServer
