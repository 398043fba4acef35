/-
When the stored components are those of the text.

`Faithful` says it of a text and an object. Among the accepted texts it
holds of those with the three properties of `Plain`, and of no others
(`create_faithful_iff`).
-/
import Mathlib.Algebra.Group.Nat.Defs
import TinyServer.Http.Proofs.Number
import TinyServer.Uri.Proofs.Stored

namespace TinyServer

open Lib
open Http (Bytes ascii toDecimal)

namespace Uri

variable {s t : Bytes} {b : UInt8} {u : Uri} {r : Reference}

/-- The user information of a reference. -/
def infoOf (r : Reference) : Option Bytes := r.authority.bind Authority.userinfo

/-- The number that is stored for a port. -/
def storedPort (r : Reference) : Nat :=
  match portOf r with
  | some p => if p = [] then 0
    else atoiPort (p ++ (r.path ++ Reference.tail r.query r.fragment))
  | none => 0

theorem withPort_eq {a : Authority} {v : Uri} (ha : r.authority = some a)
    (hv : v.port = 0) :
    withPort v (a.port.getD []) (r.path ++ Reference.tail r.query r.fragment)
      = { v with port := storedPort r } := by
  have hport : portOf r = a.port := by
    unfold portOf
    rw [ha]
    rfl
  unfold withPort storedPort
  rw [hport]
  cases a.port with
  | none => rw [Option.getD_none, if_pos rfl, ← hv]
  | some p =>
      rw [Option.getD_some]
      dsimp only
      split
      next => rw [← hv]
      next => rfl

/-- The object, component by component. -/
theorem stored_eq (r : Reference) : stored r =
    { scheme := r.scheme.getD []
      userinfo := ((infoOf r).map (storedInfo [])).getD []
      host := (r.authority.map Authority.host).getD []
      path := if r.scheme.isSome && r.authority.isSome then r.path else []
      query := r.query.getD []
      fragment := r.fragment.getD []
      port := storedPort r } := by
  unfold stored storedFrom infoOf
  cases ha : r.authority with
  | none =>
      have hport : storedPort r = 0 := by
        unfold storedPort portOf
        rw [ha]
        rfl
      rw [hport]
      cases r.scheme <;> rfl
  | some a =>
      have hport := @withPort_eq r a
      unfold withAuthority withHost
      dsimp only [Option.bind_some]
      cases a.userinfo <;> rw [hport ha rfl] <;> cases r.scheme <;> rfl

/-- What `Uri::Create` stores. -/
theorem create_stored (h : create s = .ok (some u)) :
    (∀ p, portOf (.split s) = some p → ∀ b ∈ p, classOf b = .digit)
      ∧ u = stored (.split s) :=
  run_stored (create_run h)

-- ======================================================================= ports

theorem classOf_digit : classOf b = .digit ↔ 48 ≤ b ∧ b ≤ 57 := by
  have hall : ∀ n < 256, (rowLookup classRanges n).getD .other = ByteClass.digit
      ↔ 48 ≤ n ∧ n ≤ 57 := by
    decide +kernel
  exact hall b.toNat b.toNat_lt

/-- What stands behind an authority does not begin with a digit. -/
theorem rooted_digit {path rest : Bytes} {q f : Option Bytes} (h : Rooted path)
    (hrest : rest = path ++ Reference.tail q f) :
    ∀ b bs, rest = b :: bs → ¬(48 ≤ b ∧ b ≤ 57) := by
  intro b bs hb
  rw [hrest] at hb
  rcases h with rfl | ⟨t, rfl⟩
  · cases q with
    | some t =>
        cases hb
        decide
    | none =>
        cases f with
        | some t =>
            cases hb
            decide
        | none => nomatch hb
  · cases hb
    decide

theorem split_rooted (h : (Reference.split s).authority.isSome = true) :
    Rooted (Reference.split s).path := by
  unfold Reference.split at h ⊢
  dsimp only at h ⊢
  rcases cutAuthority_cases (cutScheme s).2 with
    ⟨t, rest, hcut, -, -, hrest⟩ | ⟨hcut, -⟩
  · rw [hcut]
    exact rooted_takeWhile hrest
  · rw [hcut] at h
    nomatch h

theorem authority_of_port {p : Bytes} (h : portOf r = some p) :
    r.authority.isSome = true := by
  unfold portOf at h
  cases ha : r.authority with
  | none =>
      rw [ha] at h
      nomatch h
  | some a => rfl

/-- `atoi` of a number in front of a path. -/
theorem atoiPort_toDecimal {n : Nat} {rest : Bytes} (hn : n < 2 ^ 32)
    (hrest : ∀ b bs, rest = b :: bs → ¬(48 ≤ b ∧ b ≤ 57)) :
    atoiPort (toDecimal n ++ rest) = n := by
  unfold atoiPort Http.toInt
  rw [Http.strtol_toDecimal (by omega) hrest]
  omega

theorem atoiPort_lt (s : Bytes) : atoiPort s < 2 ^ 32 := by
  unfold atoiPort
  omega

/-- A port that is a number below `2 ^ 32`, in the usual form. -/
def PlainPort (p : Bytes) : Prop := p = [] ∨ ∃ n < 2 ^ 32, p = toDecimal n

theorem storedPort_iff :
    (∀ p, portOf (.split s) = some p → p ≠ [] →
        toDecimal (storedPort (.split s)) = p)
      ↔ ∀ p, portOf (.split s) = some p → PlainPort p := by
  refine forall_congr' fun p => forall_congr' fun hp => ?_
  have hroot := split_rooted (authority_of_port hp)
  have hrest := rooted_digit (q := (Reference.split s).query)
    (f := (Reference.split s).fragment) hroot rfl
  unfold storedPort PlainPort
  rw [hp]
  dsimp only
  by_cases hnil : p = []
  · exact iff_of_true (fun hne => absurd hnil hne) (.inl hnil)
  · rw [if_neg hnil]
    constructor
    · intro h
      exact .inr ⟨_, atoiPort_lt _, (h hnil).symm⟩
    · intro h _
      obtain ⟨n, hn, rfl⟩ := h.resolve_left hnil
      rw [atoiPort_toDecimal hn hrest]

-- ============================================================ user information

/-- No digit stands behind the first `:`. -/
def PlainInfo (t : Bytes) : Prop :=
  ∀ c d e, t = c ++ 58 :: d :: e → 58 ∉ c → ¬(48 ≤ d ∧ d ≤ 57)

theorem storedInfo_iff : storedInfo [] t = t ↔ PlainInfo t := by
  have hcut := cut (· ≠ 58) t
  have hunique : ∀ {c e : Bytes}, t = c ++ 58 :: e → 58 ∉ c →
      t.dropWhile (· ≠ 58) = 58 :: e := by
    intro c e ht hc
    have hcut : Cut (· ≠ 58) t c (58 :: e) := ⟨ht, fun a ha => by
      simpa using fun h : a = 58 => hc (h ▸ ha), fun a as has => by
      cases has
      rfl⟩
    exact hcut.dropWhile_eq
  unfold storedInfo
  cases hdrop : t.dropWhile (· ≠ 58) with
  | nil =>
      refine iff_of_true (List.nil_append t) fun c d e ht hc => ?_
      nomatch hdrop.symm.trans (hunique ht hc)
  | cons c t' =>
      have hc : c = 58 := by simpa using hcut.stop c t' hdrop
      subst hc
      rw [hdrop] at hcut
      have htake : 58 ∉ t.takeWhile (· ≠ 58) := fun hmem => by
        simpa using hcut.all 58 hmem
      have hall : [] ++ t.takeWhile (· ≠ 58) ++ [58] ++ t' = t := by
        rw [List.nil_append, List.append_assoc]
        exact hcut.eq.symm
      unfold infoBehind
      cases t' with
      | nil =>
          refine iff_of_true ((List.append_nil _).symm.trans hall) ?_
          intro c d e ht hc
          nomatch hdrop.symm.trans (hunique ht hc)
      | cons d e =>
          dsimp only
          split
          next hdigit =>
            refine iff_of_false (fun heq => ?_) fun h =>
              h _ d e hcut.eq htake (classOf_digit.mp hdigit)
            have hlen := congrArg List.length (heq.trans hcut.eq)
            rw [List.length_append, List.length_cons, List.length_cons,
              List.length_cons] at hlen
            omega
          next hdigit =>
            refine iff_of_true hall fun c d' e' ht hc => ?_
            cases hdrop.symm.trans (hunique ht hc)
            exact fun hd => hdigit (classOf_digit.mpr hd)

-- ================================================================ faithfulness

/-- The stored components with the separators of `r`. -/
def components (r : Reference) (u : Uri) : Reference where
  scheme := r.scheme.map fun _ => u.scheme
  authority := r.authority.map fun a =>
    { userinfo := a.userinfo.map fun _ => u.userinfo
      host := u.host
      port := a.port.map fun p => if p = [] then [] else toDecimal u.port }
  path := u.path
  query := r.query.map fun _ => u.query
  fragment := r.fragment.map fun _ => u.fragment

/-- The components of `s` are stored in `u`, those that are missing as
empty texts and the port 0, and they make up `s` again. -/
structure Faithful (s : Bytes) (u : Uri) : Prop where
  scheme : u.scheme = (Reference.split s).scheme.getD []
  userinfo : u.userinfo = (infoOf (.split s)).getD []
  host : u.host = ((Reference.split s).authority.map Authority.host).getD []
  port : ∀ p, portOf (.split s) = some p → p ≠ [] → toDecimal u.port = p
  no_port : portOf (.split s) = none → u.port = 0
  path : u.path = (Reference.split s).path
  query : u.query = (Reference.split s).query.getD []
  fragment : u.fragment = (Reference.split s).fragment.getD []
  text : (components (.split s) u).toBytes = s

/-- A path behind a scheme and an authority, no digit behind the first `:`
of user information, and a port that is a number in the usual form. -/
structure Plain (r : Reference) : Prop where
  path : r.path = [] ∨ r.scheme.isSome = true ∧ r.authority.isSome = true
  userinfo : ∀ t, infoOf r = some t → PlainInfo t
  port : ∀ p, portOf r = some p → PlainPort p

theorem storedPath_iff :
    (if r.scheme.isSome && r.authority.isSome then r.path else []) = r.path
      ↔ r.path = [] ∨ r.scheme.isSome = true ∧ r.authority.isSome = true := by
  rw [← Bool.and_eq_true]
  split
  next h => exact iff_of_true rfl (.inr h)
  next h => exact ⟨fun hnil => .inl hnil.symm, fun h' =>
    (h'.resolve_right h).symm⟩

theorem info_iff {o : Option Bytes} :
    (o.map (storedInfo [])).getD [] = o.getD []
      ↔ ∀ t, o = some t → PlainInfo t := by
  cases o with
  | none => exact iff_of_true rfl fun _ ht => (nomatch ht)
  | some t =>
      refine storedInfo_iff.trans ⟨fun h t' ht' => ?_, fun h => h t rfl⟩
      cases ht'
      exact h

/-- The stored components of a reference that is equal to them. -/
theorem components_eq (hscheme : u.scheme = r.scheme.getD [])
    (hinfo : u.userinfo = (infoOf r).getD [])
    (hhost : u.host = (r.authority.map Authority.host).getD [])
    (hport : ∀ p, portOf r = some p → p ≠ [] → toDecimal u.port = p)
    (hpath : u.path = r.path) (hquery : u.query = r.query.getD [])
    (hfragment : u.fragment = r.fragment.getD []) : components r u = r := by
  have hmap : ∀ {o : Option Bytes} {t : Bytes}, t = o.getD [] →
      (o.map fun _ => t) = o := by
    intro o t ht
    cases o with
    | none => rfl
    | some t' => exact congrArg some ht
  obtain ⟨scheme, authority, path, query, fragment⟩ := r
  have hauth :
      (components ⟨scheme, authority, path, query, fragment⟩ u).authority
      = authority := by
    cases authority with
    | none => rfl
    | some a =>
        obtain ⟨userinfo, host, port⟩ := a
        have hports :
            (port.map fun p => if p = [] then [] else toDecimal u.port)
            = port := by
          cases port with
          | none => rfl
          | some p =>
              refine congrArg some ?_
              dsimp only
              split
              next hp => exact hp.symm
              next hp => exact hport p rfl hp
        refine congrArg some ?_
        dsimp only
        rw [hports, hmap (o := userinfo) hinfo]
        exact congrArg (fun host => Authority.mk userinfo host port) hhost
  unfold components at hauth ⊢
  rw [Reference.mk.injEq]
  exact ⟨hmap hscheme, hauth, hpath, hmap hquery, hmap hfragment⟩

/-- An accepted text is stored as it is exactly when it is plain. -/
theorem create_faithful_iff (h : create s = .ok (some u)) :
    Faithful s u ↔ Plain (.split s) := by
  obtain ⟨-, hu⟩ := create_stored h
  rw [stored_eq] at hu
  have hscheme := congrArg Uri.scheme hu
  have hinfo := congrArg Uri.userinfo hu
  have hhost := congrArg Uri.host hu
  have hport := congrArg Uri.port hu
  have hpath := congrArg Uri.path hu
  have hquery := congrArg Uri.query hu
  have hfragment := congrArg Uri.fragment hu
  dsimp only at hscheme hinfo hhost hport hpath hquery hfragment
  constructor
  · intro hf
    refine ⟨storedPath_iff.mp (hpath ▸ hf.path),
      info_iff.mp (hinfo ▸ hf.userinfo),
      storedPort_iff.mp (hport ▸ hf.port)⟩
  · intro hp
    have hpath := hpath.trans (storedPath_iff.mpr hp.path)
    have hinfo := hinfo.trans (info_iff.mpr hp.userinfo)
    have hports := hport ▸ storedPort_iff.mpr hp.port
    refine ⟨hscheme, hinfo, hhost, hports, fun hnone => ?_, hpath, hquery,
      hfragment, ?_⟩
    · rw [hport]
      unfold storedPort
      rw [hnone]
    · rw [components_eq hscheme hinfo hhost hports hpath hquery hfragment]
      exact Reference.toBytes_split s

/-- A reference with all components. -/
theorem create_faithful_iff_http :
    let s := ascii "http://u@h:81/p?q#f"
    let u : Uri := ⟨ascii "http", ascii "u", ascii "h", ascii "/p", ascii "q",
      ascii "f", 81⟩
    create s = .ok (some u) ∧ Faithful s u := by
  have hcreate : create (ascii "http://u@h:81/p?q#f") = .ok (some ⟨ascii "http",
      ascii "u", ascii "h", ascii "/p", ascii "q", ascii "f", 81⟩) := by
    decide +kernel
  refine ⟨hcreate, (create_faithful_iff hcreate).mpr ?_⟩
  have hsplit : Reference.split (ascii "http://u@h:81/p?q#f")
      = ⟨some (ascii "http"), some ⟨some (ascii "u"), ascii "h",
        some (ascii "81")⟩, ascii "/p", some (ascii "q"),
          some (ascii "f")⟩ := by
    decide +kernel
  rw [hsplit]
  refine ⟨.inr ⟨rfl, rfl⟩, fun t ht => ?_, fun p hp => ?_⟩
  · cases ht
    exact storedInfo_iff.mp (by decide +kernel)
  · cases hp
    exact .inr ⟨81, by decide, by decide +kernel⟩

/-- The name in front of a number is lost, and a path without a scheme. -/
theorem numeric_password_lost :
    (∃ u, create (ascii "http://u:12@h/p") = .ok (some u)
      ∧ u.userinfo = ascii "12" ∧ ¬Faithful (ascii "http://u:12@h/p") u)
    ∧ ∃ u, create (ascii "/p") = .ok (some u)
      ∧ u.path = [] ∧ ¬Faithful (ascii "/p") u := by
  refine ⟨⟨⟨ascii "http", ascii "12", ascii "h", ascii "/p", [], [], 0⟩,
    by decide +kernel, rfl, fun h => ?_⟩, .new, by decide +kernel, rfl, fun h =>
      ?_⟩
  · have hinfo := h.userinfo
    revert hinfo
    decide +kernel
  · have hpath := h.path
    revert hpath
    decide +kernel

end Uri

end TinyServer
