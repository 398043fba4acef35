/-
Reading what `Uri::dump` writes.

`dump` puts a `/` in front of `getPath`, which begins with one already.
The extra `/` belongs to the path when the text is read again
(`split_dump`), so no reference with a scheme and an authority comes back
with its path.
-/
import TinyServer.Uri.Proofs.Faithful

namespace TinyServer

open Lib
open Http (Bytes ascii toDecimal)

namespace Uri

variable {s t : Bytes} {b : UInt8} {u v : Uri}

-- =============================================================== stored bytes

/-- The stored user information is part of the text. -/
theorem mem_storedInfo (h : b ∈ storedInfo [] t) : b ∈ t := by
  have hcut := cut (· ≠ 58) t
  unfold storedInfo at h
  split at h
  next c t' hdrop =>
    rw [hdrop] at hcut
    have hall : [] ++ t.takeWhile (· ≠ 58) ++ [c] ++ t' = t := by
      rw [List.nil_append, List.append_assoc]
      exact hcut.eq.symm
    unfold infoBehind at h
    rw [← hall]
    split at h
    next d e =>
      split at h
      next => exact List.mem_append_right _ h
      next => exact h
    next => exact List.mem_append_left _ h
  next => exact h

/-- The bytes that `dump` may find in an object with a scheme and an
authority. -/
structure Printable (u : Uri) : Prop where
  scheme_ne : u.scheme ≠ []
  scheme : ∀ b ∈ u.scheme, segByte b = true
  userinfo : ∀ b ∈ u.userinfo, notSlash b = true
  host : ∀ b ∈ u.host, notSlash b = true
  path : ∀ b ∈ u.path, notTail b = true

/-- What `Create` accepts with a scheme and an authority can be printed. -/
theorem create_printable (h : create s = .ok (some u))
    (hscheme : (Reference.split s).scheme.isSome = true)
    (hauth : (Reference.split s).authority.isSome = true) : Printable u := by
  obtain ⟨-, rfl⟩ := create_stored h
  rw [stored_eq, hscheme, hauth]
  unfold infoOf
  unfold Reference.split at hscheme hauth ⊢
  dsimp only at hscheme hauth ⊢
  rcases cutScheme_cases s with ⟨t, rest, hcut, hne, ht, -⟩ | ⟨hcut, -⟩
  · rw [hcut] at hauth ⊢
    rcases cutAuthority_cases rest with ⟨a, rest', hcut', -, ha, -⟩ | ⟨hcut', -⟩
    · rw [hcut']
      have hparts : ∀ b, b ∈ before [64] (Authority.split a).userinfo
          ∨ b ∈ (Authority.split a).host → notSlash b = true := by
        intro b hb
        refine ha b ?_
        rw [← Authority.toBytes_split a]
        exact List.mem_append_left _ (List.mem_append.mpr hb)
      refine ⟨hne, ht, fun b hb => ?_, fun b hb => hparts b (.inr hb),
        fun b hb => List.mem_takeWhile_imp hb⟩
      dsimp only [Option.map_some, Option.bind_some] at hb
      cases hinfo : (Authority.split a).userinfo with
      | none =>
          rw [hinfo] at hb
          nomatch hb
      | some i =>
          rw [hinfo] at hb hparts
          exact hparts b (.inl (List.mem_append_left _ (mem_storedInfo hb)))
    · rw [hcut'] at hauth
      nomatch hauth
  · rw [hcut] at hscheme
    nomatch hscheme

-- ==================================================================== printing

/-- The text between `//` and the path. -/
def dumpAuthority (u : Uri) : Bytes :=
  u.userinfo ++ (if u.userinfo = [] then [] else ascii "@") ++ u.host
    ++ (if u.isDefaultPort then [] else ascii ":" ++ toDecimal u.port)

/-- The text behind the path. -/
def dumpTail (u : Uri) : Bytes :=
  (if u.query = [] then [] else ascii "?") ++ u.query
    ++ (if u.fragment = [] then [] else ascii "#") ++ u.fragment

/-- The parts of the printed text. -/
theorem dump_eq (u : Uri) : u.dump = u.scheme
    ++ 58 :: 47 :: 47
      :: (dumpAuthority u ++ 47 :: (u.getPath ++ dumpTail u)) := by
  have hsep : ascii "://" = [58, 47, 47] := by decide
  have hslash : ascii "/" = [47] := by decide
  unfold dump dumpAuthority dumpTail
  rw [hsep, hslash]
  simp only [List.append_assoc, List.cons_append, List.nil_append]

/-- A digit is not a slash. -/
theorem notSlash_digit (h : 48 ≤ b ∧ b ≤ 57) : notSlash b = true := by
  have hne : ∀ c : UInt8, ¬(48 ≤ c ∧ c ≤ 57) → b ≠ c :=
    fun c hc hb => hc (hb ▸ h)
  unfold notSlash
  rw [decide_eq_true (hne 47 (by decide)), decide_eq_true (hne 63 (by decide)),
    decide_eq_true (hne 35 (by decide))]
  rfl

/-- There is no slash in the printed authority. -/
theorem dumpAuthority_notSlash (h : Printable u) :
    ∀ b ∈ dumpAuthority u, notSlash b = true := by
  intro b hb
  unfold dumpAuthority at hb
  rcases List.mem_append.mp hb with hb | hb
  · rcases List.mem_append.mp hb with hb | hb
    · rcases List.mem_append.mp hb with hb | hb
      · exact h.userinfo b hb
      · split at hb
        · nomatch hb
        · cases List.mem_singleton.mp hb
          decide
    · exact h.host b hb
  · split at hb
    · nomatch hb
    · rcases List.mem_append.mp hb with hb | hb
      · cases List.mem_singleton.mp hb
        decide
      · exact notSlash_digit (Http.toDecimal_digit u.port b hb)

/-- What is behind the path begins with `?` or `#`. -/
theorem dumpTail_stop (u : Uri) :
    ∀ b bs, dumpTail u = b :: bs → notTail b = false := by
  intro b bs hb
  unfold dumpTail at hb
  split at hb
  next hquery =>
    rw [hquery] at hb
    split at hb
    next hfragment =>
      rw [hfragment] at hb
      nomatch hb
    next =>
      cases hb
      decide
  next =>
    cases hb
    decide

/-- And there is neither of them in the path. -/
theorem getPath_notTail (h : Printable u) :
    ∀ b ∈ u.getPath, notTail b = true := by
  intro b hb
  unfold getPath at hb
  split at hb
  · cases List.mem_singleton.mp hb
    decide
  · exact h.path b hb

/-- The text that is written has the extra `/` in its path. -/
theorem split_dump (h : Printable u) :
    (Reference.split u.dump).scheme.isSome = true
      ∧ (Reference.split u.dump).authority.isSome = true
      ∧ (Reference.split u.dump).path = 47 :: u.getPath := by
  have hscheme : Cut segByte u.dump u.scheme
      (58 :: 47 :: 47
        :: (dumpAuthority u ++ 47 :: (u.getPath ++ dumpTail u))) :=
    ⟨dump_eq u, h.scheme, fun a as ha => by
      cases ha
      rfl⟩
  have hauth : Cut notSlash (dumpAuthority u ++ 47 :: (u.getPath ++ dumpTail u))
      (dumpAuthority u) (47 :: (u.getPath ++ dumpTail u)) :=
    ⟨rfl, dumpAuthority_notSlash h, fun a as ha => by
      cases ha
      rfl⟩
  have hpath : Cut notTail (47 :: (u.getPath ++ dumpTail u)) (47 :: u.getPath)
      (dumpTail u) :=
    ⟨rfl, List.forall_mem_cons.mpr ⟨by decide, getPath_notTail h⟩,
      dumpTail_stop u⟩
  have hcut : cutScheme u.dump = (some u.scheme,
      47 :: 47 :: (dumpAuthority u ++ 47 :: (u.getPath ++ dumpTail u))) :=
    cutScheme_of_cut hscheme h.scheme_ne
  have hcut' : cutAuthority (47 :: 47 :: (dumpAuthority u
      ++ 47 :: (u.getPath ++ dumpTail u)))
      = (some (dumpAuthority u), 47 :: (u.getPath ++ dumpTail u)) :=
    Prod.ext (congrArg some hauth.takeWhile_eq) hauth.dropWhile_eq
  unfold Reference.split
  rw [hcut]
  dsimp only
  rw [hcut', hpath.takeWhile_eq]
  exact ⟨rfl, rfl, rfl⟩

/-- The text that is written for an object is read with the same
components. -/
def RoundTrip (u : Uri) : Prop :=
  ∃ v, create u.dump = .ok (some v) ∧ v.scheme = u.scheme
    ∧ v.userinfo = u.userinfo ∧ v.host = u.host ∧ v.getPort = u.getPort
    ∧ v.getPath = u.getPath ∧ v.query = u.query ∧ v.fragment = u.fragment

/-- No reference with a scheme and an authority survives. -/
theorem dump_not_round_trip (h : create s = .ok (some u))
    (hscheme : (Reference.split s).scheme.isSome = true)
    (hauth : (Reference.split s).authority.isSome = true) : ¬RoundTrip u := by
  intro ⟨v, hv, _, _, _, _, hpath, _, _⟩
  obtain ⟨hs, ha, hp⟩ := split_dump (create_printable h hscheme hauth)
  have hvpath : v.path = 47 :: u.getPath := by
    rw [(create_stored hv).2, stored_eq, hs, ha, hp]
    rfl
  have hlonger : v.getPath = 47 :: u.getPath := by
    unfold getPath
    rw [if_neg (by rw [hvpath]; exact List.cons_ne_nil _ _), hvpath]
    rfl
  have hlen := congrArg List.length (hpath.symm.trans hlonger)
  rw [List.length_cons] at hlen
  omega

/-- "http://h/p" is written as "http://h//p", and read with the path
"//p". -/
theorem dump_not_round_trip_http :
    ∃ u, create (ascii "http://h/p") = .ok (some u)
      ∧ u.dump = ascii "http://h//p" ∧ ¬RoundTrip u := by
  have hcreate : create (ascii "http://h/p") = .ok (some ⟨ascii "http", [],
      ascii "h", ascii "/p", [], [], 0⟩) := by
    decide +kernel
  exact ⟨_, hcreate, by decide +kernel,
    dump_not_round_trip hcreate (by decide +kernel) (by decide +kernel)⟩

/-- The path grows with every turn. -/
theorem path_grows :
    ∃ u v, create (ascii "http://h") = .ok (some u)
      ∧ create u.dump = .ok (some v) ∧ u.getPath = ascii "/"
      ∧ v.getPath = ascii "//" ∧ v.dump ≠ u.dump := by
  refine ⟨⟨ascii "http", [], ascii "h", [], [], [], 0⟩,
    ⟨ascii "http", [], ascii "h", ascii "//", [], [], 0⟩, ?_⟩
  decide +kernel

end Uri

end TinyServer
