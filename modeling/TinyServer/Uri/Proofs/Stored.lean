/-
What `Uri::Create` stores of a reference.

`stored` is the object for the components of a text; for an accepted text
it is what `Uri::Create` returns (`create_stored`). It differs from the
components in three points. A path is stored only behind a scheme and an
authority. Of user information with a digit behind its first `:`, what
stands before the digit is lost. And the port is a number.
-/
import TinyServer.Uri.Proofs.Accepted
import TinyServer.Uri.Proofs.Authority

namespace TinyServer

open Lib
open Http (Bytes)

namespace Uri

variable {ph : Phase} {x y : Reading} {b : UInt8} {s bs rest t path : Bytes}
  {u v : Uri} {q f : Option Bytes} {acts : List UriAction}

/-- A byte of a first segment or a scheme. -/
def segByte (b : UInt8) : Bool := b ≠ 58 && notSlash b

theorem segByte_class (h : segByte b = true) :
    Inside (classOf b) ∧ classOf b ≠ .colon := by
  unfold segByte at h
  rw [Bool.and_eq_true, decide_eq_true_eq] at h
  exact ⟨inside h.2, not_colon h.1⟩

/-- The phases of a first segment. -/
def InSeg (ph : Phase) : Prop := ph = .scheme ∨ ph = .seg

/-- A first byte that may belong to a scheme. -/
theorem run_first (hb : segByte b = true)
    (h : run .start x (b :: bs) = some u) :
    run .seg (x.push b) bs = some u
      ∨ run .scheme ⟨some [b], x.uri⟩ bs = some u := by
  obtain ⟨⟨hs, hqu, hh⟩, hc⟩ := segByte_class hb
  obtain ⟨acts, ph', y, hstep, hy, h⟩ := run_cons h
  cases hcl : classOf b <;> rw [hcl] at hs hqu hh hc hstep <;>
    first | contradiction | cases hstep
  all_goals cases hy
  all_goals first | exact .inl h | exact .inr h

/-- Over the bytes of a first segment. -/
theorem run_seg (hph : InSeg ph) (ht : ∀ b ∈ t, segByte b = true)
    (h : run ph x (t ++ rest) = some u) :
    ∃ ph', InSeg ph' ∧ (ph = .seg → ph' = .seg)
      ∧ run ph' (x.pushAll t) rest = some u := by
  obtain ⟨ph', ⟨hph', hseg⟩, h⟩ := run_within
    (S := fun ph' => InSeg ph' ∧ (ph = .seg → ph' = .seg))
    (fun ph₁ b acts ph₂ hph₁ hb hstep => by
      obtain ⟨⟨hs, hqu, hh⟩, hc⟩ := segByte_class (ht b hb)
      obtain ⟨rfl | rfl, hseg⟩ := hph₁ <;> unfold InSeg <;>
        cases hcl : classOf b <;> rw [hcl] at hs hqu hh hc hstep <;>
        first | contradiction | cases hstep
      all_goals simp_all) ⟨hph, id⟩ h
  exact ⟨ph', hph', hseg, h⟩

/-- A scheme. -/
theorem run_scheme (hne : t ≠ []) (ht : ∀ b ∈ t, segByte b = true)
    (h : run .start x (t ++ 58 :: rest) = some u) :
    run .colon ⟨none, { x.uri with scheme := t }⟩ rest = some u := by
  cases t with
  | nil => exact absurd rfl hne
  | cons b t =>
      obtain ⟨hb, ht⟩ := List.forall_mem_cons.mp ht
      rcases run_first hb h with h | h
      · obtain ⟨ph', -, hseg, h⟩ := run_seg (.inr rfl) ht h
        cases hseg rfl
        obtain ⟨acts, ph', y, hstep, -⟩ := run_cons h
        nomatch hstep
      · obtain ⟨ph', hph', -, h⟩ := run_seg (.inl rfl) ht h
        obtain ⟨acts, ph'', y, hstep, hy, h⟩ := run_cons h
        rcases hph' with rfl | rfl
        · cases hstep
          cases hy
          exact h
        · nomatch hstep

-- ===================================================== without an authority

section

variable (hq : ∀ t, q = some t → ∀ b ∈ t, b ≠ 35)
  (hpath : ∀ b ∈ path, notTail b = true)
include hq hpath

/-- Behind a `/` that is not the first of two. -/
theorem run_slash (hauth : ∀ r, path ≠ 47 :: r) {abs : Bool}
    (h : run (.slash abs) ⟨none, v⟩ (path ++ Reference.tail q f) = some u) :
    u = withTail v q f := by
  cases path with
  | nil =>
      obtain ⟨acts, y, hacts, hy, rfl⟩ := run_tail rfl rfl hq h
      cases hacts
      cases hy
      rfl
  | cons c r =>
      obtain ⟨hc, hr⟩ := List.forall_mem_cons.mp hpath
      obtain ⟨hqu, hh⟩ := not_tail hc
      have hs := not_slash fun hc => hauth r (congrArg (· :: r) hc)
      obtain ⟨acts, ph', y, hstep, hy, h⟩ := run_cons h
      have hnext : acts = [] ∧ ph' = .plain := by
        cases hcl : classOf c <;> rw [hcl] at hs hqu hh hstep <;>
          first | contradiction | cases hstep
        all_goals exact ⟨rfl, rfl⟩
      obtain ⟨rfl, rfl⟩ := hnext
      cases hy
      exact run_plain hq hr h

/-- A path behind a scheme. -/
theorem run_colon (hauth : ∀ r, path ≠ 47 :: 47 :: r)
    (h : run .colon ⟨none, v⟩ (path ++ Reference.tail q f) = some u) :
    u = withTail v q f := by
  cases path with
  | nil =>
      obtain ⟨acts, y, hacts, hy, rfl⟩ := run_tail rfl rfl hq h
      cases hacts
      cases hy
      rfl
  | cons c r =>
      obtain ⟨hc, hr⟩ := List.forall_mem_cons.mp hpath
      obtain ⟨acts, ph', y, hstep, hy, h⟩ := run_cons h
      by_cases hslash : c = 47
      · subst hslash
        cases hstep
        cases hy
        exact run_slash hq hr (fun r' hr' => hauth r' (congrArg (47 :: ·) hr'))
          h
      · obtain ⟨hqu, hh⟩ := not_tail hc
        have hs := not_slash hslash
        have hnext : acts = [] ∧ ph' = .plain := by
          cases hcl : classOf c <;> rw [hcl] at hs hqu hh hstep <;>
            first | contradiction | cases hstep
          all_goals exact ⟨rfl, rfl⟩
        obtain ⟨rfl, rfl⟩ := hnext
        cases hy
        exact run_plain hq hr h

/-- From inside a first segment without a `:` on. -/
theorem run_seg_path (hph : InSeg ph)
    (hcolon : ∀ t r, (∀ b ∈ t, segByte b = true) → path ≠ t ++ 58 :: r)
    (h : run ph x (path ++ Reference.tail q f) = some u) :
    u = withTail x.uri q f := by
  have hcut := cut segByte path
  rw [hcut.eq, List.append_assoc] at h
  obtain ⟨ph', hph', -, h⟩ := run_seg hph hcut.all h
  cases hrest : path.dropWhile segByte with
  | nil =>
      rw [hrest] at h
      have hquiet : ph'.isQuery = false ∧ ph'.isFragment = false
          ∧ ph'.close = some [] := by
        rcases hph' with rfl | rfl <;> exact ⟨rfl, rfl, rfl⟩
      obtain ⟨acts, y, hacts, hy, rfl⟩ := run_tail hquiet.1 hquiet.2.1 hq h
      cases hquiet.2.2.symm.trans hacts
      cases hy
      rfl
  | cons c r =>
      rw [hrest] at h hcut
      have hin : ∀ b ∈ c :: r, notTail b = true := fun b hb => hpath b (by
        rw [hcut.eq]
        exact List.mem_append_right _ hb)
      have hc : c = 47 := by
        have hstop := hcut.stop c r rfl
        have htail := hin c (List.mem_cons_self ..)
        have hne : c ≠ 58 := fun hc =>
          hcolon (path.takeWhile segByte) r hcut.all (hc ▸ hcut.eq)
        unfold segByte notSlash at hstop
        unfold notTail at htail
        by_contra hslash
        simp_all
      subst hc
      obtain ⟨acts, ph'', y, hstep, hy, h⟩ := run_cons h
      have hnext : acts = [] ∧ ph'' = .plain := by
        rcases hph' with rfl | rfl <;> cases hstep <;> exact ⟨rfl, rfl⟩
      obtain ⟨rfl, rfl⟩ := hnext
      cases hy
      have hu := run_plain hq (List.forall_mem_cons.mp hin).2 h
      exact hu

/-- A path at the beginning. -/
theorem run_start (hauth : ∀ r, path ≠ 47 :: 47 :: r)
    (hcolon : ∀ t r, (∀ b ∈ t, segByte b = true) → t ≠ [] → path ≠ t ++ 58 :: r)
    (h : run .start ⟨none, v⟩ (path ++ Reference.tail q f) = some u) :
    u = withTail v q f := by
  cases path with
  | nil =>
      obtain ⟨acts, y, hacts, hy, rfl⟩ := run_tail rfl rfl hq h
      cases hacts
      cases hy
      rfl
  | cons c r =>
      obtain ⟨hc, hr⟩ := List.forall_mem_cons.mp hpath
      by_cases hslash : c = 47
      · subst hslash
        obtain ⟨acts, ph', y, hstep, hy, h⟩ := run_cons h
        cases hstep
        cases hy
        exact run_slash hq hr (fun r' hr' => hauth r' (congrArg (47 :: ·) hr'))
          h
      · by_cases hcol : c = 58
        · subst hcol
          obtain ⟨acts, ph', y, hstep, -⟩ := run_cons h
          nomatch hstep
        · have hseg : segByte c = true := by
            unfold segByte notSlash
            unfold notTail at hc
            simp_all
          have hcolon' : ∀ t r', (∀ b ∈ t, segByte b = true) →
              r ≠ t ++ 58 :: r' := fun t r' ht hr' =>
            hcolon (c :: t) r' (List.forall_mem_cons.mpr ⟨hseg, ht⟩)
              (List.cons_ne_nil _ _) (congrArg (c :: ·) hr')
          rcases run_first hseg h with h | h
          · exact run_seg_path hq hr (.inr rfl) hcolon' h
          · exact run_seg_path hq hr (.inl rfl) hcolon' h

end

-- ================================================================== references

/-- The scheme of a reference, if it has one, and nothing else. -/
def ofScheme (scheme : Option Bytes) : Uri :=
  { new with scheme := scheme.getD [] }

/-- What is stored of a text behind the scheme, or of a text without one. -/
def storedFrom (abs : Bool) (v : Uri) (a : Option Authority) (path : Bytes)
    (q f : Option Bytes) : Uri :=
  match a with
  | some a => finish abs (withAuthority v a (path ++ Reference.tail q f)) path q
    f
  | none => withTail v q f

/-- What is stored of a reference. -/
def stored (r : Reference) : Uri :=
  storedFrom r.scheme.isSome (ofScheme r.scheme) r.authority r.path r.query
    r.fragment

/-- The port of a reference. -/
def portOf (r : Reference) : Option Bytes := r.authority.bind Authority.port

/-- A text with a scheme, or one without a `:` in its first segment. -/
theorem cutScheme_of_cut {t r : Bytes} (h : Cut segByte s t (58 :: r))
    (hne : t ≠ []) : cutScheme s = (some t, r) := by
  unfold cutScheme
  dsimp only
  rw [show (s.dropWhile fun b => b ≠ 58 && notSlash b) = 58 :: r
      from h.dropWhile_eq,
    show (s.takeWhile fun b => b ≠ 58 && notSlash b) = t from h.takeWhile_eq]
  exact if_neg hne

theorem cutScheme_cases (s : Bytes) :
    (∃ t rest, cutScheme s = (some t, rest) ∧ t ≠ []
      ∧ (∀ b ∈ t, segByte b = true) ∧ s = t ++ 58 :: rest)
    ∨ cutScheme s = (none, s)
      ∧ ∀ t r, (∀ b ∈ t, segByte b = true) → t ≠ [] → s ≠ t ++ 58 :: r := by
  have hcut := cut segByte s
  have hcolon : ∀ {t r : Bytes}, (∀ b ∈ t, segByte b = true) →
      s = t ++ 58 :: r → s.takeWhile segByte = t ∧ s.dropWhile segByte
        = 58 :: r := by
    intro t r ht hs
    have hcut : Cut segByte s t (58 :: r) := ⟨hs, ht, fun a as ha => by
      cases ha
      rfl⟩
    exact ⟨hcut.takeWhile_eq, hcut.dropWhile_eq⟩
  unfold cutScheme
  dsimp only
  split
  next rest hrest =>
    rw [show s.dropWhile segByte = 58 :: rest from hrest] at hcut
    split
    next hnil =>
      refine .inr ⟨rfl, fun t r ht hne hs => hne ?_⟩
      exact (hcolon ht hs).1.symm.trans hnil
    next hne => exact .inl ⟨_, rest, rfl, hne, hcut.all, hcut.eq⟩
  next hno =>
    exact .inr ⟨rfl, fun t r ht _ hs => hno r (hcolon ht hs).2⟩

/-- The rest of a text behind the scheme and the authority. -/
structure Behind (s path : Bytes) (q f : Option Bytes) : Prop where
  eq : s = path ++ Reference.tail q f
  path : ∀ b ∈ path, notTail b = true
  query : ∀ t, q = some t → ∀ b ∈ t, b ≠ 35

theorem behind_cut (s : Bytes) : Behind s (s.takeWhile notTail)
    (cutTail (s.dropWhile notTail)).1 (cutTail (s.dropWhile notTail)).2 := by
  have hcut := cut notTail s
  refine ⟨?_, hcut.all, fun t ht b hb => ?_⟩
  · rw [cutTail_eq hcut.stop]
    exact hcut.eq
  · unfold cutTail at ht
    split at ht
    next rest =>
      cases ht
      simpa using List.mem_takeWhile_imp hb
    next => nomatch ht
    next => nomatch ht

/-- What follows an authority begins with a `/`, or there is no path. -/
theorem rooted_takeWhile (h : ∀ b bs, s = b :: bs → notSlash b = false) :
    Rooted (s.takeWhile notTail) := by
  cases s with
  | nil => exact .inl rfl
  | cons b bs =>
      by_cases hb : b = 47
      · subst hb
        exact .inr
          ⟨bs.takeWhile notTail, List.takeWhile_cons_of_pos (by decide)⟩
      · refine .inl (List.takeWhile_cons_of_neg ?_)
        have hstop := h b bs rfl
        unfold notSlash at hstop
        unfold notTail
        simp_all

/-- A text with an authority, or one that does not begin with `//`. -/
theorem cutAuthority_cases (s : Bytes) :
    (∃ t rest, cutAuthority s = (some t, rest) ∧ s = 47 :: 47 :: (t ++ rest)
      ∧ (∀ b ∈ t, notSlash b = true) ∧ ∀ b bs, rest = b :: bs →
        notSlash b = false)
    ∨ cutAuthority s = (none, s) ∧ ∀ r, s ≠ 47 :: 47 :: r := by
  unfold cutAuthority
  split
  next rest =>
    have hcut := cut notSlash rest
    exact .inl ⟨_, _, rfl, congrArg (47 :: 47 :: ·) hcut.eq, hcut.all,
      hcut.stop⟩
  next hno => exact .inr ⟨rfl, fun r hr => hno r hr⟩

/-- Behind the scheme, or from the beginning where there is none. -/
theorem run_relative {abs : Bool}
    (hph : ph = .colon ∧ abs = true ∨ ph = .start ∧ abs = false
      ∧ ∀ t r, (∀ b ∈ t, segByte b = true) → t ≠ [] → s ≠ t ++ 58 :: r)
    (h : run ph ⟨none, v⟩ s = some u) :
    (∀ t p, (cutAuthority s).1 = some t → (Authority.split t).port = some p →
        ∀ b ∈ p, classOf b = .digit)
      ∧ u = storedFrom abs v ((cutAuthority s).1.map Authority.split)
        ((cutAuthority s).2.takeWhile notTail)
        (cutTail ((cutAuthority s).2.dropWhile notTail)).1
        (cutTail ((cutAuthority s).2.dropWhile notTail)).2 := by
  rcases cutAuthority_cases s with ⟨t, rest, hcut, rfl, ht, hrest⟩ | ⟨hcut, hno⟩
  · rw [hcut]
    have hbehind := behind_cut rest
    have hroot := rooted_takeWhile hrest
    obtain ⟨acts, ph', y, hstep, hy, h⟩ := run_cons h
    have hnext : acts = [] ∧ ph' = .slash abs := by
      obtain ⟨rfl, rfl⟩ | ⟨rfl, rfl, -⟩ :=
        hph <;> cases hstep <;> exact ⟨rfl, rfl⟩
    obtain ⟨rfl, rfl⟩ := hnext
    cases hy
    obtain ⟨acts, ph', y, hstep, hy, h⟩ := run_cons h
    cases hstep
    cases hy
    rw [hbehind.eq] at h
    obtain ⟨hdigits, hu⟩ := run_authority hbehind.query hroot hbehind.path ht h
    refine ⟨fun t' p ht' hp => ?_, hu⟩
    cases ht'
    exact hdigits p hp
  · rw [hcut]
    have hbehind := behind_cut s
    refine ⟨fun t p ht => (nomatch ht), ?_⟩
    have hauth : ∀ r, s.takeWhile notTail ≠ 47 :: 47 :: r := by
      intro r hr
      have hs := hbehind.eq
      rw [hr, List.cons_append, List.cons_append] at hs
      exact hno _ hs
    rw [hbehind.eq] at h
    obtain ⟨rfl, -⟩ | ⟨rfl, -, hcolon⟩ := hph
    · exact run_colon hbehind.query hbehind.path hauth h
    · refine run_start hbehind.query hbehind.path hauth (fun t r ht hne hr =>
        ?_) h
      have hs := hbehind.eq
      rw [hr, List.append_assoc, List.cons_append] at hs
      exact hcolon t _ ht hne hs

theorem run_stored (h : run .start ⟨none, .new⟩ s = some u) :
    (∀ p, portOf (.split s) = some p → ∀ b ∈ p, classOf b = .digit)
      ∧ u = stored (.split s) := by
  have hport : ∀ {o : Option Bytes} {p}, (o.map Authority.split).bind
      Authority.port
      = some p → ∃ t, o = some t ∧ (Authority.split t).port = some p := by
    intro o p hp
    cases o with
    | none => nomatch hp
    | some t => exact ⟨t, rfl, hp⟩
  unfold portOf stored Reference.split
  rcases cutScheme_cases s with ⟨t, rest, hcut, hne, ht, rfl⟩ | ⟨hcut, hno⟩
  · have h := run_scheme hne ht h
    obtain ⟨hdigits, hu⟩ := run_relative (.inl ⟨rfl, rfl⟩) h
    rw [hcut]
    refine ⟨fun p hp => ?_, hu⟩
    obtain ⟨t, ht, hp⟩ := hport hp
    exact hdigits t p ht hp
  · obtain ⟨hdigits, hu⟩ := run_relative (.inr ⟨rfl, rfl, hno⟩) h
    rw [hcut]
    refine ⟨fun p hp => ?_, hu⟩
    obtain ⟨t, ht, hp⟩ := hport hp
    exact hdigits t p ht hp

end Uri

end TinyServer
