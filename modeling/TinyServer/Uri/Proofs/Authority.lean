/-
What `run` stores of an authority.

The first `:` of an authority is taken for that of the port and for one
in user information at the same time. `save_host` is done there, which
the host behind an `@` sets right again; but a digit behind the `:` sets
`mark`, and `save_userinfo` then stores what comes from there on
(`storedInfo`).
-/
import TinyServer.Uri.Proofs.Regions

namespace TinyServer

open Lib
open Http (Bytes)

namespace Uri

variable {ph : Phase} {x y : Reading} {b : UInt8} {bs rest t path : Bytes}
  {u v : Uri} {abs : Bool} {q f : Option Bytes} {acts : List UriAction}

/-- A class of bytes inside an authority. -/
def Inside (c : ByteClass) : Prop := c ≠ .slash ∧ c ≠ .question ∧ c ≠ .hash

theorem inside (h : notSlash b = true) : Inside (classOf b) := by
  unfold notSlash at h
  rw [Bool.and_eq_true, Bool.and_eq_true, decide_eq_true_eq, decide_eq_true_eq,
    decide_eq_true_eq] at h
  exact ⟨not_slash h.1.1, not_question h.1.2, not_hash h.2⟩

section

variable (hq : ∀ t, q = some t → ∀ b ∈ t, b ≠ 35) (hroot : Rooted path)
  (hpath : ∀ b ∈ path, notTail b = true)
include hq hroot hpath

-- ======================================================================= ports

/-- User information without an `@` behind it. -/
theorem run_info (ht : ∀ b ∈ t, notSlash b = true ∧ b ≠ 64)
    (h : run (.info abs) x (t ++ (path ++ Reference.tail q f)) = some u) :
    False := by
  obtain ⟨ph', hph', h⟩ := run_within (S := (· = .info abs))
    (fun ph b acts ph' hph hb hstep => by
      obtain ⟨hs, hq, hh⟩ := inside (ht b hb).1
      have ha := not_atSign (ht b hb).2
      subst hph
      cases hc : classOf b <;> rw [hc] at hs hq hh ha hstep <;>
        first | contradiction | cases hstep
      all_goals exact ⟨rfl, rfl⟩) rfl h
  exact run_stuck hq hroot hpath (.inl hph') h

/-- The digits of a port. -/
theorem run_digits (hph : ph = .digits abs ∨ ph = .port abs)
    (ht : ∀ b ∈ t, notSlash b = true ∧ b ≠ 64)
    (h : run ph x (t ++ (path ++ Reference.tail q f)) = some u) :
    (∀ b ∈ t, classOf b = .digit)
      ∧ run ph (x.pushAll t) (path ++ Reference.tail q f) = some u := by
  induction t generalizing x with
  | nil =>
      rw [pushAll_nil]
      exact ⟨fun _ hb => (nomatch hb), h⟩
  | cons b t ih =>
      obtain ⟨hb, ht⟩ := List.forall_mem_cons.mp ht
      obtain ⟨hs, hqu, hh⟩ := inside hb.1
      have ha := not_atSign hb.2
      obtain ⟨acts, ph', y, hstep, hy, h⟩ := run_cons h
      have hnext : acts = []
          ∧ (ph' = .info abs ∨ classOf b = .digit ∧ ph' = ph) := by
        rcases hph with rfl | rfl <;> cases hc : classOf b <;>
          rw [hc] at hs hqu hh ha hstep <;> first | contradiction | cases hstep
        all_goals simp
      obtain ⟨rfl, hinfo | ⟨hdigit, rfl⟩⟩ := hnext
      · subst hinfo
        exact (run_info hq hroot hpath ht h).elim
      · cases hy
        obtain ⟨hall, h⟩ := ih ht h
        rw [pushAll_cons] at h
        exact ⟨List.forall_mem_cons.mpr ⟨hdigit, hall⟩, h⟩

/-- The port that is stored, when it stands in front of `rest`. -/
def withPort (u : Uri) (port rest : Bytes) : Uri :=
  if port = [] then u else { u with port := atoiPort (port ++ rest) }

/-- Behind the `:` of a port. With a scheme, no port at all leaves `mark`
null, and the path cannot be saved. -/
theorem run_port (hph : ph = .pcolon abs ∨ ph = .port0 abs)
    (ht : ∀ b ∈ t, notSlash b = true ∧ b ≠ 64)
    (h : run ph x (t ++ (path ++ Reference.tail q f)) = some u) :
    (∀ b ∈ t, classOf b = .digit)
      ∧ u = finish abs (withPort x.uri t (path ++ Reference.tail q f)) path q
        f := by
  cases t with
  | nil =>
      refine ⟨fun _ hb => (nomatch hb), ?_⟩
      have hclose : ph.closeAuthority = some [.mark, .savePort]
          ∧ ph.absolute = abs := by
        rcases hph with rfl | rfl <;> exact ⟨rfl, rfl⟩
      obtain ⟨y, hy, h⟩ := run_end hq hclose.1 hroot hpath h
      cases hy
      rw [hclose.2] at h
      cases abs with
      | true =>
          obtain ⟨r, hr, -⟩ := h
          nomatch hr
      | false => exact h
  | cons b t =>
      obtain ⟨hb, ht⟩ := List.forall_mem_cons.mp ht
      obtain ⟨hs, hqu, hh⟩ := inside hb.1
      have ha := not_atSign hb.2
      obtain ⟨acts, ph', y, hstep, hy, h⟩ := run_cons h
      have hnext : (acts = [] ∧ ph' = .info abs) ∨ classOf b = .digit
          ∧ acts = [.mark] ∧ (ph' = .digits abs ∨ ph' = .port abs) := by
        rcases hph with rfl | rfl <;> cases hc : classOf b <;>
          rw [hc] at hs hqu hh ha hstep <;> first | contradiction | cases hstep
        all_goals simp
      rcases hnext with ⟨rfl, rfl⟩ | ⟨hdigit, rfl, hph'⟩
      · exact (run_info hq hroot hpath ht h).elim
      · cases hy
        obtain ⟨hall, h⟩ := run_digits hq hroot hpath hph' ht h
        refine ⟨List.forall_mem_cons.mpr ⟨hdigit, hall⟩, ?_⟩
        have hclose : ph'.closeAuthority
            = some (if abs then [.savePort, .mark] else [.savePort])
            ∧ ph'.absolute = abs := by
          rcases hph' with rfl | rfl <;> exact ⟨rfl, rfl⟩
        obtain ⟨y, hy, h⟩ := run_end hq hclose.1 hroot hpath h
        rw [hclose.2] at h
        cases abs with
        | true =>
            cases hy
            obtain ⟨r, hr, h⟩ := h
            cases hr
            exact h
        | false =>
            cases hy
            exact h

-- ======================================================================= hosts

/-- What is stored of a host and a port in front of `rest`. -/
def withHost (u : Uri) (host : Bytes) (port : Option Bytes) (rest : Bytes) :
    Uri :=
  withPort { u with host := host } (port.getD []) rest

/-- A host without brackets, with `since` what was read of it before. -/
theorem run_name (hph : ph = .name abs ∨ ph = .host abs) {r : Bytes}
    {port : Option Bytes} (hx : x.since = some r)
    (ht : ∀ b ∈ t, (notSlash b = true ∧ b ≠ 64) ∧ b ≠ 58)
    (hport : ∀ p, port = some p → ∀ b ∈ p, notSlash b = true ∧ b ≠ 64)
    (h : run ph x (t ++ (behind [58] port ++ (path ++ Reference.tail q f)))
      = some u) :
    (∀ p, port = some p → ∀ b ∈ p, classOf b = .digit)
      ∧ u = finish abs (withHost x.uri (r ++ t) port
        (path ++ Reference.tail q f)) path q f := by
  obtain ⟨since, v⟩ := x
  cases hx
  obtain ⟨ph', hph', h⟩ :=
    run_within (S := fun ph => ph = .name abs ∨ ph = .host abs)
    (fun ph b acts ph' hph hb hstep => by
      obtain ⟨hs, hqu, hh⟩ := inside (ht b hb).1.1
      have ha := not_atSign (ht b hb).1.2
      have hc := not_colon (ht b hb).2
      rcases hph with rfl | rfl <;> cases hcl : classOf b <;>
        rw [hcl] at hs hqu hh ha hc hstep
          <;> first | contradiction | cases hstep
      all_goals simp) hph h
  cases port with
  | none =>
      refine ⟨fun _ hp => (nomatch hp), ?_⟩
      have hclose : ph'.closeAuthority
          = some (if abs then [.saveHost, .mark] else [.saveHost])
          ∧ ph'.absolute = abs := by
        rcases hph' with rfl | rfl <;> exact ⟨rfl, rfl⟩
      obtain ⟨y, hy, h⟩ := run_end hq hclose.1 hroot hpath h
      rw [hclose.2] at h
      cases abs with
      | true =>
          cases hy
          obtain ⟨r, hr, h⟩ := h
          cases hr
          exact h
      | false =>
          cases hy
          exact h
  | some p =>
      obtain ⟨acts, ph'', y, hstep, hy, h⟩ := run_cons h
      have hnext : acts = [.saveHost]
          ∧ (ph'' = .pcolon abs ∨ ph'' = .port0 abs) := by
        rcases hph' with rfl | rfl <;> cases hstep <;> simp
      obtain ⟨rfl, hph''⟩ := hnext
      cases hy
      obtain ⟨hdigits, hu⟩ := run_port hq hroot hpath hph'' (hport p rfl) h
      refine ⟨fun p' hp' => ?_, hu⟩
      cases hp'
      exact hdigits

omit hq hroot hpath in
/-- Up to the first `:`, and the port behind it. -/
theorem cut_port (s : Bytes) : ∃ port, cutPort (s.dropWhile (· ≠ 58)) = port
    ∧ s = s.takeWhile (· ≠ 58) ++ behind [58] port := by
  have hcut := cut (· ≠ 58) s
  cases hrest : s.dropWhile (· ≠ 58) with
  | nil =>
      rw [hrest] at hcut
      exact ⟨none, rfl, hcut.eq⟩
  | cons b rest =>
      have hb : b = 58 := by simpa using hcut.stop b rest hrest
      rw [hrest, hb] at hcut
      exact ⟨some rest, rfl, hcut.eq⟩

/-- From inside a host on: a name and a port. -/
theorem run_rest (hph : ph = .name abs ∨ ph = .host abs) {r : Bytes}
    (hx : x.since = some r) (ht : ∀ b ∈ t, notSlash b = true ∧ b ≠ 64)
    (h : run ph x (t ++ (path ++ Reference.tail q f)) = some u) :
    (∀ p, cutPort (t.dropWhile (· ≠ 58)) = some p → ∀ b ∈ p, classOf b = .digit)
      ∧ u = finish abs (withHost x.uri (r ++ t.takeWhile (· ≠ 58))
        (cutPort (t.dropWhile (· ≠ 58))) (path ++ Reference.tail q f)) path q
          f := by
  obtain ⟨port, hport, hcut⟩ := cut_port t
  rw [hport]
  refine run_name hq hroot hpath hph hx (fun b hb => ?_) (fun p hp b hb =>
    ?_) ?_
  · exact ⟨ht b (List.takeWhile_subset _ hb),
      by simpa using List.mem_takeWhile_imp hb⟩
  · refine ht b ?_
    rw [hcut, hp]
    exact List.mem_append_right _ (List.mem_cons_of_mem _ hb)
  · rw [← List.append_assoc, ← hcut]
    exact h

/-- Between brackets, behind the `[`. -/
theorem run_bracket (ht : ∀ b ∈ t, notSlash b = true ∧ b ≠ 64)
    (h : run (.ip abs) ⟨some [91], v⟩ (t ++ (path ++ Reference.tail q f))
      = some u) :
    (∀ p, cutPort ((91 :: t).drop (cutHost (91 :: t)).length) = some p →
        ∀ b ∈ p, classOf b = .digit)
      ∧ u = finish abs (withHost v (cutHost (91 :: t))
        (cutPort ((91 :: t).drop (cutHost (91 :: t)).length))
        (path ++ Reference.tail q f)) path q f := by
  have hcut := cut (· ≠ 93) t
  rw [hcut.eq, List.append_assoc] at h
  obtain ⟨ph', rfl, h⟩ := run_within (S := (· = .ip abs))
    (fun ph b acts ph' hph hb hstep => by
      have hin := ht b (List.takeWhile_subset _ hb)
      obtain ⟨hs, hqu, hh⟩ := inside hin.1
      have ha := not_atSign hin.2
      have hu := not_unbracket (by simpa using hcut.all b hb)
      subst hph
      cases hcl : classOf b <;> rw [hcl] at hs hqu hh ha hu hstep <;>
        first | contradiction | cases hstep
      all_goals exact ⟨rfl, rfl⟩) rfl h
  cases hrest : t.dropWhile (· ≠ 93) with
  | nil =>
      rw [hrest] at h
      exact (run_stuck hq hroot hpath (.inr rfl) h).elim
  | cons b r =>
      have hb : b = 93 := by simpa using hcut.stop b r hrest
      subst hb
      rw [hrest] at h hcut
      obtain ⟨acts, ph', y, hstep, hy, h⟩ := run_cons h
      cases hstep
      cases hy
      have hhost : cutHost (91 :: t)
          = 91 :: t.takeWhile (· ≠ 93) ++ 93 :: r.takeWhile (· ≠ 58) := by
        unfold cutHost
        rw [List.head?_cons, if_pos rfl, List.takeWhile_cons_of_pos (by decide),
          List.dropWhile_cons_of_pos (by decide), hrest,
          List.takeWhile_cons_of_pos (by decide)]
      have hdrop : (91 :: t).drop (cutHost (91 :: t)).length
          = r.dropWhile (· ≠ 58) := by
        refine drop_of_append ?_
        rw [hhost, List.append_assoc, List.cons_append, List.cons_append,
          List.takeWhile_append_dropWhile, ← hcut.eq]
      rw [hdrop, hhost]
      have hr : ∀ b ∈ r, notSlash b = true ∧ b ≠ 64 := fun b hb => ht b (by
        rw [hcut.eq]
        exact List.mem_append_right _ (List.mem_cons_of_mem _ hb))
      obtain ⟨hdigits, hu⟩ := run_rest hq hroot hpath (.inr rfl) rfl hr h
      refine ⟨hdigits, hu.trans ?_⟩
      rw [List.append_assoc]
      rfl

/-- A host and a port, behind `//` or behind the `@`. -/
theorem run_host (hph : ph = .auth abs ∨ ph = .atHost abs)
    (ht : ∀ b ∈ t, notSlash b = true ∧ b ≠ 64)
    (h : run ph x (t ++ (path ++ Reference.tail q f)) = some u) :
    (∀ p, cutPort (t.drop (cutHost t).length) = some p →
        ∀ b ∈ p, classOf b = .digit)
      ∧ u = finish abs (withHost x.uri (cutHost t)
        (cutPort (t.drop (cutHost t).length)) (path ++ Reference.tail q f))
        path q f := by
  cases t with
  | nil =>
      refine ⟨fun _ hp => (nomatch hp), ?_⟩
      have hclose : ph.closeAuthority = some [.mark, .saveHost]
          ∧ ph.absolute = abs := by
        rcases hph with rfl | rfl <;> exact ⟨rfl, rfl⟩
      obtain ⟨y, hy, h⟩ := run_end hq hclose.1 hroot hpath h
      cases hy
      rw [hclose.2] at h
      cases abs with
      | true =>
          obtain ⟨r, hr, h⟩ := h
          cases hr
          exact h
      | false => exact h
  | cons b t =>
      obtain ⟨hb, ht'⟩ := List.forall_mem_cons.mp ht
      obtain ⟨acts, ph', y, hstep, hy, h⟩ := run_cons h
      by_cases hcolon : b = 58
      · subst hcolon
        have hnext : acts = [.mark, .saveHost]
            ∧ (ph' = .pcolon abs ∨ ph' = .port0 abs) := by
          rcases hph with rfl | rfl <;> cases hstep <;> simp
        obtain ⟨rfl, hph'⟩ := hnext
        cases hy
        obtain ⟨hdigits, hu⟩ := run_port hq hroot hpath hph' ht' h
        refine ⟨fun p hp => ?_, hu⟩
        cases hp
        exact hdigits
      · by_cases hbracket : b = 91
        · subst hbracket
          have hnext : acts = [.mark] ∧ ph' = .ip abs := by
            rcases hph with rfl | rfl <;> cases hstep <;> simp
          obtain ⟨rfl, rfl⟩ := hnext
          cases hy
          exact run_bracket hq hroot hpath ht' h
        · have hnext : acts = [.mark]
              ∧ (ph' = .name abs ∨ ph' = .host abs) := by
            obtain ⟨hs, hqu, hh⟩ := inside hb.1
            have ha := not_atSign hb.2
            have hc := not_colon hcolon
            have hbr := not_bracket hbracket
            rcases hph with rfl | rfl <;> cases hcl : classOf b <;>
              rw [hcl] at hs hqu hh ha hc hbr hstep <;>
              first | contradiction | cases hstep
            all_goals simp
          obtain ⟨rfl, hph'⟩ := hnext
          cases hy
          have hhost : cutHost (b :: t) = b :: t.takeWhile (· ≠ 58) := by
            unfold cutHost
            rw [List.head?_cons,
              if_neg (fun hhead => hbracket (Option.some.inj hhead)),
              List.takeWhile_cons_of_pos (by simpa using hcolon)]
          have hdrop : (b :: t).drop (cutHost (b :: t)).length
              = t.dropWhile (· ≠ 58) := by
            refine drop_of_append ?_
            rw [hhost, List.cons_append, List.takeWhile_append_dropWhile]
          rw [hdrop, hhost]
          exact run_rest hq hroot hpath hph' rfl ht' h

end

-- ============================================================ user information

/-- Of user information with `t` behind its first `:`, and `r` up to
there: from a digit on, or all of it. -/
def infoBehind (r t : Bytes) : Bytes :=
  match t with
  | d :: _ => if classOf d = .digit then t else r ++ t
  | [] => r

/-- What is stored of the user information `r` and `t`, where `r` has no
`:`. -/
def storedInfo (r t : Bytes) : Bytes :=
  match t.dropWhile (· ≠ 58) with
  | c :: t' => infoBehind (r ++ t.takeWhile (· ≠ 58) ++ [c]) t'
  | [] => r ++ t

/-- The phases in which no `@` is taken. -/
def Closed (abs : Bool) (ph : Phase) : Prop :=
  ph = .ip abs ∨ ph = .host abs ∨ ph = .port0 abs ∨ ph = .port abs

/-- In a host or a port there is no `@`. -/
theorem run_no_at (hph : Closed abs ph)
    (ht : ∀ b ∈ t, notSlash b = true ∧ b ≠ 64)
    (h : run ph x (t ++ 64 :: rest) = some u) : False := by
  induction t generalizing ph x with
  | nil =>
      obtain ⟨acts, ph', y, hstep, -⟩ := run_cons h
      rcases hph with rfl | rfl | rfl | rfl <;> nomatch hstep
  | cons b t ih =>
      obtain ⟨hb, ht⟩ := List.forall_mem_cons.mp ht
      obtain ⟨acts, ph', y, hstep, -, h⟩ := run_cons h
      refine ih ?_ ht h
      obtain ⟨hs, hqu, hh⟩ := inside hb.1
      unfold Closed
      rcases hph with rfl | rfl | rfl | rfl <;> cases hcl : classOf b <;>
        rw [hcl] at hs hqu hh hstep <;> first | contradiction | cases hstep
      all_goals simp

/-- User information for sure: up to the `@`. -/
theorem run_info_at (hph : ph = .info abs ∨ ph = .digits abs) {r : Bytes}
    (hx : x.since = some r) (ht : ∀ b ∈ t, notSlash b = true ∧ b ≠ 64)
    (h : run ph x (t ++ 64 :: rest) = some u) :
    run (.atHost abs) ⟨none, { x.uri with userinfo := r ++ t }⟩ rest
      = some u := by
  obtain ⟨since, v⟩ := x
  cases hx
  obtain ⟨ph', hph', h⟩ := run_within
    (S := fun ph => ph = .info abs ∨ ph = .digits abs)
    (fun ph b acts ph' hph hb hstep => by
      obtain ⟨hs, hqu, hh⟩ := inside (ht b hb).1
      have ha := not_atSign (ht b hb).2
      rcases hph with rfl | rfl <;> cases hcl : classOf b <;>
        rw [hcl] at hs hqu hh ha hstep <;> first | contradiction | cases hstep
      all_goals simp) hph h
  obtain ⟨acts, ph'', y, hstep, hy, h⟩ := run_cons h
  rcases hph' with rfl | rfl <;> cases hstep <;> cases hy <;> exact h

/-- Behind a `:` in user information. -/
theorem run_pcolon_at {r : Bytes} (hx : x.since = some r)
    (ht : ∀ b ∈ t, notSlash b = true ∧ b ≠ 64)
    (h : run (.pcolon abs) x (t ++ 64 :: rest) = some u) :
    run (.atHost abs) ⟨none, { x.uri with userinfo := infoBehind r t }⟩ rest
      = some u := by
  obtain ⟨since, v⟩ := x
  cases hx
  cases t with
  | nil =>
      obtain ⟨acts, ph', y, hstep, hy, h⟩ := run_cons h
      cases hstep
      cases hy
      exact h
  | cons b t =>
      obtain ⟨hb, ht⟩ := List.forall_mem_cons.mp ht
      obtain ⟨acts, ph', y, hstep, hy, h⟩ := run_cons h
      unfold infoBehind
      dsimp only
      split
      next hdigit =>
        rw [hdigit] at hstep
        cases hstep
        cases hy
        exact run_info_at (.inr rfl) rfl ht h
      next hdigit =>
        obtain ⟨hs, hqu, hh⟩ := inside hb.1
        have ha := not_atSign hb.2
        have hnext : acts = [] ∧ ph' = .info abs := by
          cases hcl : classOf b <;> rw [hcl] at hs hqu hh ha hdigit hstep <;>
            first | contradiction | cases hstep
          all_goals simp
        obtain ⟨rfl, rfl⟩ := hnext
        cases hy
        have h := run_info_at (.inl rfl) rfl ht h
        rw [List.append_assoc] at h
        exact h

/-- A name in front of the `@`; the host that is stored at a `:` in it is
not the last one. -/
theorem run_name_at {r : Bytes} (hx : x.since = some r)
    (ht : ∀ b ∈ t, notSlash b = true ∧ b ≠ 64)
    (h : run (.name abs) x (t ++ 64 :: rest) = some u) :
    ∃ host, run (.atHost abs)
      ⟨none, { x.uri with userinfo := storedInfo r t, host := host }⟩ rest
        = some u := by
  obtain ⟨since, v⟩ := x
  cases hx
  have hcut := cut (· ≠ 58) t
  rw [hcut.eq, List.append_assoc] at h
  obtain ⟨ph', hph', h⟩ := run_within
    (S := fun ph => ph = .name abs ∨ ph = .host abs)
    (fun ph b acts ph' hph hb hstep => by
      have hin := ht b (List.takeWhile_subset _ hb)
      obtain ⟨hs, hqu, hh⟩ := inside hin.1
      have ha := not_atSign hin.2
      have hc := not_colon (by simpa using hcut.all b hb)
      rcases hph with rfl | rfl <;> cases hcl : classOf b <;>
        rw [hcl] at hs hqu hh ha hc hstep
          <;> first | contradiction | cases hstep
      all_goals simp) (.inl rfl) h
  have hrest : ∀ b ∈ t.dropWhile (· ≠ 58), notSlash b = true ∧ b ≠ 64 :=
    fun b hb => ht b (List.dropWhile_subset _ hb)
  rcases hph' with rfl | rfl
  · unfold storedInfo
    cases hdrop : t.dropWhile (· ≠ 58) with
    | nil =>
        rw [hdrop] at h hcut
        obtain ⟨acts, ph', y, hstep, hy, h⟩ := run_cons h
        cases hstep
        cases hy
        rw [← hcut.eq.trans (List.append_nil _)] at h
        exact ⟨v.host, h⟩
    | cons c t' =>
        have hc : c = 58 := by simpa using hcut.stop c t' hdrop
        subst hc
        rw [hdrop] at h hrest
        obtain ⟨acts, ph', y, hstep, hy, h⟩ := run_cons h
        cases hstep
        cases hy
        have h := run_pcolon_at rfl (List.forall_mem_cons.mp hrest).2 h
        exact ⟨_, h⟩
  · exact (run_no_at (.inr (.inl rfl)) hrest h).elim

/-- User information, from `//` on. -/
theorem run_userinfo (ht : ∀ b ∈ t, notSlash b = true ∧ b ≠ 64)
    (h : run (.auth abs) x (t ++ 64 :: rest) = some u) :
    ∃ host, run (.atHost abs)
      ⟨none, { x.uri with userinfo := storedInfo [] t, host := host }⟩ rest
        = some u := by
  cases t with
  | nil =>
      obtain ⟨acts, ph', y, hstep, hy, h⟩ := run_cons h
      cases hstep
      cases hy
      exact ⟨x.uri.host, h⟩
  | cons b t =>
      obtain ⟨hb, ht'⟩ := List.forall_mem_cons.mp ht
      obtain ⟨acts, ph', y, hstep, hy, h⟩ := run_cons h
      by_cases hcolon : b = 58
      · subst hcolon
        cases hstep
        cases hy
        have h := run_pcolon_at rfl ht' h
        exact ⟨_, h⟩
      · have hnext : Closed abs ph' ∨ acts = [.mark] ∧ ph' = .name abs := by
          obtain ⟨hs, hqu, hh⟩ := inside hb.1
          have ha := not_atSign hb.2
          have hc := not_colon hcolon
          unfold Closed
          cases hcl : classOf b <;> rw [hcl] at hs hqu hh ha hc hstep <;>
            first | contradiction | cases hstep
          all_goals simp
        rcases hnext with hclosed | ⟨rfl, rfl⟩
        · exact (run_no_at hclosed ht' h).elim
        · cases hy
          have hinfo : storedInfo [] (b :: t) = storedInfo [b] t := by
            unfold storedInfo
            rw [List.dropWhile_cons_of_pos (by simpa using hcolon),
              List.takeWhile_cons_of_pos (by simpa using hcolon)]
            rfl
          rw [hinfo]
          have h := run_name_at rfl ht' h
          exact h

/-- Behind the `@` there is no other. -/
theorem run_atHost_no_at (ht : ∀ b ∈ t, notSlash b = true)
    (h : run (.atHost abs) x (t ++ rest) = some u) : ∀ b ∈ t, b ≠ 64 := by
  have hcut := cut (· ≠ 64) t
  cases hdrop : t.dropWhile (· ≠ 64) with
  | nil =>
      intro b hb
      rw [hdrop] at hcut
      rw [hcut.eq, List.append_nil] at hb
      simpa using hcut.all b hb
  | cons c r =>
      have hc : c = 64 := by simpa using hcut.stop c r hdrop
      subst hc
      rw [hdrop] at hcut
      rw [hcut.eq, List.append_assoc] at h
      cases htake : t.takeWhile (· ≠ 64) with
      | nil =>
          rw [htake] at h
          obtain ⟨acts, ph', y, hstep, -⟩ := run_cons h
          nomatch hstep
      | cons b t' =>
          have hin : ∀ b ∈ t.takeWhile (· ≠ 64), notSlash b = true ∧ b ≠ 64 :=
            fun b hb => ⟨ht b (List.takeWhile_subset _ hb),
              by simpa using hcut.all b hb⟩
          rw [htake] at h hin
          obtain ⟨hb, ht'⟩ := List.forall_mem_cons.mp hin
          obtain ⟨acts, ph', y, hstep, -, h⟩ := run_cons h
          have hclosed : Closed abs ph' := by
            obtain ⟨hs, hqu, hh⟩ := inside hb.1
            have ha := not_atSign hb.2
            unfold Closed
            cases hcl : classOf b <;> rw [hcl] at hs hqu hh ha hstep <;>
              first | contradiction | cases hstep
            all_goals simp
          exact (run_no_at hclosed ht' h).elim

-- ============================================================== an authority

/-- What is stored of an authority in front of `rest`. -/
def withAuthority (u : Uri) (a : Authority) (rest : Bytes) : Uri :=
  let u := match a.userinfo with
    | some t => { u with userinfo := storedInfo [] t }
    | none => u
  withHost u a.host a.port rest

theorem run_authority (hq : ∀ t, q = some t → ∀ b ∈ t, b ≠ 35)
    (hroot : Rooted path) (hpath : ∀ b ∈ path, notTail b = true)
    (ht : ∀ b ∈ t, notSlash b = true)
    (h : run (.auth abs) x (t ++ (path ++ Reference.tail q f)) = some u) :
    (∀ p, (Authority.split t).port = some p → ∀ b ∈ p, classOf b = .digit)
      ∧ u = finish abs (withAuthority x.uri (Authority.split t)
        (path ++ Reference.tail q f)) path q f := by
  have hcut := cut (· ≠ 64) t
  unfold Authority.split cutUserinfo
  cases hdrop : t.dropWhile (· ≠ 64) with
  | nil =>
      rw [hdrop] at hcut
      refine run_host hq hroot hpath (.inl rfl) (fun b hb => ⟨ht b hb, ?_⟩) h
      rw [hcut.eq, List.append_nil] at hb
      simpa using hcut.all b hb
  | cons c r =>
      have hc : c = 64 := by simpa using hcut.stop c r hdrop
      subst hc
      rw [hdrop] at hcut
      rw [hcut.eq, List.append_assoc] at h
      obtain ⟨host, h⟩ := run_userinfo (fun b hb =>
        ⟨ht b (List.takeWhile_subset _ hb), by simpa using hcut.all b hb⟩) h
      have hr : ∀ b ∈ r, notSlash b = true := fun b hb => ht b (by
        rw [hcut.eq]
        exact List.mem_append_right _ (List.mem_cons_of_mem _ hb))
      have hno := run_atHost_no_at hr h
      exact run_host hq hroot hpath (.inr rfl)
        (fun b hb => ⟨hr b hb, hno b hb⟩) h

end Uri

end TinyServer
