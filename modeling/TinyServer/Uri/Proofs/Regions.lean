/-
What `run` stores, part by part of a reference.

Each lemma takes the machine over one part: the bytes of a part leave the
phase, or the few phases that are alike there, and what the actions at its
end store is what stands between the separators. The parts behind are
read by the lemmas before, so the file goes from the fragment to the
front of the reference.
-/
import TinyServer.Uri.Phases
import TinyServer.Uri.Reference

namespace TinyServer

open Lib
open Http (Bytes)

namespace Uri

variable {ph : Phase} {x y : Reading} {b : UInt8} {bs rest t path : Bytes}
  {u : Uri} {abs : Bool} {q f : Option Bytes} {acts : List UriAction}

-- ======================================================================= bytes

/-- The separators are alone in their classes. -/
theorem classOf_inj {d : UInt8} (hd : d ∈ [35, 63, 47, 58, 64, 91, 93])
    (h : classOf b = classOf d) : b = d := by
  have hall : ∀ n < 256, ∀ d ∈ [35, 63, 47, 58, 64, 91, 93],
      (rowLookup classRanges n).getD .other
        = (rowLookup classRanges d).getD .other → n = d := by
    decide +kernel
  refine UInt8.toNat_inj.mp (hall b.toNat b.toNat_lt d.toNat ?_ h)
  exact List.mem_map_of_mem (f := UInt8.toNat) hd

theorem not_hash (h : b ≠ 35) : classOf b ≠ .hash := fun hc =>
  h (classOf_inj (d := 35) (by decide) hc)

theorem not_question (h : b ≠ 63) : classOf b ≠ .question := fun hc =>
  h (classOf_inj (d := 63) (by decide) hc)

theorem not_slash (h : b ≠ 47) : classOf b ≠ .slash := fun hc =>
  h (classOf_inj (d := 47) (by decide) hc)

theorem not_colon (h : b ≠ 58) : classOf b ≠ .colon := fun hc =>
  h (classOf_inj (d := 58) (by decide) hc)

theorem not_atSign (h : b ≠ 64) : classOf b ≠ .atSign := fun hc =>
  h (classOf_inj (d := 64) (by decide) hc)

theorem not_bracket (h : b ≠ 91) : classOf b ≠ .bracket := fun hc =>
  h (classOf_inj (d := 91) (by decide) hc)

theorem not_unbracket (h : b ≠ 93) : classOf b ≠ .unbracket := fun hc =>
  h (classOf_inj (d := 93) (by decide) hc)

-- ===================================================================== running

/-- At the end of the text the phase is closed. -/
theorem run_nil (h : run ph x [] = some u) : ∃ acts y, ph.close = some acts
    ∧ acts.foldlM (Reading.act []) x = some y ∧ u = y.uri := by
  obtain ⟨acts, hacts, h⟩ := Option.bind_eq_some_iff.mp h
  obtain ⟨y, hy, h⟩ := Option.bind_eq_some_iff.mp h
  exact ⟨acts, y, hacts, hy, (Option.some.inj h).symm⟩

/-- Before it each byte is a step of its phase. -/
theorem run_cons (h : run ph x (b :: bs) = some u) : ∃ acts ph' y,
    ph.step (classOf b) = some (acts, ph')
      ∧ acts.foldlM (Reading.act (b :: bs)) x = some y
      ∧ run ph' (y.push b) bs = some u := by
  obtain ⟨⟨acts, ph'⟩, hstep, h⟩ := Option.bind_eq_some_iff.mp h
  obtain ⟨y, hy, h⟩ := Option.bind_eq_some_iff.mp h
  exact ⟨acts, ph', y, hstep, hy, h⟩

/-- The bytes of a part have been read. -/
def Reading.pushAll (x : Reading) (bs : Bytes) : Reading :=
  { x with since := x.since.map (· ++ bs) }

/-- Reading nothing. -/
theorem pushAll_nil (x : Reading) : x.pushAll [] = x := by
  obtain ⟨since, v⟩ := x
  unfold Reading.pushAll
  cases since with
  | none => rfl
  | some t =>
    exact congrArg (fun r => Reading.mk (some r) v) (List.append_nil t)

/-- Reading one byte, and then the rest. -/
theorem pushAll_cons (x : Reading) :
    (x.push b).pushAll bs = x.pushAll (b :: bs) := by
  obtain ⟨since, v⟩ := x
  unfold Reading.pushAll Reading.push
  cases since with
  | none => rfl
  | some t =>
      exact congrArg (fun r => Reading.mk (some r) v)
        (List.append_assoc t [b] bs)

/-- Over the bytes `t`, which no action belongs to, the phase stays one of
`S`. -/
theorem run_within {S : Phase → Prop}
    (hS : ∀ ph b acts ph', S ph → b ∈ t →
      ph.step (classOf b) = some (acts, ph') →
      acts = [] ∧ S ph')
    (hph : S ph) (h : run ph x (t ++ rest) = some u) :
    ∃ ph', S ph' ∧ run ph' (x.pushAll t) rest = some u := by
  induction t generalizing ph x with
  | nil =>
      rw [pushAll_nil]
      exact ⟨ph, hph, h⟩
  | cons b t ih =>
      obtain ⟨acts, ph', y, hstep, hy, h⟩ := run_cons h
      obtain ⟨rfl, hph'⟩ := hS ph b acts ph' hph (List.mem_cons_self ..) hstep
      cases hy
      obtain ⟨ph'', hph'', h⟩ := ih
        (fun ph b acts ph' hph hb => hS ph b acts ph' hph
          (List.mem_cons_of_mem _ hb)) hph' h
      rw [pushAll_cons] at h
      exact ⟨ph'', hph'', h⟩

-- ================================================================== the tail

/-- A byte of a fragment. -/
theorem step_frag {c : ByteClass} {ph' : Phase}
    (h : ph.step c = some (acts, ph')) :
    (ph = .frag → acts = [] ∧ ph' = .frag)
      ∧ (ph = .frag0 → acts = [.mark] ∧ ph' = .frag) := by
  constructor <;> intro hph <;> subst hph <;> cases c <;> cases h <;>
    exact ⟨rfl, rfl⟩

/-- A byte of a query. -/
theorem step_query {c : ByteClass} {ph' : Phase} (hc : c ≠ .hash)
    (h : ph.step c = some (acts, ph')) :
    (ph = .query → acts = [] ∧ ph' = .query)
      ∧ (ph = .query0 → acts = [.mark] ∧ ph' = .query) := by
  constructor <;> intro hph <;> subst hph <;> cases c <;>
    first | exact absurd rfl hc | cases h
  all_goals exact ⟨rfl, rfl⟩

/-- All the rest is the fragment. -/
theorem run_frag0 (h : run .frag0 x t = some u) :
    u = { x.uri with fragment := t } := by
  cases t with
  | nil =>
      obtain ⟨acts, y, hacts, hy, rfl⟩ := run_nil h
      cases hacts
      cases hy
      rfl
  | cons b t =>
      obtain ⟨acts, ph', y, hstep, hy, h⟩ := run_cons h
      obtain ⟨rfl, rfl⟩ := (step_frag hstep).2 rfl
      cases hy
      rw [← List.append_nil t] at h
      obtain ⟨ph', rfl, h⟩ := run_within (S := (· = .frag))
        (fun ph b acts ph' hph _ hstep => (step_frag hstep).1 hph) rfl h
      obtain ⟨acts, y, hacts, hy, rfl⟩ := run_nil h
      cases hacts
      cases hy
      rfl

/-- A fragment, or the end. -/
theorem run_fragment (hph : ph.isFragment = false)
    (h : run ph x (behind [35] f) = some u) : ∃ acts y, ph.close = some acts
      ∧ acts.foldlM (Reading.act (behind [35] f)) x = some y
      ∧ u = { y.uri with fragment := f.getD y.uri.fragment } := by
  cases f with
  | none => exact run_nil h
  | some t =>
      obtain ⟨acts, ph', y, hstep, hy, h⟩ := run_cons h
      have hstep : (if ph.isFragment then none else ph.close.map (·, .frag0))
          = some (acts, ph') := hstep
      rw [hph, if_neg Bool.false_ne_true] at hstep
      obtain ⟨acts, hclose, heq⟩ := Option.map_eq_some_iff.mp hstep
      cases heq
      have hu := run_frag0 (t := t) h
      exact ⟨acts, y, hclose, hy, hu⟩

/-- The query goes up to the first `#`. -/
theorem run_query0 (ht : ∀ b ∈ t, b ≠ 35)
    (h : run .query0 x (t ++ behind [35] f) = some u) :
    u = { x.uri with query := t, fragment := f.getD x.uri.fragment } := by
  cases t with
  | nil =>
      obtain ⟨acts, y, hacts, hy, rfl⟩ := run_fragment rfl h
      cases hacts
      cases hy
      rfl
  | cons b t =>
      obtain ⟨hb, ht⟩ := List.forall_mem_cons.mp ht
      obtain ⟨acts, ph', y, hstep, hy, h⟩ := run_cons h
      obtain ⟨rfl, rfl⟩ := (step_query (not_hash hb) hstep).2 rfl
      cases hy
      obtain ⟨ph', rfl, h⟩ := run_within (S := (· = .query))
        (fun ph b acts ph' hph hb hstep =>
          (step_query (not_hash (ht b hb)) hstep).1 hph) rfl h
      obtain ⟨acts, y, hacts, hy, rfl⟩ := run_fragment rfl h
      cases hacts
      cases hy
      rfl

/-- The query and the fragment of a reference. -/
def withTail (u : Uri) (q f : Option Bytes) : Uri :=
  { u with query := q.getD u.query, fragment := f.getD u.fragment }

/-- The end of a part that is neither query nor fragment. -/
theorem run_tail (hph : ph.isQuery = false) (hph' : ph.isFragment = false)
    (hq : ∀ t, q = some t → ∀ b ∈ t, b ≠ 35)
    (h : run ph x (Reference.tail q f) = some u) : ∃ acts y,
      ph.close = some acts
      ∧ acts.foldlM (Reading.act (Reference.tail q f)) x = some y
      ∧ u = withTail y.uri q f := by
  cases q with
  | none => exact run_fragment hph' h
  | some t =>
      obtain ⟨acts, ph', y, hstep, hy, h⟩ := run_cons h
      have hstep : (if ph.isQuery || ph.isFragment then ph.inner .question
          else ph.close.map (·, .query0)) = some (acts, ph') := hstep
      rw [hph, hph', if_neg (by decide)] at hstep
      obtain ⟨acts, hclose, heq⟩ := Option.map_eq_some_iff.mp hstep
      cases heq
      have hu := run_query0 (t := t) (hq t rfl) h
      exact ⟨acts, y, hclose, hy, hu⟩

-- ======================================================================= paths

/-- A byte of the path is neither `?` nor `#`. -/
theorem not_tail (h : notTail b = true) :
    classOf b ≠ .question ∧ classOf b ≠ .hash := by
  unfold notTail at h
  rw [Bool.and_eq_true, decide_eq_true_eq, decide_eq_true_eq] at h
  exact ⟨not_question h.1, not_hash h.2⟩

/-- A byte of a path. -/
theorem step_path {c : ByteClass} {ph' : Phase}
    (hc : c ≠ .question ∧ c ≠ .hash) (h : ph.step c = some (acts, ph'))
    (hph : ph = .plain ∨ ph = .path) : acts = [] ∧ ph' = ph := by
  rcases hph with rfl | rfl <;> cases c <;>
    first | exact absurd rfl hc.1 | exact absurd rfl hc.2 | cases h
  all_goals exact ⟨rfl, rfl⟩

variable (hq : ∀ t, q = some t → ∀ b ∈ t, b ≠ 35)
include hq

/-- A path that is not stored. -/
theorem run_plain (ht : ∀ b ∈ t, notTail b = true)
    (h : run .plain x (t ++ Reference.tail q f) = some u) :
    u = withTail x.uri q f := by
  obtain ⟨ph', rfl, h⟩ := run_within (S := (· = .plain))
    (fun ph b acts ph' hph hb hstep => by
      subst hph
      exact step_path (not_tail (ht b hb)) hstep (.inl rfl)) rfl h
  obtain ⟨acts, y, hacts, hy, rfl⟩ := run_tail rfl rfl hq h
  cases hacts
  cases hy
  rfl

/-- A path behind an authority, from its `/` on. -/
theorem run_path (ht : ∀ b ∈ t, notTail b = true)
    (h : run .path x (t ++ Reference.tail q f) = some u) :
    ∃ r, x.since = some r ∧ u = withTail { x.uri with path := r ++ t } q f := by
  obtain ⟨ph', rfl, h⟩ := run_within (S := (· = .path))
    (fun ph b acts ph' hph hb hstep => by
      subst hph
      exact step_path (not_tail (ht b hb)) hstep (.inr rfl)) rfl h
  obtain ⟨acts, y, hacts, hy, rfl⟩ := run_tail rfl rfl hq h
  cases hacts
  obtain ⟨since, v⟩ := x
  cases since with
  | none => nomatch hy
  | some r =>
      cases hy
      exact ⟨r, rfl, rfl⟩

-- ================================================== the end of the authority

/-- A path as it stands behind an authority: empty, or from a `/` on. -/
def Rooted (path : Bytes) : Prop := path = [] ∨ ∃ t, path = 47 :: t

/-- What is stored in the end, when `u` is what was stored up to the
authority. -/
def finish (abs : Bool) (u : Uri) (path : Bytes) (q f : Option Bytes) : Uri :=
  withTail (if abs then { u with path := path } else u) q f

omit hq in
/-- A `/` where an authority can end. -/
theorem step_slash (hclose : ph.closeAuthority = some acts) :
    ph.step (classOf 47)
      = some (acts, if ph.absolute then .path else .plain) := by
  have hslash : classOf 47 = .slash := by decide
  rw [hslash]
  unfold Phase.step
  dsimp only
  rw [hclose]

/-- Behind the authority: with a scheme the path is stored from `mark` on. -/
theorem run_end (hclose : ph.closeAuthority = some acts) (hroot : Rooted path)
    (ht : ∀ b ∈ path, notTail b = true)
    (h : run ph x (path ++ Reference.tail q f) = some u) :
    ∃ y, acts.foldlM (Reading.act (path ++ Reference.tail q f)) x = some y
      ∧ if ph.absolute then ∃ r, y.since = some r
          ∧ u = finish true y.uri (r ++ path) q f
        else u = finish false y.uri path q f := by
  have hquery : ph.isQuery = false := by
    cases ph <;> cases hclose <;> rfl
  have hfrag : ph.isFragment = false := by
    cases ph <;> cases hclose <;> rfl
  have hcl : ph.close
      = some (if ph.absolute then acts ++ [.savePath] else acts) := by
    cases ph <;> cases hclose <;> rfl
  rcases hroot with rfl | ⟨t, rfl⟩
  · obtain ⟨acts', y, hacts, hy, rfl⟩ := run_tail hquery hfrag hq h
    cases hcl.symm.trans hacts
    split
    next habs =>
      rw [if_pos habs, List.foldlM_append] at hy
      obtain ⟨y₁, hy₁, hy⟩ := Option.bind_eq_some_iff.mp hy
      refine ⟨y₁, hy₁, ?_⟩
      obtain ⟨since, v⟩ := y₁
      cases since with
      | none => nomatch hy
      | some r =>
          cases hy
          refine ⟨r, rfl, ?_⟩
          rw [List.append_nil]
          rfl
    next habs =>
      rw [if_neg habs] at hy
      exact ⟨y, hy, rfl⟩
  · obtain ⟨acts', ph', y, hstep, hy, h⟩ := run_cons h
    rw [step_slash hclose] at hstep
    cases hstep
    obtain ⟨-, ht⟩ := List.forall_mem_cons.mp ht
    refine ⟨y, hy, ?_⟩
    split
    next habs =>
      rw [if_pos habs] at h
      obtain ⟨r, hr, hu⟩ := run_path hq ht h
      obtain ⟨r₀, hr₀, rfl⟩ := Option.map_eq_some_iff.mp hr
      refine ⟨r₀, hr₀, ?_⟩
      rw [hu, List.append_assoc]
      rfl
    next habs =>
      rw [if_neg habs] at h
      have hu := run_plain hq ht h
      exact hu

variable (hroot : Rooted path) (hpath : ∀ b ∈ path, notTail b = true)
include hroot hpath

/-- User information and an address in brackets do not end here. -/
theorem run_stuck (hph : ph = .info abs ∨ ph = .ip abs)
    (h : run ph x (path ++ Reference.tail q f) = some u) : False := by
  have hquery : ph.isQuery = false := by rcases hph with rfl | rfl <;> rfl
  have hfrag : ph.isFragment = false := by rcases hph with rfl | rfl <;> rfl
  rcases hroot with rfl | ⟨t, rfl⟩
  · obtain ⟨acts, y, hacts, -⟩ := run_tail hquery hfrag hq h
    rcases hph with rfl | rfl <;> nomatch hacts
  · obtain ⟨acts, ph', y, hstep, -⟩ := run_cons h
    rcases hph with rfl | rfl <;> nomatch hstep

end Uri

end TinyServer
