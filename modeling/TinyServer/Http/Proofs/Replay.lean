/-
What the cuts do to the request that the tokens build.

A token other than a field comes at most once (`Once`), so what its
callback stored is in the finished request (`replay_part`), and the
request tells whether a cut reached the token. Fields are different: a
later one may overwrite what an earlier one left, so only the headers as
a whole can be compared (`replay_headers`).

`replay_iff`: where the text as a whole gives a request, the pieces give
the same one exactly when they leave the tokens intact.
-/
import TinyServer.Http.Proofs.Scan

namespace TinyServer.Http

open Lib

variable {r : Bytes} {B : Nat → Nat} {t : Token} {ts : List Token}
  {q q' d : HttpRequest} {κ : Nat}

-- ==================================================================== parts

/-- A part of a request that one kind of token writes. -/
inductive Part
  | none
  | method (m : HttpMethod)
  | text (v : Bytes)
  | version (v : Nat)

/-- The part that a token of kind `κ` writes. -/
def part (κ : Nat) (q : HttpRequest) : Part :=
  match κ with
  | 1 => .method q.method
  | 2 => .text q.path
  | 3 => .text q.query
  | 4 => .text q.fragment
  | 5 => .version q.version
  | _ => .none

/-- What a token writes. -/
theorem write_cases (h : t.write r B q = some q') :
    (∃ s e, t = .method s e
        ∧ q' = { q with method := charsToHttpMethod (seen r (B e) s e) })
      ∨ (∃ s e, t = .path s e ∧ q' = { q with path := seen r (B e) s e })
      ∨ (∃ s e, t = .query s e ∧ B e + (s - B s) ≤ e
          ∧ q' = { q with
            query := slice r (B e + (s - B s)) (e - (B e + (s - B s))) })
      ∨ (∃ s e, t = .fragment s e
          ∧ q' = { q with fragment := seen r (B e) s e })
      ∨ (∃ s e v, t = .version s e ∧ versionOf (seen r (B e) s e) = some v
          ∧ q' = { q with version := v })
      ∨ t.kind = 0 ∧ q' = { q with headers := t.addField r B q.headers } := by
  cases t with
  | method s e =>
      rw [Token.write] at h
      split at h
      next => cases h
      next =>
          cases h
          exact .inl ⟨s, e, rfl, rfl⟩
  | path s e =>
      cases h
      exact .inr (.inl ⟨s, e, rfl, rfl⟩)
  | query s e =>
      rw [Token.write] at h
      split at h
      next => cases h
      next hle =>
          cases h
          exact .inr (.inr (.inl ⟨s, e, rfl, not_lt.mp hle, rfl⟩))
  | fragment s e =>
      cases h
      exact .inr (.inr (.inr (.inl ⟨s, e, rfl, rfl⟩)))
  | version s e =>
      obtain ⟨v, hv, rfl⟩ := Option.map_eq_some_iff.mp h
      exact .inr (.inr (.inr (.inr (.inl ⟨s, e, v, rfl, hv, rfl⟩))))
  | field ns ne s e =>
      cases h
      exact .inr (.inr (.inr (.inr (.inr ⟨rfl, rfl⟩))))

/-- Tokens of other kinds leave a part as it is. -/
theorem write_part (h : t.write r B q = some q') (hκ : t.kind ≠ κ) :
    part κ q' = part κ q := by
  obtain ⟨s, e, rfl, rfl⟩ | ⟨s, e, rfl, rfl⟩ | ⟨s, e, rfl, -, rfl⟩
    | ⟨s, e, rfl, rfl⟩ | ⟨s, e, v, rfl, -, rfl⟩ | ⟨-, rfl⟩ := write_cases h
  all_goals
    unfold part
    split <;> first | rfl | exact absurd rfl hκ

theorem write_headers (h : t.write r B q = some q') :
    q'.headers = t.addField r B q.headers := by
  obtain ⟨s, e, rfl, rfl⟩ | ⟨s, e, rfl, rfl⟩ | ⟨s, e, rfl, -, rfl⟩
    | ⟨s, e, rfl, rfl⟩ | ⟨s, e, v, rfl, -, rfl⟩ | ⟨-, rfl⟩ := write_cases h
  all_goals rfl

/-- Tokens write neither the body nor `m_close`. -/
theorem write_frame (h : t.write r B q = some q') :
    q'.body = q.body ∧ q'.close = q.close := by
  obtain ⟨s, e, rfl, rfl⟩ | ⟨s, e, rfl, rfl⟩ | ⟨s, e, rfl, -, rfl⟩
    | ⟨s, e, rfl, rfl⟩ | ⟨s, e, v, rfl, -, rfl⟩ | ⟨-, rfl⟩ := write_cases h
  all_goals exact ⟨rfl, rfl⟩

-- ================================================================ whole runs

theorem foldlM_write_cons (h : (t :: ts).foldlM (Token.write r B) q = some d) :
    ∃ q', t.write r B q = some q'
      ∧ ts.foldlM (Token.write r B) q' = some d := by
  rw [List.foldlM_cons] at h
  exact Option.bind_eq_some_iff.mp h

/-- The headers depend on the fields only. -/
theorem replay_headers (h : replay r B ts = some d) :
    d.headers = headersOf r B ts := by
  have hrun : ∀ (ts : List Token) {q : HttpRequest},
      ts.foldlM (Token.write r B) q = some d →
      d.headers = ts.foldl (Token.addField r B) q.headers := by
    intro ts
    induction ts with
    | nil =>
        intro q h
        cases h
        rfl
    | cons t ts ih =>
        intro q h
        obtain ⟨q', hq', h⟩ := foldlM_write_cons h
        rw [ih h, List.foldl_cons, write_headers hq']
  exact hrun ts h

theorem replay_frame (h : replay r B ts = some d) :
    d.body = [] ∧ d.close = true := by
  have hrun : ∀ (ts : List Token) {q : HttpRequest},
      ts.foldlM (Token.write r B) q = some d →
      d.body = q.body ∧ d.close = q.close := by
    intro ts
    induction ts with
    | nil =>
        intro q h
        cases h
        exact ⟨rfl, rfl⟩
    | cons t ts ih =>
        intro q h
        obtain ⟨q', hq', h⟩ := foldlM_write_cons h
        obtain ⟨hb, hc⟩ := ih h
        obtain ⟨hb', hc'⟩ := write_frame hq'
        exact ⟨hb.trans hb', hc.trans hc'⟩
  exact hrun ts h

/-- What a token other than a field wrote is in the finished request. -/
theorem replay_part (hts : Once ts) (ht : t ∈ ts) (hk : t.kind ≠ 0)
    (h : replay r B ts = some d) :
    ∃ q q', t.write r B q = some q' ∧ part t.kind d = part t.kind q' := by
  have hkeep : ∀ (ts : List Token) {q : HttpRequest},
      (∀ t' ∈ ts, t'.kind ≠ t.kind) →
      ts.foldlM (Token.write r B) q = some d →
      part t.kind d = part t.kind q := by
    intro ts
    induction ts with
    | nil =>
        intro q _ h
        cases h
        rfl
    | cons t' ts ih =>
        intro q hne h
        obtain ⟨q', hq', h⟩ := foldlM_write_cons h
        rw [ih (fun u hu => hne u (List.mem_cons_of_mem _ hu)) h,
          write_part hq' (hne t' List.mem_cons_self)]
  obtain ⟨pre, post, rfl⟩ := List.append_of_mem ht
  rw [replay, List.foldlM_append] at h
  obtain ⟨q, -, h⟩ := Option.bind_eq_some_iff.mp h
  obtain ⟨q', hq', h⟩ := foldlM_write_cons h
  refine ⟨q, q', hq', hkeep post (fun t' ht' heq => ?_) h⟩
  have horder := (List.pairwise_cons.mp (List.pairwise_append.mp hts).2.1).1
    t' ht'
  omega

-- ============================================================ what they read

section

variable {r' : Bytes} {n : Nat} (htake : r.take n = r'.take n)

include htake

theorem slice_congr {k m : Nat} (h : k + m ≤ n) :
    slice r k m = slice r' k m := by
  rw [← slice_take h, htake, slice_take h]

theorem seen_congr {o s e : Nat} (h : e ≤ n) :
    seen r o s e = seen r' o s e := by
  by_cases hle : max s o ≤ e
  · exact slice_congr htake (by omega)
  · rw [seen, seen, Nat.sub_eq_zero_of_le (by omega), slice, slice,
      List.take_zero, List.take_zero]

theorem write_congr (h : t.reach ≤ n) : t.write r B q = t.write r' B q := by
  cases t with
  | method s e =>
      rw [Token.reach] at h
      rw [Token.write, Token.write, seen_congr htake h]
  | path s e =>
      rw [Token.reach] at h
      rw [Token.write, Token.write, seen_congr htake h]
  | query s e =>
      rw [Token.reach] at h
      rw [Token.write, Token.write]
      split
      next => rfl
      next => rw [slice_congr htake (by omega)]
  | fragment s e =>
      rw [Token.reach] at h
      rw [Token.write, Token.write, seen_congr htake h]
  | version s e =>
      rw [Token.reach] at h
      rw [Token.write, Token.write, seen_congr htake h]
  | field ns ne s e =>
      rw [Token.reach] at h
      rw [Token.write, Token.write, Token.addField, Token.addField,
        seen_congr htake ((le_max_left _ _).trans h),
        seen_congr htake ((le_max_right _ _).trans h)]

/-- Tokens look at no byte past the positions that they refer to. -/
theorem replay_congr (h : ∀ t ∈ ts, t.reach ≤ n) :
    replay r B ts = replay r' B ts := by
  have hrun : ∀ (ts : List Token) {q : HttpRequest},
      (∀ t ∈ ts, t.reach ≤ n) →
      ts.foldlM (Token.write r B) q = ts.foldlM (Token.write r' B) q := by
    intro ts
    induction ts with
    | nil => exact fun _ => rfl
    | cons t ts ih =>
        intro q h
        rw [List.foldlM_cons, List.foldlM_cons,
          write_congr htake (h t List.mem_cons_self)]
        congr 1
        funext q'
        exact ih fun u hu => h u (List.mem_cons_of_mem _ hu)
  exact hrun ts h

end

-- ================================================================== the cuts

/-- The starts of the pieces. -/
structure Cuts (B : Nat → Nat) : Prop where
  le : ∀ e, B e ≤ e
  same : ∀ {s e : Nat}, s ≤ e → B e ≤ s → B s = B e

theorem seen_of_le {o s e : Nat} (h : o ≤ s) :
    seen r o s e = slice r s (e - s) := by
  rw [seen, max_eq_left h]

/-- A cut after the first byte of a token changes what is seen of it. -/
theorem seen_eq_iff {o s e : Nat} (hse : s ≤ e) (he : e ≤ r.length)
    (ho : o ≤ e) : seen r o s e = seen r 0 s e ↔ o ≤ s := by
  refine ⟨fun h => ?_, fun h => ?_⟩
  · have hlen := congrArg List.length h
    rw [seen, seen, length_slice (by omega), length_slice (by omega)] at hlen
    omega
  · rw [seen_of_le h, seen_of_le (Nat.zero_le s)]

/-- The query from where it is taken to start. -/
theorem query_eq_iff {s e : Nat} (hB : Cuts B) (hse : s ≤ e)
    (he : e ≤ r.length) (hle : B e + (s - B s) ≤ e) :
    slice r (B e + (s - B s)) (e - (B e + (s - B s))) = slice r s (e - s)
      ↔ B e ≤ s := by
  have := hB.le s
  refine ⟨fun h => ?_, fun h => ?_⟩
  · have hlen := congrArg List.length h
    rw [length_slice (by omega), length_slice (by omega)] at hlen
    omega
  · rw [hB.same hse h, show B e + (s - B e) = s by omega]

/-- The callback of an intact token sees the same of the pieces as of the
whole text. -/
theorem write_of_intact (hB : Cuts B) (hi : t.Intact r B)
    (hse : t.span.1 ≤ t.span.2) (h : t.write r (fun _ => 0) q = some q')
    (hdr : Headers) :
    t.write r B { q with headers := hdr }
      = some { q' with headers := t.addField r B hdr } := by
  cases t with
  | method s e =>
      rw [Token.Intact] at hi
      rw [Token.write, ← hi] at h
      rw [Token.write]
      split at h
      next => cases h
      next hm =>
          cases h
          rw [if_neg hm]
          rfl
  | path s e =>
      cases h
      rw [Token.write, seen_of_le hi, seen_of_le (Nat.zero_le s)]
      rfl
  | query s e =>
      have hs : B e + (s - B s) = s := by
        have hsame : B s = B e := hB.same hse hi
        have hle : B e ≤ s := hi
        omega
      rw [Token.write, Nat.zero_add, Nat.sub_zero] at h
      rw [Token.write, hs]
      split at h
      next => cases h
      next hlt =>
          cases h
          rw [if_neg hlt]
          rfl
  | fragment s e =>
      cases h
      rw [Token.write, seen_of_le hi, seen_of_le (Nat.zero_le s)]
      rfl
  | version s e =>
      rw [Token.Intact] at hi
      rw [Token.write, ← hi] at h
      obtain ⟨v, hv, rfl⟩ := Option.map_eq_some_iff.mp h
      rw [Token.write, hv]
      rfl
  | field ns ne s e =>
      cases h
      rfl

/-- Intact pieces give the request of the whole text. -/
theorem replay_of_intact (hB : Cuts B)
    (hspan : ∀ t ∈ ts, t.span.1 ≤ t.span.2)
    (h : replay r (fun _ => 0) ts = some d) (hi : Intact r B ts) :
    replay r B ts = some d := by
  have hrun : ∀ (us : List Token), (∀ t ∈ us, t ∈ ts) →
      ∀ {q : HttpRequest} (hdr : Headers),
        us.foldlM (Token.write r (fun _ => 0)) q = some d →
        us.foldlM (Token.write r B) { q with headers := hdr }
          = some { d with headers := us.foldl (Token.addField r B) hdr } := by
    intro us
    induction us with
    | nil =>
        intro _ q hdr h
        cases h
        rfl
    | cons t us ih =>
        intro hsub q hdr h
        obtain ⟨q', hq', h⟩ := foldlM_write_cons h
        have ht := hsub t List.mem_cons_self
        rw [List.foldlM_cons,
          write_of_intact hB (hi.tokens t ht) (hspan t ht) hq' hdr,
          List.foldl_cons]
        exact ih (fun u hu => hsub u (List.mem_cons_of_mem _ hu)) _ h
  have hB := hrun ts (fun _ => id) [] h
  have hhdr : ts.foldl (Token.addField r B) [] = d.headers :=
    hi.headers.trans (replay_headers h).symm
  rw [hhdr] at hB
  exact hB

/-- Two runs that end with one request wrote the same parts. -/
theorem replay_agree {B' : Nat → Nat} (hts : Once ts) (ht : t ∈ ts)
    (hk : t.kind ≠ 0) (h : replay r B ts = some d)
    (h' : replay r B' ts = some d) :
    ∃ q q₁ q' q₁', t.write r B q = some q₁ ∧ t.write r B' q' = some q₁'
      ∧ part t.kind q₁ = part t.kind q₁' := by
  obtain ⟨q, q₁, hq, hp⟩ := replay_part hts ht hk h
  obtain ⟨q', q₁', hq', hp'⟩ := replay_part hts ht hk h'
  exact ⟨q, q₁, q', q₁', hq, hq', hp.symm.trans hp'⟩

/-- Pieces that give the request of the whole text leave its tokens
intact. -/
theorem intact_of_replay (hB : Cuts B) (hts : Once ts)
    (hspan : ∀ t ∈ ts, t.span.1 ≤ t.span.2)
    (hreach : ∀ t ∈ ts, t.reach ≤ r.length)
    (h : replay r (fun _ => 0) ts = some d) (h' : replay r B ts = some d) :
    Intact r B ts := by
  refine ⟨fun t ht => ?_, by rw [← replay_headers h, ← replay_headers h']⟩
  have hse := hspan t ht
  have he := hreach t ht
  cases t with
  | method s e =>
      obtain ⟨q, q₁, q', q₁', hq, hq', hp⟩ :=
        replay_agree hts ht (Nat.succ_ne_zero 0) h' h
      rw [Token.write] at hq hq'
      split at hq
      next => cases hq
      next =>
          split at hq'
          next => cases hq'
          next =>
              cases hq
              cases hq'
              exact Part.method.inj hp
  | path s e =>
      obtain ⟨q, q₁, q', q₁', hq, hq', hp⟩ :=
        replay_agree hts ht (Nat.succ_ne_zero 1) h' h
      cases hq
      cases hq'
      exact (seen_eq_iff hse he (hB.le e)).mp (Part.text.inj hp)
  | query s e =>
      obtain ⟨q, q₁, q', q₁', hq, hq', hp⟩ :=
        replay_agree hts ht (Nat.succ_ne_zero 2) h' h
      rw [Token.write] at hq hq'
      rw [Nat.zero_add, Nat.sub_zero] at hq'
      split at hq
      next => cases hq
      next hlt =>
          split at hq'
          next => cases hq'
          next =>
              cases hq
              cases hq'
              exact (query_eq_iff hB hse he (not_lt.mp hlt)).mp
                (Part.text.inj hp)
  | fragment s e =>
      obtain ⟨q, q₁, q', q₁', hq, hq', hp⟩ :=
        replay_agree hts ht (Nat.succ_ne_zero 3) h' h
      cases hq
      cases hq'
      exact (seen_eq_iff hse he (hB.le e)).mp (Part.text.inj hp)
  | version s e =>
      obtain ⟨q, q₁, q', q₁', hq, hq', hp⟩ :=
        replay_agree hts ht (Nat.succ_ne_zero 4) h' h
      obtain ⟨v, hv, rfl⟩ := Option.map_eq_some_iff.mp hq
      obtain ⟨v', hv', rfl⟩ := Option.map_eq_some_iff.mp hq'
      rw [Token.Intact, hv, hv']
      exact congrArg some (Part.version.inj hp)
  | field ns ne s e => trivial

/-- The pieces give the request of the whole text exactly when they leave
its tokens intact. -/
theorem replay_iff (hB : Cuts B) (hts : Once ts)
    (hspan : ∀ t ∈ ts, t.span.1 ≤ t.span.2)
    (hreach : ∀ t ∈ ts, t.reach ≤ r.length)
    (h : replay r (fun _ => 0) ts = some d) :
    replay r B ts = some d ↔ Intact r B ts :=
  ⟨intact_of_replay hB hts hspan hreach h, replay_of_intact hB hspan h⟩

end TinyServer.Http
