/-
When `recvRequest` returns no request.

`recvRequest_none_iff` says it for every stream and all its reads. A
callback reports an error where what is seen of the method or of the
version is none that the parser knows, and throws where a query is taken
to start behind its end; a malformed header section, and one or a body
that the end of the stream cuts short, are the other reasons.

The length of the header section is none. Each `http_parser_execute` goes
through its whole buffer or ends the loop, so nothing is left over while
the header is incomplete, and the test `offset == buffer_size` never
holds: `oversized_refused_iff` is the case of a header section that is
longer than the buffer.
-/
import TinyServer.Http.Proofs.Segments

namespace TinyServer.Http

open Lib

variable {r seg : Bytes} {B : Nat → Nat} {o p : Nat} {t : Token}
  {ts : List Token}

-- ========================================================== tokens refused

section

variable (r : Bytes) (B : Nat → Nat)

/-- The callback reports an error. -/
def Token.Bad : Token → Prop
  | .method s e => charsToHttpMethod (seen r (B e) s e) = .invalid
  | .version s e => versionOf (seen r (B e) s e) = none
  | _ => False

/-- The callback throws. -/
def Token.Throws : Token → Prop
  | .query s e => e < B e + (s - B s)
  | _ => False

instance (t : Token) : Decidable (t.Bad r B) :=
  match t with
  | .method .. | .version .. => inferInstanceAs (Decidable (_ = _))
  | .path .. | .query .. | .fragment .. | .field .. =>
      inferInstanceAs (Decidable False)

instance (t : Token) : Decidable (t.Throws B) :=
  match t with
  | .query .. => inferInstanceAs (Decidable (_ < _))
  | .method .. | .path .. | .fragment .. | .version .. | .field .. =>
      inferInstanceAs (Decidable False)

/-- No callback throws. -/
def Calm (ts : List Token) : Prop := ∀ t ∈ ts, ¬ t.Throws B

/-- A callback reports an error in an earlier piece than any in which one
throws. -/
def Refused (ts : List Token) : Prop :=
  ∃ t ∈ ts, t.Bad r B ∧ ∀ t' ∈ ts, t'.Throws B → B t.span.2 < B t'.span.2

instance (ts : List Token) : Decidable (Calm B ts) :=
  inferInstanceAs (Decidable (∀ t ∈ ts, _))

instance (ts : List Token) : Decidable (Refused r B ts) :=
  inferInstanceAs (Decidable (∃ t ∈ ts, _))

end

theorem write_none_iff {q : HttpRequest} :
    t.write r B q = none ↔ t.Bad r B ∨ t.Throws B := by
  cases t with
  | method s e => simp [Token.write, Token.Bad, Token.Throws]
  | query s e => simp [Token.write, Token.Bad, Token.Throws]
  | version s e => simp [Token.write, Token.Bad, Token.Throws]
  | path | fragment | field =>
      simp [Token.write, Token.Bad, Token.Throws]

/-- The request cannot be built exactly when a token cannot be written. -/
theorem replay_none_iff :
    replay r B ts = none ↔ ∃ t ∈ ts, t.Bad r B ∨ t.Throws B := by
  have hrun : ∀ (ts : List Token) {q : HttpRequest},
      ts.foldlM (Token.write r B) q = none
        ↔ ∃ t ∈ ts, t.Bad r B ∨ t.Throws B := by
    intro ts
    induction ts with
    | nil =>
        intro q
        simp
    | cons t ts ih =>
        intro q
        rw [List.foldlM_cons, List.exists_mem_cons_iff, ← write_none_iff]
        cases hw : t.write r B q with
        | none => simp
        | some q' => simpa using ih
  exact hrun ts

theorem calm_snoc (h : Calm B ts) (ht : ¬ t.Throws B) :
    Calm B (ts ++ [t]) := by
  intro t' ht'
  rcases List.mem_append.mp ht' with ht' | ht'
  · exact h t' ht'
  · rwa [List.mem_singleton.mp ht']

theorem mem_act {q : Nat} {a : HttpAction} {y : Scan} (h : t ∈ y.tokens) :
    t ∈ (y.act q a).tokens := by
  cases a <;> first | exact h | exact List.mem_append_left _ h

/-- A token that an action adds ends where the action is performed. -/
theorem mem_act_cases {q : Nat} {a : HttpAction} {y : Scan}
    (h : t ∈ (y.act q a).tokens) : t ∈ y.tokens ∨ t.span.2 = q := by
  cases a
  case mark | startField | writeField | requestUri | startQuery | done | xml
      | json => exact .inl h
  all_goals
    apply (List.mem_append.mp h).imp id
    intro ht
    rw [List.mem_singleton.mp ht]
    rfl

/-- Only the callback of the query throws. -/
theorem act_calm {q : Nat} {a : HttpAction} {y : Scan}
    (ha : a ≠ .queryString) (h : Calm B y.tokens) :
    Calm B (y.act q a).tokens := by
  cases a
  case mark | startField | writeField | requestUri | startQuery | done | xml
      | json => exact h
  case queryString => exact absurd rfl ha
  all_goals exact calm_snoc h id

-- ================================================================ one buffer

namespace Rel

variable {k k' : Sketch} {x x' : RequestRegs} {y : Scan} {b : UInt8}
  {space : Bool} {a : HttpAction}

/-- The other callbacks are given a text of the buffer. -/
theorem perform_ok (h : Rel r B o k p x y) (hseg : Piece r B o seg)
    (hp : p < seg.length) (hk : k.act space a = some k')
    (ha : a ≠ .queryString) : ∃ x', x.perform seg p a = .ok x' := by
  have htext := h.stdString_mark hseg hp.le
  cases a with
  | mark | startField | writeField | requestMethod | requestUri | startQuery
  | httpVersion | xml | json => exact ⟨_, rfl⟩
  | queryString => exact absurd rfl ha
  | done =>
      rw [RequestRegs.perform]
      split <;> exact ⟨_, rfl⟩
  | requestPath | fragment =>
      rw [RequestRegs.perform, htext]
      exact ⟨_, rfl⟩
  | writeValue =>
      rw [Sketch.act] at hk
      split at hk
      next hfield =>
          obtain ⟨x', hx', -⟩ := h.writeValue hseg hp hfield
          exact ⟨x', hx'⟩
      next => cases hk

/-- One action: it throws exactly when the scan says so. -/
theorem calm_perform (h : Rel r B o k p x y) (hseg : Piece r B o seg)
    (hp : p < seg.length) (hk : k.act space a = some k')
    (hcalm : Calm B y.tokens) :
    (∀ {x' : RequestRegs}, x.perform seg p a = .ok x' →
        Calm B (y.act (o + p) a).tokens)
      ∧ ∀ {e : Thrown}, x.perform seg p a = .error e →
          ¬ Calm B (y.act (o + p) a).tokens := by
  by_cases ha : a = .queryString
  · subst ha
    have hbase : B (o + p) = o := hseg.base (by omega) (by omega)
    have hstart : y.queryStart - B y.queryStart = x.queryStart := by
      rw [Sketch.act] at hk
      split at hk
      next hcond =>
          rw [Bool.and_eq_true] at hcond
          exact (h.queryStart hcond.1).2.symm
      next => cases hk
    have hthrows : (Token.query y.queryStart (o + p)).Throws B
        ↔ p < x.queryStart := by
      rw [Token.Throws, hbase, hstart]
      omega
    rw [RequestRegs.perform, stdString, RequestRegs.len]
    split
    next hneg =>
        refine ⟨fun hx => (by cases hx), fun _ hall => ?_⟩
        exact hall _ (List.mem_append_right _ (List.mem_singleton.mpr rfl))
          (hthrows.mpr (by omega))
    next hpos =>
        refine ⟨fun _ => calm_snoc hcalm fun ht => ?_, fun he => by cases he⟩
        exact hpos (by have := hthrows.mp ht; omega)
  · obtain ⟨x', hx'⟩ := h.perform_ok hseg hp hk ha
    rw [hx']
    exact ⟨fun _ => act_calm ha hcalm, fun he => by cases he⟩

/-- The actions of one jump. -/
theorem calm_actions (hseg : Piece r B o seg) (hb : seg[p]? = some b)
    (hspace : space = true → b = 32) (acts : List HttpAction) :
    ∀ {k : Sketch} {x : RequestRegs} {y : Scan}, Rel r B o k p x y →
      acts.foldlM (Sketch.act space) k = some k' → Calm B y.tokens →
      (∀ {x' : RequestRegs},
          acts.foldlM (fun x a => RequestRegs.perform seg p a x) x = .ok x' →
          Calm B (acts.foldl (fun y a => y.act (o + p) a) y).tokens)
        ∧ ∀ {e : Thrown},
            acts.foldlM (fun x a => RequestRegs.perform seg p a x) x
              = .error e →
            ¬ Calm B (acts.foldl (fun y a => y.act (o + p) a) y).tokens := by
  obtain ⟨hp, -⟩ := List.getElem?_eq_some_iff.mp hb
  induction acts with
  | nil =>
      intro k x y _ _ hcalm
      exact ⟨fun _ => hcalm, fun he => by cases he⟩
  | cons a acts ih =>
      intro k x y h hk hcalm
      obtain ⟨k₁, hk₁, hk⟩ := run_cons.mp hk
      obtain ⟨hok, hthrow⟩ := h.calm_perform hseg hp hk₁ hcalm
      rw [List.foldlM_cons, List.foldl_cons]
      cases hx : x.perform seg p a with
      | ok x₁ =>
          exact ih ((h.perform hseg hb hspace hk₁).1 hx) hk (hok hx)
      | error e =>
          refine ⟨fun hx' => (by cases hx'), fun _ hall => hthrow hx ?_⟩
          intro t ht
          refine hall t (List.foldlRecOn (motive := fun y : Scan =>
            t ∈ y.tokens) acts _ ht fun y hy a _ => mem_act hy)

end Rel

/-- `execute` on a piece throws exactly when a query that ends in the piece
does. -/
theorem execute_calm {u : Uninit} {ps : HttpRequestParser} {y : Scan}
    {z : Stop Scan} (hseg : Piece r B o seg) (hne : seg ≠ [])
    (h : Ready r B o ps y) (hcalm : Calm B y.tokens)
    (hz : sweep (RequestTable.transition u.uriRelaxed) HttpAction.isDone
      Scan.act o seg ps.cs y = z) :
    (∀ {n : Nat} {ps' : HttpRequestParser}, ps.execute u seg = .ok (n, ps') →
        Calm B z.regs.tokens)
      ∧ ∀ {e : Thrown}, ps.execute u seg = .error e →
          ¬ Calm B z.regs.tokens := by
  obtain ⟨hok, hthrow⟩ := drive_sweep
    (R := fun cs p x y => Rel r B o (sketchOf cs) p x y ∧ Calm B y.tokens)
    (F := fun y => ¬ Calm B y.tokens)
    (fun hnext hb hR hx => by
      obtain ⟨space, k, hspace, hk, hcov, -, -⟩ := transition_ok hnext
      exact ⟨((Rel.actions hseg hb hspace _ hR.1 hk).1 hx).weaken hcov,
        (Rel.calm_actions hseg hb hspace _ hR.1 hk hR.2).1 hx⟩)
    (fun hnext hb hR he => by
      obtain ⟨space, k, hspace, hk, -, -, -⟩ := transition_ok hnext
      exact (Rel.calm_actions hseg hb hspace _ hR.1 hk hR.2).2 he)
    (fun hy hall => hy fun t ht => hall t (mem_act ht))
    seg ⟨h.rel, hcalm⟩ rfl hz
  rcases execute_cases (u := u) hne h.cs_pos h.bodyStart with
    ⟨s, hd, -, hexec⟩ | ⟨e, hd, hexec⟩
  · obtain ⟨-, -, -, -, -, -, -, hcalm'⟩ := hok hd
    rw [hexec]
    exact ⟨fun _ => hcalm', fun he => by cases he⟩
  · rw [hexec]
    exact ⟨fun hx => (by cases hx), fun _ => hthrow hd⟩

-- ============================================================ whole streams

/-- The positions of the pieces from `o` on are in pieces from `o` on. -/
theorem pieces_base_ge (segs : List Bytes) :
    ∀ {o : Nat}, Pieces r B o segs → ∀ {q : Nat}, o ≤ q →
      q < o + segs.flatten.length → o ≤ B q := by
  induction segs with
  | nil =>
      intro o _ q hlo hhi
      rw [List.flatten_nil, List.length_nil] at hhi
      omega
  | cons seg rest ih =>
      intro o hp q hlo hhi
      rw [List.flatten_cons, List.length_append] at hhi
      by_cases hq : q < o + seg.length
      · exact (hp.1.base hlo hq).ge
      · have := ih hp.2 (not_lt.mp hq) (by omega)
        omega

/-- The tokens that a scan of some bytes adds end among them. -/
theorem sweep_tokens {relaxed : Bool} {bs : Bytes} {cs : Nat} {y : Scan}
    {z : Stop Scan}
    (hz : sweep (RequestTable.transition relaxed) HttpAction.isDone Scan.act
      o bs cs y = z) :
    (∀ t ∈ y.tokens, t ∈ z.regs.tokens)
      ∧ ∀ t ∈ z.regs.tokens, t ∈ y.tokens
        ∨ o ≤ t.span.2 ∧ t.span.2 < o + bs.length := by
  rw [← hz]
  refine ⟨fun t ht => ?_, ?_⟩
  · exact sweep_keeps (F := fun y : Scan => t ∈ y.tokens) mem_act bs ht
  · refine sweep_within (F := fun x : Scan => ∀ t ∈ x.tokens,
      t ∈ y.tokens ∨ o ≤ t.span.2 ∧ t.span.2 < o + bs.length) ?_ bs
      (Nat.le_refl o) (Nat.le_refl _) fun t ht => .inl ht
    intro q a x hlo hhi hx t ht
    rcases mem_act_cases ht with ht | ht
    · exact hx t ht
    · exact .inr ⟨ht ▸ hlo, ht ▸ hhi⟩

/-- The tokens that cannot be written, when those before the first piece
can: where they end, for the first piece (`z₁`) and for all (`z`). -/
theorem sweep_spoiled {relaxed : Bool} {segs : List Bytes} {cs : Nat}
    {y : Scan} {z₁ z : Stop Scan} (hp : Pieces r B o (seg :: segs))
    (hne : seg ≠ []) (hy : replay r B y.tokens ≠ none)
    (hz₁ : sweep (RequestTable.transition relaxed) HttpAction.isDone Scan.act
      o seg cs y = z₁)
    (hz : sweep (RequestTable.transition relaxed) HttpAction.isDone Scan.act
      o (seg :: segs).flatten cs y = z) :
    (∀ t ∈ z₁.regs.tokens, t ∈ z.regs.tokens)
      ∧ (∀ t ∈ z₁.regs.tokens, t.Bad r B ∨ t.Throws B → B t.span.2 = o)
      ∧ (∀ t ∈ z.regs.tokens, t.Bad r B ∨ t.Throws B → o ≤ B t.span.2)
      ∧ ∀ t ∈ z.regs.tokens, t ∈ z₁.regs.tokens ∨ o < B t.span.2 := by
  have hpos := List.length_pos_iff.mpr hne
  have hwhole : ∀ t ∈ y.tokens, ¬ (t.Bad r B ∨ t.Throws B) :=
    fun t ht hspoiled => hy (replay_none_iff.mpr ⟨t, ht, hspoiled⟩)
  have hall : ∀ t ∈ z.regs.tokens, t.Bad r B ∨ t.Throws B →
      o ≤ B t.span.2 := by
    intro t ht hspoiled
    obtain ⟨hlo, hhi⟩ := ((sweep_tokens hz).2 t ht).resolve_left
      fun hmem => hwhole t hmem hspoiled
    exact pieces_base_ge _ hp hlo hhi
  have hfirst : ∀ t ∈ z₁.regs.tokens, t.Bad r B ∨ t.Throws B →
      B t.span.2 = o := by
    intro t ht hspoiled
    obtain ⟨hlo, hhi⟩ := ((sweep_tokens hz₁).2 t ht).resolve_left
      fun hmem => hwhole t hmem hspoiled
    exact hp.1.base hlo hhi
  rw [List.flatten_cons, sweep_append seg hz₁] at hz
  split at hz
  next hrun =>
      rw [(sweep_pos seg hz₁).1 hrun] at hz
      obtain ⟨hsub, hnew⟩ := sweep_tokens hz
      refine ⟨hsub, hfirst, hall, fun t ht => (hnew t ht).imp id fun hin => ?_⟩
      have := pieces_base_ge _ hp.2 hin.1 hin.2
      omega
  next =>
      subst hz
      exact ⟨fun _ => id, hfirst, hall, fun _ => .inl⟩

/-- `readFixSize` when the bytes are not there. -/
theorem Conn.readFixSize_short :
    ∀ {fuel : Nat} {c : Conn} {left : Nat}, c.Live → left < fuel →
      c.unread.length < left →
      (c.waits = true → c.readFixSize fuel left = .error .waiting)
        ∧ (c.waits = false →
          ∃ c', c.readFixSize fuel left = .ok (none, c')) := by
  intro fuel
  induction fuel with
  | zero =>
      intro c left _ hfuel
      exact absurd hfuel (Nat.not_lt_zero left)
  | succ fuel ih =>
      intro c left hc hfuel hlt
      have hleft : left ≠ 0 := by omega
      rw [readFixSize, if_neg hleft]
      by_cases hu : c.unread = []
      · have hsegs : c.segs = [] := by
          cases hsegs : c.segs with
          | nil => rfl
          | cons seg rest =>
              rw [unread, hsegs, List.flatten_cons] at hu
              exact absurd (List.append_eq_nil_iff.mp hu).1
                (hc seg (hsegs ▸ List.mem_cons_self))
        rw [read, hsegs]
        refine ⟨fun hw => ?_, fun hw => ⟨c, ?_⟩⟩
        all_goals
          rw [hw]
          rfl
      · obtain ⟨bs, c₁, hread, hbs⟩ := read_ok hc (Nat.pos_of_ne_zero hleft) hu
        obtain ⟨htook, hlen⟩ := read_took hread
        have hunread := congrArg List.length htook.unread
        rw [List.length_append] at hunread
        have hpos := List.length_pos_iff.mpr hbs
        obtain ⟨hwaits, hends⟩ := ih (htook.live hc)
          (show left - bs.length < fuel by omega) (by omega)
        rw [htook.waits] at hwaits hends
        rw [hread]
        refine ⟨fun hw => ?_, fun hw => ?_⟩
        · change (if bs = [] then _ else _) = _
          rw [if_neg hbs, hwaits hw]
          rfl
        · obtain ⟨c₂, hnone⟩ := hends hw
          refine ⟨c₂, ?_⟩
          change (if bs = [] then _ else _) = _
          rw [if_neg hbs, hnone]
          rfl

namespace HttpSession

variable {env : SessionEnv} {c c' : Conn}

/-- A read that brings what the parser refuses: the call ends, with an
exception where a callback throws and without a request otherwise. -/
theorem recvHeader_refused (fuel : Nat) {ps : HttpRequestParser} {y : Scan}
    {z : Stop Scan} (hread : c.read env.bufferSize = .ok (seg, c'))
    (hne : seg ≠ []) (hseg : Piece r B o seg) (h : Ready r B o ps y)
    (hcalm : Calm B y.tokens)
    (hz : sweep (RequestTable.transition env.uninit.uriRelaxed)
      HttpAction.isDone Scan.act o seg ps.cs y = z)
    (hbad : z.halt = .failed ∨ replay r B z.regs.tokens = none) :
    (Calm B z.regs.tokens
        ∧ recvHeader env (fuel + 1) ps [] c = .ok (none, c'))
      ∨ ¬ Calm B z.regs.tokens
        ∧ ∃ e, recvHeader env (fuel + 1) ps [] c = .error (.threw e) := by
  obtain ⟨hok, hthrow⟩ := execute_calm (u := env.uninit) hseg hne h hcalm hz
  cases hx : ps.execute env.uninit seg with
  | error e => exact .inr ⟨hthrow hx, e, recvHeader_threw hread hne hx⟩
  | ok out =>
      obtain ⟨n, ps'⟩ := out
      obtain ⟨-, hfail, hrel, -⟩ :=
        (execute_scan (u := env.uninit) hseg hne h hz).1 hx
      refine .inl ⟨hok hx, recvHeader_error hread hne hx ?_⟩
      rw [HttpRequestParser.hasError, Bool.or_eq_true, decide_eq_true_eq,
        decide_eq_true_eq]
      by_cases hf : z.halt = .failed
      · exact .inr (hfail hf)
      · have hnone := hbad.resolve_left hf
        apply Or.inl
        intro h0
        rw [(hrel hf).2.2.holds.1 h0] at hnone
        cases hnone

/-- Over the pieces of a text the first loop ends without a request
exactly when a callback reports an error before one throws, or none
throws and the header section is malformed or cut short by the end of the
stream. -/
theorem recvHeader_none_iff (waits : Bool) (segs : List Bytes) :
    ∀ {o fuel : Nat} {ps : HttpRequestParser} {y : Scan} {z : Stop Scan},
      Pieces r B o segs →
      (∀ seg ∈ segs, seg ≠ [] ∧ seg.length ≤ env.bufferSize) →
      Ready r B o ps y → replay r B y.tokens ≠ none →
      segs.flatten.length < fuel →
      sweep (RequestTable.transition env.uninit.uriRelaxed)
        HttpAction.isDone Scan.act o segs.flatten ps.cs y = z →
      ((∃ c', recvHeader env fuel ps [] ⟨segs, waits⟩ = .ok (none, c'))
        ↔ Refused r B z.regs.tokens
          ∨ Calm B z.regs.tokens
            ∧ (z.halt = .failed ∨ z.halt = .running ∧ waits = false)) := by
  induction segs with
  | nil =>
      intro o fuel ps y z _ _ _ hy hfuel hz
      cases hz
      have hbad : ¬ Refused r B y.tokens := by
        intro hrefused
        obtain ⟨t, ht, hbad, -⟩ := hrefused
        exact hy (replay_none_iff.mpr ⟨t, ht, .inl hbad⟩)
      have hcalm : Calm B y.tokens := fun t ht hthrows =>
        hy (replay_none_iff.mpr ⟨t, ht, .inr hthrows⟩)
      obtain ⟨fuel, rfl⟩ : ∃ n, fuel = n + 1 := ⟨fuel - 1, by omega⟩
      rw [recvHeader, Conn.read]
      cases waits with
      | true =>
          refine ⟨fun hsome => ?_, fun hor => ?_⟩
          · obtain ⟨c', h⟩ := hsome
            cases h
          · rcases hor with hor | ⟨-, hor | ⟨-, hor⟩⟩
            · exact absurd hor hbad
            · cases hor
            · cases hor
      | false =>
          exact ⟨fun _ => .inr ⟨hcalm, .inr ⟨rfl, rfl⟩⟩, fun _ => ⟨_, rfl⟩⟩
  | cons seg rest ih =>
      intro o fuel ps y z hp hsegs hready hy hfuel hz
      obtain ⟨hne, hsize⟩ := hsegs seg List.mem_cons_self
      have hrest : ∀ s ∈ rest, s ≠ [] ∧ s.length ≤ env.bufferSize :=
        fun s hs => hsegs s (List.mem_cons_of_mem _ hs)
      have hcalm : Calm B y.tokens := fun t ht hthrows =>
        hy (replay_none_iff.mpr ⟨t, ht, .inr hthrows⟩)
      obtain ⟨fuel, rfl⟩ : ∃ n, fuel = n + 1 := ⟨fuel - 1, by omega⟩
      obtain ⟨z₁, hz₁⟩ : ∃ z₁, sweep
          (RequestTable.transition env.uninit.uriRelaxed)
          HttpAction.isDone Scan.act o seg ps.cs y = z₁ := ⟨_, rfl⟩
      obtain ⟨hsub, hfirst, hall, hlater⟩ := sweep_spoiled hp hne hy hz₁ hz
      have hpos := List.length_pos_iff.mpr hne
      rw [List.flatten_cons, List.length_append] at hfuel
      rw [List.flatten_cons, sweep_append seg hz₁] at hz
      rcases recvHeader_step fuel (Conn.read_cons hsize) hne hp.1 hready hz₁
        with ⟨hbad, -⟩ | ⟨ps', hdata,
          ⟨hhalt, hout⟩ | ⟨hhalt, hcs, hready', hout⟩⟩
      · rcases recvHeader_refused fuel (Conn.read_cons hsize) hne hp.1 hready
          hcalm hz₁ hbad with ⟨hcalm₁, hout⟩ | ⟨hthrow, e, hout⟩
        · refine ⟨fun _ => ?_, fun _ => ⟨_, hout⟩⟩
          rcases hbad with hfail | hnone
          · rw [if_neg (by rw [hfail]; exact Halt.noConfusion)] at hz
            rw [← hz]
            exact .inr ⟨hcalm₁, .inl hfail⟩
          · -- the error is in this piece, and what throws comes later
            obtain ⟨t, ht, hspoiled⟩ := replay_none_iff.mp hnone
            refine .inl ⟨t, hsub t ht, hspoiled.resolve_right (hcalm₁ t ht),
              fun t' ht' hthrows => ?_⟩
            rw [hfirst t ht hspoiled]
            exact (hlater t' ht').resolve_left fun hmem =>
              hcalm₁ t' hmem hthrows
        · refine ⟨fun hsome => ?_, fun hor => ?_⟩
          · obtain ⟨c', h⟩ := hsome
            rw [hout] at h
            cases h
          · refine absurd ?_ hthrow
            intro t' ht' hthrows
            rcases hor with ⟨t, ht, hbad, hbefore⟩ | ⟨hcalm', -⟩
            · have hlt := hbefore t' (hsub t' ht') hthrows
              have hle := hall t ht (.inl hbad)
              rw [hfirst t' ht' (.inr hthrows)] at hlt
              omega
            · exact hcalm' t' (hsub t' ht') hthrows
      · rw [if_neg (by rw [hhalt]; exact Halt.noConfusion)] at hz
        subst hz
        refine ⟨fun hsome => ?_, fun hor => ?_⟩
        · obtain ⟨c', h⟩ := hsome
          rw [hout] at h
          cases h
        · rcases hor with ⟨t, ht, hbad, -⟩ | ⟨-, hfail | ⟨hrun, -⟩⟩
          · have hnone := replay_none_iff.mpr ⟨t, ht, .inl hbad⟩
            rw [hdata] at hnone
            cases hnone
          · rw [hhalt] at hfail
            cases hfail
          · rw [hhalt] at hrun
            cases hrun
      · rw [if_pos hhalt, (sweep_pos seg hz₁).1 hhalt, ← hcs] at hz
        rw [hout]
        exact ih hp.2 hrest hready' (by rw [hdata]; exact Option.some_ne_none _)
          (by omega) hz

/-- The rest of `recvRequest` ends without a request exactly when the end
of the stream cuts the body short. -/
theorem recvRest_none_iff {length : Int} {d : HttpRequest} {kept : Bytes}
    (hc : c.Live) :
    (∃ c', recvRest length d kept c = .ok (none, c'))
      ↔ (kept ++ c.unread).length < length.toNat ∧ c.waits = false := by
  by_cases hle : length.toNat ≤ (kept ++ c.unread).length
  · refine ⟨fun hsome => ?_, fun h => absurd hle (not_le.mpr h.1)⟩
    obtain ⟨c', h⟩ := hsome
    obtain ⟨req, c₁, hok⟩ := recvRest_ok (d := d) hc hle
    rw [hok] at h
    cases h
  · have hlen : (kept ++ c.unread).length = kept.length + c.unread.length :=
      List.length_append
    obtain ⟨hwaits, hends⟩ := Conn.readFixSize_short hc
      (Nat.lt_succ_self (length - kept.length).toNat) (by omega)
    rw [recvRest, if_pos (by omega), recvBody]
    dsimp only
    rw [if_pos (by omega)]
    cases hw : c.waits with
    | true =>
        rw [hwaits hw]
        refine ⟨fun hsome => ?_, fun h => Bool.noConfusion h.2⟩
        obtain ⟨c', h⟩ := hsome
        cases h
    | false =>
        obtain ⟨c₁, hnone⟩ := hends hw
        rw [hnone]
        exact ⟨fun _ => ⟨not_le.mp hle, rfl⟩, fun _ => ⟨_, rfl⟩⟩

/-- The sequencing of `recvRequest`, for no request. -/
private theorem sequence_none
    {x : Except Halted (Option (HttpRequestParser × Bytes) × Conn)}
    {rest : HttpRequestParser → Bytes → Conn →
      Except Halted (Option HttpRequest × Conn)} :
    (∃ c', (do
      let (r, c) ← x
      match r with
      | none => pure (none, c)
      | some (ps, kept) => rest ps kept c) = .ok (none, c'))
      ↔ (∃ c', x = .ok (none, c'))
        ∨ ∃ ps kept c₁, x = .ok (some (ps, kept), c₁)
          ∧ ∃ c', rest ps kept c₁ = .ok (none, c') := by
  cases x with
  | error e =>
      refine ⟨fun hsome => ?_, fun hor => ?_⟩
      · obtain ⟨c', h⟩ := hsome
        cases h
      · rcases hor with ⟨c', h⟩ | ⟨ps, kept, c₁, h, -⟩ <;> cases h
  | ok out =>
      obtain ⟨_ | ⟨ps, kept⟩, c₁⟩ := out
      · exact ⟨fun _ => .inl ⟨c₁, rfl⟩, fun _ => ⟨c₁, rfl⟩⟩
      · refine ⟨fun hsome => .inr ⟨ps, kept, c₁, rfl, hsome⟩, fun hor => ?_⟩
        rcases hor with ⟨c', h⟩ | ⟨ps', kept', c₂, h, hrest⟩
        · cases h
        · cases h
          exact hrest

theorem recvRequest_none :
    (∃ c', recvRequest env c = .ok (none, c'))
      ↔ (∃ c', recvHeader env (c.unread.length + 1)
          (HttpRequestParser.new env.uninit) [] c = .ok (none, c'))
        ∨ ∃ ps kept c₁, recvHeader env (c.unread.length + 1)
            (HttpRequestParser.new env.uninit) [] c
              = .ok (some (ps, kept), c₁)
          ∧ ∃ c', recvRest (contentLength env ps.regs.data) ps.regs.data kept
            c₁ = .ok (none, c') :=
  sequence_none

/-- The stream lacks the blank line, or bytes of the body. -/
def CutShort (env : SessionEnv) (segs : List Bytes) : Prop :=
  (scan env.uninit.uriRelaxed segs.flatten).halt = .running
    ∨ (scan env.uninit.uriRelaxed segs.flatten).halt = .finished
      ∧ ∃ d, replay segs.flatten (base segs)
          (scan env.uninit.uriRelaxed segs.flatten).regs.tokens = some d
        ∧ (segs.flatten.drop
            (scan env.uninit.uriRelaxed segs.flatten).pos).length
          < (contentLength env d).toNat

/-- `recvRequest` returns no request exactly when a callback reports an
error before one throws, or none throws and the header section is
malformed, or the message is cut short by the end of the stream. -/
theorem recvRequest_none_iff {segs : List Bytes} {waits : Bool}
    (hsegs : ∀ seg ∈ segs, seg ≠ [] ∧ seg.length ≤ env.bufferSize) :
    (∃ c', recvRequest env ⟨segs, waits⟩ = .ok (none, c'))
      ↔ Refused segs.flatten (base segs)
          (scan env.uninit.uriRelaxed segs.flatten).regs.tokens
        ∨ Calm (base segs)
            (scan env.uninit.uriRelaxed segs.flatten).regs.tokens
          ∧ ((scan env.uninit.uriRelaxed segs.flatten).halt = .failed
            ∨ CutShort env segs ∧ waits = false) := by
  obtain ⟨z, hz⟩ : ∃ z, scan env.uninit.uriRelaxed segs.flatten = z :=
    ⟨_, rfl⟩
  have hp := pieces_base segs
  obtain ⟨hsound, hcomplete⟩ : _ ∧ _ := recvHeader_pieces segs hp hsegs
    ready_new (Nat.lt_succ_self _) hz
  have hnone := recvHeader_none_iff waits segs hp hsegs
    (ready_new (u := env.uninit))
    (by rw [replay]; exact Option.some_ne_none _) (Nat.lt_succ_self _) hz
  rw [CutShort, hz]
  refine recvRequest_none.trans ?_
  constructor
  · intro hor
    rcases hor with hloop | ⟨ps, kept, c₁, hh, hrest⟩
    · rcases hnone.mp hloop with hrefused | ⟨hcalm, hfail | ⟨hrun, hw⟩⟩
      · exact .inl hrefused
      · exact .inr ⟨hcalm, .inl hfail⟩
      · exact .inr ⟨hcalm, .inr ⟨.inl hrun, hw⟩⟩
    · obtain ⟨hfin, hdata, htail, hwaits, hlive⟩ := hsound hh
      obtain ⟨hlt, hw⟩ := (recvRest_none_iff hlive).mp hrest
      rw [htail, Nat.sub_zero] at hlt
      refine .inr ⟨fun t ht hthrows => ?_, .inr ⟨.inr ⟨hfin, _, hdata, hlt⟩,
        hwaits.symm.trans hw⟩⟩
      rw [replay_none_iff.mpr ⟨t, ht, .inr hthrows⟩] at hdata
      cases hdata
  · intro hor
    rcases hor with hrefused | ⟨hcalm, hfail | ⟨hrun | ⟨hfin, d, hd, hlt⟩, hw⟩⟩
    · exact .inl (hnone.mpr (.inl hrefused))
    · exact .inl (hnone.mpr (.inr ⟨hcalm, .inl hfail⟩))
    · exact .inl (hnone.mpr (.inr ⟨hcalm, .inr ⟨hrun, hw⟩⟩))
    · obtain ⟨ps, kept, c₁, hh⟩ :=
        hcomplete hfin (by rw [hd]; exact Option.some_ne_none d)
      obtain ⟨-, hdata, htail, hwaits, hlive⟩ := hsound hh
      rw [Nat.sub_zero] at htail
      rw [Option.some.inj (hd.symm.trans hdata), ← htail] at hlt
      exact .inr ⟨ps, kept, c₁, hh,
        (recvRest_none_iff hlive).mpr ⟨hlt, hwaits.trans hw⟩⟩

end HttpSession

-- ================================================================ the buffer

/-- The length of the header section: up to the end of the first blank
line, or all there is when there is none. As in the grammar, a line ends
in `\r\n` or `\n`. -/
def headerLength : Bytes → Nat
  | 10 :: 10 :: _ => 2
  | 10 :: 13 :: 10 :: _ => 3
  | [] => 0
  | _ :: r => headerLength r + 1

open HttpSession in
/-- A stream with a header section longer than the buffer is refused
exactly when one of the reasons to refuse any stream is there. -/
theorem oversized_refused_iff {env : SessionEnv} {segs : List Bytes}
    {waits : Bool}
    (hsegs : ∀ seg ∈ segs, seg ≠ [] ∧ seg.length ≤ env.bufferSize) :
    (env.bufferSize < headerLength segs.flatten →
        ∃ c', recvRequest env ⟨segs, waits⟩ = .ok (none, c'))
      ↔ (env.bufferSize < headerLength segs.flatten →
        Refused segs.flatten (base segs)
            (scan env.uninit.uriRelaxed segs.flatten).regs.tokens
          ∨ Calm (base segs)
              (scan env.uninit.uriRelaxed segs.flatten).regs.tokens
            ∧ ((scan env.uninit.uriRelaxed segs.flatten).halt = .failed
              ∨ CutShort env segs ∧ waits = false)) :=
  imp_congr_right fun _ => recvRequest_none_iff hsegs

/-- A buffer of 16 bytes. -/
def smallEnv : SessionEnv := ⟨16, decimal, ⟨false, 0⟩⟩

open HttpSession in
/-- A cut inside the method: what is seen of it is no method. -/
theorem oversized_refused_iff_cut_method :
    16 < headerLength (ascii "GET / HTTP/1.1\r\n\r\n")
      ∧ ∃ c, recvRequest smallEnv
        ⟨[ascii "GE", ascii "T / HTTP/1.1\r\n", ascii "\r\n"], true⟩
          = .ok (none, c) :=
  ⟨by decide +kernel,
    (oversized_refused_iff
      (show ∀ seg ∈ [ascii "GE", ascii "T / HTTP/1.1\r\n", ascii "\r\n"],
        seg ≠ [] ∧ seg.length ≤ smallEnv.bufferSize by decide +kernel)).mpr
      (fun _ => .inl (by decide +kernel)) (by decide +kernel)⟩

open HttpSession in
/-- A header section of 18 bytes in a buffer of 16, in two reads: the
request is returned. -/
theorem oversized_accepted :
    ¬ (16 < headerLength [ascii "GET / HTTP/1.1\r\n", ascii "\r\n"].flatten →
      ∃ c, recvRequest smallEnv
        ⟨[ascii "GET / HTTP/1.1\r\n", ascii "\r\n"], true⟩
          = .ok (none, c)) := by
  intro h
  obtain ⟨c, hnone⟩ := h (by decide +kernel)
  have hsome : recvRequest smallEnv
      ⟨[ascii "GET / HTTP/1.1\r\n", ascii "\r\n"], true⟩
        = .ok (some ⟨.get, 0x11, true, ascii "/", [], [], [], []⟩,
          ⟨[], true⟩) := by
    decide +kernel
  rw [hsome] at hnone
  cases hnone

end TinyServer.Http
