/-
`recvRequest` against the scan.

`recvHeader_iff`: over the pieces of a text, the first loop of
`recvRequest` returns exactly when the scan of the whole text finishes
and its tokens can all be written; the request under construction is then
what they build (`replay`), and what the loop left in the buffer and in
the stream is the text behind the header. `recvBody_iff` is the same for
the body: its bytes do not depend on the segments.
-/
import TinyServer.Http.Session
import TinyServer.Http.Proofs.Replay
import TinyServer.Http.Proofs.Stream

namespace TinyServer.Http

open Lib

variable {r bs : Bytes} {B : Nat → Nat} {o : Nat} {y : Scan} {u : Uninit}
  {ps ps' : HttpRequestParser}

-- ================================================================== body_start

namespace RequestRegs

variable {x x' : RequestRegs} {buf : Bytes} {p : Nat} {a : HttpAction}

/-- No callback stores a body or touches `mark` and `body_start`. -/
theorem perform_frame (hm : a ≠ .mark) (hd : a ≠ .done)
    (h : x.perform buf p a = .ok x') :
    x'.data.body = x.data.body ∧ x'.mark = x.mark
      ∧ x'.bodyStart = x.bodyStart := by
  have hmap : ∀ {s : Except Thrown Bytes} {f : Bytes → RequestRegs},
      (∀ v, (f v).data.body = x.data.body ∧ (f v).mark = x.mark
        ∧ (f v).bodyStart = x.bodyStart) → f <$> s = .ok x' →
      x'.data.body = x.data.body ∧ x'.mark = x.mark
        ∧ x'.bodyStart = x.bodyStart := by
    intro s f hf h
    cases s with
    | error e => cases h
    | ok v =>
        cases h
        exact hf v
  cases a with
  | mark => exact absurd rfl hm
  | done => exact absurd rfl hd
  | startField | writeField | requestUri | startQuery | xml | json =>
      cases h
      exact ⟨rfl, rfl, rfl⟩
  | requestPath =>
      exact hmap (f := x.onRequestPath) (fun _ => ⟨rfl, rfl, rfl⟩) h
  | fragment =>
      exact hmap (f := x.onRequestFragment) (fun _ => ⟨rfl, rfl, rfl⟩) h
  | queryString =>
      exact hmap (f := x.onRequestQuery) (fun _ => ⟨rfl, rfl, rfl⟩) h
  | requestMethod =>
      cases h
      simp only [onRequestMethod]
      split <;> exact ⟨rfl, rfl, rfl⟩
  | httpVersion =>
      cases h
      simp only [onRequestVersion]
      split
      · exact ⟨rfl, rfl, rfl⟩
      · split <;> exact ⟨rfl, rfl, rfl⟩
  | writeValue =>
      simp only [perform] at h
      split at h
      next =>
          cases h
          exact ⟨rfl, rfl, rfl⟩
      next =>
          cases hkey : stdString buf x.fieldStart x.fieldLen with
          | error e =>
              rw [hkey] at h
              cases h
          | ok key =>
              cases hval : stdString buf x.mark (len x.mark p) with
              | error e =>
                  rw [hkey, hval] at h
                  cases h
              | ok val =>
                  rw [hkey, hval] at h
                  cases h
                  exact ⟨rfl, rfl, rfl⟩

/-- At the offset `p`, `mark` is not past it, and `body_start` past it by
one at most. -/
structure Within (p : Nat) (x : RequestRegs) : Prop where
  mark : x.mark ≤ p
  bodyStart : x.bodyStart ≤ p + 1

/-- An action writes `body_start` only when it is `done`. -/
theorem Within.act (hx : Within p x) (h : x.perform buf p a = .ok x') :
    Within p x' ∧ (a.isDone = false → x'.bodyStart = x.bodyStart) := by
  by_cases hm : a = .mark
  · subst hm
    cases h
    exact ⟨⟨Nat.le_refl p, hx.bodyStart⟩, fun _ => rfl⟩
  · by_cases hd : a = .done
    · subst hd
      simp only [RequestRegs.perform] at h
      split at h
      · cases h
        exact ⟨⟨hx.mark, Nat.le_succ_of_le hx.mark⟩, fun hf => by cases hf⟩
      · cases h
        exact ⟨⟨hx.mark, Nat.le_refl _⟩, fun hf => by cases hf⟩
    · obtain ⟨-, hmark, hbody⟩ := perform_frame hm hd h
      exact ⟨⟨hmark ▸ hx.mark, hbody ▸ hx.bodyStart⟩, fun _ => hbody⟩

/-- So do the actions of a transition. -/
theorem Within.actions (acts : List HttpAction) : ∀ {x : RequestRegs},
    Within p x → acts.foldlM (fun x a => perform buf p a x) x = .ok x' →
      Within p x'
        ∧ (acts.any HttpAction.isDone = false →
          x'.bodyStart = x.bodyStart) := by
  induction acts with
  | nil =>
      intro x hx h
      cases h
      exact ⟨hx, fun _ => rfl⟩
  | cons a acts ih =>
      intro x hx h
      rw [List.foldlM_cons] at h
      cases ha : x.perform buf p a with
      | error e =>
          rw [ha] at h
          cases h
      | ok x₁ =>
          rw [ha] at h
          obtain ⟨hx₁, hsame⟩ := hx.act ha
          obtain ⟨hx', hrest⟩ := ih hx₁ h
          refine ⟨hx', fun hnone => ?_⟩
          rw [List.any_cons, Bool.or_eq_false_iff] at hnone
          exact (hrest hnone.2).trans (hsame hnone.1)

end RequestRegs

/-- Where a buffer ends in which `body_start` was zero at first, it is in
the buffer, and zero unless the request is finished. -/
theorem drive_bodyStart {relaxed : Bool} {cs : Nat} {x : RequestRegs}
    {s : Stop RequestRegs} (hm : x.mark = 0) (hx : x.bodyStart = 0)
    (hd : drive (RequestTable.transition relaxed) HttpAction.isDone
      (RequestRegs.perform bs) 0 bs cs x = .ok s) :
    s.regs.bodyStart ≤ bs.length
      ∧ (s.regs.bodyStart = 0 ∨ RequestTable.firstFinal ≤ s.cs) := by
  obtain ⟨hpos, hfin, hrun, hfail⟩ := drive_keeps
    (I := fun _ p x => x.mark ≤ p ∧ x.bodyStart = 0)
    (J := fun cs p x => RequestTable.firstFinal ≤ cs ∧ x.bodyStart ≤ p)
    (fun _ hnone hx hacts => by
      obtain ⟨hin, hsame⟩ := RequestRegs.Within.actions _
        ⟨hx.1, hx.2 ▸ Nat.zero_le _⟩ hacts
      exact ⟨Nat.le_succ_of_le hin.mark, (hsame hnone).trans hx.2⟩)
    (fun hnext hlast hx hacts => ⟨(transition_last hnext).mp hlast,
      (RequestRegs.Within.actions _
        ⟨hx.1, hx.2 ▸ Nat.zero_le _⟩ hacts).1.bodyStart⟩)
    bs ⟨Nat.le_of_eq hm, hx⟩ hd
  have hzero : s.regs.bodyStart = 0 → s.regs.bodyStart ≤ bs.length
      ∧ (s.regs.bodyStart = 0 ∨ RequestTable.firstFinal ≤ s.cs) :=
    fun h0 => ⟨h0 ▸ Nat.zero_le _, .inl h0⟩
  cases hhalt : s.halt with
  | finished =>
      obtain ⟨hcs, hle⟩ := hfin hhalt
      exact ⟨by omega, .inr hcs⟩
  | running => exact hzero (hrun hhalt).2
  | failed =>
      obtain ⟨-, _, -, h0⟩ := hfail hhalt
      exact hzero h0

-- ================================================================= one buffer

/-- The registers on entry to `http_parser_execute`, when the last buffer
was consumed up to its end. -/
theorem Rel.rewind {k : Sketch} {p : Nat} {x : RequestRegs}
    (h : Rel r B o k p x y) : Rel r B (o + p) k 0 x.rewind y := by
  have hm := h.mark_le
  have hs := h.fieldStart_le
  refine ⟨hm, ?_, hs, ?_, fun hf => ?_, h.queryStart, h.holds⟩
  · exact (Nat.sub_eq_zero_of_le hm).symm
  · exact (Nat.sub_eq_zero_of_le hs).symm
  · obtain ⟨h1, h2, -⟩ := h.fieldLen hf
    refine ⟨h1, h2, ?_⟩
    show (0 : Int) = _
    omega

/-- What holds of a parser between two buffers. -/
structure Ready (r : Bytes) (B : Nat → Nat) (o : Nat)
    (ps : HttpRequestParser) (y : Scan) : Prop where
  cs_pos : ps.cs ≠ 0
  not_final : ¬ RequestTable.firstFinal ≤ ps.cs
  bodyStart : ps.regs.bodyStart = 0
  rel : Rel r B o (sketchOf ps.cs) 0 ps.regs.rewind y

/-- A new parser has read nothing. -/
theorem ready_new : Ready r B 0 (HttpRequestParser.new u) Scan.init :=
  ⟨Nat.one_ne_zero, show ¬ 348 ≤ 1 by decide, rfl, le_rfl, rfl, le_rfl, rfl,
    fun hf => (by cases hf), fun hq => (by cases hq), fun _ => rfl,
    fun h => absurd rfl h⟩

/-- `HttpRequestParser::execute` is a run of the machine over its data,
and an assertion about `body_start`. -/
theorem execute_of_drive_ok {s : Stop RequestRegs} (hbs : bs ≠ [])
    (hd : drive (RequestTable.transition u.uriRelaxed) HttpAction.isDone
      (RequestRegs.perform bs) 0 bs ps.cs ps.regs.rewind = .ok s) :
    ps.execute u bs = if s.regs.bodyStart ≤ bs.length
      then .ok (s.pos, ⟨if ps.cs = 0 then 0 else s.cs, s.regs⟩)
      else .error .assertion := by
  rw [HttpRequestParser.execute, if_neg hbs, hd]
  rfl

/-- A failed assertion in an action is one of the call. -/
theorem execute_of_drive_error {e : Thrown} (hbs : bs ≠ [])
    (hd : drive (RequestTable.transition u.uriRelaxed) HttpAction.isDone
      (RequestRegs.perform bs) 0 bs ps.cs ps.regs.rewind = .error e) :
    ps.execute u bs = .error e := by
  rw [HttpRequestParser.execute, if_neg hbs, hd]
  rfl

/-- A call that returns has run the machine. -/
theorem execute_eq_ok {n : Nat} (hbs : bs ≠ [])
    (hx : ps.execute u bs = .ok (n, ps')) :
    ∃ s, drive (RequestTable.transition u.uriRelaxed) HttpAction.isDone
        (RequestRegs.perform bs) 0 bs ps.cs ps.regs.rewind = .ok s
      ∧ n = s.pos ∧ ps' = ⟨if ps.cs = 0 then 0 else s.cs, s.regs⟩ := by
  cases hd : drive (RequestTable.transition u.uriRelaxed) HttpAction.isDone
      (RequestRegs.perform bs) 0 bs ps.cs ps.regs.rewind with
  | error e =>
      rw [execute_of_drive_error hbs hd] at hx
      cases hx
  | ok s =>
      rw [execute_of_drive_ok hbs hd] at hx
      split at hx
      next =>
          cases hx
          exact ⟨s, rfl, rfl, rfl⟩
      next => cases hx

/-- Before the end of a request the assertion does not fail. -/
theorem execute_cases (hbs : bs ≠ []) (hcs : ps.cs ≠ 0)
    (hbody : ps.regs.bodyStart = 0) :
    (∃ s, drive (RequestTable.transition u.uriRelaxed) HttpAction.isDone
        (RequestRegs.perform bs) 0 bs ps.cs ps.regs.rewind = .ok s
      ∧ (s.regs.bodyStart = 0 ∨ RequestTable.firstFinal ≤ s.cs)
      ∧ ps.execute u bs = .ok (s.pos, ⟨s.cs, s.regs⟩))
    ∨ ∃ e, drive (RequestTable.transition u.uriRelaxed) HttpAction.isDone
        (RequestRegs.perform bs) 0 bs ps.cs ps.regs.rewind = .error e
      ∧ ps.execute u bs = .error e := by
  cases hd : drive (RequestTable.transition u.uriRelaxed) HttpAction.isDone
      (RequestRegs.perform bs) 0 bs ps.cs ps.regs.rewind with
  | error e => exact .inr ⟨e, rfl, execute_of_drive_error hbs hd⟩
  | ok s =>
      obtain ⟨hle, hzero⟩ :=
        drive_bodyStart (x := ps.regs.rewind) rfl hbody hd
      refine .inl ⟨s, rfl, hzero, ?_⟩
      rw [execute_of_drive_ok hbs hd, if_pos hle, if_neg hcs]

/-- `HttpRequestParser::execute` on one piece of the text, and the scan
over that piece. -/
theorem execute_scan {z : Stop Scan} (hseg : Piece r B o bs) (hbs : bs ≠ [])
    (h : Ready r B o ps y)
    (hz : sweep (RequestTable.transition u.uriRelaxed) HttpAction.isDone
      Scan.act o bs ps.cs y = z) :
    (∀ {n : Nat} {ps' : HttpRequestParser}, ps.execute u bs = .ok (n, ps') →
        z.pos = o + n ∧ (z.halt = .failed → ps'.cs = 0)
          ∧ (z.halt ≠ .failed → ps'.cs ≠ 0 ∧ ps'.cs = z.cs
              ∧ Rel r B o (sketchOf ps'.cs) n ps'.regs z.regs)
          ∧ (z.halt = .running → ¬ RequestTable.firstFinal ≤ ps'.cs
              ∧ ps'.regs.bodyStart = 0)
          ∧ (z.halt = .finished → RequestTable.firstFinal ≤ ps'.cs))
      ∧ ∀ {e : Thrown}, ps.execute u bs = .error e →
          replay r B z.regs.tokens = none := by
  obtain ⟨hok, hthrow⟩ := drive_scan hseg h.rel hz
  have hpos : z.halt ≠ .failed → z.cs ≠ 0 :=
    sweep_inv (I := fun _ cs _ => cs ≠ 0)
      (fun hnext _ => transition_pos hnext) bs h.cs_pos hz
  obtain ⟨hrun, hfin⟩ :=
    sweep_last (Q := fun cs => RequestTable.firstFinal ≤ cs)
      transition_last bs h.not_final hz
  rcases execute_cases (u := u) hbs h.cs_pos h.bodyStart with
    ⟨s, hd, hzero, hexec⟩ | ⟨e, hd, hexec⟩
  · rw [hexec]
    refine ⟨fun hx => ?_, fun he => by cases he⟩
    obtain ⟨hhalt, hp, hcs, hR⟩ := hok hd
    cases hx
    have hgoes : z.halt = .running → s.regs.bodyStart = 0 := fun hr =>
      hzero.resolve_right (hcs ▸ hrun hr)
    rw [← hcs]
    refine ⟨hp, sweep_failed bs hz, fun hf => ⟨hpos hf, rfl, ?_⟩,
      fun hr => ⟨hrun hr, hgoes hr⟩, hfin⟩
    have hrel := hR (hhalt ▸ hf)
    rwa [← hcs] at hrel
  · rw [hexec]
    exact ⟨fun hx => (by cases hx), fun _ => hthrow hd⟩

-- ================================================================ one read

namespace HttpSession

variable {env : SessionEnv} {c c' : Conn} {fuel n : Nat} {e : Thrown}

/-- A read that fails ends the loop. -/
theorem recvHeader_closed (hread : c.read env.bufferSize = .ok ([], c')) :
    recvHeader env (fuel + 1) ps [] c = .ok (none, c'.close) := by
  rw [recvHeader, List.length_nil, Nat.sub_zero, hread]
  rfl

section

variable (hread : c.read env.bufferSize = .ok (bs, c')) (hbs : bs ≠ [])

include hread hbs

/-- It ends the program. -/
theorem recvHeader_threw (hx : ps.execute env.uninit bs = .error e) :
    recvHeader env (fuel + 1) ps [] c = .error (.threw e) := by
  rw [recvHeader, List.length_nil, Nat.sub_zero, hread]
  change (if bs = [] then _ else _) = _
  rw [if_neg hbs, List.nil_append, hx]

/-- An error of the parser closes the connection. -/
theorem recvHeader_error (hx : ps.execute env.uninit bs = .ok (n, ps'))
    (herr : ps'.hasError = true) :
    recvHeader env (fuel + 1) ps [] c = .ok (none, c') := by
  rw [recvHeader, List.length_nil, Nat.sub_zero, hread]
  change (if bs = [] then _ else _) = _
  rw [if_neg hbs, List.nil_append, hx]
  exact if_pos herr

/-- What is left of a buffer of which the parser consumed a byte is not
a full buffer. -/
theorem recvHeader_parsed (hx : ps.execute env.uninit bs = .ok (n, ps'))
    (herr : ps'.hasError = false) (hn : 0 < n) :
    recvHeader env (fuel + 1) ps [] c
      = if ps'.isFinished ≠ 0 then .ok (some (ps', bs.drop n), c')
        else recvHeader env fuel ps' (bs.drop n) c' := by
  have hlen := (Conn.read_took hread).2
  have hpos := List.length_pos_iff.mpr hbs
  rw [recvHeader, List.length_nil, Nat.sub_zero, hread]
  change (if bs = [] then _ else _) = _
  rw [if_neg hbs, List.nil_append, hx]
  change (if ps'.hasError = true then _ else _) = _
  rw [if_neg (by rw [herr]; exact Bool.false_ne_true)]
  change (if (bs.drop n).length = env.bufferSize then _ else _) = _
  rw [if_neg (by rw [List.length_drop]; omega)]
  rfl

end

/-- One iteration of the first loop: the scan of the piece that was read
decides between no request at all, the end of the loop, and the next
iteration. -/
theorem recvHeader_step (fuel : Nat) {z : Stop Scan}
    (hread : c.read env.bufferSize = .ok (bs, c')) (hbs : bs ≠ [])
    (hseg : Piece r B o bs) (h : Ready r B o ps y)
    (hz : sweep (RequestTable.transition env.uninit.uriRelaxed)
      HttpAction.isDone Scan.act o bs ps.cs y = z) :
    (z.halt = .failed ∨ replay r B z.regs.tokens = none)
        ∧ (∀ {v} {c₁ : Conn},
            recvHeader env (fuel + 1) ps [] c ≠ .ok (some v, c₁))
      ∨ ∃ ps', replay r B z.regs.tokens = some ps'.regs.data
          ∧ (z.halt = .finished
              ∧ recvHeader env (fuel + 1) ps [] c
                = .ok (some (ps', bs.drop (z.pos - o)), c')
            ∨ z.halt = .running ∧ ps'.cs = z.cs
              ∧ Ready r B (o + bs.length) ps' z.regs
              ∧ recvHeader env (fuel + 1) ps [] c
                = recvHeader env fuel ps' [] c') := by
  obtain ⟨hok, hthrow⟩ := execute_scan (u := env.uninit) hseg hbs h hz
  obtain ⟨hrunpos, hfinpos, -, -⟩ := sweep_pos bs hz
  cases hx : ps.execute env.uninit bs with
  | error e =>
      refine .inl ⟨.inr (hthrow hx), fun {v c₁} hout => ?_⟩
      rw [recvHeader_threw hread hbs hx] at hout
      cases hout
  | ok out =>
      obtain ⟨n, ps'⟩ := out
      obtain ⟨hn, hfail, hrel, hrun, hfin⟩ := hok hx
      cases herr : ps'.hasError with
      | true =>
          refine .inl ⟨?_, fun {v c₁} hout => ?_⟩
          · by_cases hf : z.halt = .failed
            · exact .inl hf
            · obtain ⟨hcs, -, hR⟩ := hrel hf
              simp only [HttpRequestParser.hasError, hcs, decide_false,
                Bool.or_false, decide_eq_true_eq] at herr
              exact .inr (hR.holds.2 herr)
          · rw [recvHeader_error hread hbs hx herr] at hout
            cases hout
      | false =>
          have hne := herr
          simp only [HttpRequestParser.hasError, Bool.or_eq_false_iff,
            decide_eq_false_iff_not, not_not] at hne
          have hf : z.halt ≠ .failed := fun hf => hne.2 (hfail hf)
          obtain ⟨hcs, hcs', hR⟩ := hrel hf
          refine .inr ⟨ps', hR.holds.1 hne.1, ?_⟩
          cases hhalt : z.halt with
          | failed => exact absurd hhalt hf
          | finished =>
              have hpos := hfinpos hhalt
              have hfinal : ps'.isFinished ≠ 0 := by
                rw [HttpRequestParser.isFinished, if_neg hcs,
                  if_pos (hfin hhalt)]
                decide
              refine .inl ⟨rfl, ?_⟩
              rw [recvHeader_parsed hread hbs hx herr (by omega),
                if_pos hfinal, hn, Nat.add_sub_cancel_left]
          | running =>
              have hlen : n = bs.length := by
                have := hrunpos hhalt
                omega
              have hfinal : ps'.isFinished = 0 := by
                rw [HttpRequestParser.isFinished, if_neg hcs,
                  if_neg (hrun hhalt).1]
              obtain ⟨hnot, hbody⟩ := hrun hhalt
              refine .inr ⟨rfl, hcs', ⟨hcs, hnot, hbody, ?_⟩, ?_⟩
              · rw [← hlen]
                exact hR.rewind
              · rw [recvHeader_parsed hread hbs hx herr
                  (hlen ▸ List.length_pos_iff.mpr hbs),
                  if_neg (not_not.mpr hfinal), hlen, List.drop_length]

-- ================================================================ the header

/-- Over the pieces of a text the first loop ends with a request under
construction exactly when the scan of the text finishes and its tokens
can be written. -/
theorem recvHeader_pieces {waits : Bool} (segs : List Bytes) :
    ∀ {o fuel : Nat} {ps : HttpRequestParser} {y : Scan} {z : Stop Scan},
      Pieces r B o segs →
      (∀ seg ∈ segs, seg ≠ [] ∧ seg.length ≤ env.bufferSize) →
      Ready r B o ps y → segs.flatten.length < fuel →
      sweep (RequestTable.transition env.uninit.uriRelaxed)
        HttpAction.isDone Scan.act o segs.flatten ps.cs y = z →
      (∀ {ps' : HttpRequestParser} {kept : Bytes} {c' : Conn},
          recvHeader env fuel ps [] ⟨segs, waits⟩
            = .ok (some (ps', kept), c') →
          z.halt = .finished
            ∧ replay r B z.regs.tokens = some ps'.regs.data
            ∧ kept ++ c'.unread = segs.flatten.drop (z.pos - o)
            ∧ c'.waits = waits ∧ c'.Live)
        ∧ (z.halt = .finished → replay r B z.regs.tokens ≠ none →
            ∃ ps' kept c', recvHeader env fuel ps [] ⟨segs, waits⟩
              = .ok (some (ps', kept), c')) := by
  induction segs with
  | nil =>
      intro o fuel ps y z _ _ _ hfuel hz
      cases hz
      refine ⟨fun {ps' kept c'} hout => ?_, fun hf => by cases hf⟩
      cases fuel with
      | zero => cases hout
      | succ fuel =>
          rw [recvHeader, Conn.read] at hout
          cases waits <;> cases hout
  | cons seg rest ih =>
      intro o fuel ps y z hp hsegs hready hfuel hz
      obtain ⟨hseg, hsize⟩ := hsegs seg List.mem_cons_self
      have hrest : ∀ s ∈ rest, s ≠ [] ∧ s.length ≤ env.bufferSize :=
        fun s hs => hsegs s (List.mem_cons_of_mem _ hs)
      cases fuel with
      | zero => exact absurd hfuel (Nat.not_lt_zero _)
      | succ fuel =>
          obtain ⟨z₁, hz₁⟩ : ∃ z₁, sweep
              (RequestTable.transition env.uninit.uriRelaxed)
              HttpAction.isDone Scan.act o seg ps.cs y = z₁ := ⟨_, rfl⟩
          obtain ⟨hrunpos, -, hle, hpos⟩ := sweep_pos seg hz₁
          rw [List.flatten_cons, List.length_append] at hfuel
          rw [List.flatten_cons, sweep_append seg hz₁] at hz
          rw [List.flatten_cons]
          rcases recvHeader_step fuel (Conn.read_cons hsize) hseg hp.1 hready
            hz₁ with
            ⟨hbad, hno⟩ | ⟨ps', hdata,
              ⟨hhalt, hout⟩ | ⟨hhalt, hcs, hready', hout⟩⟩
          · refine ⟨fun hout => absurd hout hno, fun hfin hsome => ?_⟩
            rcases hbad with hfail | hnone
            · rw [if_neg (by rw [hfail]; exact Halt.noConfusion)] at hz
              rw [← hz, hfail] at hfin
              cases hfin
            · refine absurd ?_ hsome
              rw [← hz]
              split
              · exact sweep_keeps (F := fun y : Scan =>
                  replay r B y.tokens = none)
                  act_none _ hnone
              · exact hnone
          · rw [if_neg (by rw [hhalt]; exact Halt.noConfusion)] at hz
            subst hz
            rw [hout]
            refine ⟨fun {ps₁ kept c'} hout => ?_, fun _ _ => ⟨_, _, _, rfl⟩⟩
            cases hout
            refine ⟨hhalt, hdata, ?_, rfl, fun s hs => (hrest s hs).1⟩
            exact (List.drop_append_of_le_length (by omega)).symm
          · rw [if_pos hhalt, hrunpos hhalt, ← hcs] at hz
            obtain ⟨-, -, hle', -⟩ := sweep_pos rest.flatten hz
            have hpos' := List.length_pos_iff.mpr hseg
            have hfuel' : rest.flatten.length < fuel := by omega
            obtain ⟨hsound, hcomplete⟩ := ih hp.2 hrest hready' hfuel' hz
            rw [hout]
            refine ⟨fun hout => ?_, hcomplete⟩
            obtain ⟨h1, h2, h3, h4⟩ := hsound hout
            refine ⟨h1, h2, ?_, h4⟩
            rw [h3, show z.pos - o = seg.length + (z.pos - (o + seg.length)) by
              omega, List.drop_length_add_append]

-- ================================================================== the body

variable {length : Int} {kept b : Bytes}

/-- The body is the next bytes of the buffer and the stream. -/
theorem recvBody_took (h : recvBody length kept c = .ok (some b, c')) :
    length.toNat ≤ (kept ++ c.unread).length
      ∧ b = (kept ++ c.unread).take length.toNat
      ∧ ∃ bs, Conn.Took c bs c' ∧ bs.length = length.toNat - kept.length := by
  rw [recvBody] at h
  dsimp only at h
  split at h
  next hleft =>
      rw [if_pos (by omega)] at h
      cases hread : c.readFixSize ((length - kept.length).toNat + 1)
          (length - kept.length).toNat with
      | error e =>
          rw [hread] at h
          cases h
      | ok out =>
          obtain ⟨_ | b₁, c₁⟩ := out
          all_goals
            rw [hread] at h
            cases h
          obtain ⟨htook, hlen⟩ := Conn.readFixSize_took hread
          have htotal : length.toNat = (kept ++ b₁).length := by
            rw [List.length_append]
            omega
          rw [← htook.unread, ← List.append_assoc, htotal]
          refine ⟨?_, (List.take_left ..).symm, b₁, htook, ?_⟩
          · exact (List.prefix_append (kept ++ b₁) _).length_le
          · rw [hlen, List.length_append]
            omega
  next hleft =>
      cases h
      refine ⟨?_, ?_, [], Conn.Took.refl c, ?_⟩
      · rw [List.length_append]
        omega
      · rw [List.take_append_of_le_length (by omega)]
        split
        next hle => exact (List.take_of_length_le (by omega)).symm
        next => rfl
      · rw [List.length_nil]
        omega

/-- A body that arrives is read. -/
theorem recvBody_ok (hc : c.Live)
    (hle : length.toNat ≤ (kept ++ c.unread).length) :
    ∃ b c', recvBody length kept c = .ok (some b, c') := by
  rw [List.length_append] at hle
  rw [recvBody]
  dsimp only
  split
  next hleft =>
      obtain ⟨b₁, c₁, hread⟩ := Conn.readFixSize_ok (c := c) hc
        (Nat.lt_succ_self (length - kept.length).toNat) (by omega)
      rw [hread]
      exact ⟨_, _, rfl⟩
  next => exact ⟨_, _, rfl⟩

-- =============================================================== the request

/-- What was read after the header is the body. -/
theorem recvRest_took {req d : HttpRequest}
    (h : recvRest length d kept c = .ok (some req, c')) (hd : d.body = []) :
    length.toNat ≤ (kept ++ c.unread).length
      ∧ req = setClose
          { d with body := (kept ++ c.unread).take length.toNat }
      ∧ ∃ bs, Conn.Took c bs c' ∧ bs.length = length.toNat - kept.length := by
  by_cases hpos : 0 < length
  · rw [recvRest, if_pos hpos] at h
    cases hb : recvBody length kept c with
    | error e =>
        rw [hb] at h
        cases h
    | ok out =>
        obtain ⟨body, c₁⟩ := out
        obtain _ | b := body
        · rw [hb] at h
          cases h
        · have hout : Except.ok (some (setClose { d with body := b }), c₁)
              = (Except.ok (some req, c') : Except Halted _) := by
            rw [← h, hb]
            rfl
          rw [Except.ok.injEq, Prod.mk.injEq, Option.some.injEq] at hout
          obtain ⟨hle, hbody, hbs⟩ := recvBody_took hb
          rw [← hout.1, ← hout.2, ← hbody]
          exact ⟨hle, rfl, hbs⟩
  · rw [recvRest, if_neg hpos, Except.ok.injEq, Prod.mk.injEq,
      Option.some.injEq] at h
    rw [Int.toNat_of_nonpos (not_lt.mp hpos), List.take_zero, ← hd, ← h.1,
      ← h.2]
    exact ⟨Nat.zero_le _, rfl, [], Conn.Took.refl c, (Nat.zero_sub _).symm⟩

/-- A request whose body arrives is returned. -/
theorem recvRest_ok {d : HttpRequest} (hc : c.Live)
    (hle : length.toNat ≤ (kept ++ c.unread).length) :
    ∃ req c', recvRest length d kept c = .ok (some req, c') := by
  by_cases hpos : 0 < length
  · obtain ⟨b, c₁, hb⟩ := recvBody_ok hc hle
    refine ⟨setClose { d with body := b }, c₁, ?_⟩
    rw [recvRest, if_pos hpos, hb]
    rfl
  · exact ⟨setClose d, c, if_neg hpos⟩

/-- The sequencing of `recvRequest`, with its two halves kept abstract so
that the kernel does not look into them. -/
private theorem sequence_some
    {x : Except Halted (Option (HttpRequestParser × Bytes) × Conn)}
    {rest : HttpRequestParser → Bytes → Conn →
      Except Halted (Option HttpRequest × Conn)} {req : HttpRequest}
    (h : (do
      let (r, c) ← x
      match r with
      | none => pure (none, c)
      | some (ps, kept) => rest ps kept c) = .ok (some req, c')) :
    ∃ ps kept c₁, x = .ok (some (ps, kept), c₁)
      ∧ rest ps kept c₁ = .ok (some req, c') := by
  cases x with
  | error e => cases h
  | ok out =>
      obtain ⟨_ | ⟨ps, kept⟩, c₁⟩ := out
      · cases h
      · exact ⟨ps, kept, c₁, rfl, h⟩

/-- What follows a header that was read. -/
private theorem sequence_ok
    {x : Except Halted (Option (HttpRequestParser × Bytes) × Conn)}
    {rest : HttpRequestParser → Bytes → Conn →
      Except Halted (Option HttpRequest × Conn)}
    (h : x = .ok (some (ps, kept), c)) :
    (do
      let (r, c) ← x
      match r with
      | none => pure (none, c)
      | some (ps, kept) => rest ps kept c) = rest ps kept c := by
  rw [h]
  rfl

/-- `recvRequest` returns when its first loop and the rest do. -/
theorem recvRequest_some {req : HttpRequest}
    (h : recvRequest env c = .ok (some req, c')) :
    ∃ ps kept c₁,
      recvHeader env (c.unread.length + 1) (HttpRequestParser.new env.uninit)
        [] c = .ok (some (ps, kept), c₁)
      ∧ recvRest (contentLength env ps.regs.data) ps.regs.data kept c₁
        = .ok (some req, c') :=
  sequence_some h

/-- After the header the rest depends on its data alone. -/
theorem recvRequest_rest {c₁ : Conn}
    (hh : recvHeader env (c.unread.length + 1)
      (HttpRequestParser.new env.uninit) [] c = .ok (some (ps, kept), c₁)) :
    recvRequest env c
      = recvRest (contentLength env ps.regs.data) ps.regs.data kept c₁ :=
  sequence_ok hh

/-- Nothing is returned for an empty read. -/
theorem recvRequest_ne_nil {waits : Bool} {req : HttpRequest}
    (h : recvRequest env ⟨[r], waits⟩ = .ok (some req, c')) : r ≠ [] := by
  intro hr
  subst hr
  obtain ⟨ps, kept, c₁, hh, -⟩ := recvRequest_some h
  rw [recvHeader_closed (Conn.read_cons (Nat.zero_le _))] at hh
  cases hh

/-- The request of `data`, with its body at the front of `rest`. -/
def withBody (env : SessionEnv) (data : HttpRequest) (rest : Bytes) :
    HttpRequest :=
  setClose { data with body := rest.take (contentLength env data).toNat }

/-- `recvRequest` on the pieces of a text: a request is returned exactly
when the scan of the text finishes, its tokens can be written, and the
bytes of the body follow. -/
theorem recvRequest_iff {segs : List Bytes} {waits : Bool}
    {req : HttpRequest} (hp : Pieces r B 0 segs) (hr : segs.flatten = r)
    (hsegs : ∀ seg ∈ segs, seg ≠ [] ∧ seg.length ≤ env.bufferSize) :
    (∃ c', recvRequest env ⟨segs, waits⟩ = .ok (some req, c'))
      ↔ (scan env.uninit.uriRelaxed r).halt = .finished
        ∧ ∃ d, replay r B (scan env.uninit.uriRelaxed r).regs.tokens = some d
          ∧ (contentLength env d).toNat
              ≤ (r.drop (scan env.uninit.uriRelaxed r).pos).length
          ∧ req = withBody env d
              (r.drop (scan env.uninit.uriRelaxed r).pos) := by
  obtain ⟨z, hz⟩ : ∃ z, scan env.uninit.uriRelaxed r = z := ⟨_, rfl⟩
  obtain ⟨hsound, hcomplete⟩ : _ ∧ _ := recvHeader_pieces segs hp hsegs
    ready_new (Nat.lt_succ_self _) (hr ▸ hz)
  rw [hz]
  constructor
  · intro hsome
    obtain ⟨c', h⟩ := hsome
    obtain ⟨ps, kept, c₁, hh, hrest⟩ := recvRequest_some h
    obtain ⟨hfin, hdata, htail, -, -⟩ := hsound hh
    obtain ⟨hle, hreq, -⟩ := recvRest_took hrest (replay_frame hdata).1
    rw [htail, hr, Nat.sub_zero] at hle hreq
    exact ⟨hfin, ps.regs.data, hdata, hle, hreq⟩
  · intro hsome
    obtain ⟨hfin, d, hdata, hle, hreq⟩ := hsome
    obtain ⟨ps, kept, c₁, hh⟩ := hcomplete hfin (by rw [hdata]; simp)
    obtain ⟨-, hdata', htail, -, hlive⟩ := hsound hh
    have hd : d = ps.regs.data := Option.some.inj (hdata.symm.trans hdata')
    rw [hr, Nat.sub_zero] at htail
    rw [hd, ← htail] at hle
    obtain ⟨req', c', hrest⟩ := recvRest_ok (d := ps.regs.data) hlive hle
    obtain ⟨-, hreq', -⟩ := recvRest_took hrest (replay_frame hdata').1
    rw [hreq, withBody, hd, ← htail, ← hreq']
    exact ⟨c', (recvRequest_rest hh).trans hrest⟩

end HttpSession

end TinyServer.Http
