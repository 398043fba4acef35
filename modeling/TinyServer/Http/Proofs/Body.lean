/-
The body of a message and the length that its header announces.

`body_length_iff`: a returned request, or a returned response that is not
chunked, has the body that a decimal `Content-Length` announces exactly
when the number is below `2^31` and within the limit. The two are never
compared: the number goes from `uint64_t` into an `int`, where it may
become negative or a smaller one, and nobody calls
`GetHttpRequestMaxBodyLength` and `GetHttpResponseMaxBodyLength`. What
these would return is the subject of `Limits`.
-/
import TinyServer.Http.Limits
import TinyServer.Http.Proofs.Framing
import TinyServer.Http.Proofs.ResponseHeader
import TinyServer.Http.Proofs.Segments

namespace TinyServer.Http

open Lib

-- ================================================================ the length

/-- `boost::lexical_cast<uint64_t>` on a decimal number: it throws where
the number does not fit. -/
structure CastsDecimal (lexicalCast : Bytes → Option Nat) : Prop where
  fits : ∀ {t : Bytes} {n : Nat}, Denotes t n → n < 0x10000000000000000 →
    lexicalCast t = some n
  exceeds : ∀ {t : Bytes} {n : Nat}, Denotes t n →
    0x10000000000000000 ≤ n → lexicalCast t = none

/-- The body is the next `n` bytes, and `n` is within the limit. -/
structure BodyIs (body rest : Bytes) (n limit : Nat) : Prop where
  length : body.length = n
  bytes : body = rest.take n
  bound : n ≤ limit

theorem bodyIs_iff {rest : Bytes} {k n limit : Nat} (hk : k ≤ rest.length) :
    BodyIs (rest.take k) rest n limit ↔ k = n ∧ n ≤ limit := by
  have hlen : (rest.take k).length = k := by
    rw [List.length_take]
    omega
  constructor
  · intro h
    exact ⟨hlen.symm.trans h.length, h.bound⟩
  · intro ⟨hkn, hbound⟩
    subst hkn
    exact ⟨hlen, rfl, hbound⟩

/-- The announced number survives the way into an `int` exactly when it is
one. -/
theorem length_eq_iff {lexicalCast : Bytes → Option Nat} {h : Headers}
    {t : Bytes} {n : Nat} (hcast : CastsDecimal lexicalCast)
    (hfind : h.find (ascii "content-length") = some t) (hn : Denotes t n) :
    (toInt (h.getHeaderAs lexicalCast (ascii "content-length"))).toNat = n
      ↔ n < 0x80000000 := by
  rw [Headers.getHeaderAs, hfind, Option.bind_some, toInt]
  by_cases hfits : n < 0x10000000000000000
  · rw [hcast.fits hn hfits, Option.getD_some]
    omega
  · rw [hcast.exceeds hn (not_lt.mp hfits), Option.getD_none]
    omega

-- =============================================================== the request

namespace RequestRegs

variable {x x' : RequestRegs} {buf : Bytes} {p : Nat} {a : HttpAction}

/-- No action stores a body. -/
theorem perform_body (h : x.perform buf p a = .ok x') :
    x'.data.body = x.data.body := by
  by_cases hm : a = .mark
  · subst hm
    cases h
    rfl
  · by_cases hd : a = .done
    · subst hd
      simp only [perform] at h
      split at h <;> cases h <;> rfl
    · exact (perform_frame hm hd h).1

theorem foldlM_perform_body (acts : List HttpAction) :
    ∀ {x : RequestRegs},
      acts.foldlM (fun x a => perform buf p a x) x = .ok x' →
      x'.data.body = x.data.body := by
  induction acts with
  | nil =>
      intro x h
      cases h
      rfl
  | cons a acts ih =>
      intro x h
      rw [List.foldlM_cons] at h
      cases hx : x.perform buf p a with
      | error e =>
          rw [hx] at h
          cases h
      | ok x₁ =>
          rw [hx] at h
          exact (ih h).trans (perform_body hx)

end RequestRegs

namespace HttpSession

variable {env : SessionEnv} {ps' : HttpRequestParser} {kept' : Bytes}
  {c' : Conn}

/-- One buffer of the first loop, and the scan over it. -/
theorem execute_moves {u : Uninit} {ps : HttpRequestParser} {data : Bytes}
    {n o : Nat} {y : Scan} {z : Stop Scan} (hdata : data ≠ [])
    (hx : ps.execute u data = .ok (n, ps')) (hcs : ps.cs ≠ 0)
    (hbody : ps.regs.data.body = [])
    (hz : sweep (RequestTable.transition u.uriRelaxed) HttpAction.isDone
      Scan.act o data ps.cs y = z) :
    z.pos = o + n ∧ ps'.cs = z.cs ∧ ps'.regs.data.body = [] := by
  obtain ⟨hok, -⟩ := drive_sweep (f := RequestRegs.perform data)
    (g := Scan.act) (R := fun _ _ x _ => x.data.body = [])
    (F := fun _ => True) (o := o)
    (fun _ _ hR hacts => (RequestRegs.foldlM_perform_body _ hacts).trans hR)
    (fun _ _ _ _ => trivial) (fun _ => trivial) data
    (show ps.regs.rewind.data.body = [] from hbody) (List.drop_zero) hz
  obtain ⟨s, hd, rfl, rfl⟩ := execute_eq_ok hdata hx
  obtain ⟨-, hpos, hcs', -, -, -, hR⟩ := hok hd
  exact ⟨hpos, (if_neg hcs).trans hcs'.symm, hR⟩

/-- What an iteration of the first loop did, when the loop returned. -/
theorem recvHeader_returned {fuel : Nat} {ps : HttpRequestParser}
    {kept : Bytes} {c : Conn} {v : HttpRequestParser × Bytes}
    (h : recvHeader env (fuel + 1) ps kept c = .ok (some v, c')) :
    ∃ bs c₁ n ps₁, bs ++ c₁.unread = c.unread ∧ bs ≠ []
      ∧ ps.execute env.uninit (kept ++ bs) = .ok (n, ps₁)
      ∧ ps₁.hasError = false
      ∧ (ps₁.isFinished ≠ 0 ∧ v = (ps₁, (kept ++ bs).drop n) ∧ c' = c₁
        ∨ ps₁.isFinished = 0
          ∧ recvHeader env fuel ps₁ ((kept ++ bs).drop n) c₁
            = .ok (some v, c')) := by
  rw [recvHeader] at h
  cases hread : c.read (env.bufferSize - kept.length) with
  | error e =>
      rw [hread] at h
      cases h
  | ok out =>
      obtain ⟨bs, c₁⟩ := out
      rw [hread] at h
      change (if bs = [] then _ else _) = _ at h
      split at h
      next => cases h
      next hbs =>
          cases hx : ps.execute env.uninit (kept ++ bs) with
          | error e =>
              rw [hx] at h
              cases h
          | ok out =>
              obtain ⟨n, ps₁⟩ := out
              rw [hx] at h
              refine ⟨bs, c₁, n, ps₁, (Conn.read_took hread).1.unread, hbs,
                hx, ?_⟩
              change (if ps₁.hasError = true then _ else _) = _ at h
              split at h
              next => cases h
              next herr =>
                  refine ⟨Bool.eq_false_iff.mpr herr, ?_⟩
                  change (if ((kept ++ bs).drop n).length = _ then _
                    else _) = _ at h
                  split at h
                  next => cases h
                  next =>
                      split at h
                      next hfin =>
                          cases h
                          exact .inl ⟨hfin, rfl, rfl⟩
                      next hfin => exact .inr ⟨not_not.mp hfin, h⟩

/-- Where the first loop stops: what is in the buffer and what is unread
are the text behind the header section, and no body has been stored. -/
theorem recvHeader_end {fuel : Nat} :
    ∀ {ps : HttpRequestParser} {kept : Bytes} {c : Conn} {o : Nat}
      {y : Scan} {z : Stop Scan},
      recvHeader env fuel ps kept c = .ok (some (ps', kept'), c') →
      ps.cs ≠ 0 → ¬ RequestTable.firstFinal ≤ ps.cs →
      ps.regs.data.body = [] →
      sweep (RequestTable.transition env.uninit.uriRelaxed)
        HttpAction.isDone Scan.act o (kept ++ c.unread) ps.cs y = z →
      kept' ++ c'.unread = (kept ++ c.unread).drop (z.pos - o)
        ∧ ps'.regs.data.body = [] := by
  induction fuel with
  | zero =>
      intro ps kept c o y z h
      cases h
  | succ fuel ih =>
      intro ps kept c o y z h hcs hfinal hbody hz
      obtain ⟨bs, c₁, n, ps₁, hunread, hbs, hx, herr, hnext⟩ :=
        recvHeader_returned h
      simp only [HttpRequestParser.hasError, Bool.or_eq_false_iff,
        decide_eq_false_iff_not] at herr
      obtain ⟨z₁, hz₁⟩ : ∃ z₁, sweep
          (RequestTable.transition env.uninit.uriRelaxed) HttpAction.isDone
          Scan.act o (kept ++ bs) ps.cs y = z₁ := ⟨_, rfl⟩
      obtain ⟨hpos, hcs₁, hbody₁⟩ :=
        execute_moves (by simp [hbs]) hx hcs hbody hz₁
      have hhalt : z₁.halt ≠ .failed := fun hf =>
        herr.2 (hcs₁.trans (sweep_failed _ hz₁ hf))
      obtain ⟨hrun, hfin⟩ :=
        sweep_last (Q := fun cs => RequestTable.firstFinal ≤ cs)
          transition_last _ hfinal hz₁
      obtain ⟨hrunpos, -, -, hend⟩ := sweep_pos _ hz₁
      rw [← hcs₁] at hrun hfin
      have htext : kept ++ c.unread = (kept ++ bs) ++ c₁.unread := by
        rw [List.append_assoc, hunread]
      rw [htext, sweep_append _ hz₁] at hz
      rw [htext]
      rcases hnext with ⟨hdone, hv, rfl⟩ | ⟨hmore, h⟩
      · have hnot : z₁.halt ≠ .running := by
          intro hr
          rw [HttpRequestParser.isFinished, if_neg herr.2,
            if_neg (hrun hr)] at hdone
          exact hdone rfl
        rw [if_neg hnot] at hz
        cases hv
        rw [← hz, hpos, Nat.add_sub_cancel_left]
        exact ⟨(List.drop_append_of_le_length (by omega)).symm, hbody₁⟩
      · have hmid : ¬ RequestTable.firstFinal ≤ ps₁.cs := by
          intro hle
          rw [HttpRequestParser.isFinished, if_neg herr.2, if_pos hle] at hmore
          exact absurd hmore (by decide)
        have hr : z₁.halt = .running := by
          cases hz₁halt : z₁.halt with
          | running => rfl
          | finished => exact absurd (hfin hz₁halt) hmid
          | failed => exact absurd hz₁halt hhalt
        have hn : n = (kept ++ bs).length := by
          have := hrunpos hr
          omega
        rw [hn, List.drop_length] at h
        rw [if_pos hr, ← hcs₁] at hz
        obtain ⟨hrest, hbody'⟩ := ih h herr.2 hmid hbody₁ hz
        refine ⟨?_, hbody'⟩
        have hle := (sweep_pos _ hz).2.2.1
        rw [hrest, List.nil_append,
          show z.pos - o = (kept ++ bs).length + (z.pos - z₁.pos) by omega,
          List.drop_length_add_append]

/-- A returned request has the next bytes behind the header section for a
body, as many as its `content-length` comes to in an `int`. -/
theorem recvRequest_body {c : Conn} {req : HttpRequest}
    (h : recvRequest env c = .ok (some req, c')) :
    (toInt (req.headers.getHeaderAs env.lexicalCast
        (ascii "content-length"))).toNat
      ≤ (c.unread.drop (scan env.uninit.uriRelaxed c.unread).pos).length
    ∧ req.body = (c.unread.drop
        (scan env.uninit.uriRelaxed c.unread).pos).take
          (toInt (req.headers.getHeaderAs env.lexicalCast
            (ascii "content-length"))).toNat := by
  obtain ⟨z, hz⟩ : ∃ z, scan env.uninit.uriRelaxed c.unread = z := ⟨_, rfl⟩
  obtain ⟨ps, kept, c₁, hh, hrest⟩ := recvRequest_some h
  obtain ⟨htail, hbody⟩ := recvHeader_end hh Nat.one_ne_zero
    (show ¬ 348 ≤ 1 by decide) rfl hz
  rw [List.nil_append, Nat.sub_zero] at htail
  obtain ⟨hle, hreq, -⟩ := recvRest_took hrest hbody
  have hheaders : req.headers = ps.regs.data.headers := by
    rw [hreq, (setClose_parts _).headers]
  have htaken : req.body = (kept ++ c₁.unread).take
      (contentLength env ps.regs.data).toNat := by
    rw [hreq, (setClose_parts _).body]
  rw [contentLength, HttpRequestParser.getContentLength, ← hheaders]
    at hle htaken
  rw [hz, ← htail]
  exact ⟨hle, htaken⟩

end HttpSession

-- =============================================================== the response

/-- The register of `responseScan`: what sets `chunked`. -/
def marksChunked (_ : Nat) (a : ClientAction) (y : Bool) : Bool :=
  y || a = .transChunked || a = .chunkSize

/-- The machine over a response as far as it goes. The loop of
`recvResponse` has the parser go on after a `done` that leads to a final
state other than 120; state 120 has no jumps, so a run that enters it
stops behind the header section. -/
def responseScan (r : Bytes) : Stop Bool :=
  sweep ClientTable.transition (fun _ => false) marksChunked 0 r
    ClientTable.start false

/-- The parser has recorded what the scan has, and no body. -/
def Records (x : ResponseRegs) (y : Bool) : Prop :=
  x.chunked = y ∧ x.data.body = []

namespace ResponseRegs

theorem records_perform {x : ResponseRegs} {y : Bool} {buf : Bytes}
    {p q : Nat} {a : ClientAction} (h : Records x y) :
    Records (x.perform buf p a) (marksChunked q a y) := by
  obtain ⟨hc, hb⟩ := h
  have hsame : ∀ {a : ClientAction}, marksChunked q a false = false →
      x.chunked = marksChunked q a y := by
    intro a h
    rw [marksChunked, Bool.false_or, Bool.or_eq_false_iff] at h
    rw [marksChunked, h.1, h.2, Bool.or_false, Bool.or_false, hc]
  cases a with
  | transChunked => exact ⟨by simp [marksChunked, perform], hb⟩
  | chunkSize => exact ⟨by simp [marksChunked, perform], hb⟩
  | httpVersion =>
      simp only [perform, onResponseVersion]
      split
      · exact ⟨hsame rfl, hb⟩
      · split <;> exact ⟨hsame rfl, hb⟩
  | writeValue =>
      simp only [perform, onResponseHttpField]
      split <;> exact ⟨hsame rfl, hb⟩
  | _ => exact ⟨hsame rfl, hb⟩

end ResponseRegs

namespace HttpConnection

variable {env : ConnectionEnv} {ps' : HttpResponseParser} {kept' : Bytes}
  {c c' : Conn}

theorem read_took {bs : Bytes} {n : Int} (h : read c n = .ok (bs, c')) :
    Conn.Took c bs c' := by
  rw [read] at h
  split at h
  next => cases h
  next =>
      cases hread : c.read n.toNat with
      | error e =>
          rw [hread] at h
          cases h
      | ok out =>
          rw [hread] at h
          cases h
          exact (Conn.read_took hread).1

/-- What an iteration of the loop over the header did, when the loop
returned. -/
theorem recvHeader_returned {chunk : Bool} {fuel : Nat}
    {ps : HttpResponseParser} {kept : Bytes} {v : HttpResponseParser × Bytes}
    (h : recvHeader env chunk (fuel + 1) ps kept c = .ok (some v, c')) :
    ∃ bs c₁ n ps₁, bs ++ c₁.unread = c.unread
      ∧ ps.execute (kept ++ bs) chunk = some (n, ps₁)
      ∧ ps₁.hasError = false
      ∧ (ps₁.isFinished ≠ 0 ∧ v = (ps₁, (kept ++ bs).drop n) ∧ c' = c₁
        ∨ recvHeader env chunk fuel ps₁ ((kept ++ bs).drop n) c₁
          = .ok (some v, c')) := by
  rw [recvHeader] at h
  cases hread : read c ((env.bufferSize : Int) - kept.length) with
  | error e =>
      rw [hread] at h
      cases h
  | ok out =>
      obtain ⟨bs, c₁⟩ := out
      rw [hread] at h
      change (if bs = [] then _ else _) = _ at h
      split at h
      next => cases h
      next =>
          cases hx : ps.execute (kept ++ bs) chunk with
          | none =>
              rw [hx] at h
              cases h
          | some out =>
              obtain ⟨n, ps₁⟩ := out
              rw [hx] at h
              refine ⟨bs, c₁, n, ps₁, (read_took hread).unread, hx, ?_⟩
              change (if ps₁.hasError = true then _ else _) = _ at h
              split at h
              next => cases h
              next herr =>
                  refine ⟨Bool.eq_false_iff.mpr herr, ?_⟩
                  change (if ((kept ++ bs).drop n).length = _ then _
                    else _) = _ at h
                  split at h
                  next => cases h
                  next =>
                      split at h
                      next hfin =>
                          cases h
                          exact .inl ⟨hfin, rfl, rfl⟩
                      next => exact .inr h

/-- The machine stops in state 120. -/
theorem sweep_final {σ : Type} {g : Nat → ClientAction → σ → σ} {q : Nat}
    (bs : Bytes) (y : σ) :
    (sweep ClientTable.transition (fun _ => false) g q bs
        ClientTable.firstFinal y).pos = q
      ∧ (sweep ClientTable.transition (fun _ => false) g q bs
        ClientTable.firstFinal y).regs = y := by
  cases bs with
  | nil => exact ⟨rfl, rfl⟩
  | cons b bs => exact ⟨rfl, rfl⟩

/-- Where the loop over the header stops: the text behind the header
section is in the buffer and unread. -/
theorem recvHeader_end {fuel : Nat} :
    ∀ {ps : HttpResponseParser} {kept : Bytes} {c : Conn} {q : Nat}
      {y : Bool} {z : Stop Bool},
      recvHeader env false fuel ps kept c = .ok (some (ps', kept'), c') →
      Records ps.regs y →
      sweep ClientTable.transition (fun _ => false) marksChunked q
        (kept ++ c.unread) ps.cs y = z →
      kept' ++ c'.unread = (kept ++ c.unread).drop (z.pos - q)
        ∧ Records ps'.regs z.regs := by
  induction fuel with
  | zero =>
      intro ps kept c q y z h
      cases h
  | succ fuel ih =>
      intro ps kept c q y z h hrec hz
      obtain ⟨bs, c₁, n, ps₁, hunread, hx, herr, hnext⟩ :=
        recvHeader_returned h
      simp only [HttpResponseParser.hasError, Bool.or_eq_false_iff,
        decide_eq_false_iff_not] at herr
      simp only [HttpResponseParser.execute, Bool.false_eq_true, if_false]
        at hx
      split at hx
      next =>
          generalize hs : sweep ClientTable.transition ClientAction.isDone
            (ResponseRegs.perform (kept ++ bs)) 0 (kept ++ bs) ps.cs
            ps.regs.rewind = s at hx
          cases hx
          have hhalt : s.halt ≠ .failed := fun hf =>
            herr.2 (sweep_failed _ hs hf)
          have hle := (sweep_pos _ hs).2.2.2
          obtain ⟨y', hrec', hrest⟩ := sweep_resume (g := marksChunked)
            (q := q) ResponseRegs.records_perform _
            (show Records ps.regs.rewind y from hrec) hs hhalt
          rw [← hunread, ← List.append_assoc, hrest, Nat.sub_zero] at hz
          rw [← hunread, ← List.append_assoc]
          have hdrop : (kept ++ bs).drop s.pos ++ c₁.unread
              = (kept ++ bs ++ c₁.unread).drop s.pos :=
            (List.drop_append_of_le_length (by omega)).symm
          rcases hnext with ⟨hdone, hv, rfl⟩ | h
          · have hcs : s.cs = ClientTable.firstFinal := by
              by_contra hne
              rw [HttpResponseParser.isFinished, if_neg herr.2,
                if_neg hne] at hdone
              exact hdone rfl
            cases hv
            obtain ⟨hpos, hregs⟩ := sweep_final (g := marksChunked)
              (q := q + s.pos) ((kept ++ bs).drop s.pos ++ c'.unread) y'
            rw [← hcs, hz] at hpos hregs
            rw [hpos, hregs, Nat.add_sub_cancel_left]
            exact ⟨hdrop, hrec'⟩
          · obtain ⟨htail, hrec''⟩ := ih h hrec' hz
            have hge := (sweep_pos _ hz).2.2.1
            refine ⟨?_, hrec''⟩
            rw [htail, hdrop, List.drop_drop,
              show s.pos + (z.pos - (q + s.pos)) = z.pos - q by omega]
      next => cases hx

theorem recvRest_took {length : Int} {ps : HttpResponseParser} {kept : Bytes}
    {resp : HttpResponse}
    (h : recvRest length ps kept c = .ok (some resp, c'))
    (hbody : ps.regs.data.body = []) :
    length.toNat ≤ (kept ++ c.unread).length
      ∧ resp = withBody ps ((kept ++ c.unread).take length.toNat) := by
  rw [recvRest] at h
  split at h
  next hpos =>
      cases hb : HttpSession.recvBody length kept c with
      | error e =>
          rw [hb] at h
          cases h
      | ok out =>
          obtain ⟨_ | body, c₁⟩ := out
          all_goals
            rw [hb] at h
            cases h
          obtain ⟨hle, hbody, -⟩ := HttpSession.recvBody_took hb
          exact ⟨hle, congrArg (withBody ps) hbody⟩
  next hpos =>
      cases h
      rw [Int.toNat_of_nonpos (not_lt.mp hpos), List.take_zero, withBody,
        ← hbody]
      exact ⟨Nat.zero_le _, rfl⟩

/-- The sequencing of `recvResponse`, with its parts kept abstract. -/
private theorem response_sequence
    {x : Except RecvFault (Option (HttpResponseParser × Bytes) × Conn)}
    (chunks : HttpResponseParser → Bytes → Conn →
      Except RecvFault (Option HttpResponse × Conn))
    {rest : HttpResponseParser → Bytes → Conn →
      Except RecvFault (Option HttpResponse × Conn)} {resp : HttpResponse}
    (h : (do
      let (r, c) ← x
      match r with
      | none => pure (none, c)
      | some (ps, kept) =>
          if ps.regs.chunked then chunks ps kept c else rest ps kept c)
        = .ok (some resp, c')) :
    ∃ ps kept c₁, x = .ok (some (ps, kept), c₁)
      ∧ (ps.regs.chunked = false → rest ps kept c₁ = .ok (some resp, c')) := by
  cases x with
  | error e => cases h
  | ok out =>
      obtain ⟨_ | ⟨ps, kept⟩, c₁⟩ := out
      · cases h
      · refine ⟨ps, kept, c₁, rfl, fun hc => ?_⟩
        change (if ps.regs.chunked = true then chunks ps kept c₁
          else rest ps kept c₁) = _ at h
        rwa [if_neg (by rw [hc]; exact Bool.false_ne_true)] at h

theorem recvResponse_some {resp : HttpResponse}
    (h : recvResponse env c = .ok (some resp, c')) :
    ∃ ps kept c₁,
      recvHeader env false (c.unread.length + 1)
        (HttpResponseParser.new env.status) [] c = .ok (some (ps, kept), c₁)
      ∧ (ps.regs.chunked = false →
        recvRest (contentLength env ps) ps kept c₁ = .ok (some resp, c')) :=
  response_sequence (fun ps kept c => do
    let (r, c) ← recvChunks env (c.unread.length + 1) ps kept [] c
    pure (r.map fun r => withBody r.1 r.2, c)) h

/-- A returned response that is not chunked has the next bytes behind the
header section for a body, as many as its `content-length` comes to in an
`int`. -/
theorem recvResponse_body {resp : HttpResponse}
    (h : recvResponse env c = .ok (some resp, c'))
    (hplain : (responseScan c.unread).regs = false) :
    (toInt (resp.headers.getHeaderAs env.lexicalCast
        (ascii "content-length"))).toNat
      ≤ (c.unread.drop (responseScan c.unread).pos).length
    ∧ resp.body = (c.unread.drop (responseScan c.unread).pos).take
        (toInt (resp.headers.getHeaderAs env.lexicalCast
          (ascii "content-length"))).toNat := by
  obtain ⟨z, hz⟩ : ∃ z, responseScan c.unread = z := ⟨_, rfl⟩
  obtain ⟨ps, kept, c₁, hh, hrest⟩ := recvResponse_some h
  obtain ⟨htail, hchunked, hbody⟩ := recvHeader_end hh ⟨rfl, rfl⟩ hz
  rw [hz] at hplain
  obtain ⟨hle, hresp⟩ := recvRest_took (hrest (hchunked.trans hplain)) hbody
  rw [List.nil_append, Nat.sub_zero] at htail
  have hheaders : resp.headers = ps.regs.data.headers := by
    rw [hresp, withBody]
  have htaken : resp.body = (kept ++ c₁.unread).take
      (contentLength env ps).toNat := by
    rw [hresp, withBody]
  rw [contentLength, HttpResponseParser.getContentLength, ← hheaders]
    at hle htaken
  rw [hz, ← htail]
  exact ⟨hle, htaken⟩

end HttpConnection

-- ================================================================== the body

/-- Under any configured sizes: a request that is returned, and a response
that is returned and not chunked, has the body that a decimal
`content-length` announces, within what the getter of the limit returns,
exactly when the number is one that an `int` holds and is within that
limit itself. -/
theorem body_length_iff {lexicalCast : Bytes → Option Nat}
    (hcast : CastsDecimal lexicalCast) (sizes : HttpSizes) (uninit : Uninit)
    (status : Int) :
    (∀ {c c' : Conn} {req : HttpRequest} {t : Bytes} {n : Nat},
        HttpSession.recvRequest (sizes.session lexicalCast uninit) c
          = .ok (some req, c') →
        req.headers.find (ascii "content-length") = some t → Denotes t n →
        (BodyIs req.body
            (c.unread.drop (scan uninit.uriRelaxed c.unread).pos)
            n sizes.getHttpRequestMaxBodyLength
          ↔ n < 0x80000000 ∧ n ≤ sizes.getHttpRequestMaxBodyLength))
      ∧ ∀ {c c' : Conn} {resp : HttpResponse} {t : Bytes} {n : Nat},
        HttpConnection.recvResponse (sizes.connection lexicalCast status) c
          = .ok (some resp, c') →
        (responseScan c.unread).regs = false →
        resp.headers.find (ascii "content-length") = some t → Denotes t n →
        (BodyIs resp.body (c.unread.drop (responseScan c.unread).pos)
            n sizes.getHttpResponseMaxBodyLength
          ↔ n < 0x80000000 ∧ n ≤ sizes.getHttpResponseMaxBodyLength) := by
  refine ⟨fun h hfind hn => ?_, fun h hplain hfind hn => ?_⟩
  · obtain ⟨hle, hbody⟩ := HttpSession.recvRequest_body h
    rw [hbody]
    refine (bodyIs_iff hle).trans ?_
    rw [length_eq_iff (show CastsDecimal (sizes.session lexicalCast
      uninit).lexicalCast from hcast) hfind hn]
  · obtain ⟨hle, hbody⟩ := HttpConnection.recvResponse_body h hplain
    rw [hbody, bodyIs_iff hle, length_eq_iff (show CastsDecimal
      (sizes.connection lexicalCast status).lexicalCast from hcast) hfind hn]

/-- `boost::lexical_cast<uint64_t>` of decimal digits. -/
def castDecimal (s : Bytes) : Option Nat :=
  if s ≠ [] ∧ s.all (fun b => 48 ≤ b ∧ b ≤ 57)
      ∧ digitsValue 10 0 s < 0x10000000000000000
  then some (digitsValue 10 0 s) else none

theorem castsDecimal_castDecimal : CastsDecimal castDecimal where
  fits h hlt := by
    have hdigits := List.all_eq_true.mpr fun b hb =>
      decide_eq_true (h.digits b hb)
    rw [castDecimal, if_pos ⟨h.ne_nil, hdigits, h.value ▸ hlt⟩, h.value]
  exceeds h hle := by
    rw [castDecimal, if_neg fun hc => ?_]
    have := h.value ▸ hc.2.2
    omega

/-- A session and a connection with the default sizes. -/
def session₀ : SessionEnv := HttpSizes.init.session castDecimal ⟨false, 0⟩

def connection₀ : ConnectionEnv := HttpSizes.init.connection castDecimal 0

/-- A request with a body of three bytes, and a response with one of two,
in two reads each, with the default limits: 64 MiB for the request and
4 KiB for the response. -/
theorem body_length_iff_short :
    BodyIs (ascii "abc") (ascii "abcGET") 3 0x4000000
      ∧ BodyIs (ascii "ok") (ascii "ok") 2 4096 := by
  have h := body_length_iff castsDecimal_castDecimal HttpSizes.init
    ⟨false, 0⟩ 0
  exact ⟨(h.1 (t := ascii "3")
      (show HttpSession.recvRequest session₀
          ⟨[ascii "POST / HTTP/1.1\r\nContent-Length: 3\r\n\r\na",
            ascii "bcGET"], true⟩
        = .ok (some ⟨.post, 0x11, true, ascii "/", [], [], ascii "abc",
            [(ascii "Content-Length", ascii "3")]⟩, ⟨[ascii "GET"], true⟩) by
        decide +kernel)
      (by decide +kernel) (denotes_toDecimal 3)).mpr (by decide),
    (h.2 (t := ascii "2")
      (show HttpConnection.recvResponse connection₀
          ⟨[ascii "HTTP/1.1 200 OK\r\nContent-Length: 2\r\n\r\n",
            ascii "ok"], true⟩
        = .ok (some ⟨200, 0x10, ascii "ok", ascii "OK",
            [(ascii "Content-Length", ascii "2")], true⟩, ⟨[], true⟩) by
        decide +kernel)
      (by decide +kernel) (by decide +kernel) (denotes_toDecimal 2)).mpr
      (by decide)⟩

/-- `Content-Length: 4294967296`, with the default sizes: the request is
returned, without a body. -/
theorem body_length_wraps :
    ¬ ∀ {c c' : Conn} {req : HttpRequest} {t : Bytes} {n : Nat},
      HttpSession.recvRequest session₀ c = .ok (some req, c') →
      req.headers.find (ascii "content-length") = some t → Denotes t n →
      BodyIs req.body
        (c.unread.drop (scan session₀.uninit.uriRelaxed c.unread).pos)
        n HttpSizes.init.getHttpRequestMaxBodyLength := by
  intro h
  have hbody := h (t := ascii "4294967296")
    (show HttpSession.recvRequest session₀
        ⟨[ascii "POST / HTTP/1.1\r\nContent-Length: 4294967296\r\n\r\n"],
          true⟩
      = .ok (some ⟨.post, 0x11, true, ascii "/", [], [], [],
          [(ascii "Content-Length", ascii "4294967296")]⟩, ⟨[], true⟩) by
      decide +kernel)
    (by decide +kernel) (denotes_toDecimal 4294967296)
  exact absurd hbody.length (by decide)

end TinyServer.Http
