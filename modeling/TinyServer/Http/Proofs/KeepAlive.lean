/-
Requests back to back on one connection.

The buffer of `recvRequest` is local to a call, and the read that
completes a header may bring more than the request. What it brings beyond
goes with the buffer; the body is read by its length and takes no byte
too many. `keepalive_iff` says when nothing is lost: exactly when no
first read of a call reaches past the end of its request.
-/
import TinyServer.Http.Proofs.Segments

namespace TinyServer.Http

open Lib HttpSession

-- ================================================================ a message

/-- A complete request: a text whose header section the machine accepts
and of which the body has the length that the header announces. -/
structure Message (env : SessionEnv) where
  text : Bytes
  data : HttpRequest
  scanned : (scan env.uninit.uriRelaxed text).halt = .finished
  built : replay text (fun _ => 0)
    (scan env.uninit.uriRelaxed text).regs.tokens = some data
  complete : text.length = (scan env.uninit.uriRelaxed text).pos
    + (contentLength env data).toNat

namespace Message

variable {env : SessionEnv} (m : Message env)

/-- The length of the header section. -/
def header : Nat := (scan env.uninit.uriRelaxed m.text).pos

/-- The request that the message stands for. -/
def request : HttpRequest := withBody env m.data (m.text.drop m.header)

theorem header_pos : 0 < m.header :=
  (sweep_pos m.text rfl).2.1 m.scanned

theorem header_le : m.header ≤ m.text.length := scan_pos m.text

/-- The scan of a text that starts with the header section. -/
theorem scan_eq {r : Bytes} (h : r.take m.header = m.text.take m.header) :
    scan env.uninit.uriRelaxed r = scan env.uninit.uriRelaxed m.text :=
  sweep_congr m.text rfl m.scanned h

theorem replay_eq {r : Bytes} (h : r.take m.header = m.text.take m.header) :
    replay r (fun _ => 0) (scan env.uninit.uriRelaxed m.text).regs.tokens
      = some m.data := by
  have hord : Ordered _ _ (scan env.uninit.uriRelaxed m.text).regs :=
    scan_ordered (by rw [m.scanned]; exact Halt.noConfusion)
  rw [replay_congr h hord.reach, m.built]

/-- One call of `recvRequest` on a stream that starts with the message,
when the first read brings the whole header section: the request is
returned, and the stream goes on after the message, or after the read
where that is further. -/
theorem recvRequest_eq {c c₁ : Conn} {bs rest : Bytes} (hc : c.Live)
    (hu : c.unread = m.text ++ rest)
    (hread : c.read env.bufferSize = .ok (bs, c₁))
    (hhdr : m.header ≤ bs.length) :
    ∃ c' taken, recvRequest env c = .ok (some m.request, c')
      ∧ c.Took taken c' ∧ taken.length = max m.text.length bs.length := by
  obtain ⟨htook, -⟩ := Conn.read_took hread
  have hpos := m.header_pos
  have hle := m.header_le
  have hbs : bs ≠ [] := by
    rw [← List.length_pos_iff]
    omega
  have hsplit : bs ++ c₁.unread = m.text ++ rest := htook.unread.trans hu
  have htake : bs.take m.header = m.text.take m.header := by
    have h := congrArg (List.take m.header) hsplit
    rwa [List.take_append_of_le_length hhdr,
      List.take_append_of_le_length hle] at h
  have htail : bs.drop m.header ++ c₁.unread
      = m.text.drop m.header ++ rest := by
    have h := congrArg (List.drop m.header) hsplit
    rwa [List.drop_append_of_le_length hhdr,
      List.drop_append_of_le_length hle] at h
  have hdata := m.replay_eq htake
  rcases recvHeader_step c.unread.length hread hbs (pieces_whole bs).1
      ready_new (m.scan_eq htake) with
    ⟨hbad | hbad, -⟩ | ⟨ps, hps, ⟨-, hout⟩ | ⟨hrun, -⟩⟩
  · exact absurd (m.scanned.symm.trans hbad) Halt.noConfusion
  · exact absurd (hdata.symm.trans hbad) (Option.some_ne_none _)
  · have hd : m.data = ps.regs.data :=
      Option.some.inj (hdata.symm.trans hps)
    have hbody : m.text.length
        = m.header + (contentLength env ps.regs.data).toNat :=
      hd ▸ m.complete
    rw [Nat.sub_zero, ← header] at hout
    have hthere : (contentLength env ps.regs.data).toNat
        ≤ (bs.drop m.header ++ c₁.unread).length := by
      rw [htail, List.length_append, List.length_drop]
      omega
    obtain ⟨req, c', hrest⟩ := recvRest_ok (d := ps.regs.data)
      (htook.live hc) hthere
    obtain ⟨-, hreq, bs', htook', hlen⟩ :=
      recvRest_took hrest (replay_frame hps).1
    refine ⟨c', bs ++ bs', ?_, htook.trans htook', ?_⟩
    · rw [recvRequest_rest hout, hrest, hreq, htail, request, withBody, hd,
        List.take_append_of_le_length (by rw [List.length_drop]; omega)]
    · rw [List.length_append, hlen, List.length_drop]
      omega
  · exact absurd (m.scanned.symm.trans hrun) Halt.noConfusion

end Message

-- ============================================================ a connection

variable {env : SessionEnv}

/-- The number of bytes that the first read of a call brings. -/
def firstRead (env : SessionEnv) (segs : List Bytes) : Nat :=
  min (segs.headD []).length env.bufferSize

/-- `P` holds of each message and the first read at its start. -/
def AtEach (P : Message env → Nat → Prop) :
    List (Message env) → List Bytes → Prop
  | [], _ => True
  | m :: ms, segs =>
      P m (firstRead env segs)
        ∧ AtEach P ms (Conn.skip m.text.length segs)

/-- No read ends inside a header section. -/
def HeadersWhole : List (Message env) → List Bytes → Prop :=
  AtEach fun m n => m.header ≤ n

/-- No read that completes a header reaches past the end of its
message. -/
def NoSurplus : List (Message env) → List Bytes → Prop :=
  AtEach fun m n => n ≤ m.text.length

/-- The texts of the messages, back to back. -/
def wire (ms : List (Message env)) : Bytes := (ms.map Message.text).flatten

/-- The requests are those of the messages, and after each of them the
messages that follow are still unread. -/
def Delivered : List (Message env) → List (HttpRequest × Conn) → Prop
  | [], [] => True
  | m :: ms, (req, c) :: out =>
      req = m.request ∧ c.unread = wire ms ∧ Delivered ms out
  | _, _ => False

theorem read_firstRead {c : Conn} (hn : 0 < firstRead env c.segs) :
    ∃ bs c', c.read env.bufferSize = .ok (bs, c')
      ∧ bs.length = firstRead env c.segs := by
  obtain ⟨segs, waits⟩ := c
  cases segs with
  | nil =>
      unfold firstRead at hn
      rw [List.headD_nil, List.length_nil, Nat.zero_min] at hn
      exact absurd hn (Nat.lt_irrefl 0)
  | cons seg rest =>
      refine ⟨_, _, rfl, ?_⟩
      rw [List.length_take, firstRead, List.headD_cons, Nat.min_comm]

/-- The calls that `handleClient` makes after the first one. -/
theorem handleClient_cons {k : Nat} {c c' : Conn} {req : HttpRequest}
    {out : List (HttpRequest × Conn)}
    (h : recvRequest env c = .ok (some req, c'))
    (hkeep : k ≠ 0 → req.close = false) :
    handleClient env true (k + 1) c = .ok out
      ↔ ∃ out', handleClient env true k c' = .ok out'
          ∧ out = (req, c') :: out' := by
  rw [handleClient, h]
  change (if (!true || req.close) = true then Except.ok [(req, c')] else _)
    = _ ↔ _
  by_cases hk : k = 0
  · subst hk
    constructor
    · intro hout
      refine ⟨[], rfl, ?_⟩
      cases hclose : req.close <;> rw [hclose] at hout <;> cases hout <;> rfl
    · intro hsome
      obtain ⟨out', hout', rfl⟩ := hsome
      cases hout'
      cases req.close <;> rfl
  · rw [hkeep hk]
    generalize handleClient env true k c' = x
    cases x with
    | error e =>
        refine ⟨fun hout => (by cases hout), ?_⟩
        intro hsome
        obtain ⟨out', hout', -⟩ := hsome
        cases hout'
    | ok l =>
        constructor
        · intro hout
          cases hout
          exact ⟨l, rfl, rfl⟩
        · intro hsome
          obtain ⟨out', hout', rfl⟩ := hsome
          cases hout'
          rfl

/-- The calls of `recvRequest` return the requests that were sent, and
lose nothing, exactly when no read that completes a header brings bytes of
the next request. -/
theorem keepalive_iff (ms : List (Message env)) :
    ∀ {c : Conn}, c.Live → c.unread = wire ms →
      (∀ m ∈ ms.dropLast, m.request.close = false) →
      HeadersWhole ms c.segs →
      ((∃ out, handleClient env true ms.length c = .ok out
          ∧ Delivered ms out)
        ↔ NoSurplus ms c.segs) := by
  induction ms with
  | nil =>
      intro c _ _ _ _
      exact ⟨fun _ => trivial, fun _ => ⟨[], rfl, trivial⟩⟩
  | cons m ms ih =>
      intro c hc hu hkeep hhdr
      obtain ⟨hfirst, hhdr'⟩ := hhdr
      obtain ⟨bs, c₁, hread, hlen⟩ :=
        read_firstRead (m.header_pos.trans_le hfirst)
      obtain ⟨c', taken, hreq, htook, htaken⟩ :=
        m.recvRequest_eq hc hu hread (by rw [hlen]; exact hfirst)
      have hsegs := htook.segs hc
      have hunread : taken ++ c'.unread = m.text ++ wire ms :=
        htook.unread.trans hu
      have hclose : ms.length ≠ 0 → m.request.close = false := by
        intro hne
        refine hkeep m ?_
        rw [List.dropLast_cons_of_ne_nil (List.ne_nil_of_length_pos
          (Nat.pos_of_ne_zero hne))]
        exact List.mem_cons_self
      have hkeep' : ∀ m' ∈ ms.dropLast, m'.request.close = false := by
        intro m' hm'
        refine hkeep m' ?_
        rw [List.dropLast_cons_of_ne_nil
          (List.ne_nil_of_mem (List.dropLast_subset ms hm'))]
        exact List.mem_cons_of_mem m hm'
      rw [hlen] at htaken
      by_cases hover : firstRead env c.segs ≤ m.text.length
      · rw [max_eq_left hover] at htaken
        rw [htaken] at hsegs
        have hrest : c'.unread = wire ms :=
          (List.append_inj hunread htaken).2
        rw [← hsegs] at hhdr'
        have hih := ih (htook.live hc) hrest hkeep' hhdr'
        rw [hsegs] at hih
        constructor
        · intro hsome
          obtain ⟨out, hout, hdel⟩ := hsome
          obtain ⟨out', hout', rfl⟩ := (handleClient_cons hreq hclose).mp hout
          exact ⟨hover, hih.mp ⟨out', hout', hdel.2.2⟩⟩
        · intro hsome
          obtain ⟨-, hno⟩ := hsome
          obtain ⟨out', hout', hdel⟩ := hih.mpr hno
          exact ⟨(m.request, c') :: out',
            (handleClient_cons hreq hclose).mpr ⟨out', hout', rfl⟩,
            rfl, hrest, hdel⟩
      · -- the bytes past the message went with the buffer
        rw [max_eq_right (Nat.le_of_not_le hover)] at htaken
        refine ⟨fun ⟨out, hout, hdel⟩ => ?_, fun h => absurd h.1 hover⟩
        obtain ⟨out', -, rfl⟩ := (handleClient_cons hreq hclose).mp hout
        have hcount := congrArg List.length hunread
        rw [hdel.2.1, List.length_append, List.length_append] at hcount
        omega

-- =================================================================== a case

/-- A request without a body. -/
def getMessage : Message defaultEnv where
  text := ascii "GET /a HTTP/1.1\r\nConnection: keep-alive\r\n\r\n"
  data := ⟨.get, 0x11, true, ascii "/a", [], [], [],
    [(ascii "Connection", ascii "keep-alive")]⟩
  scanned := by decide +kernel
  built := by decide +kernel
  complete := by decide +kernel

/-- A request with a body of two bytes. -/
def postMessage : Message defaultEnv where
  text := ascii ("POST /b HTTP/1.1\r\nConnection: keep-alive\r\n"
    ++ "Content-Length: 2\r\n\r\nhi")
  data := ⟨.post, 0x11, true, ascii "/b", [], [], [],
    [(ascii "Connection", ascii "keep-alive"),
      (ascii "Content-Length", ascii "2")]⟩
  scanned := by decide +kernel
  built := by decide +kernel
  complete := by decide +kernel

/-- The body of the first request arrives with the second one. -/
theorem keepalive_iff_two_reads :
    ∃ out, handleClient defaultEnv true 2
        ⟨[postMessage.text.take postMessage.header,
          postMessage.text.drop postMessage.header ++ getMessage.text],
          true⟩ = .ok out
      ∧ Delivered [postMessage, getMessage] out :=
  (keepalive_iff [postMessage, getMessage] (by decide +kernel)
    (by decide +kernel) (by decide +kernel)
    ⟨by decide +kernel, by decide +kernel, trivial⟩).mpr
    ⟨by decide +kernel, by decide +kernel, trivial⟩

/-- Two requests in one read: the second one is lost. -/
theorem second_request_lost :
    HeadersWhole [getMessage, postMessage]
        [getMessage.text ++ postMessage.text]
      ∧ handleClient defaultEnv true 2
          ⟨[getMessage.text ++ postMessage.text], false⟩
        = .ok [(getMessage.request, ⟨[], false⟩)]
      ∧ ¬ ∃ out, handleClient defaultEnv true 2
            ⟨[getMessage.text ++ postMessage.text], false⟩ = .ok out
          ∧ out.map Prod.fst = [getMessage.request, postMessage.request] := by
  have hrun : handleClient defaultEnv true 2
      ⟨[getMessage.text ++ postMessage.text], false⟩
        = .ok [(getMessage.request, ⟨[], false⟩)] := by
    decide +kernel
  refine ⟨⟨by decide +kernel, by decide +kernel, trivial⟩, hrun, ?_⟩
  intro hsome
  obtain ⟨out, hout, hmap⟩ := hsome
  rw [hrun, Except.ok.injEq] at hout
  rw [← hout] at hmap
  cases hmap

end TinyServer.Http
