/-
A conversation: a client that sends its requests, a server that answers.

Each request comes as the text that `dump` writes, in pieces of its own:
the client waits for a response before it goes on. Then every request is
read as it was sent, one response is made for each, in their order, until
one of them closes or the server does not keep connections alive
(`served`); and what the client receives is that response.
-/
import TinyServer.Http.Proofs.Dump
import TinyServer.Http.Proofs.KeepAlive
import TinyServer.Http.Proofs.ResponseDump
import TinyServer.Http.Server

namespace TinyServer.Http

open Lib

/-- What is left after the segments of one text. -/
theorem Conn.skip_append {segs later : List Bytes}
    (hsegs : ∀ seg ∈ segs, seg ≠ [])
    (hlater : ∀ seg ∈ later, seg ≠ []) :
    skip segs.flatten.length (segs ++ later) = later := by
  induction segs with
  | nil => exact skip_zero hlater
  | cons seg segs ih =>
      rw [List.flatten_cons, List.length_append, List.cons_append, skip,
        if_neg (by omega), Nat.add_sub_cancel_left]
      exact ih fun t ht => hsegs t (List.mem_cons_of_mem _ ht)

-- =================================================================== a request

/-- A header that `read` reads is one that the parser finishes. -/
theorem scan_of_read {relaxed : Bool} {r rest : Bytes} {z : Reading}
    (h : read relaxed RequestTable.start .init r = some (z, rest)) :
    (scan relaxed r).halt = .finished ∧ rest = r.drop (scan relaxed r).pos
      ∧ z.data = replay r (fun _ => 0) (scan relaxed r).regs.tokens := by
  have hscan := sweep_read r (Sees.init r) rfl (s := scan relaxed r) rfl
  split at hscan
  next hfin =>
    obtain ⟨z', hz, htokens⟩ := hscan
    obtain ⟨rfl, hrest⟩ := Prod.mk.inj (Option.some.inj (h.symm.trans hz))
    exact ⟨hfin, hrest, htokens⟩
  next => exact absurd (h.symm.trans hscan) (Option.some_ne_none _)

/-- The text that `dump` writes is read as the request. -/
structure HttpRequest.Sendable (env : SessionEnv) (q : HttpRequest) : Prop where
  wellFormed : WellFormed env.uninit.uriRelaxed q
  path : PlainPath q.path
  length : q.body = [] → (HttpSession.contentLength env q).toNat = 0
  body : q.body.length < 2 ^ 31
  cast : env.lexicalCast (toDecimal q.body.length) = some q.body.length

namespace HttpRequest.Sendable

variable {env : SessionEnv} {q : HttpRequest}

/-- The header of the text announces the body. -/
theorem contentLength (h : q.Sendable env) :
    (HttpSession.contentLength env (dumped q)).toNat = q.body.length := by
  by_cases hbody : q.body = []
  · refine contentLength_dumped h.wellFormed.sorted ?_ h.cast
    rw [h.length hbody, hbody]
    rfl
  · have hfind : (dumped q).headers.find (ascii "content-length")
        = some (toDecimal q.body.length) := by
      unfold dumped dumpedHeaders
      rw [if_neg hbody, Headers.set_eq_put, Headers.find_eq_get, Assoc.get_put,
        if_pos Std.ReflCmp.compare_self]
    unfold HttpSession.contentLength HttpRequestParser.getContentLength
      Headers.getHeaderAs
    rw [hfind, Option.bind_some, h.cast, Option.getD_some, toInt_of_lt h.body]
    exact Int.toNat_natCast _

/-- The text is a message that stands for the request. -/
theorem message (h : q.Sendable env) :
    ∃ m : Message env, m.text = q.dump
      ∧ m.text.length = m.header + q.body.length ∧ Reread q m.request := by
  have hlen := h.contentLength
  obtain ⟨z', hread, hdata⟩ := read_dump h.wellFormed h.path
  obtain ⟨hfin, hbody, htokens⟩ := scan_of_read hread
  have hpos : (scan env.uninit.uriRelaxed q.dump).pos ≤ q.dump.length :=
    scan_pos q.dump
  have hcount : q.body.length
      = q.dump.length - (scan env.uninit.uriRelaxed q.dump).pos := by
    rw [← List.length_drop]
    exact congrArg List.length hbody
  have hreq : SameRequest
      (HttpSession.setClose { dumped q with body := q.body })
      { dumped q with body := q.body } := setClose_parts _
  refine ⟨⟨q.dump, dumped q, hfin, htokens.symm.trans hdata, by omega⟩, rfl,
    by unfold Message.header; dsimp only; omega, ?_⟩
  unfold Message.request Message.header HttpSession.withBody
  dsimp only
  rw [← hbody, hlen, List.take_length]
  exact ⟨hreq.method, hreq.path, hreq.query, hreq.fragment, hreq.version,
    hreq.body, close_dumped q.body,
    (congrArg Headers.strip hreq.headers).trans
      (strip_dumped h.wellFormed.sorted)⟩

/-- One call of `recvRequest` reads the request, and nothing of what comes
after it. -/
theorem recvRequest (h : q.Sendable env) {segs later : List Bytes}
    (waits : Bool) (hsegs : Arrives env.bufferSize q.dump q.body.length segs)
    (hlater : ∀ seg ∈ later, seg ≠ []) :
    ∃ req, HttpSession.recvRequest env ⟨segs ++ later, waits⟩
        = .ok (some req, ⟨later, waits⟩)
      ∧ Reread q req := by
  obtain ⟨m, htext, hcount, hreread⟩ := h.message
  have hpos := m.header_pos
  rw [← htext] at hsegs
  obtain ⟨bs, c₁, hread, hhead, -, hle⟩ :=
    hsegs.read (by omega) later waits
  have hlive : (Conn.mk (segs ++ later) waits).Live := by
    intro seg hseg
    rcases List.mem_append.mp hseg with hseg | hseg
    · exact hsegs.live seg hseg
    · exact hlater seg hseg
  have hunread : (Conn.mk (segs ++ later) waits).unread
      = m.text ++ later.flatten := by
    rw [← hsegs.whole]
    exact List.flatten_append
  obtain ⟨c', taken, hrecv, htook, hlen⟩ :=
    m.recvRequest_eq hlive hunread hread (by omega)
  have hrest := htook.segs hlive
  rw [hlen, Nat.max_eq_left hle, ← hsegs.whole,
    Conn.skip_append hsegs.live hlater] at hrest
  have hwaits := htook.waits
  obtain ⟨segs', waits'⟩ := c'
  cases hrest
  cases hwaits
  exact ⟨m.request, hrecv, hreread⟩

/-- What a server has received can be sent on. -/
theorem of_received {r : Bytes} {waits : Bool} {c : Conn}
    (hfit : r.length ≤ env.bufferSize)
    (h : HttpSession.recvRequest env ⟨[r], waits⟩ = .ok (some q, c))
    (hplain : PlainPath q.path)
    (hcast : env.lexicalCast (toDecimal q.body.length) = some q.body.length) :
    q.Sendable env := by
  obtain ⟨hwell, hlen⟩ := recvRequest_wellFormed hfit h
  refine ⟨hwell, hplain, fun hbody => ?_, ?_, hcast⟩
  · rw [← hlen, hbody]
    rfl
  · rw [hlen]
    unfold HttpSession.contentLength toInt
    omega

end HttpRequest.Sendable

-- ============================================================== a conversation

/-- A request of the client, and how its text comes to the server. -/
structure Call where
  request : HttpRequest
  segs : List Bytes

variable {O C : Type} {env : SessionEnv} {cenv : ConnectionEnv}
  {fnmatch : Bytes → Bytes → Nat → Int} {h : Handlers O C}
  {s : HttpServer O C}

/-- The calls that the server answers: up to one that closes, and the first
one only when it does not keep connections alive. -/
def HttpServer.served (s : HttpServer O C) : List Call → List Call
  | [] => []
  | call :: calls =>
      if s.isKeepalive && !call.request.close then call :: s.served calls
      else [call]

/-- The request was read as it was sent, the response is the one that the
server makes for it, and the client receives it. -/
structure Answered (cenv : ConnectionEnv) (fnmatch : Bytes → Bytes → Nat → Int)
    (h : Handlers O C) (s : HttpServer O C) (call : Call)
    (p : HttpRequest × HttpResponse) : Prop where
  reread : Reread call.request p.1
  response : p.2 = s.respond fnmatch h p.1
  received : ∀ segs waits, p.2.Sendable →
    Arrives cenv.bufferSize p.2.dump p.2.body.length segs →
    p.2.body.length < 2 ^ 31 →
    cenv.lexicalCast (toDecimal p.2.body.length) = some p.2.body.length →
    ∃ r' c', HttpConnection.recvResponse cenv ⟨segs, waits⟩
        = .ok (some r', c')
      ∧ Received p.2 r'

theorem answered {call : Call} {req : HttpRequest}
    (hreread : Reread call.request req) :
    Answered cenv fnmatch h s call (req, s.respond fnmatch h req) where
  reread := hreread
  response := rfl
  received segs waits hr hsegs hlen hcast := by
    obtain ⟨c', hrecv⟩ := recvResponse_dump waits hr hsegs hlen hcast
    exact ⟨_, c', hrecv, received_dumped⟩

/-- The client has closed: the loop ends. -/
theorem HttpServer.handleClient_closed (k : Nat) :
    s.handleClient env fnmatch h k ⟨[], false⟩ = .ok [] := by
  cases k <;> rfl

/-- A step of the loop. -/
theorem HttpServer.handleClient_step {k : Nat} {c c' : Conn} {req : HttpRequest}
    (hrecv : HttpSession.recvRequest env c = .ok (some req, c')) :
    s.handleClient env fnmatch h (k + 1) c
      = if s.isKeepalive && !req.close then
          (s.handleClient env fnmatch h k c').map
            ((req, s.respond fnmatch h req) :: ·)
        else .ok [(req, s.respond fnmatch h req)] := by
  rw [HttpServer.handleClient, hrecv]
  change (if (!s.isKeepalive || req.close) = true then Except.ok _ else _) = _
  generalize s.handleClient env fnmatch h k c' = x
  cases s.isKeepalive <;> cases req.close <;> cases x <;> rfl

/-- Every call up to the one that ends the conversation is answered, each
once and in their order, and the loop ends when the client has closed. -/
theorem conversation {calls : List Call} {k : Nat}
    (hcalls : ∀ call ∈ calls, call.request.Sendable env
      ∧ Arrives env.bufferSize call.request.dump call.request.body.length
          call.segs)
    (hk : calls.length ≤ k) :
    ∃ out, s.handleClient env fnmatch h k ⟨(calls.map Call.segs).flatten, false⟩
        = .ok out
      ∧ List.Forall₂ (Answered cenv fnmatch h s) (s.served calls) out := by
  induction calls generalizing k with
  | nil => exact ⟨[], HttpServer.handleClient_closed k, .nil⟩
  | cons call calls ih =>
      obtain ⟨k, rfl⟩ := Nat.exists_eq_add_of_le' hk
      rw [List.length_cons] at hk ⊢
      obtain ⟨hsend, hsegs⟩ := hcalls call List.mem_cons_self
      have hlater : ∀ seg ∈ (calls.map Call.segs).flatten, seg ≠ [] := by
        intro seg hseg
        obtain ⟨l, hl, hseg⟩ := List.mem_flatten.mp hseg
        obtain ⟨call', hmem, rfl⟩ := List.mem_map.mp hl
        exact (hcalls call' (List.mem_cons_of_mem _ hmem)).2.live seg hseg
      obtain ⟨req, hrecv, hreread⟩ := hsend.recvRequest
        false hsegs hlater
      rw [← List.flatten_cons, ← List.map_cons] at hrecv
      rw [← Nat.add_assoc, HttpServer.handleClient_step hrecv, hreread.close]
      unfold HttpServer.served
      split
      next =>
        obtain ⟨out, hout, hall⟩ := ih
          (fun call' hmem => hcalls call' (List.mem_cons_of_mem _ hmem))
          (k := k + calls.length) (Nat.le_add_left ..)
        rw [hout]
        exact ⟨_, rfl, .cons (answered hreread) hall⟩
      next => exact ⟨_, rfl, .cons (answered hreread) .nil⟩

/-- A server that answers everything with the page of `NotFountServlet`. -/
def bareServer : HttpServer Empty Empty := ⟨ascii "tiny", true, .new⟩

/-- There is no servlet but that one. -/
def noHandlers : Handlers Empty Empty where
  object o := nomatch o
  callback c := nomatch c

/-- Two calls; the body of each comes in a segment of its own. -/
def postTwice : List Call :=
  List.replicate 2 ⟨postA, [postA.dump.dropLast.dropLast, ascii "hi"]⟩

theorem conversation_two :
    ∃ out, bareServer.handleClient defaultEnv (fun _ _ _ => 1) noHandlers 3
        ⟨(postTwice.map Call.segs).flatten, false⟩ = .ok out
      ∧ List.Forall₂ (Answered ⟨4096, decimal, 0⟩ (fun _ _ _ => 1) noHandlers
          bareServer)
        (bareServer.served postTwice) out := by
  have hrecv : HttpSession.recvRequest defaultEnv
      ⟨[ascii "POST /a?b#c HTTP/1.0\r\nHost:\r\nConnection: keep-alive\r\n"
        ++ ascii "Content-Length: 2\r\n\r\nhi"], true⟩
        = .ok (some postA, ⟨[], true⟩) := by
    decide +kernel
  have hplain : PlainPath postA.path := by
    refine ⟨by decide, fun c e h => ?_, fun h => ?_⟩
    · have hmem : 58 ∈ postA.path :=
        h ▸ List.mem_append_right c List.mem_cons_self
      exact absurd hmem (by decide)
    · exact absurd h (by decide)
  refine conversation ?_ (Nat.le_succ 2)
  intro call hcall
  rw [List.eq_of_mem_replicate hcall]
  refine ⟨.of_received (by decide +kernel) hrecv hplain (by decide +kernel), ?_,
    ?_, ?_⟩
  · decide +kernel
  · decide +kernel
  · decide +kernel

-- ============================================================ the page for 404

theorem HttpResponse.Sendable.setHeader {r : HttpResponse} (h : r.Sendable)
    {k v : Bytes} (hk : PlainName k) (hv : PlainValue v) :
    (r.setHeader k v).Sendable := by
  refine ⟨h.version, h.status, h.reason, ?_, ?_⟩
  · unfold HttpResponse.setHeader
    dsimp only
    rw [Headers.set_eq_put]
    exact Assoc.forall_put h.fields hk hv
  · unfold HttpResponse.setHeader
    dsimp only
    rw [Headers.set_eq_put]
    exact Assoc.sorted_put h.sorted

theorem HttpResponse.Sendable.setBody {r : HttpResponse} (h : r.Sendable)
    (body : Bytes) : HttpResponse.Sendable { r with body := body } :=
  ⟨h.version, h.status, h.reason, h.fields, h.sorted⟩

theorem HttpResponse.Sendable.setStatus {r : HttpResponse} (h : r.Sendable)
    (status : Int) (hstatus : 0 ≤ status ∧ status < 2 ^ 31) :
    HttpResponse.Sendable { r with status := status } :=
  ⟨h.version, hstatus, h.reason, h.fields, h.sorted⟩

/-- A request for which no servlet is registered gets the page of
`NotFountServlet`, and the client can read it. -/
theorem notFount_sendable {req : HttpRequest}
    (hversion : req.version = 0x11 ∨ req.version = 0x10)
    (hmatch : s.dispatch.getMatchedServlet fnmatch req.path = some .notFount)
    (hname : PlainValue s.name) :
    (s.respond fnmatch h req).Sendable
      ∧ (s.respond fnmatch h req).status = 404
      ∧ (s.respond fnmatch h req).body = notFountBody := by
  have hnames : PlainName (ascii "Server") ∧ PlainName (ascii "Content-Type") :=
    ⟨by decide +kernel, by decide +kernel⟩
  have hvalues : PlainValue (ascii "TinyServer/1.0.0")
      ∧ PlainValue (ascii "text/html") :=
    ⟨by decide +kernel, by decide +kernel⟩
  unfold HttpServer.respond ServletDispatch.handle
  rw [hmatch]
  dsimp only [Servlet.handle]
  refine ⟨?_, rfl, rfl⟩
  have hbare : HttpResponse.Sendable
      ⟨200, req.version, [], [], [], req.close || !s.isKeepalive⟩ :=
    { version := hversion
      status := show (0 : Int) ≤ 200 ∧ (200 : Int) < 2 ^ 31 by decide
      reason := fun _ hb => nomatch hb
      fields := fun _ hkv => nomatch hkv
      sorted := List.Pairwise.nil }
  have hpage := (hbare.setHeader hnames.1 hname).setStatus 404
    (by decide)
  exact ((hpage.setHeader hnames.1 hvalues.1).setHeader hnames.2
    hvalues.2).setBody notFountBody

end TinyServer.Http
