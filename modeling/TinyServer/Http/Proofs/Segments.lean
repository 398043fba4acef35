/-
A request that arrives in several reads.

`segmentation_iff` says when the cuts make no difference: a request that
is accepted in one read is read the same from any pieces exactly when
these leave its tokens intact. The parser keeps its state between two
buffers but not the text, and its marks start again at zero, so a token
that a cut goes through loses its front.
-/
import TinyServer.Http.Proofs.Receive

namespace TinyServer.Http

open Lib

variable {segs : List Bytes} {r : Bytes}

-- ====================================================== the starts of pieces

theorem base_le (segs : List Bytes) : ∀ e, base segs e ≤ e := by
  induction segs with
  | nil => exact fun e => Nat.zero_le e
  | cons seg rest ih =>
      intro e
      rw [base]
      split
      next => exact Nat.zero_le e
      next =>
          have := ih (e - seg.length)
          omega

/-- No piece starts between the start of the piece of `e` and `e`. -/
theorem base_same (segs : List Bytes) :
    ∀ {s e : Nat}, s ≤ e → base segs e ≤ s → base segs s = base segs e := by
  induction segs with
  | nil => exact fun _ _ => rfl
  | cons seg rest ih =>
      intro s e hse hle
      rw [base] at hle ⊢
      split at hle
      next he => rw [if_pos (by omega), base, if_pos he]
      next he =>
          rw [if_neg (by omega), base, if_neg he,
            ih (s := s - seg.length) (e := e - seg.length) (by omega)
              (by omega)]

theorem cuts_base (segs : List Bytes) : Cuts (base segs) :=
  ⟨base_le segs, base_same segs⟩

theorem pieces_base (segs : List Bytes) :
    Pieces segs.flatten (base segs) 0 segs := by
  have hgen : ∀ (segs : List Bytes) (pre : Bytes) (B : Nat → Nat),
      (∀ q, B (pre.length + q) = pre.length + base segs q) →
      Pieces (pre ++ segs.flatten) B pre.length segs := by
    intro segs
    induction segs with
    | nil => exact fun _ _ _ => trivial
    | cons seg rest ih =>
        intro pre B hB
        refine ⟨⟨?_, ?_, fun {q} hq hq' => ?_⟩, ?_⟩
        · have h : slice (pre ++ (seg :: rest).flatten) (pre.length + 0)
              seg.length = slice (seg :: rest).flatten 0 seg.length :=
            slice_append_right pre 0 seg.length
          rw [Nat.add_zero] at h
          rw [h, List.flatten_cons, slice, List.drop_zero, List.take_left]
        · rw [List.flatten_cons, List.length_append, List.length_append]
          omega
        · have h := hB (q - pre.length)
          rw [show pre.length + (q - pre.length) = q by omega, base,
            if_pos (by omega)] at h
          exact h
        · have h := ih (pre ++ seg) B fun q => by
            have h := hB (seg.length + q)
            rw [base, if_neg (by omega), Nat.add_sub_cancel_left,
              ← Nat.add_assoc, ← Nat.add_assoc] at h
            rw [List.length_append]
            exact h
          rwa [List.append_assoc, List.length_append] at h
  have h := hgen segs [] (base segs) fun q => by
    rw [List.length_nil, Nat.zero_add, Nat.zero_add]
  exact h

theorem pieces_whole (r : Bytes) : Pieces r (fun _ => 0) 0 [r] :=
  ⟨⟨List.take_length, by rw [Nat.zero_add], fun _ _ => rfl⟩, trivial⟩

-- ============================================================== segmentation

/-- Two requests with the same parts. -/
structure SameRequest (q q' : HttpRequest) : Prop where
  method : q.method = q'.method
  path : q.path = q'.path
  query : q.query = q'.query
  fragment : q.fragment = q'.fragment
  version : q.version = q'.version
  headers : q.headers = q'.headers
  body : q.body = q'.body

theorem setClose_parts (q : HttpRequest) :
    SameRequest (HttpSession.setClose q) q := by
  rw [HttpSession.setClose]
  split
  all_goals exact ⟨rfl, rfl, rfl, rfl, rfl, rfl, rfl⟩

/-- The session adds the body and `m_close` to what the tokens give, so
requests with the same parts come from the same tokens' texts. -/
theorem sameRequest_withBody {env : SessionEnv} {d d' : HttpRequest}
    {rest : Bytes} (hd : d.body = [] ∧ d.close = true)
    (hd' : d'.body = [] ∧ d'.close = true)
    (h : SameRequest (HttpSession.withBody env d' rest)
      (HttpSession.withBody env d rest)) : d' = d := by
  have hp := setClose_parts
    { d with body := rest.take (HttpSession.contentLength env d).toNat }
  have hp' := setClose_parts
    { d' with body := rest.take (HttpSession.contentLength env d').toNat }
  obtain ⟨m, v, cl, pa, qu, fr, bo, he⟩ := d
  obtain ⟨m', v', cl', pa', qu', fr', bo', he'⟩ := d'
  rw [HttpRequest.mk.injEq]
  exact ⟨hp'.method.symm.trans (h.method.trans hp.method),
    hp'.version.symm.trans (h.version.trans hp.version),
    hd'.2.trans hd.2.symm,
    hp'.path.symm.trans (h.path.trans hp.path),
    hp'.query.symm.trans (h.query.trans hp.query),
    hp'.fragment.symm.trans (h.fragment.trans hp.fragment),
    hd'.1.trans hd.1.symm,
    hp'.headers.symm.trans (h.headers.trans hp.headers)⟩

open HttpSession in
/-- A request that is accepted when it arrives in one read is read the
same from the pieces `segs` exactly when these leave its tokens intact. -/
theorem segmentation_iff {env : SessionEnv} {waits waits' : Bool}
    {req : HttpRequest} {c : Conn} (hfit : r.length ≤ env.bufferSize)
    (hwhole : recvRequest env ⟨[r], waits⟩ = .ok (some req, c))
    (hsegs : ∀ seg ∈ segs, seg ≠ []) (hcut : segs.flatten = r) :
    (∃ req' c', recvRequest env ⟨segs, waits'⟩ = .ok (some req', c')
        ∧ SameRequest req' req)
      ↔ Intact r (base segs) (scan env.uninit.uriRelaxed r).regs.tokens := by
  have hr : r ≠ [] := recvRequest_ne_nil hwhole
  have hsize : ∀ seg ∈ segs, seg ≠ [] ∧ seg.length ≤ env.bufferSize := by
    intro seg hseg
    refine ⟨hsegs seg hseg, ?_⟩
    have := (List.sublist_flatten_of_mem hseg).length_le
    rw [hcut] at this
    omega
  have hpieces := pieces_base segs
  rw [hcut] at hpieces
  obtain ⟨hfin, d, hd, hle, hreq⟩ := (recvRequest_iff (pieces_whole r)
    (List.flatten_singleton ..) (by simpa using ⟨hr, hfit⟩)).mp ⟨c, hwhole⟩
  have hord : Ordered _ _ (scan env.uninit.uriRelaxed r).regs :=
    scan_ordered (by rw [hfin]; exact Halt.noConfusion)
  rw [← replay_iff (cuts_base segs) hord.once hord.span
    (fun t ht => (hord.reach t ht).trans (scan_pos r)) hd]
  constructor
  · intro hsome
    obtain ⟨req', c', h, hsame⟩ := hsome
    obtain ⟨-, d', hd', -, hreq'⟩ :=
      (recvRequest_iff hpieces hcut hsize).mp ⟨c', h⟩
    rw [hreq, hreq'] at hsame
    rw [hd', sameRequest_withBody (replay_frame hd) (replay_frame hd') hsame]
  · intro h
    obtain ⟨c', h'⟩ : ∃ c',
        recvRequest env ⟨segs, waits'⟩ = .ok (some req, c') :=
      (recvRequest_iff hpieces hcut hsize).mpr ⟨hfin, d, h, hle, hreq⟩
    exact ⟨req, c', h', rfl, rfl, rfl, rfl, rfl, rfl, rfl⟩

-- =================================================================== a case

/-- `boost::lexical_cast<uint64_t>` of decimal digits. -/
def decimal (s : Bytes) : Option Nat :=
  if s ≠ [] ∧ s.all fun b => 48 ≤ b ∧ b ≤ 57 then
    some (s.foldl (fun n b => 10 * n + (b.toNat - 48)) 0)
  else none

/-- The default buffer size, and a parser allocated on zeroed memory. -/
def defaultEnv : SessionEnv := ⟨4096, decimal, ⟨false, 0⟩⟩

/-- `GET /ab HTTP/1.1` without headers. -/
def getAb : HttpRequest := ⟨.get, 0x11, true, ascii "/ab", [], [], [], []⟩

open HttpSession in
/-- A cut between the method and the path makes no difference. -/
theorem segmentation_iff_before_path :
    ∃ req c, recvRequest defaultEnv
        ⟨[ascii "GET ", ascii "/ab HTTP/1.1\r\n\r\n"], true⟩
          = .ok (some req, c)
      ∧ SameRequest req getAb :=
  (segmentation_iff (by decide +kernel)
    (show recvRequest defaultEnv ⟨[ascii "GET /ab HTTP/1.1\r\n\r\n"], true⟩
      = .ok (some getAb, ⟨[], true⟩) by decide +kernel)
    (by decide +kernel) (by decide +kernel)).mpr (by decide +kernel)

open HttpSession in
/-- A cut inside the path: the request comes back with the path `b`. -/
theorem path_loses_front :
    recvRequest defaultEnv ⟨[ascii "GET /ab HTTP/1.1\r\n\r\n"], true⟩
        = .ok (some getAb, ⟨[], true⟩)
      ∧ [ascii "GET /a", ascii "b HTTP/1.1\r\n\r\n"].flatten
        = ascii "GET /ab HTTP/1.1\r\n\r\n"
      ∧ ¬ ∃ req c, recvRequest defaultEnv
            ⟨[ascii "GET /a", ascii "b HTTP/1.1\r\n\r\n"], true⟩
              = .ok (some req, c)
          ∧ SameRequest req getAb := by
  refine ⟨by decide +kernel, by decide +kernel, ?_⟩
  intro hsome
  obtain ⟨req, c, h, hsame⟩ := hsome
  have hcut : recvRequest defaultEnv
      ⟨[ascii "GET /a", ascii "b HTTP/1.1\r\n\r\n"], true⟩
        = .ok (some { getAb with path := ascii "b" }, ⟨[], true⟩) := by
    decide +kernel
  rw [hcut, Except.ok.injEq, Prod.mk.injEq, Option.some.injEq] at h
  have hpath := hsame.path
  rw [← h.1] at hpath
  exact absurd hpath (by decide +kernel)

end TinyServer.Http
