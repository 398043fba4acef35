/-
A response header in one read: the connection against `readResponse`.

`Mirrors` relates the registers of the parser, which are positions in the
buffer, with the bytes that `readResponse` keeps. Every action keeps it,
and so do whole runs (`sweep_readResponse`). What `recvResponse` does with
a header that came in one read is `recvResponse_read`.
-/
import TinyServer.Http.ClientReading
import TinyServer.Http.Proofs.ChunkReads
import TinyServer.Http.Proofs.Reading

namespace TinyServer.Http

open Lib

/-- The parser at position `p` of `r`, against the reading. -/
structure Mirrors (r : Bytes) (p : Nat) (x : ResponseRegs)
    (z : ResponseReading) : Prop where
  mark_le : x.mark ≤ p
  field_le : x.fieldStart ≤ p
  body_le : x.bodyStart ≤ p + 1
  mark : z.mark = slice r x.mark (p - x.mark)
  field : z.field = slice r x.fieldStart (p - x.fieldStart)
  fieldLen : z.fieldLen = x.fieldLen
  data : z.data = x.data
  chunked : z.chunked = x.chunked
  error : x.error = 0

namespace Mirrors

variable {r : Bytes} {p : Nat} {x : ResponseRegs} {z : ResponseReading}
  {a : ClientAction} {b : UInt8}

theorem init (r : Bytes) (status : Int) :
    Mirrors r 0 (HttpResponseParser.new status).regs.rewind
      ResponseReading.init :=
  ⟨le_rfl, le_rfl, Nat.zero_le _, slice_self.symm, slice_self.symm, rfl, rfl,
    rfl, rfl⟩

/-- A token and what follows it. -/
theorem ahead {m : Nat} {t : Bytes} (hm : m ≤ p)
    (ht : t = slice r m (p - m)) : t ++ r.drop p = r.drop m := by
  obtain ⟨k, rfl⟩ := Nat.exists_eq_add_of_le hm
  rw [ht, slice, Nat.add_sub_cancel_left, ← List.drop_drop]
  exact List.take_append_drop k _

/-- The length of a token in the text. -/
theorem length_mark (h : Mirrors r p x z) (hp : p ≤ r.length) :
    z.mark.length = p - x.mark := by
  have hm := h.mark_le
  rw [h.mark, length_slice (by omega)]

theorem length_field (h : Mirrors r p x z) (hp : p ≤ r.length) :
    z.field.length = p - x.fieldStart := by
  have hf := h.field_le
  rw [h.field, length_slice (by omega)]

theorem act (h : Mirrors r p x z) (hp : p ≤ r.length) :
    Mirrors r p (x.perform r p a) (z.act (r.drop p) a) := by
  have hlenM := h.length_mark hp
  have hlenF := h.length_field hp
  obtain ⟨hm, hf, hb, hmark, hfield, hlen, hdata, hchunked, herr⟩ := h
  have hM := ahead hm hmark
  have hF := ahead hf hfield
  have htoken : (r.drop x.mark).take (p - x.mark) = z.mark := hmark.symm
  cases a <;> unfold ResponseRegs.perform ResponseReading.act <;> dsimp only
  case mark =>
    exact ⟨le_rfl, hf, hb, slice_self.symm, hfield, hlen, hdata, hchunked, herr⟩
  case startField =>
    exact ⟨hm, le_rfl, hb, hmark, slice_self.symm, hlen, hdata, hchunked, herr⟩
  case writeField =>
    exact ⟨hm, hf, hb, hmark, hfield, hlenF, hdata, hchunked, herr⟩
  case writeContentLen | writeConnectionClose =>
    exact ⟨hm, hf, hb, hmark, hfield, hlen, hdata, hchunked, herr⟩
  case done =>
    exact ⟨hm, hf, le_rfl, hmark, hfield, hlen, hdata, hchunked, herr⟩
  case chunkSize | transChunked =>
    exact ⟨hm, hf, hb, hmark, hfield, hlen, hdata, rfl, herr⟩
  case writeValue =>
    unfold ResponseRegs.onResponseHttpField
    rw [hlen, hF, htoken]
    split
    next =>
      exact ⟨hm, hf, hb, hmark, hfield, hlen, hdata, hchunked, herr⟩
    next =>
      refine ⟨hm, hf, hb, hmark, hfield, rfl, ?_, hchunked, herr⟩
      dsimp only
      rw [hdata]
  case reasonPhrase =>
    refine ⟨hm, hf, hb, hmark, hfield, hlen, ?_, hchunked, herr⟩
    unfold ResponseRegs.onResponseReason
    dsimp only
    rw [hdata, htoken]
  case statusCode =>
    refine ⟨hm, hf, hb, hmark, hfield, hlen, ?_, hchunked, herr⟩
    unfold ResponseRegs.onResponseStatus
    dsimp only
    rw [hdata, hM]
  case httpVersion =>
    rw [hM, hlenM]
    unfold ResponseRegs.onResponseVersion
    cases hver : strncmpEq (r.drop x.mark) (ascii "HTTP/1.0")
        ((p - x.mark : Nat) : Int) with
    | true =>
        refine ⟨hm, hf, hb, hmark, hfield, hlen, ?_, hchunked, herr⟩
        exact congrArg (fun d : HttpResponse => { d with version := 0x11 })
          hdata
    | false =>
        refine ⟨hm, hf, hb, hmark, hfield, hlen, ?_, hchunked, herr⟩
        exact congrArg (fun d : HttpResponse => { d with version := 0x10 })
          hdata

theorem actions (hp : p ≤ r.length) (acts : List ClientAction) :
    ∀ {x : ResponseRegs} {z : ResponseReading}, Mirrors r p x z →
      Mirrors r p (acts.foldl (fun x a => x.perform r p a) x)
        (acts.foldl (fun z a => z.act (r.drop p) a) z) := by
  induction acts with
  | nil => exact fun h => h
  | cons a acts ih => exact fun h => ih (h.act hp)

/-- On to the next byte. -/
theorem push (h : Mirrors r p x z) (hb : r[p]? = some b) :
    Mirrors r (p + 1) x (z.push b) := by
  refine ⟨h.mark_le.trans p.le_succ, h.field_le.trans p.le_succ,
    h.body_le.trans (p + 1).le_succ, ?_, ?_, h.fieldLen, h.data, h.chunked,
    h.error⟩
  · rw [slice_snoc h.mark_le hb, ← h.mark]
    rfl
  · rw [slice_snoc h.field_le hb, ← h.field]
    rfl

end Mirrors

/-- The parser and `readResponse` from the same place on. -/
theorem sweep_readResponse {r : Bytes} (bs : Bytes) :
    ∀ {p cs t : Nat} {x : ResponseRegs} {z z' : ResponseReading}
      {rest : Bytes}, Mirrors r p x z → r.drop p = bs →
      readResponse cs z bs = some (t, z', rest) →
      ∃ s, sweep ClientTable.transition ClientAction.isDone
          (ResponseRegs.perform r) p bs cs x = s
        ∧ s.cs = t ∧ r.drop s.pos = rest ∧ s.regs.bodyStart ≤ r.length
        ∧ s.regs.data = z'.data ∧ s.regs.chunked = z'.chunked
        ∧ s.regs.error = 0 := by
  induction bs with
  | nil =>
      intro p cs t x z z' rest _ _ hread
      cases hread
  | cons b bs ih =>
      intro p cs t x z z' rest h hbs hread
      have hb : r[p]? = some b := by
        rw [← List.head?_drop, hbs]
        rfl
      have hp : p < r.length := (List.getElem?_eq_some_iff.mp hb).1
      have hbs' : r.drop (p + 1) = bs := by
        rw [← List.drop_drop, hbs]
        rfl
      unfold readResponse at hread
      unfold sweep
      split at hread
      next => cases hread
      next acts u hnext =>
        have hacts := Mirrors.actions (Nat.le_of_lt hp) acts h
        rw [hbs] at hacts
        rw [hnext]
        dsimp only
        split at hread
        next hlast =>
          cases hread
          rw [if_pos hlast]
          exact ⟨_, rfl, rfl, hbs', hacts.body_le.trans hp, hacts.data.symm,
            hacts.chunked.symm, hacts.error⟩
        next hlast =>
          rw [if_neg hlast]
          exact ih (hacts.push hb) hbs' hread

/-- A byte at least has been read. -/
theorem readResponse_length {kept : Bytes} {t : Nat} (bs : Bytes) :
    ∀ {cs : Nat} {z z' : ResponseReading},
      readResponse cs z bs = some (t, z', kept) → kept.length < bs.length := by
  induction bs with
  | nil =>
      intro cs z z' h
      cases h
  | cons b bs ih =>
      intro cs z z' h
      unfold readResponse at h
      split at h
      next => cases h
      next =>
        split at h
        next =>
          cases h
          exact Nat.lt_succ_self _
        next => exact Nat.lt_succ_of_lt (ih h)

/-- A text in pieces, of which the first read brings all but a part of the
last `n` bytes. -/
structure Arrives (size : Nat) (text : Bytes) (n : Nat) (segs : List Bytes) :
    Prop where
  whole : segs.flatten = text
  live : ∀ seg ∈ segs, seg ≠ []
  first : text.length ≤ min (segs.headD []).length size + n

/-- The first read of a text, whatever follows it on the connection. -/
theorem Arrives.read {size n : Nat} {text : Bytes} {segs : List Bytes}
    (h : Arrives size text n segs) (hn : n < text.length) (later : List Bytes)
    (waits : Bool) :
    ∃ bs c', Conn.read ⟨segs ++ later, waits⟩ size = .ok (bs, c')
      ∧ text.length ≤ bs.length + n ∧ bs.length ≤ size
      ∧ bs.length ≤ text.length := by
  obtain ⟨hwhole, -, hfirst⟩ := h
  cases segs with
  | nil =>
      rw [← hwhole] at hn
      exact absurd hn (Nat.not_lt_zero n)
  | cons seg more =>
      rw [List.headD_cons, Nat.min_comm, ← List.length_take] at hfirst
      refine ⟨seg.take size, _, rfl, hfirst, List.length_take_le .., ?_⟩
      rw [← hwhole, List.flatten_cons, List.length_append]
      exact (List.length_take_le' ..).trans (Nat.le_add_right ..)

namespace HttpConnection

variable {env : ConnectionEnv} {r kept : Bytes} {z : ResponseReading}

/-- A new parser on a text that starts with a response header. -/
theorem execute_read (status : Int)
    (hread : readResponse ClientTable.start .init r
      = some (ClientTable.firstFinal, z, kept)) :
    ∃ n ps, (HttpResponseParser.new status).execute r false = some (n, ps)
      ∧ r.drop n = kept ∧ ps.cs = ClientTable.firstFinal
      ∧ ps.regs.data = z.data ∧ ps.regs.chunked = z.chunked
      ∧ ps.regs.error = 0 := by
  obtain ⟨s, hs, hcs, hrest, hbody, hdata, hchunked, herr⟩ :=
    sweep_readResponse r (Mirrors.init r status) rfl hread
  refine ⟨s.pos, ⟨s.cs, s.regs⟩, ?_, hrest, hcs, hdata, hchunked, herr⟩
  unfold HttpResponseParser.execute
  rw [if_neg Bool.false_ne_true]
  dsimp only [HttpResponseParser.new] at hs ⊢
  rw [hs, if_pos hbody]

/-- A response whose header comes in the first read. -/
theorem recvResponse_read {c c' : Conn}
    (hfirst : c.read env.bufferSize = .ok (r, c'))
    (hfit : r.length ≤ env.bufferSize)
    (hread : readResponse ClientTable.start .init r
      = some (ClientTable.firstFinal, z, kept))
    (hplain : z.chunked = false) :
    ∃ ps, ps.regs.data = z.data
      ∧ recvResponse env c = recvRest (contentLength env ps) ps kept c' := by
  obtain ⟨n, ps, hexec, hrest, hcs, hdata, hchunked, herr⟩ :=
    execute_read env.status hread
  have hlt := readResponse_length r hread
  have hne : r ≠ [] := by
    rintro rfl
    cases hread
  have hread' : read c ((env.bufferSize : Int) - ([] : Bytes).length)
      = .ok (r, c') := by
    rw [List.length_nil, Int.ofNat_zero, Int.sub_zero, read_nat, hfirst]
    rfl
  have herror : ps.hasError = false := by
    unfold HttpResponseParser.hasError
    rw [herr, hcs]
    rfl
  have hfinished : ps.isFinished ≠ 0 := by
    unfold HttpResponseParser.isFinished
    rw [hcs]
    decide
  have hheader : recvHeader env false (c.unread.length + 1)
      (HttpResponseParser.new env.status) [] c = .ok (some (ps, kept), c') := by
    rw [recvHeader_step hread' hne hexec herror
      (by rw [List.nil_append, hrest]; omega), if_pos hfinished,
      List.nil_append, hrest]
  refine ⟨ps, hdata, ?_⟩
  unfold recvResponse
  rw [hheader]
  change (if ps.regs.chunked then _ else _) = _
  rw [hchunked, hplain]
  exact if_neg Bool.false_ne_true

/-- The body that is announced is taken from the buffer and the stream. -/
theorem recvRest_body {ps : HttpResponseParser} {body : Bytes} {c : Conn}
    (hc : c.Live) (hbody : kept ++ c.unread = body)
    (hempty : ps.regs.data.body = [])
    (hlen : contentLength env ps = body.length) :
    ∃ c', recvRest (contentLength env ps) ps kept c
      = .ok (some (withBody ps body), c') := by
  unfold recvRest
  rw [hlen]
  by_cases hpos : (0 : Int) < body.length
  · rw [if_pos hpos]
    have hthere : (body.length : Int).toNat ≤ (kept ++ c.unread).length := by
      rw [hbody, Int.toNat_natCast]
    obtain ⟨b, c', hrecv⟩ := HttpSession.recvBody_ok hc hthere
    obtain ⟨-, hb, -⟩ := HttpSession.recvBody_took hrecv
    rw [Int.toNat_natCast, hbody, List.take_length] at hb
    refine ⟨c', ?_⟩
    rw [hrecv, hb]
  · rw [if_neg hpos]
    have hnil : body = [] := by
      refine List.length_eq_zero_iff.mp ?_
      omega
    refine ⟨c, ?_⟩
    unfold withBody
    rw [hnil, ← hempty]

end HttpConnection

end TinyServer.Http
