/-
Chunked responses, and the reads that receive them: the header in any
pieces, and the size line of a chunk.

# How a chunk is received

The first read for a chunk is to bring its size line; `arrived` is how
much of the chunk is then in the buffer, and `r` how much of that comes
after the size line. The code takes two bytes off the end of these `r`
bytes, for the `\r\n` that ends the chunk. That is right when they end
there. With more in the buffer the `\r\n` stays in front of the next size
line, which the parser refuses; with fewer than two bytes the length
passed to `append` is negative; with a part of the payload two bytes of
it are lost and the `\r\n` is taken for payload (`Chunk.part`), which
makes a difference unless these bytes repeat (`Chunk.Repeats`).

A size line that is cut is lost too: the parser starts anew with every
read. `WholeLines` excludes that; what follows from it depends on the
bytes of the payload.

# Reads

All this is said of the segments in which the bytes arrive: a read at
some place brings the rest of the segment there, or as much of it as
fits the buffer (`Conn.read`).
-/
import TinyServer.Http.Proofs.ResponseHeader
import TinyServer.Http.Proofs.Stream

namespace TinyServer.Http

open Lib

-- ================================================================ the messages

/-- A chunk: the digits of its size, and the payload. -/
structure Chunk where
  size : Bytes
  payload : Bytes
  deriving DecidableEq, Repr

namespace Chunk

/-- The size line. -/
def line (k : Chunk) : Bytes := k.size ++ crlf

/-- What follows the size line. -/
def rest (k : Chunk) : Bytes := k.payload ++ crlf

def bytes (k : Chunk) : Bytes := k.line ++ k.rest

/-- The digits spell the length of the payload. -/
structure WellFormed (k : Chunk) : Prop where
  nonempty : k.size ≠ []
  digits : ∀ d ∈ k.size, isHexDigit d = true
  value : digitsValue 16 0 k.size = k.payload.length

/-- The buffer has `r` bytes after the size line: at least two, and
nothing of the next chunk. -/
def InTime (k : Chunk) (r : Nat) : Prop := 2 ≤ r ∧ r ≤ k.rest.length

/-- What the code takes for the payload. -/
def part (k : Chunk) (r : Nat) : Bytes :=
  k.rest.take (r - 2) ++ k.rest.drop r

/-- From two bytes before the end of the first `r` bytes on, payload and
`\r\n` repeat: they are a sequence of `\r\n`, possibly without its first
`\r`. -/
def Repeats (k : Chunk) (r : Nat) : Prop :=
  k.rest.drop (r - 2) = k.rest.drop r ++ crlf

instance (k : Chunk) (r : Nat) : Decidable (k.InTime r) :=
  inferInstanceAs (Decidable (_ ∧ _))

instance (k : Chunk) (r : Nat) : Decidable (k.Repeats r) :=
  inferInstanceAs (Decidable (_ = _))

end Chunk

/-- A response with its chunks; `last` is the zero chunk. -/
structure ChunkedResponse where
  header : Bytes
  chunks : List Chunk
  last : Chunk

namespace ChunkedResponse

def all (m : ChunkedResponse) : List Chunk := m.chunks ++ [m.last]

def bytes (m : ChunkedResponse) : Bytes :=
  m.header ++ m.all.flatMap Chunk.bytes

/-- The payloads put together. -/
def body (m : ChunkedResponse) : Bytes := m.chunks.flatMap Chunk.payload

structure WellFormed (m : ChunkedResponse) : Prop where
  header : AnnouncesChunked m.header
  chunks : ∀ k ∈ m.chunks, k.WellFormed ∧ k.payload ≠ []
  last : m.last.WellFormed ∧ m.last.payload = []

end ChunkedResponse

-- =================================================================== the reads

/-- The number of bytes in the buffer of `size` bytes after a read, when
it has `kept` bytes before. -/
def arrived (size kept : Nat) (segs : List Bytes) : Nat :=
  kept + min (size - kept) (segs.headD []).length

/-- The number of bytes that the reads of a header of `h` bytes bring. -/
def headerReads (size : Nat) : Nat → Nat → List Bytes → Nat
  | 0, _, _ => 0
  | fuel + 1, h, segs =>
      let n := arrived size 0 segs
      if h ≤ n then n
      else n + headerReads size fuel (h - n) (Conn.skip n segs)

/-- The first read for each chunk brings the whole size line. -/
def WholeLines (size : Nat) : Nat → List Bytes → List Chunk → Prop
  | _, _, [] => True
  | kept, segs, k :: ks => k.line.length ≤ arrived size kept segs
      ∧ WholeLines size 0 (Conn.skip (k.bytes.length - kept) segs) ks

/-- The first read for each chunk ends in time: when it ends before the
chunk, what follows repeats. -/
def OnTime (size : Nat) : Nat → List Bytes → List Chunk → Prop
  | _, _, [] => True
  | kept, segs, k :: ks =>
      let r := arrived size kept segs - k.line.length
      segs ≠ [] ∧ k.InTime r ∧ k.Repeats r
        ∧ OnTime size 0 (Conn.skip (k.bytes.length - kept) segs) ks

instance WholeLines.decidable (size : Nat) : ∀ kept segs ks,
    Decidable (WholeLines size kept segs ks)
  | _, _, [] => inferInstanceAs (Decidable True)
  | _, _, _ :: ks =>
      have := fun segs => WholeLines.decidable size 0 segs ks
      inferInstanceAs (Decidable (_ ∧ WholeLines size 0 _ ks))

instance OnTime.decidable (size : Nat) : ∀ kept segs ks,
    Decidable (OnTime size kept segs ks)
  | _, _, [] => inferInstanceAs (Decidable True)
  | _, _, _ :: ks =>
      have := fun segs => OnTime.decidable size 0 segs ks
      inferInstanceAs (Decidable (_ ∧ _ ∧ _ ∧ OnTime size 0 _ ks))

namespace ChunkedResponse

variable (m : ChunkedResponse) (size : Nat) (segs : List Bytes)

/-- The bytes that have been read when the header is complete. -/
def readWithHeader : Nat :=
  headerReads size (m.bytes.length + 1) m.header.length segs

/-- No size line is cut. -/
def WholeLines : Prop :=
  Http.WholeLines size (m.readWithHeader size segs - m.header.length)
    (Conn.skip (m.readWithHeader size segs) segs) m.all

/-- All chunks are on time. -/
def OnTime : Prop :=
  Http.OnTime size (m.readWithHeader size segs - m.header.length)
    (Conn.skip (m.readWithHeader size segs) segs) m.all

instance : Decidable (m.WholeLines size segs) :=
  WholeLines.decidable size _ _ _

instance : Decidable (m.OnTime size segs) :=
  OnTime.decidable size _ _ _

end ChunkedResponse

-- ==================================================================== a read

namespace HttpConnection

variable {env : ConnectionEnv} {c c' : Conn} {kept bs : Bytes} {n fuel : Nat}

theorem read_nat (c : Conn) (n : Nat) :
    read c n = (c.read n).mapError .halted := by
  unfold read
  rw [if_neg (by omega), Int.toNat_natCast]
  cases c.read n <;> rfl

/-- A read into a buffer that has room, from a stream that has bytes. -/
theorem read_arrived (hc : c.Live) (hsegs : c.segs ≠ [])
    (hkept : kept.length < env.bufferSize) :
    ∃ bs, bs ≠ [] ∧ bs ++ (Conn.skip bs.length c.segs).flatten = c.unread
      ∧ kept.length + bs.length
        = arrived env.bufferSize kept.length c.segs
      ∧ read c ((env.bufferSize : Int) - kept.length)
        = .ok (bs, ⟨Conn.skip bs.length c.segs, c.waits⟩) := by
  have hroom : (env.bufferSize : Int) - kept.length
      = ((env.bufferSize - kept.length : Nat) : Int) := by omega
  obtain ⟨segs, waits⟩ := c
  obtain ⟨seg, rest, rfl⟩ := List.exists_cons_of_ne_nil hsegs
  have hseg : seg ≠ [] := hc seg List.mem_cons_self
  have hread : Conn.read ⟨seg :: rest, waits⟩
      (env.bufferSize - kept.length) = .ok (seg.take _, _) := rfl
  obtain ⟨htook, -⟩ := Conn.read_took hread
  have hlen : (seg.take (env.bufferSize - kept.length)).length
      = min (env.bufferSize - kept.length) seg.length := List.length_take
  refine ⟨_, ?_, ?_, congrArg (kept.length + ·) hlen, ?_⟩
  · have hpos := List.length_pos_iff.mpr hseg
    rw [← List.length_pos_iff, hlen]
    omega
  · rw [← htook.segs hc]
    exact htook.unread
  · rw [hroom, read_nat, hread]
    refine congrArg (fun c => Except.ok (_, c)) ?_
    rw [← htook.segs hc]

-- ================================================================= the header

variable {chunk : Bool} {ps ps' : HttpResponseParser}

/-- One iteration of the loop that reads a header, without an error. -/
theorem recvHeader_step
    (hread : read c ((env.bufferSize : Int) - kept.length) = .ok (bs, c'))
    (hbs : bs ≠ [])
    (hx : ps.execute (kept ++ bs) chunk = some (n, ps'))
    (herr : ps'.hasError = false)
    (hroom : ((kept ++ bs).drop n).length ≠ env.bufferSize) :
    recvHeader env chunk (fuel + 1) ps kept c
      = if ps'.isFinished ≠ 0 then
          .ok (some (ps', (kept ++ bs).drop n), c')
        else recvHeader env chunk fuel ps' ((kept ++ bs).drop n) c' := by
  rw [recvHeader, hread]
  change (if bs = [] then _ else _) = _
  rw [if_neg hbs]
  simp only [hx, herr, Bool.false_eq_true, if_false, hroom]
  rfl

/-- The scan of a text that goes on is not in state 0 or in a final
state. -/
private theorem scan_cs {h : Bytes} {p cs : Nat} {y : Bool} (hne : h ≠ [])
    (hz : (sweep ClientTable.transition ClientAction.isDone sawChunked p h
      cs y).halt = .finished) : cs ≠ 0 ∧ cs ≠ 120 := by
  obtain ⟨b, h, rfl⟩ := List.exists_cons_of_ne_nil hne
  constructor
  · intro heq
    subst heq
    cases hz
  · intro heq
    subst heq
    cases hz

/-- The read that brings the end of the header. -/
private theorem recvHeader_last {h more : Bytes} {p : Nat} {y : Bool}
    {z : Stop Bool}
    (hread : read c env.bufferSize = .ok (h ++ more, c')) (hh : h ≠ [])
    (hfit : (h ++ more).length ≤ env.bufferSize)
    (hz : sweep ClientTable.transition ClientAction.isDone sawChunked p h
      ps.cs y = z) (hhalt : z.halt = .finished)
    (hpos : z.pos = p + h.length) (hcs : z.cs = ClientTable.firstFinal)
    (hregs : z.regs = true) (hf : Follows ps.regs y)
    (hb : ps.regs.bodyStart = 0) :
    ∃ ps', recvHeader env false (fuel + 1) ps [] c
        = .ok (some (ps', more), c')
      ∧ ps'.regs.chunked = true ∧ ps'.regs.error = 0 := by
  have hz' : sweep ClientTable.transition ClientAction.isDone sawChunked p
      (h ++ more) ps.cs y = _ := sweep_append h hz
  rw [if_neg (by rw [hhalt]; decide)] at hz'
  obtain ⟨n, ps', hx, hn, hcs', hfol, -⟩ :=
    HttpResponseParser.execute_piece hf hb hz' (by rw [hhalt]; decide)
  have hnlen : n = h.length := by omega
  subst hnlen
  rw [hcs] at hcs'
  refine ⟨ps', ?_, hfol.1 hregs, hfol.2⟩
  have hlen := List.length_pos_iff.mpr hh
  rw [List.length_append] at hfit
  have hread' : read c ((env.bufferSize : Int) - ([] : Bytes).length)
      = .ok (h ++ more, c') := by simpa using hread
  have hdrop : ([] ++ (h ++ more)).drop h.length = more := by
    rw [List.nil_append, List.drop_left]
  have herr : ps'.hasError = false := by
    simp [HttpResponseParser.hasError, hcs', hfol.2, ClientTable.firstFinal]
  refine (recvHeader_step hread' (by simp [hh]) hx herr
    (by rw [hdrop]; omega)).trans ?_
  rw [hdrop, if_pos (by simp [HttpResponseParser.isFinished, hcs',
    ClientTable.firstFinal])]

/-- A read that brings a part of the header. -/
private theorem recvHeader_inner {h : Bytes} {p : Nat} {y : Bool}
    {z : Stop Bool} (hread : read c env.bufferSize = .ok (bs, c'))
    (hbs : bs ≠ []) (hh : h ≠ []) (hsize : 0 < env.bufferSize)
    (hz : sweep ClientTable.transition ClientAction.isDone sawChunked p
      (bs ++ h) ps.cs y = z) (hhalt : z.halt = .finished)
    (hpos : z.pos = p + (bs ++ h).length) (hf : Follows ps.regs y)
    (hb : ps.regs.bodyStart = 0) :
    ∃ ps' y', recvHeader env false (fuel + 1) ps [] c
        = recvHeader env false fuel ps' [] c'
      ∧ sweep ClientTable.transition ClientAction.isDone sawChunked
          (p + bs.length) h ps'.cs y' = z
      ∧ Follows ps'.regs y' ∧ ps'.regs.bodyStart = 0 := by
  generalize hw : sweep ClientTable.transition ClientAction.isDone
    sawChunked p bs ps.cs y = w
  have hhpos := List.length_pos_iff.mpr hh
  obtain ⟨hrunpos, -, -, hend⟩ := sweep_pos bs hw
  have happ : sweep ClientTable.transition ClientAction.isDone sawChunked p
      (bs ++ h) ps.cs y = _ := sweep_append bs hw
  rw [hz] at happ
  have hrun : w.halt = .running := by
    by_contra hne
    rw [if_neg hne] at happ
    rw [happ, List.length_append] at hpos
    omega
  rw [if_pos hrun, hrunpos hrun] at happ
  obtain ⟨n, ps', hx, hn, hcs', hfol, hbody⟩ :=
    HttpResponseParser.execute_piece hf hb hw (by rw [hrun]; decide)
  have hnlen : n = bs.length := by
    rw [hrunpos hrun] at hn
    omega
  subst hnlen
  rw [← hcs'] at happ
  obtain ⟨hcs0, hcs120⟩ := scan_cs hh (happ ▸ hhalt)
  refine ⟨ps', w.regs, ?_, happ.symm, hfol, hbody hrun⟩
  have hread' : read c ((env.bufferSize : Int) - ([] : Bytes).length)
      = .ok (bs, c') := by simpa using hread
  have hdrop : ([] ++ bs).drop bs.length = [] := by
    rw [List.nil_append, List.drop_length]
  have herr : ps'.hasError = false := by
    simp [HttpResponseParser.hasError, hcs0, hfol.2]
  refine (recvHeader_step hread' hbs hx herr
    (by rw [hdrop]; exact Nat.ne_of_lt hsize)).trans ?_
  rw [hdrop, if_neg (by simp [HttpResponseParser.isFinished, hcs0, hcs120,
    ClientTable.firstFinal])]

/-- The header, in the pieces in which it arrives. `h` is what is left of
it, and `rest` what follows it. -/
theorem recvHeader_pieces (fuel : Nat) :
    ∀ {h rest : Bytes} {ps : HttpResponseParser} {c : Conn} {p : Nat}
      {y : Bool} {z : Stop Bool}, c.Live → c.unread = h ++ rest →
      0 < env.bufferSize → h.length ≤ fuel →
      sweep ClientTable.transition ClientAction.isDone sawChunked p h ps.cs y
        = z → z.halt = .finished → z.pos = p + h.length →
      z.cs = ClientTable.firstFinal → z.regs = true →
      Follows ps.regs y → ps.regs.bodyStart = 0 →
      ∃ ps', recvHeader env false fuel ps [] c
          = .ok (some (ps', rest.take (headerReads env.bufferSize fuel
              h.length c.segs - h.length)),
            ⟨Conn.skip (headerReads env.bufferSize fuel h.length c.segs)
              c.segs, c.waits⟩)
        ∧ ps'.regs.chunked = true ∧ ps'.regs.error = 0
        ∧ h.length ≤ headerReads env.bufferSize fuel h.length c.segs
        ∧ headerReads env.bufferSize fuel h.length c.segs - h.length
          < env.bufferSize
        ∧ headerReads env.bufferSize fuel h.length c.segs
          ≤ c.unread.length := by
  induction fuel with
  | zero =>
      intro h rest ps c p y z _ _ _ hfuel hz hhalt
      obtain rfl := List.length_eq_zero_iff.mp (Nat.le_zero.mp hfuel)
      cases hz
      cases hhalt
  | succ fuel ih =>
      intro h rest ps c p y z hc hu hsize hfuel hz hhalt hpos hcs hregs hf hb
      have hh : h ≠ [] := by
        intro heq
        subst heq
        cases hz
        cases hhalt
      have hsegs : c.segs ≠ [] := by
        intro hnil
        unfold Conn.unread at hu
        rw [hnil, List.flatten_nil] at hu
        exact hh (List.append_eq_nil_iff.mp hu.symm).1
      obtain ⟨bs, hbs, hbytes, hlen, hread⟩ :=
        read_arrived hc hsegs
          (show ([] : Bytes).length < env.bufferSize from hsize)
      rw [List.length_nil, Nat.zero_add] at hlen
      rw [hu] at hbytes
      have hhpos := List.length_pos_iff.mpr hh
      have hbpos := List.length_pos_iff.mpr hbs
      have hfit : bs.length ≤ env.bufferSize := by
        rw [hlen, arrived]
        omega
      unfold headerReads
      simp only [← hlen]
      rw [show (env.bufferSize : Int) - ([] : Bytes).length
        = env.bufferSize by simp] at hread
      by_cases hle : h.length ≤ bs.length
      · rw [if_pos hle]
        obtain ⟨more, rfl, hrest⟩ : ∃ more, bs = h ++ more
            ∧ rest = more ++ (Conn.skip bs.length c.segs).flatten := by
          rcases List.append_eq_append_iff.mp hbytes with
            ⟨as, rfl, htail⟩ | hmore
          · rw [List.length_append] at hle
            obtain rfl := List.length_eq_zero_iff.mp
              (show as.length = 0 by omega)
            exact ⟨[], by simp, by simpa using htail.symm⟩
          · exact hmore
        obtain ⟨ps', hrecv, hchunked, herror⟩ :=
          recvHeader_last hread hh hfit hz hhalt hpos hcs hregs hf hb
        refine ⟨ps', ?_, hchunked, herror, hle, ?_, ?_⟩
        · rw [hrecv, hrest, List.length_append, Nat.add_sub_cancel_left,
            List.take_left]
        · omega
        · rw [hu, hrest]
          simp only [List.length_append]
          omega
      · rw [if_neg hle]
        obtain ⟨h', rfl, htail⟩ : ∃ h', h = bs ++ h'
            ∧ (Conn.skip bs.length c.segs).flatten = h' ++ rest := by
          rcases List.append_eq_append_iff.mp hbytes with hinner |
            ⟨more, rfl, -⟩
          · exact hinner
          · rw [List.length_append] at hle
            omega
        rw [List.length_append] at hle hfuel hpos
        have hh' : h' ≠ [] := by
          intro heq
          subst heq
          rw [List.length_nil] at hle
          omega
        obtain ⟨ps', y', hrecv, hz', hf', hb'⟩ :=
          recvHeader_inner hread hbs hh' hsize hz hhalt
            (by rw [hpos, List.length_append]) hf hb
        obtain ⟨ps'', hrest, hchunked, herror, hq, hroom, htotal⟩ :=
          ih (c := ⟨Conn.skip bs.length c.segs, c.waits⟩)
            (Conn.live_skip c.segs hc bs.length) htail hsize (by omega)
            hz' hhalt (by omega) hcs hregs hf' hb'
        dsimp only at hq hroom htotal
        have hlen' : (bs ++ h').length - bs.length = h'.length := by
          rw [List.length_append]
          omega
        rw [hlen', List.length_append]
        refine ⟨ps'', ?_, hchunked, herror, by omega, by omega, ?_⟩
        · rw [hrecv, hrest, ← Conn.skip_add, Nat.add_sub_add_left]
        · rw [hu]
          simp only [Conn.unread, htail, List.length_append] at htotal ⊢
          omega

-- ============================================================== the size line

variable {k : Chunk} {later body data : Bytes} {r : Nat}

theorem line_pos (k : Chunk) : 2 ≤ k.line.length := by
  unfold Chunk.line
  rw [List.length_append]
  exact Nat.le_add_left 2 _

theorem rest_length (k : Chunk) : k.rest.length = k.payload.length + 2 := by
  unfold Chunk.rest
  rw [List.length_append]
  rfl

/-- The first read for a chunk, when it completes the size line. -/
theorem recvHeader_line (hc : c.Live) (hsegs : c.segs ≠ [])
    (hkept : kept.length < env.bufferSize)
    (hbytes : kept ++ c.unread = k.bytes ++ later) (hk : k.WellFormed)
    (hsize : k.payload.length < 2 ^ 31) (herror : ps.regs.error = 0)
    (hline : k.line.length ≤ arrived env.bufferSize kept.length c.segs) :
    ∃ ps', recvHeader env true (fuel + 1) ps kept c
        = .ok (some (ps', (k.rest ++ later).take
            (arrived env.bufferSize kept.length c.segs - k.line.length)),
          ⟨Conn.skip (arrived env.bufferSize kept.length c.segs
            - kept.length) c.segs, c.waits⟩)
      ∧ ps'.regs.error = 0 ∧ ps'.regs.contentLen = k.payload.length
      ∧ ps'.regs.chunksDone = decide (k.payload.length = 0) := by
  obtain ⟨bs, hbs, hunread, hlen, hread⟩ := read_arrived hc hsegs hkept
  have hpos := line_pos k
  have hfit : kept.length + bs.length ≤ env.bufferSize := by
    rw [hlen, arrived]
    omega
  have hdata : kept ++ bs = k.line ++ (k.rest ++ later).take
      (arrived env.bufferSize kept.length c.segs - k.line.length) := by
    have htake : kept ++ bs = (kept ++ c.unread).take
        (kept.length + bs.length) := by
      rw [← hunread, ← List.append_assoc, ← List.length_append,
        List.take_left]
    rw [htake, hbytes, hlen, Chunk.bytes, List.append_assoc,
      List.take_append, List.take_of_length_le hline]
  obtain ⟨ps', hx, hcs, herr, hcontent, hdone⟩ :=
    HttpResponseParser.execute_line ps ((k.rest ++ later).take
      (arrived env.bufferSize kept.length c.segs - k.line.length))
      hk.nonempty hk.digits hk.value hsize
  rw [show k.size ++ crlf = k.line from rfl, ← hdata] at hx
  have hdrop : (kept ++ bs).drop k.line.length = (k.rest ++ later).take
      (arrived env.bufferSize kept.length c.segs - k.line.length) := by
    rw [hdata, List.drop_left]
  have herr' : ps'.hasError = false := by
    simp [HttpResponseParser.hasError, hcs, herr, herror,
      ClientTable.firstFinal]
  have hroom : ((kept ++ bs).drop k.line.length).length
      ≠ env.bufferSize := by
    rw [List.length_drop, List.length_append]
    omega
  refine ⟨ps', ?_, herr.trans herror, hcontent, hdone⟩
  refine (recvHeader_step hread hbs hx herr' hroom).trans ?_
  rw [hdrop, if_pos (by simp [HttpResponseParser.isFinished, hcs,
    ClientTable.firstFinal]), ← hlen, Nat.add_sub_cancel_left]

/-- A buffer that starts with `\r` where a size line is to come. -/
theorem recvHeader_cr {kept : Bytes} :
    ¬ ∃ out c', recvHeader env true fuel ps (13 :: kept) c
      = .ok (some out, c') := by
  intro hsome
  obtain ⟨out, c', h⟩ := hsome
  cases fuel with
  | zero => cases h
  | succ fuel =>
      unfold recvHeader at h
      cases hread : read c ((env.bufferSize : Int)
          - ((13 :: kept).length : Nat)) with
      | error e =>
          rw [hread] at h
          cases h
      | ok out =>
          obtain ⟨bs, c₁⟩ := out
          rw [hread] at h
          change (if bs = [] then _ else _) = _ at h
          split at h
          next => cases h
          next =>
              obtain ⟨ps', hx, hcs⟩ :=
                HttpResponseParser.execute_cr ps (kept ++ bs)
              simp only [List.cons_append, hx,
                HttpResponseParser.hasError, hcs, decide_true,
                Bool.or_true, if_true] at h
              cases h

end HttpConnection

end TinyServer.Http
