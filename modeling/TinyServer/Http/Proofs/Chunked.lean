/-
Chunked responses: when `HttpConnection::recvResponse` puts the payloads
together.

`AtChunk` says what there is when the loop over the chunks starts anew.
From there a chunk is received in one of four ways, by what the buffer
has after the size line (`recvChunk_short`, `recvChunk_long` and the two
cases of `recvChunk_inTime`); `recvChunks_iff` is the induction over the
chunks.
-/
import TinyServer.Http.Proofs.ChunkReads

namespace TinyServer.Http

open Lib

namespace HttpConnection

variable {env : ConnectionEnv} {c c' : Conn} {kept bs : Bytes} {n fuel : Nat}
  {ps ps' : HttpResponseParser} {k : Chunk} {later body data : Bytes} {r : Nat}

-- ================================================================= the chunk

theorem append_nat (h : n ≤ data.length) :
    append body data n = .ok (body ++ data.take n) := by
  unfold append
  rw [if_neg (by omega), if_neg (by omega), Int.toNat_natCast]

theorem append_negative {z : Int} (h : z < 0) :
    append body data z = .error (.halted (.threw .lengthError)) :=
  if_pos h

theorem memmove_nat {m : Nat} (h : m + n ≤ data.length) :
    memmove data m n = .ok ((data.drop m).take n) := by
  unfold memmove
  rw [if_neg (by omega), Int.toNat_natCast, Int.toNat_natCast]

/-- The rest of a chunk that is not in the buffer. -/
theorem recvLeft_ok (hsize : 0 < env.bufferSize) (fuel : Nat) :
    ∀ {c : Conn} {left : Nat} {body : Bytes}, c.Live →
      left ≤ c.unread.length → left < fuel →
      recvLeft env fuel body left c
        = .ok (some (body ++ c.unread.take left),
          ⟨Conn.skip left c.segs, c.waits⟩) := by
  induction fuel with
  | zero =>
      intro c left body _ _ hfuel
      exact absurd hfuel (Nat.not_lt_zero left)
  | succ fuel ih =>
      intro c left body hc hle hfuel
      unfold recvLeft
      by_cases hleft : left = 0
      · subst hleft
        rw [if_neg (by decide), Conn.skip_zero hc, List.take_zero,
          List.append_nil]
      · have hlast : (if (env.bufferSize : Int) < left then
            (env.bufferSize : Int) else left)
            = (min env.bufferSize left : Nat) := by
          split <;> omega
        obtain ⟨bs, c₁, hread, hbs⟩ : ∃ bs c₁,
            c.read (min env.bufferSize left) = .ok (bs, c₁) ∧ bs ≠ [] := by
          refine Conn.read_ok hc (by omega) ?_
          rw [← List.length_pos_iff]
          omega
        obtain ⟨htook, hlen⟩ := Conn.read_took hread
        have hpos := List.length_pos_iff.mpr hbs
        have hunread := congrArg List.length htook.unread
        rw [List.length_append] at hunread
        have hsub : (left : Int) - bs.length
            = ((left - bs.length : Nat) : Int) := by omega
        rw [if_pos (by omega), hlast, read_nat, hread]
        change (if bs = [] then _ else append body bs bs.length >>= _) = _
        rw [if_neg hbs, append_nat (Nat.le_refl _), List.take_length]
        change recvLeft env fuel (body ++ bs) ((left : Int) - bs.length) c₁
          = _
        rw [hsub, ih (htook.live hc) (by omega) (by omega), htook.segs hc,
          ← Conn.skip_add, htook.waits, ← htook.unread, List.take_append,
          List.take_of_length_le (show bs.length ≤ left by omega),
          List.append_assoc, Nat.add_sub_cancel' (by omega)]

/-- The buffer has fewer than two bytes after the size line. -/
theorem recvChunk_short (hr : data.length < 2) :
    recvChunk env n data body c
      = .error (.halted (.threw .lengthError)) := by
  unfold recvChunk
  rw [if_neg (by omega), append_negative (by omega)]
  rfl

/-- The buffer has all of the chunk and more: the first of the bytes that
are kept is the `\r` after the payload. -/
theorem recvChunk_long (hdata : k.rest ++ later = data ++ bs)
    (hr : k.rest.length < data.length) :
    ∃ tail, recvChunk env k.payload.length data body c
      = .ok (some (body ++ k.payload, 13 :: tail), c) := by
  have hrest := rest_length k
  obtain ⟨more, rfl⟩ : ∃ more, data = k.rest ++ more := by
    rcases List.append_eq_append_iff.mp hdata with ⟨as, h, -⟩ | ⟨as, h, -⟩
    · exact ⟨as, h⟩
    · rw [h, List.length_append] at hr
      omega
  rw [List.length_append] at hr
  obtain ⟨b, more, rfl⟩ := List.exists_cons_of_ne_nil
    (show more ≠ [] by rintro rfl; simp at hr)
  have hlen : ((k.rest ++ b :: more).length : Int) - 2
      = ((k.payload.length + (more.length + 1) : Nat) : Int) := by
    rw [List.length_append, hrest, List.length_cons]
    omega
  have hsub : ((k.payload.length + (more.length + 1) : Nat) : Int)
      - k.payload.length = (more.length + 1 : Nat) := by omega
  have hsplit : k.rest ++ b :: more
      = k.payload ++ 13 :: 10 :: b :: more := by
    simp [Chunk.rest, crlf]
  have hle : k.payload.length + (more.length + 1)
      ≤ (k.rest ++ b :: more).length := by
    rw [List.length_append, hrest, List.length_cons]
    omega
  refine ⟨(10 :: b :: more).take more.length, ?_⟩
  unfold recvChunk
  rw [hlen, if_pos (by omega), append_nat (by omega), hsub]
  change memmove _ _ _ >>= _ = _
  rw [memmove_nat hle, hsplit, List.take_left, List.drop_left,
    List.take_succ_cons]
  rfl

/-- The buffer has at least two bytes and nothing of the next chunk. -/
theorem recvChunk_inTime (hsize : 0 < env.bufferSize) (hc : c.Live)
    (hunread : c.unread = k.rest.drop r ++ later) (hr : k.InTime r) :
    recvChunk env k.payload.length (k.rest.take r) body c
      = .ok (some (body ++ k.part r, []),
        ⟨Conn.skip (k.rest.length - r) c.segs, c.waits⟩) := by
  obtain ⟨htwo, hle⟩ := hr
  have hrest := rest_length k
  have hlen : ((k.rest.take r).length : Int) - 2 = ((r - 2 : Nat) : Int) := by
    rw [List.length_take, Nat.min_eq_left hle]
    omega
  unfold recvChunk
  rw [hlen]
  by_cases hall : r = k.rest.length
  · subst hall
    have hsub : ((k.rest.length - 2 : Nat) : Int) - k.payload.length
        = (0 : Nat) := by omega
    rw [if_pos (by omega), append_nat (by rw [List.take_length]; omega), hsub]
    change memmove _ _ _ >>= _ = _
    rw [memmove_nat (by rw [List.take_length]; omega), List.take_zero,
      List.take_length, Nat.sub_self, Conn.skip_zero hc, Chunk.part,
      List.drop_length, List.append_nil,
      show k.rest.length - 2 = k.payload.length by omega]
    rfl
  · have hsub : (k.payload.length : Int) - ((r - 2 : Nat) : Int)
        = ((k.rest.length - r : Nat) : Int) := by omega
    have hdrop : (k.rest.drop r).length = k.rest.length - r :=
      List.length_drop
    rw [if_neg (by omega), append_nat (by
      rw [List.length_take]; omega), hsub, List.take_take]
    change recvLeft _ _ _ _ _ >>= _ = _
    rw [Int.toNat_natCast, recvLeft_ok hsize _ hc (by
      rw [hunread, List.length_append]; omega) (Nat.lt_succ_self _),
      hunread, ← hdrop, List.take_left, hdrop,
      Nat.min_eq_left (show r - 2 ≤ r by omega), List.append_assoc]
    rfl

-- ================================================================ the chunks

theorem skip_flatten (segs : List Bytes) :
    ∀ n, (Conn.skip n segs).flatten = segs.flatten.drop n := by
  induction segs with
  | nil => exact fun n => by rw [Conn.skip, List.flatten_nil, List.drop_nil]
  | cons seg segs ih =>
      intro n
      unfold Conn.skip
      rw [List.flatten_cons, List.drop_append]
      split
      next h =>
          rw [List.flatten_cons, Nat.sub_eq_zero_of_le (Nat.le_of_lt h),
            List.drop_zero]
      next h =>
          rw [ih, List.drop_of_length_le (Nat.not_lt.mp h), List.nil_append]

/-- What there is when a chunk is to be received: `kept` in the buffer,
and the stream. -/
structure AtChunk (env : ConnectionEnv) (ps : HttpResponseParser)
    (kept : Bytes) (c : Conn) (k : Chunk) (later : Bytes) : Prop where
  live : c.Live
  waits : c.waits = true
  room : kept.length < env.bufferSize
  bytes : kept ++ c.unread = k.bytes ++ later
  wellFormed : k.WellFormed
  size : k.payload.length < 2 ^ 31
  error : ps.regs.error = 0
  line : k.line.length ≤ arrived env.bufferSize kept.length c.segs

namespace AtChunk

/-- The bytes of the chunk after the size line that are in the buffer
after the first read. -/
def after (env : ConnectionEnv) (kept : Bytes) (c : Conn) (k : Chunk) :
    Nat :=
  arrived env.bufferSize kept.length c.segs - k.line.length

/-- The stream after the first read. -/
def stream (env : ConnectionEnv) (kept : Bytes) (c : Conn) : Conn :=
  ⟨Conn.skip (arrived env.bufferSize kept.length c.segs - kept.length)
    c.segs, c.waits⟩

theorem stream_unread (h : AtChunk env ps kept c k later) :
    (stream env kept c).unread
      = (k.rest ++ later).drop (after env kept c k) := by
  have hdrop : c.unread = (k.bytes ++ later).drop kept.length := by
    rw [← h.bytes, List.drop_left]
  have hkept : kept.length ≤ arrived env.bufferSize kept.length c.segs :=
    Nat.le_add_right _ _
  unfold stream
  rw [Conn.unread, skip_flatten, ← Conn.unread, hdrop,
    List.drop_drop, Nat.add_sub_cancel' hkept, Chunk.bytes,
    List.append_assoc, List.drop_append, List.drop_of_length_le h.line,
    List.nil_append, after]

theorem stream_live (h : AtChunk env ps kept c k later) :
    (stream env kept c).Live :=
  Conn.live_skip c.segs h.live _

theorem after_le (h : AtChunk env ps kept c k later) :
    after env kept c k ≤ (k.rest ++ later).length := by
  have hlen := congrArg List.length h.bytes
  have harrived : arrived env.bufferSize kept.length c.segs
      ≤ kept.length + c.unread.length := by
    unfold arrived
    rw [Conn.unread]
    cases c.segs with
    | nil => simp
    | cons seg segs =>
        simp only [List.headD_cons, List.flatten_cons, List.length_append]
        omega
  unfold Chunk.bytes at hlen
  rw [List.append_assoc] at hlen
  simp only [List.length_append] at hlen ⊢
  unfold after
  omega

/-- The first read, and the chunk. -/
theorem recvChunks_eq (h : AtChunk env ps kept c k later)
    (hsegs : c.segs ≠ []) :
    ∃ ps', ps'.regs.error = 0
      ∧ ps'.regs.chunksDone = decide (k.payload.length = 0)
      ∧ recvChunks env (fuel + 1) ps kept body c
        = recvChunk env k.payload.length
            ((k.rest ++ later).take (after env kept c k)) body
            (stream env kept c) >>= fun out =>
          match out.1 with
          | none => pure (none, out.2)
          | some (body, kept) =>
              if ps'.regs.chunksDone then pure (some (ps', body), out.2)
              else recvChunks env fuel ps' kept body out.2 := by
  obtain ⟨ps', hrecv, herror, hcontent, hdone⟩ :=
    recvHeader_line h.live hsegs h.room h.bytes h.wellFormed h.size h.error
      h.line
  refine ⟨ps', herror, hdone, ?_⟩
  rw [recvChunks, hrecv]
  change recvChunk env ps'.regs.contentLen _ body _ >>= _ = _
  rw [hcontent]
  rfl

/-- A chunk that is on time. -/
theorem recvChunks_inTime (h : AtChunk env ps kept c k later)
    (hsegs : c.segs ≠ []) (hin : k.InTime (after env kept c k)) :
    ∃ ps', ps'.regs.error = 0
      ∧ recvChunks env (fuel + 1) ps kept body c
        = if k.payload.length = 0 then
            .ok (some (ps', body ++ k.part (after env kept c k)),
              ⟨Conn.skip (k.bytes.length - kept.length) c.segs, c.waits⟩)
          else recvChunks env fuel ps' []
            (body ++ k.part (after env kept c k))
            ⟨Conn.skip (k.bytes.length - kept.length) c.segs, c.waits⟩ := by
  obtain ⟨ps', herror, hdone, heq⟩ := h.recvChunks_eq hsegs
  have hunread := h.stream_unread
  rw [List.drop_append, Nat.sub_eq_zero_of_le hin.2, List.drop_zero]
    at hunread
  have hskip : Conn.skip (k.rest.length - after env kept c k)
      (stream env kept c).segs
      = Conn.skip (k.bytes.length - kept.length) c.segs := by
    have hkept : kept.length ≤ arrived env.bufferSize kept.length c.segs :=
      Nat.le_add_right _ _
    have hline := h.line
    have hle := hin.2
    unfold stream
    rw [← Conn.skip_add, Chunk.bytes, List.length_append]
    unfold after at hle ⊢
    congr 1
    omega
  refine ⟨ps', herror, heq.trans ?_⟩
  rw [List.take_append_of_le_length hin.2,
    recvChunk_inTime (Nat.lt_of_le_of_lt (Nat.zero_le _) h.room)
      h.stream_live hunread hin, hskip]
  change (if ps'.regs.chunksDone then _ else _) = _
  rw [hdone]
  simp only [decide_eq_true_eq]
  rfl

/-- What is left to read after a chunk that is on time. -/
theorem unread_next (h : AtChunk env ps kept c k later)
    (hsegs : c.segs ≠ []) (hin : k.InTime (after env kept c k)) :
    (⟨Conn.skip (k.bytes.length - kept.length) c.segs, c.waits⟩ :
        Conn).unread = later
      ∧ later.length < c.unread.length := by
  have hlen := congrArg List.length h.bytes
  have hline := h.line
  have hle := hin.2
  obtain ⟨bs, hbs, -, harrived, -⟩ := read_arrived h.live hsegs h.room
  have hpos := List.length_pos_iff.mpr hbs
  have hkept : kept.length < k.bytes.length := by
    unfold Chunk.bytes
    rw [List.length_append]
    unfold after at hle
    omega
  have hdrop : c.unread = (k.bytes ++ later).drop kept.length := by
    rw [← h.bytes, List.drop_left]
  rw [List.length_append, List.length_append] at hlen
  constructor
  · unfold Conn.unread
    rw [skip_flatten, ← Conn.unread, hdrop, List.drop_drop,
      Nat.add_sub_cancel' (Nat.le_of_lt hkept), List.drop_left]
  · omega

/-- A chunk that is not on time. -/
theorem recvChunks_late (h : AtChunk env ps kept c k later)
    (hlast : k.payload = [] → later = [])
    (hno : ¬ (c.segs ≠ [] ∧ k.InTime (after env kept c k))) :
    ¬ ∃ out c', recvChunks env (fuel + 1) ps kept body c
      = .ok (some out, c') := by
  intro hsome
  obtain ⟨out, c', hrecv⟩ := hsome
  by_cases hsegs : c.segs = []
  · -- nothing comes any more, and the connection stays open
    have hroom : (env.bufferSize : Int) - kept.length
        = ((env.bufferSize - kept.length : Nat) : Int) := by
      have := h.room
      omega
    have hread : c.read (env.bufferSize - kept.length)
        = .error .waiting := by
      unfold Conn.read
      rw [hsegs, h.waits]
      rfl
    unfold recvChunks at hrecv
    rw [recvHeader, hroom, read_nat, hread] at hrecv
    cases hrecv
  · obtain ⟨ps', herror, hdone, heq⟩ := h.recvChunks_eq hsegs
    have hlen : ((k.rest ++ later).take (after env kept c k)).length
        = after env kept c k := by
      rw [List.length_take, Nat.min_eq_left h.after_le]
    rw [heq] at hrecv
    rcases Nat.lt_or_ge (after env kept c k) 2 with hshort | htwo
    · rw [recvChunk_short (by rw [hlen]; exact hshort)] at hrecv
      cases hrecv
    · have hlong : k.rest.length < after env kept c k := by
        by_contra hle
        exact hno ⟨hsegs, htwo, Nat.not_lt.mp hle⟩
      have hpayload : k.payload.length ≠ 0 := by
        intro hzero
        have hle := h.after_le
        rw [hlast (List.length_eq_zero_iff.mp hzero), List.append_nil] at hle
        omega
      obtain ⟨tail, hchunk⟩ : ∃ tail, recvChunk env k.payload.length
          ((k.rest ++ later).take (after env kept c k)) body
          (stream env kept c)
          = .ok (some (body ++ k.payload, 13 :: tail),
            stream env kept c) :=
        recvChunk_long (List.take_append_drop _ _).symm
          (by rw [hlen]; exact hlong)
      rw [hchunk] at hrecv
      change (if ps'.regs.chunksDone then _ else _) = _ at hrecv
      rw [hdone, if_neg (by simpa using hpayload)] at hrecv
      -- the next size line is to start with `\r`
      cases fuel with
      | zero => cases hrecv
      | succ fuel =>
          unfold recvChunks at hrecv
          cases hheader : recvHeader env true
              ((stream env kept c).unread.length + 1) ps' (13 :: tail)
              (stream env kept c) with
          | error e =>
              rw [hheader] at hrecv
              cases hrecv
          | ok out =>
              obtain ⟨_ | out, c₁⟩ := out
              · rw [hheader] at hrecv
                cases hrecv
              · exact recvHeader_cr ⟨out, c₁, hheader⟩

end AtChunk

/-- The first read for each chunk ends in time. -/
def AllInTime (size : Nat) : Nat → List Bytes → List Chunk → Prop
  | _, _, [] => True
  | kept, segs, k :: ks =>
      (segs ≠ [] ∧ k.InTime (arrived size kept segs - k.line.length))
        ∧ AllInTime size 0 (Conn.skip (k.bytes.length - kept) segs) ks

/-- What the code takes for the payloads. -/
def parts (size : Nat) : Nat → List Bytes → List Chunk → Bytes
  | _, _, [] => []
  | kept, segs, k :: ks =>
      k.part (arrived size kept segs - k.line.length)
        ++ parts size 0 (Conn.skip (k.bytes.length - kept) segs) ks

/-- The loop over the chunks puts the parts together when all chunks are
in time, and does not return a body otherwise. -/
theorem recvChunks_iff {last : Chunk}
    (hlast : last.WellFormed ∧ last.payload = []) (ks : List Chunk) :
    ∀ {fuel : Nat} {ps : HttpResponseParser} {kept body target : Bytes}
      {c : Conn}, (∀ k ∈ ks, k.WellFormed ∧ k.payload ≠ []
        ∧ k.payload.length < 2 ^ 31) → c.Live → c.waits = true →
      kept.length < env.bufferSize →
      kept ++ c.unread = (ks ++ [last]).flatMap Chunk.bytes →
      ps.regs.error = 0 →
      WholeLines env.bufferSize kept.length c.segs (ks ++ [last]) →
      c.unread.length < fuel →
      ((∃ ps' c', recvChunks env fuel ps kept body c
          = .ok (some (ps', target), c'))
        ↔ AllInTime env.bufferSize kept.length c.segs (ks ++ [last])
          ∧ target = body ++ parts env.bufferSize kept.length c.segs
            (ks ++ [last])) := by
  induction ks with
  | nil =>
      intro fuel ps kept body target c _ hc hwaits hroom hbytes herror
        hlines hfuel
      have h : AtChunk env ps kept c last [] := by
        refine ⟨hc, hwaits, hroom, ?_, hlast.1, ?_, herror, hlines.1⟩
        · rw [hbytes, List.nil_append, List.flatMap_cons, List.flatMap_nil]
        · rw [hlast.2]
          decide
      obtain ⟨fuel, rfl⟩ := Nat.exists_eq_succ_of_ne_zero
        (Nat.ne_of_gt (Nat.zero_lt_of_lt hfuel))
      by_cases hin : c.segs ≠ [] ∧ last.InTime (AtChunk.after env kept c last)
      · obtain ⟨ps', -, heq⟩ := h.recvChunks_inTime hin.1 hin.2
        rw [heq, hlast.2, if_pos List.length_nil, List.nil_append, parts,
          parts, List.append_nil, ← AtChunk.after]
        constructor
        · intro hsome
          obtain ⟨ps₁, c₁, hout⟩ := hsome
          simp only [Except.ok.injEq, Prod.mk.injEq, Option.some.injEq]
            at hout
          exact ⟨⟨hin, trivial⟩, hout.1.2.symm⟩
        · intro hsome
          obtain ⟨-, rfl⟩ := hsome
          exact ⟨ps', _, rfl⟩
      · constructor
        · intro hsome
          obtain ⟨ps₁, c₁, hout⟩ := hsome
          exact absurd ⟨_, c₁, hout⟩
            (h.recvChunks_late (fun _ => rfl) hin)
        · intro hsome
          obtain ⟨⟨hnow, -⟩, -⟩ := hsome
          exact absurd hnow hin
  | cons k ks ih =>
      intro fuel ps kept body target c hks hc hwaits hroom hbytes herror
        hlines hfuel
      obtain ⟨hk, hpayload, hsize⟩ := hks k List.mem_cons_self
      obtain ⟨hline, hlines⟩ := hlines
      have h : AtChunk env ps kept c k ((ks ++ [last]).flatMap Chunk.bytes) :=
        ⟨hc, hwaits, hroom, by rw [hbytes]; rfl, hk, hsize, herror, hline⟩
      obtain ⟨fuel, rfl⟩ := Nat.exists_eq_succ_of_ne_zero
        (Nat.ne_of_gt (Nat.zero_lt_of_lt hfuel))
      by_cases hin : c.segs ≠ [] ∧ k.InTime (AtChunk.after env kept c k)
      · obtain ⟨ps', herror', heq⟩ := h.recvChunks_inTime hin.1 hin.2
        obtain ⟨hunread, hless⟩ := h.unread_next hin.1 hin.2
        have hlive : (⟨Conn.skip (k.bytes.length - kept.length) c.segs,
            c.waits⟩ : Conn).Live := Conn.live_skip c.segs hc _
        rw [heq, if_neg (mt List.length_eq_zero_iff.mp hpayload),
          ih (fun k hk => hks k (List.mem_cons_of_mem _ hk)) hlive hwaits
            (Nat.lt_of_le_of_lt (Nat.zero_le _) hroom)
            ((List.nil_append _).trans hunread) herror' hlines
            (by rw [hunread]; omega), List.append_assoc]
        constructor
        · intro hsome
          obtain ⟨hall, htarget⟩ := hsome
          exact ⟨⟨hin, hall⟩, htarget⟩
        · intro hsome
          obtain ⟨⟨-, hall⟩, htarget⟩ := hsome
          exact ⟨hall, htarget⟩
      · constructor
        · intro hsome
          obtain ⟨ps₁, c₁, hout⟩ := hsome
          exact absurd ⟨_, c₁, hout⟩
            (h.recvChunks_late (fun hnil => absurd hnil hpayload) hin)
        · intro hsome
          obtain ⟨⟨hnow, -⟩, -⟩ := hsome
          exact absurd hnow hin

/-- The part is the payload when what follows repeats. -/
theorem part_eq_iff : k.part r = k.payload ↔ k.Repeats r := by
  have hsplit : k.rest.take (r - 2) ++ k.rest.drop (r - 2)
      = k.payload ++ crlf := List.take_append_drop _ _
  unfold Chunk.Repeats
  rw [← List.append_left_inj crlf, Chunk.part,
    List.append_assoc, ← hsplit, List.append_right_inj]
  exact eq_comm

theorem part_length (hr : k.InTime r) :
    (k.part r).length = k.payload.length := by
  obtain ⟨htwo, hle⟩ := hr
  have hrest := rest_length k
  unfold Chunk.part
  rw [List.length_append, List.length_take, List.length_drop]
  omega

/-- All chunks are on time when they are in time and the parts are the
payloads. -/
theorem onTime_iff (size : Nat) (ks : List Chunk) :
    ∀ (kept : Nat) (segs : List Bytes), OnTime size kept segs ks
      ↔ AllInTime size kept segs ks
        ∧ parts size kept segs ks = ks.flatMap Chunk.payload := by
  induction ks with
  | nil =>
      intro kept segs
      exact ⟨fun _ => ⟨trivial, rfl⟩, fun _ => trivial⟩
  | cons k ks ih =>
      intro kept segs
      unfold OnTime
      rw [AllInTime, parts, List.flatMap_cons, ih]
      constructor
      · intro hsome
        obtain ⟨hsegs, hin, hrepeats, hall, hparts⟩ := hsome
        rw [part_eq_iff.mpr hrepeats, hparts]
        exact ⟨⟨⟨hsegs, hin⟩, hall⟩, rfl⟩
      · intro hsome
        obtain ⟨⟨⟨hsegs, hin⟩, hall⟩, hparts⟩ := hsome
        obtain ⟨hpart, hparts⟩ := List.append_inj hparts (part_length hin)
        exact ⟨hsegs, hin, part_eq_iff.mp hpart, hall, hparts⟩

-- ============================================================== the response

/-- Without a buffer nothing is read. -/
private theorem headerReads_zero (fuel : Nat) {h : Nat} (hh : 0 < h) :
    ∀ segs, headerReads 0 fuel h segs = 0 := by
  induction fuel with
  | zero => exact fun _ => rfl
  | succ fuel ih =>
      intro segs
      have hnone : arrived 0 0 segs = 0 := by
        unfold arrived
        rw [Nat.sub_zero, Nat.zero_min]
      unfold headerReads
      rw [hnone, if_neg (Nat.not_le.mpr hh), Nat.sub_zero, ih]

variable {m : ChunkedResponse}

theorem header_pos (hm : m.WellFormed) : 0 < m.header.length := by
  rw [List.length_pos_iff]
  intro hnil
  have hhalt := hm.header.halt
  rw [hnil] at hhalt
  cases hhalt

/-- There is a buffer when no size line is cut. -/
theorem bufferSize_pos (hm : m.WellFormed)
    (hlines : m.WholeLines env.bufferSize c.segs) : 0 < env.bufferSize := by
  by_contra hzero
  rw [Nat.not_lt.mp hzero |> Nat.le_zero.mp] at hlines
  have hreads : m.readWithHeader 0 c.segs = 0 :=
    headerReads_zero _ (header_pos hm) _
  unfold ChunkedResponse.WholeLines at hlines
  rw [hreads, Nat.zero_sub] at hlines
  obtain ⟨k, ks, hall⟩ := List.exists_cons_of_ne_nil
    (show m.all ≠ [] by simp [ChunkedResponse.all])
  rw [hall] at hlines
  have hline := hlines.1
  unfold arrived at hline
  rw [Nat.sub_zero, Nat.zero_min, Chunk.line, List.length_append]
    at hline
  simp [crlf] at hline

/-- The header of the response: the chunks begin with what has been read
after it. -/
theorem recvHeader_message (hm : m.WellFormed) (hc : c.Live)
    (hbytes : c.unread = m.bytes) (hsize : 0 < env.bufferSize) :
    ∃ ps kept, ps.regs.chunked = true ∧ ps.regs.error = 0
      ∧ recvHeader env false (c.unread.length + 1)
          (HttpResponseParser.new env.status) [] c
        = .ok (some (ps, kept),
          ⟨Conn.skip (m.readWithHeader env.bufferSize c.segs) c.segs,
            c.waits⟩)
      ∧ kept.length
        = m.readWithHeader env.bufferSize c.segs - m.header.length
      ∧ kept.length < env.bufferSize
      ∧ kept ++ (Conn.skip (m.readWithHeader env.bufferSize c.segs)
          c.segs).flatten = m.all.flatMap Chunk.bytes := by
  have hfollows : Follows (HttpResponseParser.new env.status).regs false :=
    ⟨by simp, rfl⟩
  have hlong : m.header.length ≤ m.bytes.length + 1 := by
    unfold ChunkedResponse.bytes
    rw [List.length_append]
    omega
  have hpos : (scanHeader m.header).pos = 0 + m.header.length := by
    rw [Nat.zero_add]
    exact hm.header.pos
  have hscan : sweep ClientTable.transition ClientAction.isDone sawChunked 0
      m.header (HttpResponseParser.new env.status).cs false
      = scanHeader m.header := rfl
  obtain ⟨ps, hrecv, hchunked, herror, hle, hroom, hread⟩ :=
    recvHeader_pieces _ hc hbytes hsize hlong hscan hm.header.halt hpos
      hm.header.cs hm.header.chunked hfollows rfl
  change m.header.length ≤ m.readWithHeader env.bufferSize c.segs at hle
  change m.readWithHeader env.bufferSize c.segs - m.header.length
    < env.bufferSize at hroom
  change m.readWithHeader env.bufferSize c.segs ≤ c.unread.length at hread
  have hlen : ((m.all.flatMap Chunk.bytes).take
      (m.readWithHeader env.bufferSize c.segs - m.header.length)).length
      = m.readWithHeader env.bufferSize c.segs - m.header.length := by
    rw [hbytes, ChunkedResponse.bytes, List.length_append] at hread
    rw [List.length_take]
    omega
  refine ⟨ps, _, hchunked, herror, ?_, hlen, hlen.symm ▸ hroom, ?_⟩
  · rw [hbytes]
    exact hrecv
  · rw [skip_flatten, ← Conn.unread, hbytes, ChunkedResponse.bytes,
      List.drop_append, List.drop_of_length_le hle, List.nil_append,
      List.take_append_drop]

/-- The response has the body that the loop over the chunks returns. -/
theorem recvResponse_chunked {body : Bytes}
    (hrecv : recvHeader env false (c.unread.length + 1)
      (HttpResponseParser.new env.status) [] c = .ok (some (ps, kept), c'))
    (hchunked : ps.regs.chunked = true) :
    (∃ resp c₁, recvResponse env c = .ok (some resp, c₁)
        ∧ resp.body = body)
      ↔ ∃ ps' c₁, recvChunks env (c'.unread.length + 1) ps kept [] c'
        = .ok (some (ps', body), c₁) := by
  have heq : recvResponse env c
      = recvChunks env (c'.unread.length + 1) ps kept [] c' >>= fun out =>
        pure (out.1.map fun r => withBody r.1 r.2, out.2) := by
    unfold recvResponse
    rw [hrecv]
    change (if ps.regs.chunked then _ else _) = _
    rw [if_pos hchunked]
  rw [heq]
  cases hout : recvChunks env (c'.unread.length + 1) ps kept [] c' with
  | error e =>
      constructor
      · intro hsome
        obtain ⟨resp, c₁, h, -⟩ := hsome
        cases h
      · intro hsome
        obtain ⟨ps', c₁, h⟩ := hsome
        cases h
  | ok out =>
      obtain ⟨_ | ⟨ps₁, body₁⟩, c₂⟩ := out
      · constructor
        · intro hsome
          obtain ⟨resp, c₁, h, -⟩ := hsome
          cases h
        · intro hsome
          obtain ⟨ps', c₁, h⟩ := hsome
          cases h
      · constructor
        · intro hsome
          obtain ⟨resp, c₁, h, rfl⟩ := hsome
          cases h
          exact ⟨ps₁, c₂, rfl⟩
        · intro hsome
          obtain ⟨ps', c₁, h⟩ := hsome
          cases h
          exact ⟨withBody ps₁ body, c₂, rfl, rfl⟩

/-- The body of a chunked response that is received without a cut in a
size line is the concatenation of the payloads exactly when all chunks
are on time. -/
theorem chunked_reassembled_iff (env : ConnectionEnv) (m : ChunkedResponse)
    (c : Conn) (hm : m.WellFormed)
    (hsizes : ∀ k ∈ m.chunks, k.payload.length < 2 ^ 31) (hc : c.Live)
    (hwaits : c.waits = true) (hbytes : c.unread = m.bytes)
    (hlines : m.WholeLines env.bufferSize c.segs) :
    (∃ resp c', recvResponse env c = .ok (some resp, c')
        ∧ resp.body = m.body)
      ↔ m.OnTime env.bufferSize c.segs := by
  obtain ⟨ps, kept, hchunked, herror, hrecv, hlen, hroom, hchunks⟩ :=
    recvHeader_message hm hc hbytes (bufferSize_pos hm hlines)
  have hlive : (⟨Conn.skip (m.readWithHeader env.bufferSize c.segs) c.segs,
      c.waits⟩ : Conn).Live := Conn.live_skip c.segs hc _
  have hks : ∀ k ∈ m.chunks, k.WellFormed ∧ k.payload ≠ []
      ∧ k.payload.length < 2 ^ 31 := fun k hk =>
    ⟨(hm.chunks k hk).1, (hm.chunks k hk).2, hsizes k hk⟩
  have hbody : m.all.flatMap Chunk.payload = m.body := by
    simp [ChunkedResponse.all, ChunkedResponse.body, hm.last.2]
  unfold ChunkedResponse.WholeLines at hlines
  rw [← hlen] at hlines
  rw [recvResponse_chunked hrecv hchunked,
    recvChunks_iff hm.last m.chunks hks hlive hwaits hroom hchunks herror
      hlines (Nat.lt_succ_self _), ChunkedResponse.OnTime, ← hlen,
    onTime_iff, hbody, List.nil_append, eq_comm]
  rfl

/-- A response of one chunk. -/
def helloResponse : ChunkedResponse where
  header := ascii "HTTP/1.1 200 OK\r\nTransfer-Encoding: chunked\r\n\r\n"
  chunks := [⟨ascii "5", ascii "hello"⟩]
  last := ⟨ascii "0", []⟩

theorem helloResponse_wellFormed : helloResponse.WellFormed where
  header :=
    ⟨by decide +kernel, by decide +kernel, by decide +kernel,
      by decide +kernel⟩
  chunks := by
    intro k hk
    obtain rfl := List.mem_singleton.mp hk
    exact ⟨⟨by decide, by decide +kernel, by decide⟩, by decide⟩
  last := ⟨⟨by decide, by decide +kernel, by decide⟩, rfl⟩

/-- The response, with each chunk in one segment. -/
def helloConn : Conn :=
  ⟨[helloResponse.header, ascii "5\r\nhello\r\n", ascii "0\r\n\r\n"], true⟩

theorem chunked_reassembled_hello :
    ∃ resp c', recvResponse ⟨4096, fun _ => none, 0⟩ helloConn
        = .ok (some resp, c')
      ∧ resp.body = ascii "hello" := by
  refine (chunked_reassembled_iff ⟨4096, fun _ => none, 0⟩ helloResponse
    helloConn helloResponse_wellFormed (by decide) (by decide) rfl
    (by decide +kernel) ?_).mpr ?_
  · decide +kernel
  · decide +kernel

/-- The chunk arrives in two segments: `el` is lost, and `\r\n` is part of
the body. -/
theorem chunked_cut_in_payload :
    helloResponse.WellFormed
      ∧ ∃ c : Conn, c.Live ∧ c.waits = true
        ∧ c.unread = helloResponse.bytes
        ∧ ¬ ∃ resp c',
            recvResponse ⟨4096, fun _ => none, 0⟩ c = .ok (some resp, c')
              ∧ resp.body = helloResponse.body := by
  refine ⟨helloResponse_wellFormed, ⟨[helloResponse.header,
    ascii "5\r\nhel", ascii "lo\r\n", ascii "0\r\n\r\n"], true⟩,
    by decide, rfl, by decide +kernel, ?_⟩
  intro hsome
  obtain ⟨resp, c', hrecv, hbody⟩ := hsome
  have hout : (recvResponse ⟨4096, fun _ => none, 0⟩ ⟨[helloResponse.header,
      ascii "5\r\nhel", ascii "lo\r\n", ascii "0\r\n\r\n"],
      true⟩).toOption.map (fun out => out.1.map HttpResponse.body)
      = some (some (ascii "hlo\r\n")) := by decide +kernel
  rw [hrecv] at hout
  simp only [Except.toOption, Option.map_some, Option.some.injEq] at hout
  rw [hbody] at hout
  revert hout
  decide

end HttpConnection

end TinyServer.Http
