/-
A response is received as it was sent.

`HttpResponse::dump` writes a text that the parser of the client reads
back (`readResponse_dump`). So `recvResponse` returns the status, the
reason, the headers and the body, in whatever pieces the body arrives, if
the header comes with the first read (`response_received`). The version is
not returned: `on_response_version` has the two versions mixed up, and
whether the connection closes is left as it is in a new response.

What is asked of a response (`Sendable`) is that its header lines are
lines of the grammar, and that it has no lines of its own for the length
and the encoding of the body. Lines for the connection are not written.
-/
import TinyServer.Http.Proofs.ClientNames
import TinyServer.Http.Proofs.ClientReading
import TinyServer.Http.Proofs.Headers

namespace TinyServer.Http

open Lib ClientTable

-- ============================================================== the vocabulary

/-- The phrase that `dump` writes. -/
def HttpResponse.phrase (r : HttpResponse) : Bytes :=
  if r.reason = [] then httpStatusToString r.status else r.reason

/-- The name of an ordinary field. -/
def PlainName (k : Bytes) : Prop :=
  k ≠ [] ∧ (∀ b ∈ k, isToken b = true)
    ∧ ∀ w ∈ [ascii "content-length", ascii "transfer-encoding"],
      k.map toLower ≠ w

instance (k : Bytes) : Decidable (PlainName k) :=
  decidable_of_iff (k ≠ [] ∧ k.all isToken = true
      ∧ ∀ w ∈ [ascii "content-length", ascii "transfer-encoding"],
        k.map toLower ≠ w)
    (by rw [PlainName, List.all_eq_true])

/-- No end of a line. -/
def IsLine (w : Bytes) : Prop := ∀ b ∈ w, b ≠ 13 ∧ b ≠ 10

instance (w : Bytes) : Decidable (IsLine w) :=
  decidable_of_iff ((w.all fun b => b ≠ 13 ∧ b ≠ 10) = true)
    (by simp only [IsLine, List.all_eq_true, decide_eq_true_eq])

/-- The value of a field: one line that starts with no white space. -/
def PlainValue (v : Bytes) : Prop :=
  IsLine v ∧ (v.head?.all fun b => !isSpace b) = true

instance (v : Bytes) : Decidable (PlainValue v) :=
  inferInstanceAs (Decidable (IsLine v ∧ _))

/-- The header lines that `dump` writes are lines of the grammar. -/
structure HttpResponse.Sendable (r : HttpResponse) : Prop where
  version : r.version = 0x11 ∨ r.version = 0x10
  status : 0 ≤ r.status ∧ r.status < 2 ^ 31
  reason : IsLine r.reason
  fields : ∀ kv ∈ r.headers, PlainName kv.1 ∧ PlainValue kv.2
  sorted : Assoc.Sorted strcasecmp r.headers

/-- The value of the line for the connection. -/
def HttpResponse.connectionOf (r : HttpResponse) : Bytes :=
  if r.close then ascii "close" else ascii "keep-alive"

/-- The headers of the text that `dump` writes. -/
def HttpResponse.dumpedHeaders (r : HttpResponse) : Headers :=
  let h := (r.headers.addTo []).set (ascii "connection") r.connectionOf
  if r.body = [] then h
  else h.set (ascii "content-length") (toDecimal r.body.length)

/-- What is received of a response. -/
structure Received (r r' : HttpResponse) : Prop where
  status : r'.status = r.status
  reason : r'.reason = r.phrase
  body : r'.body = r.body
  headers : r'.headers = r.dumpedHeaders
  version : r'.version = if r.version = 0x10 then 0x11 else 0x10
  close : r'.close = true

-- ===================================================================== pieces

/-- The text `w` takes `readResponse` from one state to another. -/
def Leads (cs : Nat) (z : ResponseReading) (w : Bytes) (t : Nat)
    (z' : ResponseReading) : Prop :=
  ∀ rest, readResponse cs z (w ++ rest) = readResponse t z' rest

variable {cs c t : Nat} {b : UInt8} {w v : Bytes} {acts : List ClientAction}
  {a : ClientAction} {z z' z'' : ResponseReading} {d : HttpResponse}

namespace Leads

theorem trans (h : Leads cs z w c z') (h' : Leads c z' v t z'') :
    Leads cs z (w ++ v) t z'' := by
  intro rest
  rw [List.append_assoc, h, h']

/-- A byte whose actions do not look ahead of it. -/
theorem byte (h : transition cs b = some (acts, t))
    (hdone : acts.any ClientAction.isDone = false)
    (hacts : ∀ rest, acts.foldl (fun z a => z.act (b :: rest) a) z = z') :
    Leads cs z [b] t (z'.push b) := by
  intro rest
  rw [List.cons_append, List.nil_append]
  conv_lhs => unfold readResponse
  rw [h]
  dsimp only
  rw [hdone, if_neg Bool.false_ne_true, hacts]

/-- What a token is read into, and what is left alone. -/
structure Grows (z z' : ResponseReading) (w : Bytes) : Prop where
  mark : z'.mark = z.mark ++ w
  field : z'.field = z.field ++ w
  fieldLen : z'.fieldLen = z.fieldLen
  data : z'.data = z.data
  chunked : z'.chunked = z.chunked

/-- Over silent moves a token grows. -/
theorem walk (h : ClientTable.walk cs w = some t) :
    ∃ z', Leads cs z w t z' ∧ Grows z z' w := by
  induction w generalizing cs z with
  | nil =>
      cases h
      exact ⟨z, fun _ => rfl, (List.append_nil _).symm,
        (List.append_nil _).symm, rfl, rfl, rfl⟩
  | cons b w ih =>
      obtain ⟨c, hstep, h⟩ := ClientTable.walk_cons.mp h
      obtain ⟨z', hlead, hg⟩ := ih (z := z.push b) h
      refine ⟨z', (byte hstep rfl fun _ => rfl).trans hlead, ?_, ?_,
        hg.fieldLen, hg.data, hg.chunked⟩
      · rw [hg.mark]
        exact List.append_assoc ..
      · rw [hg.field]
        exact List.append_assoc ..

/-- A token from its mark on. -/
theorem markToken (hw : w ≠ []) (h : ClientTable.follow .mark cs w = some t) :
    ∃ z', Leads cs z w t z' ∧ z'.mark = w ∧ z'.field = z.field ++ w
      ∧ z'.fieldLen = z.fieldLen ∧ z'.data = z.data
      ∧ z'.chunked = z.chunked := by
  obtain ⟨b, v, rfl⟩ := List.exists_cons_of_ne_nil hw
  obtain ⟨c, hstep, hrest⟩ := ClientTable.follow_cons.mp h
  obtain ⟨z', hlead, hg⟩ := walk (z := (z.act [] .mark).push b) hrest
  refine ⟨z', (byte hstep rfl fun _ => rfl).trans hlead, hg.mark, ?_,
    hg.fieldLen, hg.data, hg.chunked⟩
  rw [hg.field]
  exact List.append_assoc ..

/-- The name of a field, from its first byte on. -/
theorem fieldToken (hw : w ≠ [])
    (h : ClientTable.follow .startField cs w = some t) :
    ∃ z', Leads cs z w t z' ∧ z'.field = w ∧ z'.data = z.data
      ∧ z'.chunked = z.chunked := by
  obtain ⟨b, v, rfl⟩ := List.exists_cons_of_ne_nil hw
  obtain ⟨c, hstep, hrest⟩ := ClientTable.follow_cons.mp h
  obtain ⟨z', hlead, hg⟩ := walk (z := (z.act [] .startField).push b) hrest
  exact ⟨z', (byte hstep rfl fun _ => rfl).trans hlead, hg.field, hg.data,
    hg.chunked⟩

end Leads

-- ============================================================= the status line

/-- The version as `dump` writes it. -/
def versionText (v : Nat) : Bytes :=
  ascii "HTTP/" ++ toDecimal (v / 16) ++ ascii "." ++ toDecimal (v % 16)

theorem versionText_ok : ∀ v ∈ [0x11, 0x10], versionText v ≠ []
    ∧ 0 ∉ versionText v
    ∧ ClientTable.follow .mark ClientTable.start (versionText v) = some 15
    ∧ (versionText v
      = (cStr (ascii "HTTP/1.0")).take (versionText v).length ↔ v = 0x10) := by
  decide +kernel

/-- `strncmp` over a token without NUL looks at nothing behind it. -/
theorem strncmpEq_token (hw : 0 ∉ w) (rest s : Bytes) :
    strncmpEq (w ++ rest) s w.length = decide (w = (cStr s).take w.length) := by
  have hcut : cStr (w ++ rest) = w ++ cStr rest := by
    unfold cStr
    refine List.takeWhile_append_of_pos fun b hb => ?_
    exact decide_eq_true fun h0 => hw (h0 ▸ hb)
  unfold strncmpEq
  rw [hcut, Int.toNat_natCast, List.take_left']
  rfl

theorem leads_version {n : Nat} (hn : n = 0x11 ∨ n = 0x10) (hz : z.data = d) :
    ∃ z', Leads ClientTable.start z (versionText n ++ [32]) 16 z'
      ∧ z'.data = { d with version := if n = 0x10 then 0x11 else 0x10 }
      ∧ z'.chunked = z.chunked := by
  obtain ⟨hne, hzero, hfollow, hten⟩ := versionText_ok n (by simpa using hn)
  obtain ⟨z₁, h₁, hmark, -, -, hdata, hchunked⟩ :=
    Leads.markToken (z := z) hne hfollow
  have hspace : transition 15 32 = some ([.httpVersion], 16) := rfl
  have hact : ∀ rest, z₁.act (32 :: rest) .httpVersion
      = { z₁ with data := { z₁.data with
        version := if n = 0x10 then 0x11 else 0x10 } } := by
    intro rest
    unfold ResponseReading.act
    dsimp only
    rw [hmark, strncmpEq_token hzero]
    simp only [decide_eq_true_eq, hten]
  refine ⟨_, h₁.trans (Leads.byte hspace rfl hact), ?_, hchunked⟩
  exact congrArg (fun d : HttpResponse => { d with
    version := if n = 0x10 then 0x11 else 0x10 }) (hdata.trans hz)

/-- Digits, where the machine reads digits, bytes inside a line, and the
first byte of a value. -/
theorem byte_moves :
    (∀ m ∈ [(16, [ClientAction.mark], 17), (17, [], 17), (112, [.mark], 119),
        (119, [], 119)], ∀ n < 58, 48 ≤ n →
      transition m.1 (UInt8.ofNat n) = some m.2)
    ∧ (∀ m ∈ [(18, [ClientAction.mark], 19), (19, [], 19), (23, [], 23)],
      ∀ n < 256, n ≠ 13 ∧ n ≠ 10 → transition m.1 (UInt8.ofNat n) = some m.2)
    ∧ ∀ n < 256, isSpace (UInt8.ofNat n) = false →
      transition 22 (UInt8.ofNat n) = some ([.mark], 23) := by
  refine ⟨?_, ?_, ?_⟩
  · decide +kernel
  · decide +kernel
  · decide +kernel

/-- A digit. -/
theorem digit_move {m : Nat × List ClientAction × Nat}
    (hm : m ∈ [(16, [ClientAction.mark], 17), (17, [], 17),
      (112, [.mark], 119), (119, [], 119)]) (b : UInt8)
    (hb : 48 ≤ b ∧ b ≤ 57) : transition m.1 b = some m.2 := by
  have hmove := byte_moves.1 m hm b.toNat (Nat.lt_succ_of_le hb.2) hb.1
  rwa [UInt8.ofNat_toNat] at hmove

/-- A number, where the machine reads one. -/
theorem follow_toDecimal {m : Nat} (n : Nat)
    (hfirst : ∀ b : UInt8, 48 ≤ b ∧ b ≤ 57 → transition m b = some ([.mark], t))
    (hloop : ∀ b : UInt8, 48 ≤ b ∧ b ≤ 57 → transition t b = some ([], t)) :
    ClientTable.follow .mark m (toDecimal n) = some t := by
  obtain ⟨b, w, heq⟩ := List.exists_cons_of_ne_nil (toDecimal_ne_nil n)
  have hall := toDecimal_digit n
  rw [heq] at hall ⊢
  obtain ⟨hb, hw⟩ := List.forall_mem_cons.mp hall
  exact ClientTable.follow_cons.mpr
    ⟨t, hfirst b hb, ClientTable.walk_loop hloop w hw⟩

theorem leads_status {n : Nat} (hn : n < 2 ^ 31) (hz : z.data = d) :
    ∃ z', Leads 16 z (toDecimal n ++ [32]) 18 z'
      ∧ z'.data = { d with status := n } ∧ z'.chunked = z.chunked := by
  have hfollow : ClientTable.follow .mark 16 (toDecimal n) = some 17 :=
    follow_toDecimal n (digit_move (m := (16, [.mark], 17)) (by decide))
      (digit_move (m := (17, [], 17)) (by decide))
  obtain ⟨z₁, h₁, hmark, -, -, hdata, hchunked⟩ :=
    Leads.markToken (z := z) (toDecimal_ne_nil n) hfollow
  have hspace : transition 17 32 = some ([.statusCode], 18) := rfl
  have hact : ∀ rest, z₁.act (32 :: rest) .statusCode
      = { z₁ with data := { z₁.data with status := n } } := by
    intro rest
    unfold ResponseReading.act
    dsimp only
    rw [hmark, strtol_toDecimal (by omega)
      (fun b bs h => by cases h; decide), toInt_of_lt hn]
  refine ⟨_, h₁.trans (Leads.byte hspace rfl hact), ?_, hchunked⟩
  exact congrArg (fun d : HttpResponse => { d with status := n })
    (hdata.trans hz)

/-- A byte inside a line. -/
theorem line_move {m : Nat × List ClientAction × Nat}
    (hm : m ∈ [(18, [ClientAction.mark], 19), (19, [], 19), (23, [], 23)])
    (b : UInt8) (hb : b ≠ 13 ∧ b ≠ 10) : transition m.1 b = some m.2 := by
  have hmove := byte_moves.2.1 m hm b.toNat b.toNat_lt
    ⟨fun h => hb.1 (UInt8.toNat_inj.mp h), fun h => hb.2 (UInt8.toNat_inj.mp h)⟩
  rwa [UInt8.ofNat_toNat] at hmove

theorem leads_phrase (hne : w ≠ []) (hw : IsLine w)
    (hz : z.data = d) :
    ∃ z', Leads 18 z (w ++ crlf) 20 z' ∧ z'.data = { d with reason := w }
      ∧ z'.chunked = z.chunked := by
  have hfollow : ClientTable.follow .mark 18 w = some 19 := by
    obtain ⟨b, v, rfl⟩ := List.exists_cons_of_ne_nil hne
    obtain ⟨hb, hv⟩ := List.forall_mem_cons.mp hw
    exact ClientTable.follow_cons.mpr
      ⟨19, line_move (m := (18, [.mark], 19)) (by decide) b hb,
        ClientTable.walk_loop (line_move (m := (19, [], 19)) (by decide)) v hv⟩
  obtain ⟨z₁, h₁, hmark, -, -, hdata, hchunked⟩ :=
    Leads.markToken (z := z) hne hfollow
  have hcr : transition 19 13 = some ([.reasonPhrase], 24) := rfl
  have hlf : transition 24 10 = some ([], 20) := rfl
  refine ⟨_, h₁.trans ((Leads.byte hcr rfl fun _ => rfl).trans
    (Leads.byte hlf rfl fun _ => rfl)), ?_, hchunked⟩
  show { z₁.data with reason := z₁.mark } = _
  rw [hdata, hz, hmark]

/-- The phrases of `HTTP_STATUS_MAP`. -/
theorem phrases_ok :
    ∀ w ∈ ascii "<unknow status>" :: httpStatusMap.map Prod.snd,
    w ≠ [] ∧ IsLine w := by
  decide +kernel

theorem phrase_ok {r : HttpResponse} (h : IsLine r.reason) :
    r.phrase ≠ [] ∧ IsLine r.phrase := by
  unfold HttpResponse.phrase
  split
  next =>
    refine phrases_ok _ ?_
    unfold httpStatusToString
    split
    next m hfind =>
      refine List.mem_cons_of_mem _ (List.mem_map.mpr ⟨m, ?_, rfl⟩)
      exact List.mem_of_find?_eq_some hfind
    next => exact List.mem_cons_self
  next hne => exact ⟨hne, h⟩

-- ================================================================== the fields

/-- The end of a value, at its first byte or later. -/
theorem value_ends : transition 22 32 = some ([.mark], 22)
    ∧ transition 22 13 = some ([.mark, .writeValue], 24)
    ∧ transition 23 13 = some ([.writeValue], 24)
    ∧ transition 24 10 = some ([], 20) :=
  ⟨rfl, rfl, rfl, rfl⟩

/-- A value is stored under the name in front of it. -/
theorem data_writeValue {k : Bytes} (ahead : Bytes)
    (hfield : ∃ x, z.field = k ++ x)
    (hlen : z.fieldLen = k.length) (hk : k ≠ []) :
    z.act ahead .writeValue = { z with data := { z.data with
      headers := z.data.headers.set k z.mark } } := by
  obtain ⟨x, hx⟩ := hfield
  have hpos : ¬ k.length = 0 := fun h => hk (List.length_eq_zero_iff.mp h)
  unfold ResponseReading.act
  dsimp only
  rw [hlen, if_neg hpos, hx, List.append_assoc, List.take_left]

/-- A value behind a name, where an ordinary value is read. -/
theorem leads_value {k : Bytes} (hv : PlainValue v) (hk : k ≠ [])
    (hfield : ∃ x, z.field = k ++ x) (hlen : z.fieldLen = k.length)
    (hz : z.data = d) :
    ∃ z', Leads 22 z (v ++ crlf) 20 z'
      ∧ z'.data = { d with headers := d.headers.set k v }
      ∧ z'.chunked = z.chunked := by
  obtain ⟨hspace, hempty, hend, hlf⟩ := value_ends
  obtain ⟨x, hx⟩ := hfield
  by_cases hnil : v = []
  · subst hnil
    refine ⟨_, (Leads.byte hempty rfl fun rest => data_writeValue
      (z := z.act [] .mark) (13 :: rest) ⟨x, hx⟩ hlen hk).trans
        (Leads.byte hlf rfl fun _ => rfl), ?_, rfl⟩
    show { z.data with headers := z.data.headers.set k [] } = _
    rw [hz]
  · obtain ⟨hline, hfirst⟩ := hv
    have hfollow : ClientTable.follow .mark 22 v = some 23 := by
      obtain ⟨b, u, rfl⟩ := List.exists_cons_of_ne_nil hnil
      obtain ⟨-, hu⟩ := List.forall_mem_cons.mp hline
      have hb : transition 22 b = some ([.mark], 23) := by
        have hmove := byte_moves.2.2 b.toNat b.toNat_lt
        rw [UInt8.ofNat_toNat] at hmove
        exact hmove (by simpa using hfirst)
      exact ClientTable.follow_cons.mpr ⟨23, hb,
        ClientTable.walk_loop (line_move (m := (23, [], 23)) (by decide)) u hu⟩
    obtain ⟨z₁, h₁, hmark, hfield₁, hlen₁, hdata, hchunked⟩ :=
      Leads.markToken (z := z) hnil hfollow
    rw [hx, List.append_assoc] at hfield₁
    refine ⟨_, h₁.trans ((Leads.byte hend rfl fun rest => data_writeValue
      (13 :: rest) ⟨_, hfield₁⟩ (hlen₁.trans hlen) hk).trans
        (Leads.byte hlf rfl fun _ => rfl)), ?_, hchunked⟩
    show { z₁.data with headers := z₁.data.headers.set k z₁.mark } = _
    rw [hdata, hz, hmark]

/-- A name and the colon behind it. -/
theorem leads_name {k : Bytes} (hk : k ≠ []) (hall : ∀ b ∈ k, isToken b = true)
    (hcolon : transition (nameState k) 58 = some ([.writeField], t)) :
    ∃ z', Leads 20 z (k ++ [58]) t z' ∧ (∃ x, z'.field = k ++ x)
      ∧ z'.fieldLen = k.length ∧ z'.data = z.data
      ∧ z'.chunked = z.chunked := by
  obtain ⟨z₁, h₁, hfield, hdata, hchunked⟩ :=
    Leads.fieldToken (z := z) hk (follow_name hk hall)
  refine ⟨_, h₁.trans (Leads.byte hcolon rfl fun _ => rfl), ⟨[58], ?_⟩, ?_,
    hdata, hchunked⟩
  · exact congrArg (· ++ [58]) hfield
  · exact congrArg List.length hfield

theorem separator : ascii ": " = [58] ++ [32] := by
  decide

/-- A line for an ordinary field. -/
theorem leads_field {k : Bytes} (hk : PlainName k)
    (hother : k.map toLower ≠ ascii "connection") (hv : PlainValue v)
    (hz : z.data = d) :
    ∃ z', Leads 20 z (k ++ ascii ": " ++ v ++ crlf) 20 z'
      ∧ z'.data = { d with headers := d.headers.set k v }
      ∧ z'.chunked = z.chunked := by
  obtain ⟨hne, hall, hkeys⟩ := hk
  obtain ⟨hspace, -⟩ := value_ends
  have hcolon : transition (nameState k) 58 = some ([.writeField], 22) := by
    refine colon_other hne fun w hw heq => ?_
    simp only [keywords, List.mem_cons, List.not_mem_nil, or_false] at hw
    rcases hw with rfl | rfl | rfl
    · exact hother heq.symm
    · exact hkeys _ List.mem_cons_self heq.symm
    · exact hkeys _ (List.mem_cons_of_mem _ List.mem_cons_self) heq.symm
  obtain ⟨z₁, h₁, ⟨x, hfield⟩, hlen, hdata, hchunked⟩ :=
    leads_name (z := z) hne hall hcolon
  have h₂ : Leads 22 z₁ [32] 22 ((z₁.act [] .mark).push 32) :=
    Leads.byte hspace rfl fun _ => rfl
  have hfield₂ : ((z₁.act [] .mark).push 32).field = k ++ (x ++ [32]) := by
    rw [← List.append_assoc, ← hfield]
    rfl
  obtain ⟨z₃, h₃, hdata₃, hchunked₃⟩ := leads_value
    (z := (z₁.act [] .mark).push 32) hv hne ⟨_, hfield₂⟩ hlen
    (show z₁.data = d from hdata.trans hz)
  refine ⟨z₃, ?_, hdata₃, hchunked₃.trans hchunked⟩
  rw [separator, ← List.append_assoc, List.append_assoc _ v]
  exact (h₁.trans h₂).trans h₃

/-- The lines of the headers. -/
theorem leads_headers {h : Headers} (hz : z.data = d)
    (hh : ∀ kv ∈ h, PlainName kv.1 ∧ PlainValue kv.2) :
    ∃ z', Leads 20 z h.dump 20 z'
      ∧ z'.data = { d with headers := h.addTo d.headers }
      ∧ z'.chunked = z.chunked := by
  induction h generalizing z d with
  | nil => exact ⟨z, fun _ => rfl, hz, rfl⟩
  | cons kv h ih =>
      obtain ⟨⟨hk, hv⟩, hh⟩ := List.forall_mem_cons.mp hh
      unfold Headers.dump Headers.addTo
      rw [List.flatMap_cons]
      by_cases hkey : strcasecmp kv.1 (ascii "connection") = .eq
      · rw [if_pos hkey, Assoc.without_of_eq hkey, List.nil_append]
        exact ih hz hh
      · have hother : kv.1.map toLower ≠ ascii "connection" := by
          intro heq
          have hzero : (0 : UInt8) ∉ kv.1 := fun h0 =>
            absurd (hk.2.1 0 h0) (by decide)
          refine hkey ((strcasecmp_eq_iff hzero (by decide)).mpr ?_)
          rw [heq]
          decide
        rw [if_neg hkey, Assoc.without_of_ne hkey]
        obtain ⟨z₁, h₁, hz₁, hc₁⟩ := leads_field hk hother hv hz
        obtain ⟨z₂, h₂, hz₂, hc₂⟩ := ih hz₁ hh
        refine ⟨z₂, h₁.trans h₂, ?_, hc₂.trans hc₁⟩
        rw [hz₂, List.foldl_cons, ← Headers.set_eq_put]
        rfl

-- =========================================================== the lines of dump

/-- The names that `dump` writes of its own, and the moves on their lines. -/
theorem own_moves :
    (ascii "connection" ++ ascii "content-length").all isToken = true
      ∧ transition (nameState (ascii "connection")) 58
        = some ([.writeField], 35)
      ∧ transition (nameState (ascii "content-length")) 58
        = some ([.writeField], 112)
      ∧ ClientTable.follow .mark 35 (ascii "close") = some 100
      ∧ ClientTable.follow .mark 35 (ascii "keep-alive") = some 23 := by
  decide +kernel

theorem own_ends :
    transition 35 32 = some ([.mark], 35)
      ∧ transition 100 13 = some ([.writeValue], 88)
      ∧ transition 88 10 = some ([], 43)
      ∧ transition 112 32 = some ([.mark], 112)
      ∧ transition 119 13 = some ([.writeContentLen, .writeValue], 24) :=
  ⟨rfl, rfl, rfl, rfl, rfl⟩

/-- A line for one of the known names, up to its value. -/
theorem leads_own {k : Bytes} (hk : k ≠ []) (hall : ∀ b ∈ k, isToken b = true)
    (hcolon : transition (nameState k) 58 = some ([.writeField], t))
    (hspace : transition t 32 = some ([.mark], t)) :
    ∃ z', Leads 20 z (k ++ ascii ": ") t z' ∧ (∃ x, z'.field = k ++ x)
      ∧ z'.fieldLen = k.length ∧ z'.data = z.data
      ∧ z'.chunked = z.chunked := by
  obtain ⟨z₁, h₁, ⟨x, hfield⟩, hlen, hdata, hchunked⟩ :=
    leads_name (z := z) hk hall hcolon
  refine ⟨(z₁.act [] .mark).push 32, ?_, ⟨x ++ [32], ?_⟩, hlen, hdata,
    hchunked⟩
  · rw [separator, ← List.append_assoc]
    exact h₁.trans (Leads.byte hspace rfl fun _ => rfl)
  · rw [← List.append_assoc, ← hfield]
    rfl

/-- The state behind the line for the connection. -/
def afterConnection (r : HttpResponse) : Nat := if r.close then 43 else 20

theorem leads_connection (r : HttpResponse) (hz : z.data = d) :
    ∃ z', Leads 20 z (ascii "connection" ++ ascii ": " ++ r.connectionOf
      ++ crlf)
        (afterConnection r) z'
      ∧ z'.data = { d with
        headers := d.headers.set (ascii "connection") r.connectionOf }
      ∧ z'.chunked = z.chunked := by
  obtain ⟨htokens, hcolon, -, hclose, hkeep⟩ := own_moves
  rw [List.all_eq_true] at htokens
  obtain ⟨hspace, hcloseEnd, hcloseLf, -, -⟩ := own_ends
  obtain ⟨-, -, hend, hlf⟩ := value_ends
  obtain ⟨z₁, h₁, ⟨x, hfield⟩, hlen, hdata, hchunked⟩ := leads_own (z := z)
    (by decide) (fun b hb => htokens b (List.mem_append_left _ hb)) hcolon
      hspace
  rw [List.append_assoc]
  unfold HttpResponse.connectionOf afterConnection
  cases r.close with
  | true =>
      obtain ⟨z₂, h₂, hmark, hfield₂, hlen₂, hdata₂, hchunked₂⟩ :=
        Leads.markToken (z := z₁) (by decide) hclose
      rw [hfield, List.append_assoc] at hfield₂
      refine ⟨_, h₁.trans (h₂.trans ((Leads.byte hcloseEnd rfl fun rest =>
        data_writeValue (13 :: rest) ⟨_, hfield₂⟩ (hlen₂.trans hlen)
          (by decide)).trans (Leads.byte hcloseLf rfl fun _ => rfl))), ?_,
        hchunked₂.trans hchunked⟩
      show { z₂.data with
        headers := z₂.data.headers.set (ascii "connection") z₂.mark } = _
      rw [hdata₂, hdata, hz, hmark]
      rfl
  | false =>
      obtain ⟨z₂, h₂, hmark, hfield₂, hlen₂, hdata₂, hchunked₂⟩ :=
        Leads.markToken (z := z₁) (by decide) hkeep
      rw [hfield, List.append_assoc] at hfield₂
      refine ⟨_, h₁.trans (h₂.trans ((Leads.byte hend rfl fun rest =>
        data_writeValue (13 :: rest) ⟨_, hfield₂⟩ (hlen₂.trans hlen)
          (by decide)).trans (Leads.byte hlf rfl fun _ => rfl))), ?_,
        hchunked₂.trans hchunked⟩
      show { z₂.data with
        headers := z₂.data.headers.set (ascii "connection") z₂.mark } = _
      rw [hdata₂, hdata, hz, hmark]
      rfl

/-- Behind `connection: close` the next line is read as behind any other,
when it is the one for the length or the empty one. -/
theorem read_afterConnection (r : HttpResponse) (hb : b = 99 ∨ b = 13)
    (rest : Bytes) :
    readResponse (afterConnection r) z (b :: rest)
      = readResponse 20 z (b :: rest) := by
  have h₁ : transition 43 99
    = some ([.writeConnectionClose, .startField], 25) := rfl
  have h₂ : transition 20 99 = some ([.startField], 25) := rfl
  have h₃ : transition 43 13 = some ([.writeConnectionClose], 3) := rfl
  have h₄ : transition 20 13 = some ([], 3) := rfl
  unfold afterConnection
  cases r.close with
  | true =>
      rw [if_pos rfl]
      unfold readResponse
      rcases hb with rfl | rfl
      · rw [h₁, h₂]
        rfl
      · rw [h₃, h₄]
        rfl
  | false => rfl

theorem leads_length (n : Nat) (hz : z.data = d) :
    ∃ z', Leads 20 z (ascii "content-length" ++ ascii ": " ++ toDecimal n
      ++ crlf)
        20 z'
      ∧ z'.data = { d with
        headers := d.headers.set (ascii "content-length") (toDecimal n) }
      ∧ z'.chunked = z.chunked := by
  obtain ⟨htokens, -, hcolon, -, -⟩ := own_moves
  rw [List.all_eq_true] at htokens
  obtain ⟨-, -, -, hspace, hend⟩ := own_ends
  obtain ⟨-, -, -, hlf⟩ := value_ends
  have hdigits : ClientTable.follow .mark 112 (toDecimal n) = some 119 :=
    follow_toDecimal n (digit_move (m := (112, [.mark], 119)) (by decide))
      (digit_move (m := (119, [], 119)) (by decide))
  obtain ⟨z₁, h₁, ⟨x, hfield⟩, hlen, hdata, hchunked⟩ := leads_own (z := z)
    (by decide) (fun b hb => htokens b (List.mem_append_right _ hb)) hcolon
      hspace
  obtain ⟨z₂, h₂, hmark, hfield₂, hlen₂, hdata₂, hchunked₂⟩ :=
    Leads.markToken (z := z₁) (toDecimal_ne_nil n) hdigits
  rw [hfield, List.append_assoc] at hfield₂
  rw [List.append_assoc]
  refine ⟨_, h₁.trans (h₂.trans ((Leads.byte hend rfl fun rest =>
    data_writeValue (13 :: rest) ⟨_, hfield₂⟩ (hlen₂.trans hlen)
      (by decide)).trans (Leads.byte hlf rfl fun _ => rfl))), ?_,
    hchunked₂.trans hchunked⟩
  show { z₂.data with
    headers := z₂.data.headers.set (ascii "content-length") z₂.mark } = _
  rw [hdata₂, hdata, hz, hmark]

/-- The empty line: the header is done. -/
theorem read_blank (hz : z.data = d) (rest : Bytes) :
    ∃ z', readResponse 20 z (crlf ++ rest)
        = some (ClientTable.firstFinal, z', rest)
      ∧ z'.data = d ∧ z'.chunked = z.chunked := by
  have hcr : transition 20 13 = some ([], 3) := rfl
  have hlf : transition 3 10 = some ([.done], 120) := rfl
  refine ⟨z.push 13, ?_, hz, rfl⟩
  show readResponse 20 z ([13] ++ (10 :: rest)) = _
  rw [(Leads.byte hcr rfl fun _ => rfl : Leads 20 z [13] 3 (z.push 13))]
  unfold readResponse
  rw [hlf]
  rfl

-- ============================================================== the whole text

/-- The text that `dump` writes in front of the body. -/
def HttpResponse.headerText (r : HttpResponse) : Bytes :=
  versionText r.version ++ [32] ++ (toDecimal r.status.toNat ++ [32])
    ++ (r.phrase ++ crlf) ++ r.headers.dump
    ++ (ascii "connection" ++ ascii ": " ++ r.connectionOf ++ crlf)
    ++ ((if r.body = [] then [] else ascii "content-length" ++ ascii ": "
      ++ toDecimal r.body.length ++ crlf) ++ crlf)

theorem dump_headerText {r : HttpResponse} (h : r.Sendable) :
    r.dump = r.headerText ++ r.body := by
  obtain ⟨hpos, hlt⟩ := h.status
  have hstatus : (r.status % 0x100000000).toNat = r.status.toNat := by
    rw [Int.emod_eq_of_lt hpos (by omega)]
  have hspace : ascii " " = [32] := by decide
  have hconn : ascii "connection: " = ascii "connection" ++ ascii ": " := by
    decide
  have hlen : ascii "content-length: " = ascii "content-length"
      ++ ascii ": " := by
    decide
  have hbody : (if r.body = [] then crlf else ascii "content-length: "
        ++ toDecimal r.body.length ++ crlf ++ crlf ++ r.body)
      = (if r.body = [] then [] else ascii "content-length" ++ ascii ": "
        ++ toDecimal r.body.length ++ crlf) ++ (crlf ++ r.body) := by
    split
    next hnil => rw [hnil]; rfl
    next =>
      rw [hlen]
      simp only [List.append_assoc]
  unfold HttpResponse.dump HttpResponse.headerText versionText
    HttpResponse.connectionOf HttpResponse.phrase
  rw [hbody, hstatus, hspace, hconn]
  simp only [List.append_assoc]

/-- The response that the header of the text makes. -/
def HttpResponse.dumped (r : HttpResponse) : HttpResponse :=
  { status := r.status
    version := if r.version = 0x10 then 0x11 else 0x10
    body := []
    reason := r.phrase
    headers := r.dumpedHeaders
    close := true }

theorem headerText_pos {r : HttpResponse} : 0 < r.headerText.length := by
  rw [HttpResponse.headerText]
  simp only [List.length_append, List.length_singleton]
  omega

/-- The status, the reason, the headers and the body are kept. -/
theorem received_dumped {r : HttpResponse} :
    Received r { r.dumped with body := r.body } :=
  ⟨rfl, rfl, rfl, rfl, rfl, rfl⟩

theorem readResponse_dump {r : HttpResponse} (h : r.Sendable) (rest : Bytes) :
    ∃ z', readResponse ClientTable.start .init (r.headerText ++ rest)
        = some (ClientTable.firstFinal, z', rest)
      ∧ z'.data = r.dumped ∧ z'.chunked = false := by
  obtain ⟨hpos, hlt⟩ := h.status
  obtain ⟨hne, hphrase⟩ := phrase_ok h.reason
  obtain ⟨z₁, h₁, hz₁, hc₁⟩ := leads_version (z := .init) h.version rfl
  obtain ⟨z₂, h₂, hz₂, hc₂⟩ := leads_status (n := r.status.toNat) (by omega) hz₁
  obtain ⟨z₃, h₃, hz₃, hc₃⟩ := leads_phrase hne hphrase hz₂
  obtain ⟨z₄, h₄, hz₄, hc₄⟩ := leads_headers hz₃ h.fields
  obtain ⟨z₅, h₅, hz₅, hc₅⟩ := leads_connection r hz₄
  have hplain : z₅.chunked = false :=
    hc₅.trans (hc₄.trans (hc₃.trans (hc₂.trans hc₁)))
  have hlines := (((h₁.trans h₂).trans h₃).trans h₄).trans h₅
  have hstatus : ((r.status.toNat : Nat) : Int) = r.status :=
    Int.toNat_of_nonneg hpos
  unfold HttpResponse.headerText
  rw [List.append_assoc, hlines]
  by_cases hbody : r.body = []
  · obtain ⟨z₆, hread, hz₆, hc₆⟩ := read_blank hz₅ rest
    rw [if_pos hbody, List.nil_append]
    refine ⟨z₆, (read_afterConnection r (.inr rfl) (10 :: rest)).trans hread,
      ?_,
      hc₆.trans hplain⟩
    rw [hz₆]
    unfold HttpResponse.dumped HttpResponse.dumpedHeaders
    rw [if_pos hbody, ← hstatus]
    rfl
  · obtain ⟨z₆, h₆, hz₆, hc₆⟩ := leads_length r.body.length hz₅
    obtain ⟨z₇, hread, hz₇, hc₇⟩ := read_blank hz₆ rest
    rw [if_neg hbody]
    refine ⟨z₇, ?_, ?_, hc₇.trans (hc₆.trans hplain)⟩
    · have hfirst : ∃ u, ascii "content-length" ++ ascii ": "
          ++ toDecimal r.body.length ++ crlf ++ crlf ++ rest = 99 :: u :=
        ⟨_, rfl⟩
      obtain ⟨u, hu⟩ := hfirst
      rw [hu, read_afterConnection r (.inl rfl), ← hu, List.append_assoc _ crlf,
        h₆, hread]
    · rw [hz₇]
      unfold HttpResponse.dumped HttpResponse.dumpedHeaders
      rw [if_neg hbody, ← hstatus]
      rfl

-- ============================================================== the connection

/-- An ordinary name is not one that `dump` writes of its own. -/
theorem plain_not_length {k : Bytes} (h : PlainName k) :
    strcasecmp k (ascii "content-length") ≠ .eq := by
  intro heq
  have hzero : (0 : UInt8) ∉ k := fun h0 => absurd (h.2.1 0 h0) (by decide)
  refine h.2.2 (ascii "content-length") List.mem_cons_self ?_
  rw [(strcasecmp_eq_iff hzero (by decide)).mp heq]
  decide

/-- The length of the body is found in the headers that are received. -/
theorem length_dumped {r : HttpResponse} (h : r.Sendable)
    {lexicalCast : Bytes → Option Nat}
    (hcast : lexicalCast (toDecimal r.body.length) = some r.body.length) :
    r.dumpedHeaders.getHeaderAs lexicalCast (ascii "content-length")
      = r.body.length := by
  unfold HttpResponse.dumpedHeaders Headers.getHeaderAs
  dsimp only
  split
  next hbody =>
    have hkeys : ∀ kv ∈ Assoc.without strcasecmp (ascii "connection") r.headers,
        strcasecmp kv.1 (ascii "content-length") ≠ .eq := fun kv hkv =>
      plain_not_length (h.fields kv (List.mem_filter.mp hkv).1).1
    have hfind : ((r.headers.addTo []).set (ascii "connection")
        r.connectionOf).find (ascii "content-length") = none := by
      rw [Headers.set_eq_put, Headers.find_eq_get, Assoc.get_put,
        if_neg (by decide)]
      unfold Headers.addTo
      rw [Assoc.get_foldl_put hkeys]
      rfl
    rw [hfind, hbody]
    rfl
  next =>
    rw [Headers.set_eq_put, Headers.find_eq_get, Assoc.get_put,
      if_pos Std.ReflCmp.compare_self, Option.bind_some, hcast,
      Option.getD_some]

open HttpConnection in
/-- What `recvResponse` returns for the text of a response. -/
theorem recvResponse_dump {env : ConnectionEnv} {r : HttpResponse}
    {segs : List Bytes} (waits : Bool) (hr : r.Sendable)
    (hsegs : Arrives env.bufferSize r.dump r.body.length segs)
    (hlen : r.body.length < 2 ^ 31)
    (hcast : env.lexicalCast (toDecimal r.body.length) = some r.body.length) :
    ∃ c', recvResponse env ⟨segs, waits⟩
      = .ok (some { r.dumped with body := r.body }, c') := by
  have hdump := dump_headerText hr
  have hcount : r.dump.length = r.headerText.length + r.body.length := by
    rw [hdump, List.length_append]
  obtain ⟨first, c₁, hfirst, hhead, hfit, -⟩ := hsegs.read
    (by rw [hcount]; exact Nat.lt_add_of_pos_left headerText_pos) [] waits
  rw [List.append_nil] at hfirst
  obtain ⟨htook, -⟩ := Conn.read_took hfirst
  -- the first read is the header and a part of the body
  have hsplit : first ++ c₁.unread = r.headerText ++ r.body :=
    (htook.unread.trans hsegs.whole).trans hdump
  obtain ⟨kept, rfl⟩ : r.headerText <+: first := by
    refine List.prefix_of_prefix_length_le ?_
      (List.prefix_append first c₁.unread) (by omega)
    rw [hsplit]
    exact List.prefix_append _ _
  have hbody : kept ++ c₁.unread = r.body := by
    rw [List.append_assoc] at hsplit
    exact List.append_cancel_left hsplit
  obtain ⟨z, hread, hdata, hplain⟩ := readResponse_dump hr kept
  obtain ⟨ps, hps, hrecv⟩ := recvResponse_read hfirst hfit hread hplain
  have hps' : ps.regs.data = r.dumped := hps.trans hdata
  have hlength : contentLength env ps = r.body.length := by
    unfold contentLength HttpResponseParser.getContentLength
    rw [hps']
    show toInt (r.dumpedHeaders.getHeaderAs env.lexicalCast
      (ascii "content-length") : Nat) = _
    rw [length_dumped hr hcast, toInt_of_lt hlen]
  obtain ⟨c', hrest⟩ := recvRest_body (htook.live hsegs.live) hbody
    (by rw [hps']; rfl) hlength
  refine ⟨c', ?_⟩
  rw [hrecv, hrest, withBody, hps']

open HttpConnection in
/-- What the server writes with `dump` is what `recvResponse` returns, when
the header comes with the first read and the rest in any pieces. -/
theorem response_received {env : ConnectionEnv} {r : HttpResponse}
    {segs : List Bytes} {waits : Bool} (hr : r.Sendable)
    (hsegs : Arrives env.bufferSize r.dump r.body.length segs)
    (hlen : r.body.length < 2 ^ 31)
    (hcast : env.lexicalCast (toDecimal r.body.length) = some r.body.length) :
    ∃ r' c', recvResponse env ⟨segs, waits⟩ = .ok (some r', c')
      ∧ Received r r' := by
  obtain ⟨c', hrecv⟩ := recvResponse_dump waits hr hsegs hlen hcast
  exact ⟨_, c', hrecv, received_dumped⟩

/-- A response that closes, with a body of five bytes. -/
def helloPage : HttpResponse :=
  ⟨200, 0x11, ascii "hello", [], [(ascii "Server", ascii "TinyServer/1.0.0")],
    true⟩

theorem helloPage_sendable : helloPage.Sendable where
  version := .inl rfl
  status := ⟨by decide, by decide⟩
  reason _ hb := nomatch hb
  fields kv hkv := by
    cases List.mem_singleton.mp hkv
    exact ⟨by decide +kernel, by decide +kernel⟩
  sorted := List.pairwise_singleton _ _

/-- The body of `helloPage` in two pieces, the first with the header. -/
theorem response_received_hello :
    ∃ r' c', HttpConnection.recvResponse ⟨4096, decimal, 0⟩
        ⟨[helloPage.headerText ++ ascii "he", ascii "llo"], true⟩
          = .ok (some r', c')
      ∧ Received helloPage r' := by
  refine response_received helloPage_sendable ⟨?_, ?_, ?_⟩ (by decide) ?_
  · decide +kernel
  · decide +kernel
  · decide +kernel
  · decide +kernel

end TinyServer.Http
