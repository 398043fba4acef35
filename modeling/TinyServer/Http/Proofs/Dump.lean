/-
Reading what `HttpRequest::dump` writes.

A well-formed request whose path is plain is written as a text that is
read with the same parts (`read_dump`), so `recvRequest` returns a request
from it that differs only in the headers for the connection and the
length of the body (`dump_round_trip`).
-/
import TinyServer.Http.Proofs.Methods
import TinyServer.Http.Proofs.Number
import TinyServer.Http.Proofs.Reading
import TinyServer.Http.Proofs.WellFormed

namespace TinyServer.Http

open Lib RequestTable

variable {relaxed : Bool} {cs c t : Nat} {b : UInt8} {w v rest : Bytes}
  {acts : List HttpAction} {a : HttpAction} {z z' z'' : Reading}
  {q : HttpRequest}

-- ===================================================================== pieces

/-- The text `w` takes `read` from one state to another. -/
def Reaches (relaxed : Bool) (cs : Nat) (z : Reading) (w : Bytes) (t : Nat)
    (z' : Reading) : Prop :=
  ∀ rest, read relaxed cs z (w ++ rest) = read relaxed t z' rest

namespace Reaches

theorem trans (h : Reaches relaxed cs z w c z')
    (h' : Reaches relaxed c z' v t z'') :
    Reaches relaxed cs z (w ++ v) t z'' := by
  intro rest
  rw [List.append_assoc, h, h']

theorem byte (h : transition relaxed cs b = some (acts, t))
    (hdone : acts.any HttpAction.isDone = false) :
    Reaches relaxed cs z [b] t
      (Reading.push b (acts.foldl (fun z a => z.act a) z)) := by
  intro rest
  rw [List.cons_append, List.nil_append]
  unfold read
  rw [h]
  dsimp only
  rw [hdone, if_neg Bool.false_ne_true]
  cases rest <;> rfl

/-- Over silent moves a token grows. -/
theorem walk (h : walk relaxed cs w = some t) :
    ∃ z', Reaches relaxed cs z w t z'
    ∧ z'.data = z.data ∧ z'.name = z.name
    ∧ ∀ a, z'.since a = z.since a ++ w := by
  induction w generalizing cs z with
  | nil =>
      cases h
      exact ⟨z, fun _ => rfl, rfl, rfl, fun a => (List.append_nil _).symm⟩
  | cons b w ih =>
      obtain ⟨c, hstep, h⟩ := walk_cons.mp h
      obtain ⟨z', hreach, hdata, hname, hsince⟩ := ih (z := z.push b) h
      refine ⟨z', (byte hstep rfl).trans hreach, hdata, hname, fun a => ?_⟩
      rw [hsince, since_push, List.append_assoc]
      rfl

/-- A token is read. -/
theorem follow (ha : a ∈ [.mark, .startField, .startQuery]) (hw : w ≠ [])
    (h : follow relaxed a cs w = some t) : ∃ z', Reaches relaxed cs z w t z'
    ∧ z'.data = z.data ∧ z'.name = z.name ∧ z'.since a = w := by
  obtain ⟨b, w, rfl⟩ := List.exists_cons_of_ne_nil hw
  obtain ⟨c, hstep, h⟩ := follow_cons.mp h
  have hstart : [a].any HttpAction.isDone = false ∧ (z.act a).data = z.data
      ∧ (z.act a).name = z.name ∧ (z.act a).since a = [] := by
    simp only [List.mem_cons, List.not_mem_nil, or_false] at ha
    rcases ha with rfl | rfl | rfl <;> exact ⟨rfl, rfl, rfl, rfl⟩
  obtain ⟨hdone, hdata₀, hname₀, hsince₀⟩ := hstart
  obtain ⟨z', hreach, hdata, hname, hsince⟩ := walk (z := (z.act a).push b) h
  refine ⟨z', (byte hstep hdone).trans hreach, hdata.trans hdata₀,
    hname.trans hname₀, ?_⟩
  rw [hsince, since_push, hsince₀]
  rfl

end Reaches

/-- A callback where there was no error. -/
theorem data_store {f : HttpRequest → Option HttpRequest}
    (h : z.data = some q) :
    (z.store f).data = f q := by
  unfold Reading.store
  rw [h]
  rfl

/-- The moves of the table behind the tokens that `dump` writes. -/
def dumpMoves : List (Nat × UInt8 × List HttpAction × Nat) :=
  [(30, 32, [.queryString, .requestUri], 4),
    (30, 35, [.queryString, .requestUri], 20), (21, 32, [.fragment], 4),
    (12, 13, [.httpVersion], 17), (17, 10, [], 13), (14, 58, [.writeField], 15),
    (18, 58, [.writeField], 15), (15, 32, [.mark], 15),
    (15, 13, [.mark, .writeValue], 17), (16, 13, [.writeValue], 17),
    (13, 13, [.startField], 18), (18, 10, [.done], 348)]

theorem dumpMoves_ok : ∀ relaxed, ∀ m ∈ dumpMoves,
    transition relaxed m.1 m.2.1 = some m.2.2 := by
  decide +kernel

/-- A move of the table that is on the list. -/
theorem dump_move (h : (cs, b, acts, t) ∈ dumpMoves) :
    transition relaxed cs b = some (acts, t) :=
  dumpMoves_ok relaxed _ h

-- ============================================================== the first line

/-- The check of a method: its name is read and taken for it. -/
def methodOk (relaxed : Bool) (m : HttpMethod × Bytes) : Bool :=
  match follow relaxed .mark 1 m.2 with
  | some c => decide (m.2 ≠ [])
      && decide (transition relaxed c 32 = some ([.requestMethod], 3))
      && decide (charsToHttpMethod m.2 = m.1)
  | none => false

theorem methods_ok : ∀ relaxed, ∀ m ∈ httpMethodMap, m.1 ≠ .msearch →
    methodOk relaxed m = true := by
  decide +kernel

theorem reaches_method {m : HttpMethod} (h : m ≠ .invalid ∧ m ≠ .msearch) :
    ∃ z', Reaches relaxed RequestTable.start .init
        (httpMethodToString m ++ [32]) 3 z'
      ∧ z'.data = some { HttpRequest.new with method := m } := by
  have hok := methods_ok relaxed _ (httpMethodToString_mem h.1) h.2
  unfold methodOk at hok
  split at hok
  next c hfollow =>
    simp only [Bool.and_eq_true, decide_eq_true_eq] at hok
    obtain ⟨⟨hne, hstep⟩, hm⟩ := hok
    obtain ⟨z', hreach, hdata, -, hsince⟩ :=
      Reaches.follow (z := Reading.init) (by decide) hne hfollow
    have hmark : z'.mark = httpMethodToString m := hsince
    refine ⟨_, hreach.trans (Reaches.byte hstep rfl), ?_⟩
    refine (data_store hdata).trans ?_
    rw [hmark, hm]
    exact if_neg h.1
  next => nomatch hok

/-- What can stand behind a path: a space, a fragment or a query. -/
def pathStops : List (UInt8 × List HttpAction × Nat) :=
  [(32, [.requestPath, .requestUri], 4), (35, [.requestPath, .requestUri], 20),
    (63, [.requestPath], 29)]

theorem space_stops : (32, [.requestPath, .requestUri], 4) ∈ pathStops := by
  decide

theorem hash_stops : (35, [.requestPath, .requestUri], 20) ∈ pathStops := by
  decide

theorem question_stops : (63, [.requestPath], 29) ∈ pathStops := by
  decide

theorem pathStops_ok : ∀ relaxed, ∀ e ∈ pathStops,
    (∀ c ∈ targetEnds, transition relaxed c e.1 = some e.2)
      ∧ transition relaxed 3 e.1 = some (.mark :: e.2.1, e.2.2) := by
  decide +kernel

/-- A path, and the byte behind it. -/
theorem reaches_path (hz : z.data = some q) (hw : IsTarget relaxed w)
    (he : (b, acts, t) ∈ pathStops) :
    ∃ z', Reaches relaxed 3 z (w ++ [b]) t z'
      ∧ z'.data = some { q with path := w } := by
  obtain ⟨hstop, hempty⟩ := pathStops_ok relaxed _ he
  have hacts : acts = [.requestPath] ∨ acts = [.requestPath, .requestUri] := by
    have hall : ∀ e ∈ pathStops, e.2.1 = [.requestPath]
        ∨ e.2.1 = [.requestPath, .requestUri] := by
      decide
    exact hall _ he
  have hdata : ∀ {z : Reading}, z.data = some q →
      (acts.foldl (fun z a => z.act a) z).data
        = some { q with path := z.mark } := by
    intro z hz
    rcases hacts with rfl | rfl <;> exact data_store hz
  have hdone : acts.any HttpAction.isDone = false := by
    rcases hacts with rfl | rfl <;> rfl
  rcases hw with rfl | ⟨c, hc, hfollow⟩
  · exact ⟨_, Reaches.byte hempty hdone, hdata (z := z.act .mark) hz⟩
  · have hne : w ≠ [] := by
      intro hw
      subst hw
      cases hfollow
      exact absurd hc (by decide)
    obtain ⟨z', hreach, hz', -, hsince⟩ :=
      Reaches.follow (z := z) (by decide) hne hfollow
    refine ⟨_, hreach.trans (Reaches.byte (hstop c hc) hdone), ?_⟩
    refine (hdata (hz'.trans hz)).trans ?_
    rw [show z'.mark = w from hsince]

/-- A query, and the byte behind it. -/
theorem reaches_query (hz : z.data = some q) (hw : w ≠ [])
    (hfollow : follow relaxed .startQuery 29 w = some 30)
    (he : (b, t) ∈ [(32, 4), (35, 20)]) :
    ∃ z', Reaches relaxed 29 z (w ++ [b]) t z'
      ∧ z'.data = some { q with query := w } := by
  have hmoves : ∀ e ∈ [((32 : UInt8), 4), (35, 20)],
      (30, e.1, [.queryString, .requestUri], e.2) ∈ dumpMoves := by
    decide
  have hstop : transition relaxed 30 b
      = some ([.queryString, .requestUri], t) :=
    dump_move (hmoves _ he)
  obtain ⟨z', hreach, hz', -, hsince⟩ :=
    Reaches.follow (z := z) (by decide) hw hfollow
  refine ⟨_, hreach.trans (Reaches.byte hstop rfl), ?_⟩
  refine (data_store (hz'.trans hz)).trans ?_
  rw [show z'.query = w from hsince]

/-- A fragment, and the space behind it. -/
theorem reaches_fragment (hz : z.data = some q) (hw : w ≠ [])
    (hfollow : follow relaxed .mark 20 w = some 21) :
    ∃ z', Reaches relaxed 20 z (w ++ [32]) 4 z'
      ∧ z'.data = some { q with fragment := w } := by
  have hstop : transition relaxed 21 32 = some ([.fragment], 4) :=
    dump_move (by decide)
  obtain ⟨z', hreach, hz', -, hsince⟩ :=
    Reaches.follow (z := z) (by decide) hw hfollow
  refine ⟨_, hreach.trans (Reaches.byte hstop rfl), ?_⟩
  refine (data_store (hz'.trans hz)).trans ?_
  rw [show z'.mark = w from hsince]

/-- The target of a request as `dump` writes it, and the space behind. -/
def dumpTarget (q : HttpRequest) : Bytes :=
  q.path ++ (if q.query = [] then [] else 63 :: q.query)
    ++ (if q.fragment = [] then [] else 35 :: q.fragment) ++ [32]

theorem reaches_target {q' : HttpRequest} (hz : z.data = some q')
    (hnew : q'.query = [] ∧ q'.fragment = [])
    (hpath : IsTarget relaxed q.path)
    (hquery : q.query = [] ∨ follow relaxed .startQuery 29 q.query = some 30)
    (hfragment : q.fragment = [] ∨ follow relaxed .mark 20 q.fragment
      = some 21) :
    ∃ z', Reaches relaxed 3 z (dumpTarget q) 4 z'
      ∧ z'.data = some { q' with path := q.path, query := q.query,
                                 fragment := q.fragment } := by
  obtain ⟨m, version, close, path, query, fragment, body, headers⟩ := q'
  obtain ⟨rfl, rfl⟩ := hnew
  by_cases hq : q.query = [] <;> by_cases hf : q.fragment = []
  · have htext : dumpTarget q = q.path ++ [32] := by
      unfold dumpTarget
      rw [if_pos hq, if_pos hf, List.append_nil, List.append_nil]
    rw [htext, hq, hf]
    exact reaches_path hz hpath space_stops
  · have htext : dumpTarget q = q.path ++ [35] ++ (q.fragment ++ [32]) := by
      unfold dumpTarget
      rw [if_pos hq, if_neg hf]
      simp only [List.append_assoc, List.cons_append, List.nil_append]
    obtain ⟨z₁, h₁, hz₁⟩ := reaches_path hz hpath hash_stops
    obtain ⟨z₂, h₂, hz₂⟩ := reaches_fragment hz₁ hf (hfragment.resolve_left hf)
    rw [htext, hq]
    exact ⟨z₂, h₁.trans h₂, hz₂⟩
  · have htext : dumpTarget q = q.path ++ [63] ++ (q.query ++ [32]) := by
      unfold dumpTarget
      rw [if_neg hq, if_pos hf]
      simp only [List.append_assoc, List.cons_append, List.nil_append]
    obtain ⟨z₁, h₁, hz₁⟩ := reaches_path hz hpath question_stops
    obtain ⟨z₂, h₂, hz₂⟩ := reaches_query hz₁ hq (hquery.resolve_left hq)
      (b := 32) (t := 4) (by decide)
    rw [htext, hf]
    exact ⟨z₂, h₁.trans h₂, hz₂⟩
  · have htext : dumpTarget q
        = q.path ++ [63] ++ (q.query ++ [35]) ++ (q.fragment ++ [32]) := by
      unfold dumpTarget
      rw [if_neg hq, if_neg hf]
      simp only [List.append_assoc, List.cons_append, List.nil_append]
    obtain ⟨z₁, h₁, hz₁⟩ := reaches_path hz hpath question_stops
    obtain ⟨z₂, h₂, hz₂⟩ := reaches_query hz₁ hq (hquery.resolve_left hq)
      (b := 35) (t := 20) (by decide)
    obtain ⟨z₃, h₃, hz₃⟩ := reaches_fragment hz₂ hf (hfragment.resolve_left hf)
    rw [htext]
    exact ⟨z₃, (h₁.trans h₂).trans h₃, hz₃⟩

/-- The version as `dump` writes it, and the end of the line. -/
theorem reaches_version {v : Nat} (hz : z.data = some q)
    (hv : v = 0x11 ∨ v = 0x10) :
    ∃ z', Reaches relaxed 4 z (ascii "HTTP/" ++ toDecimal (v / 16) ++ ascii "."
        ++ toDecimal (v % 16) ++ crlf) 13 z'
      ∧ z'.data = some { q with version := v } := by
  have hcheck : ∀ relaxed, ∀ v ∈ [0x11, 0x10],
      let w := ascii "HTTP/" ++ toDecimal (v / 16) ++ ascii "."
        ++ toDecimal (v % 16)
      w ≠ [] ∧ follow relaxed .mark 4 w = some 12 ∧ versionOf w = some v := by
    decide +kernel
  have hcr : transition relaxed 12 13 = some ([.httpVersion], 17) :=
    dump_move (by decide)
  have hlf : transition relaxed 17 10 = some ([], 13) := dump_move (by decide)
  obtain ⟨hne, hfollow, hversion⟩ := hcheck relaxed v (by simpa using hv)
  obtain ⟨z', hreach, hz', -, hsince⟩ :=
    Reaches.follow (z := z) (by decide) hne hfollow
  refine ⟨_, hreach.trans ((Reaches.byte hcr rfl).trans (Reaches.byte hlf rfl)),
    ?_⟩
  refine (data_store (hz'.trans hz)).trans ?_
  rw [show z'.mark = _ from hsince, hversion]
  rfl

-- ================================================================== the fields

/-- A line for a field. -/
theorem reaches_field {k v : Bytes} (hz : z.data = some q)
    (hk : IsName relaxed k) (hv : IsValue relaxed v) :
    ∃ z', Reaches relaxed 13 z (k ++ ascii ": " ++ v ++ crlf) 13 z'
      ∧ z'.data = some { q with headers := q.headers.set k v } := by
  have hcolons : ∀ c ∈ [14, 18], (c, 58, [.writeField], 15) ∈ dumpMoves := by
    decide
  have hspace : transition relaxed 15 32 = some ([.mark], 15) :=
    dump_move (by decide)
  have hempty : transition relaxed 15 13 = some ([.mark, .writeValue], 17) :=
    dump_move (by decide)
  have hend : transition relaxed 16 13 = some ([.writeValue], 17) :=
    dump_move (by decide)
  have hlf : transition relaxed 17 10 = some ([], 13) := dump_move (by decide)
  obtain ⟨hne, c, hc, hfollow⟩ := hk
  obtain ⟨z₁, h₁, hz₁, -, hfield⟩ :=
    Reaches.follow (z := z) (by decide) hne hfollow
  -- behind the `: ` the name is written, and the value is still empty
  obtain ⟨z₂, h₂, hz₂, hname⟩ : ∃ z₂, Reaches relaxed 13 z (k ++ [58] ++ [32])
      15 z₂
      ∧ z₂.data = some q ∧ z₂.name = k :=
    ⟨_, (h₁.trans (Reaches.byte (dump_move (hcolons c hc)) rfl)).trans
      (Reaches.byte hspace rfl), hz₁.trans hz, hfield⟩
  have hset : ∀ {z : Reading}, z.data = some q → z.name = k →
      (z.act .writeValue).data
        = some { q with headers := q.headers.set k z.mark } := by
    intro z hz hname
    refine (data_store hz).trans ?_
    rw [hname]
    exact if_neg hne
  have htext : k ++ ascii ": " ++ v ++ crlf
      = k ++ [58] ++ [32] ++ v ++ [13] ++ [10] := by
    have hsep : ascii ": " = [58] ++ [32] := by decide
    have hcrlf : crlf = [13] ++ [10] := rfl
    rw [hsep, hcrlf]
    simp only [List.append_assoc]
  rw [htext]
  rcases hv with rfl | hv
  · rw [List.append_nil]
    exact ⟨_, (h₂.trans (Reaches.byte hempty rfl)).trans (Reaches.byte hlf rfl),
      hset (z := z₂.act .mark) hz₂ hname⟩
  · by_cases hnil : v = []
    · subst hnil
      nomatch hv
    · obtain ⟨z₃, h₃, hz₃, hname₃, hmark⟩ :=
        Reaches.follow (z := z₂) (by decide) hnil hv
      refine ⟨_, ((h₂.trans h₃).trans (Reaches.byte hend rfl)).trans
        (Reaches.byte hlf rfl), ?_⟩
      refine (hset (hz₃.trans hz₂) (hname₃.trans hname)).trans ?_
      rw [show z₃.mark = v from hmark]

/-- The lines of the headers. -/
theorem reaches_headers {h : Headers} (hz : z.data = some q)
    (hh : ∀ kv ∈ h, IsName relaxed kv.1 ∧ IsValue relaxed kv.2) :
    ∃ z', Reaches relaxed 13 z h.dump 13 z'
      ∧ z'.data = some { q with headers := h.addTo q.headers } := by
  induction h generalizing z q with
  | nil => exact ⟨z, fun _ => rfl, hz⟩
  | cons kv h ih =>
      obtain ⟨⟨hk, hv⟩, hh⟩ := List.forall_mem_cons.mp hh
      unfold Headers.dump Headers.addTo
      rw [List.flatMap_cons]
      by_cases hkey : strcasecmp kv.1 (ascii "connection") = .eq
      · rw [if_pos hkey, Assoc.without_of_eq hkey, List.nil_append]
        exact ih hz hh
      · rw [if_neg hkey, Assoc.without_of_ne hkey]
        obtain ⟨z₁, h₁, hz₁⟩ := reaches_field hz hk hv
        obtain ⟨z₂, h₂, hz₂⟩ := ih hz₁ hh
        refine ⟨z₂, h₁.trans h₂, ?_⟩
        rw [hz₂, List.foldl_cons, ← Headers.set_eq_put]
        rfl

/-- The empty line: the header is done. -/
theorem read_end (hz : z.data = some q) (relaxed : Bool) (rest : Bytes) :
    ∃ z', read relaxed 13 z (crlf ++ rest) = some (z', rest)
      ∧ z'.data = some q := by
  have hcr : transition relaxed 13 13 = some ([.startField], 18) :=
    dump_move (by decide)
  have hlf : transition relaxed 18 10 = some ([.done], 348) :=
    dump_move (by decide)
  have hdone : ∀ z : Reading, read relaxed 18 z (10 :: rest)
      = some (z.act .done, rest) := by
    intro z
    unfold read
    rw [hlf]
    rfl
  exact ⟨_, (Reaches.byte hcr rfl (10 :: rest)).trans (hdone _), hz⟩

/-- A number is a value. -/
theorem isValue_toDecimal (n : Nat) : IsValue relaxed (toDecimal n) := by
  have hmoves : ∀ relaxed, ∀ n < 58, 48 ≤ n →
      transition relaxed 15 (UInt8.ofNat n) = some ([.mark], 16)
        ∧ transition relaxed 16 (UInt8.ofNat n) = some ([], 16) := by
    decide +kernel
  have hdigit : ∀ b : UInt8, 48 ≤ b ∧ b ≤ 57 →
      transition relaxed 15 b = some ([.mark], 16)
        ∧ transition relaxed 16 b = some ([], 16) := by
    intro b hb
    have hmove := hmoves relaxed b.toNat (Nat.lt_succ_of_le hb.2) hb.1
    rwa [UInt8.ofNat_toNat] at hmove
  have hwalk : ∀ w : Bytes, (∀ b ∈ w, 48 ≤ b ∧ b ≤ 57) →
      walk relaxed 16 w = some 16 := by
    intro w hw
    induction w with
    | nil => rfl
    | cons b w ih =>
        obtain ⟨hb, hw⟩ := List.forall_mem_cons.mp hw
        exact walk_cons.mpr ⟨16, (hdigit b hb).2, ih hw⟩
  obtain ⟨b, w, heq⟩ := List.exists_cons_of_ne_nil (toDecimal_ne_nil n)
  have hall := toDecimal_digit n
  rw [heq] at hall ⊢
  obtain ⟨hb, hw⟩ := List.forall_mem_cons.mp hall
  exact .inr (follow_cons.mpr ⟨16, (hdigit b hb).1, hwalk w hw⟩)

/-- The names and values that `dump` writes of its own. -/
theorem own_fields (relaxed : Bool) : IsName relaxed (ascii "connection")
    ∧ IsName relaxed (ascii "content-length") ∧ IsValue relaxed (ascii "close")
    ∧ IsValue relaxed (ascii "keep-alive") := by
  have hcheck : ∀ relaxed,
      follow relaxed .startField 13 (ascii "connection") = some 14
      ∧ follow relaxed .startField 13 (ascii "content-length") = some 14
      ∧ follow relaxed .mark 15 (ascii "close") = some 16
      ∧ follow relaxed .mark 15 (ascii "keep-alive") = some 16 := by
    decide +kernel
  obtain ⟨h₁, h₂, h₃, h₄⟩ := hcheck relaxed
  exact ⟨⟨by decide, 14, by decide, h₁⟩, ⟨by decide, 14, by decide, h₂⟩,
    .inr h₃,
    .inr h₄⟩

-- ============================================================== the whole text

/-- The value of the connection line. -/
def connectionOf (q : HttpRequest) : Bytes :=
  if q.close then ascii "close" else ascii "keep-alive"

/-- The headers of the text that `dump` writes. -/
def dumpedHeaders (q : HttpRequest) : Headers :=
  if q.body = [] then q.headers.relist (connectionOf q)
  else (q.headers.relist (connectionOf q)).set (ascii "content-length")
    (toDecimal q.body.length)

/-- The request that is read from the text. -/
def dumped (q : HttpRequest) : HttpRequest :=
  { q with close := true, body := [], headers := dumpedHeaders q }

theorem dump_eq (q : HttpRequest) : q.dump
    = httpMethodToString q.method ++ [32] ++ dumpTarget q
      ++ (ascii "HTTP/" ++ toDecimal (q.version / 16) ++ ascii "."
        ++ toDecimal (q.version % 16) ++ crlf)
      ++ (ascii "connection" ++ ascii ": " ++ connectionOf q ++ crlf)
      ++ q.headers.dump
      ++ ((if q.body = [] then [] else ascii "content-length" ++ ascii ": "
        ++ toDecimal q.body.length ++ crlf) ++ (crlf ++ q.body)) := by
  have hspace : ascii " " = [32] := by decide
  have hversion : ascii " HTTP/" = [32] ++ ascii "HTTP/" := by decide
  have hconn : ascii "connection: " = ascii "connection" ++ ascii ": " := by
    decide
  have hlen : ascii "content-length: " = ascii "content-length"
      ++ ascii ": " := by
    decide
  have hquery : (if q.query = [] then [] else 63 :: q.query)
      = (if q.query = [] then [] else ascii "?") ++ q.query := by
    split
    next h => rw [h]; rfl
    next => rfl
  have hfragment : (if q.fragment = [] then [] else 35 :: q.fragment)
      = (if q.fragment = [] then [] else ascii "#") ++ q.fragment := by
    split
    next h => rw [h]; rfl
    next => rfl
  have hbody : (if q.body = [] then crlf else ascii "content-length: "
        ++ toDecimal q.body.length ++ crlf ++ crlf ++ q.body)
      = (if q.body = [] then [] else ascii "content-length" ++ ascii ": "
        ++ toDecimal q.body.length ++ crlf) ++ (crlf ++ q.body) := by
    split
    next h => rw [h]; rfl
    next =>
      rw [hlen]
      simp only [List.append_assoc]
  unfold HttpRequest.dump dumpTarget connectionOf
  rw [hbody, hquery, hfragment, hspace, hversion, hconn]
  simp only [List.append_assoc]

theorem read_dump (h : WellFormed relaxed q) (hp : PlainPath q.path) :
    ∃ z', read relaxed RequestTable.start .init q.dump = some (z', q.body)
      ∧ z'.data = some (dumped q) := by
  obtain ⟨hconn, hlen, hclose, hkeep⟩ := own_fields relaxed
  have hvalue : IsValue relaxed (connectionOf q) := by
    unfold connectionOf
    split
    next => exact hclose
    next => exact hkeep
  obtain ⟨z₁, h₁, hz₁⟩ := reaches_method h.method
  obtain ⟨z₂, h₂, hz₂⟩ :=
    reaches_target hz₁ ⟨rfl, rfl⟩ (h.path hp) h.query h.fragment
  obtain ⟨z₃, h₃, hz₃⟩ := reaches_version hz₂ h.version
  obtain ⟨z₄, h₄, hz₄⟩ := reaches_field hz₃ hconn hvalue
  obtain ⟨z₅, h₅, hz₅⟩ := reaches_headers hz₄ h.fields
  have hlines := (((h₁.trans h₂).trans h₃).trans h₄).trans h₅
  rw [dump_eq, hlines]
  by_cases hbody : q.body = []
  · obtain ⟨z₆, hread, hz₆⟩ := read_end hz₅ relaxed q.body
    rw [if_pos hbody, List.nil_append]
    refine ⟨z₆, hread, hz₆.trans ?_⟩
    unfold dumped dumpedHeaders
    rw [if_pos hbody]
    rfl
  · obtain ⟨z₆, h₆, hz₆⟩ :=
      reaches_field hz₅ hlen (isValue_toDecimal q.body.length)
    obtain ⟨z₇, hread, hz₇⟩ := read_end hz₆ relaxed q.body
    rw [if_neg hbody, h₆]
    refine ⟨z₇, hread, hz₇.trans ?_⟩
    unfold dumped dumpedHeaders
    rw [if_neg hbody]
    rfl

-- ================================================================= the session

/-- The same requests, apart from the headers that `dump` makes anew. -/
structure Reread (q q' : HttpRequest) : Prop where
  method : q'.method = q.method
  path : q'.path = q.path
  query : q'.query = q.query
  fragment : q'.fragment = q.fragment
  version : q'.version = q.version
  body : q'.body = q.body
  close : q'.close = q.close
  headers : q'.headers.strip = q.headers.strip

theorem WellFormed.of_parts {d : HttpRequest} (h : WellFormed relaxed d)
    (hq : SameRequest q { d with body := q.body }) : WellFormed relaxed q where
  method := hq.method ▸ h.method
  version := hq.version ▸ h.version
  path := hq.path ▸ h.path
  query := hq.query ▸ h.query
  fragment := hq.fragment ▸ h.fragment
  fields := hq.headers ▸ h.fields
  sorted := hq.headers ▸ h.sorted

/-- What `recvRequest` returns is well formed, and has the body that its
header announces. -/
theorem recvRequest_wellFormed {env : SessionEnv} {waits : Bool} {r : Bytes}
    {c : Conn} (hfit : r.length ≤ env.bufferSize)
    (h : HttpSession.recvRequest env ⟨[r], waits⟩ = .ok (some q, c)) :
    WellFormed env.uninit.uriRelaxed q
      ∧ q.body.length = (HttpSession.contentLength env q).toNat := by
  obtain ⟨z, rest, d, hread, hd, hle, hq⟩ := (recvRequest_read hfit).mp ⟨c, h⟩
  have hparts := setClose_parts { d with
    body := rest.take (HttpSession.contentLength env d).toNat }
  have hq' : SameRequest q { d with
      body := rest.take (HttpSession.contentLength env d).toNat } := hq ▸ hparts
  refine ⟨(read_wellFormed hread hd).of_parts ?_, ?_⟩
  · exact ⟨hq'.method, hq'.path, hq'.query, hq'.fragment, hq'.version,
      hq'.headers, rfl⟩
  · have hlen : HttpSession.contentLength env q
        = HttpSession.contentLength env d := by
      unfold HttpSession.contentLength HttpRequestParser.getContentLength
      rw [hq'.headers]
    rw [hlen, hq'.body, List.length_take_of_le hle]

/-- How the names and values that `dump` writes compare. -/
theorem own_keys :
    strcasecmp (ascii "content-length") (ascii "connection") ≠ .eq
      ∧ strcasecmp (ascii "content-length") (ascii "Connection") ≠ .eq
      ∧ strcasecmp (ascii "keep-alive") (ascii "close") ≠ .eq
      ∧ strcasecmp (ascii "keep-alive") (ascii "keep-alive") = .eq := by
  decide +kernel

/-- The length of the body is found in the headers that are read. -/
theorem contentLength_dumped {env : SessionEnv}
    (hsorted : Assoc.Sorted strcasecmp q.headers)
    (hlen : q.body.length = (HttpSession.contentLength env q).toNat)
    (hcast : env.lexicalCast (toDecimal q.body.length) = some q.body.length) :
    (HttpSession.contentLength env (dumped q)).toNat = q.body.length := by
  obtain ⟨hkey, -⟩ := own_keys
  by_cases hbody : q.body = []
  · rw [hlen]
    unfold HttpSession.contentLength HttpRequestParser.getContentLength
      Headers.getHeaderAs dumped dumpedHeaders
    rw [if_pos hbody, Headers.find_relist hsorted hkey]
  · have hlt : q.body.length < 2 ^ 31 := by
      rw [hlen]
      unfold HttpSession.contentLength toInt
      omega
    have hfind : (dumped q).headers.find (ascii "content-length")
        = some (toDecimal q.body.length) := by
      unfold dumped dumpedHeaders
      rw [if_neg hbody, Headers.set_eq_put, Headers.find_eq_get, Assoc.get_put,
        if_pos Std.ReflCmp.compare_self]
    unfold HttpSession.contentLength HttpRequestParser.getContentLength
      Headers.getHeaderAs
    rw [hfind, Option.bind_some, hcast, Option.getD_some, toInt_of_lt hlt]
    exact Int.toNat_natCast _

/-- The connection line says whether the request closes. -/
theorem close_dumped (body : Bytes) :
    (HttpSession.setClose { dumped q with body := body }).close = q.close := by
  obtain ⟨-, hkey, hkeep⟩ := own_keys
  have hfind : (dumped q).headers.find (ascii "Connection")
      = some (connectionOf q) := by
    unfold dumped dumpedHeaders
    split
    next => exact Headers.find_relist_connection
    next =>
      rw [Headers.set_eq_put, Headers.find_eq_get, Assoc.get_put, if_neg hkey]
      exact Headers.find_relist_connection
  have hget : (dumped q).headers.getHeader (ascii "Connection")
      = connectionOf q := by
    unfold Headers.getHeader
    rw [hfind]
    rfl
  unfold HttpSession.setClose
  dsimp only
  rw [hget]
  unfold connectionOf
  cases hclose : q.close with
  | true =>
      rw [if_pos rfl, if_neg hkeep.1]
      rfl
  | false => rw [if_neg Bool.false_ne_true, if_pos hkeep.2]

theorem strip_dumped (hsorted : Assoc.Sorted strcasecmp q.headers) :
    (dumped q).headers.strip = q.headers.strip := by
  unfold dumped dumpedHeaders
  dsimp only
  split
  next => exact Headers.strip_relist hsorted
  next =>
    rw [Headers.set_eq_put, Headers.strip_put Headers.sorted_relist,
      Headers.strip_relist hsorted]

open HttpSession in
/-- A request with a plain path that came in one read is written as a text
that is read, in one read, as the same request. The second parser may be
relaxed where the first was not. -/
theorem dump_round_trip {env env' : SessionEnv} {waits waits' : Bool}
    {r : Bytes} {c : Conn} (hfit : r.length ≤ env.bufferSize)
    (h : recvRequest env ⟨[r], waits⟩ = .ok (some q, c))
    (hplain : PlainPath q.path)
    (hrel : env.uninit.uriRelaxed = true → env'.uninit.uriRelaxed = true)
    (hsame : env'.lexicalCast = env.lexicalCast)
    (hcast : env.lexicalCast (toDecimal q.body.length) = some q.body.length)
    (hfit' : q.dump.length ≤ env'.bufferSize) :
    ∃ q' c', recvRequest env' ⟨[q.dump], waits'⟩ = .ok (some q', c')
      ∧ Reread q q' := by
  obtain ⟨hwell, hlen⟩ := recvRequest_wellFormed hfit h
  obtain ⟨z', hread, hdata⟩ := read_dump (hwell.mono hrel) hplain
  have hlen' : (contentLength env' (dumped q)).toNat = q.body.length := by
    refine contentLength_dumped hwell.sorted ?_ (hsame ▸ hcast)
    rw [hlen]
    unfold contentLength
    rw [hsame]
  obtain ⟨q', hq'⟩ : ∃ q', q' = withBody env' (dumped q) q.body := ⟨_, rfl⟩
  obtain ⟨c', hrecv⟩ : ∃ c', recvRequest env' ⟨[q.dump], waits'⟩
      = .ok (some q', c') :=
    (recvRequest_read hfit').mpr ⟨z', q.body, dumped q, hread, hdata,
      Nat.le_of_eq hlen', hq'⟩
  unfold withBody at hq'
  rw [hlen', List.take_length] at hq'
  have hparts : SameRequest q' { dumped q with body := q.body } :=
    hq' ▸ setClose_parts _
  exact ⟨q', c', hrecv, hparts.method, hparts.path, hparts.query,
    hparts.fragment, hparts.version, hparts.body, hq' ▸ close_dumped q.body,
    (congrArg Headers.strip hparts.headers).trans (strip_dumped hwell.sorted)⟩

/-- `POST /a?b#c HTTP/1.0` with a body of two bytes. -/
def postA : HttpRequest :=
  ⟨.post, 0x10, false, ascii "/a", ascii "b", ascii "c", ascii "hi",
    [(ascii "Connection", ascii "keep-alive"),
      (ascii "Content-Length", ascii "2"), (ascii "Host", [])]⟩

open HttpSession in
theorem dump_round_trip_post :
    ∃ q' c', recvRequest defaultEnv ⟨[postA.dump], true⟩ = .ok (some q', c')
      ∧ Reread postA q' := by
  have hrecv : recvRequest defaultEnv
      ⟨[ascii "POST /a?b#c HTTP/1.0\r\nHost:\r\nConnection: keep-alive\r\n"
        ++ ascii "Content-Length: 2\r\n\r\nhi"], true⟩
        = .ok (some postA, ⟨[], true⟩) := by
    decide +kernel
  have hplain : PlainPath postA.path := by
    refine ⟨by decide, fun c e h => ?_, fun h => ?_⟩
    · have hmem : 58 ∈ postA.path :=
        h ▸ List.mem_append_right c List.mem_cons_self
      exact absurd hmem (by decide)
    · exact absurd h (by decide)
  exact dump_round_trip (by decide +kernel) hrecv hplain id rfl
    (by decide +kernel)
    (by decide +kernel)

open HttpSession in
/-- The scheme of a request is not kept, and a second one is found in what
is left; and an XML message is not written as one. -/
theorem dump_not_reread :
    (∃ q c q' c', recvRequest defaultEnv ⟨[ascii "GET a:b:c HTTP/1.1\r\n\r\n"],
      true⟩
        = .ok (some q, c)
      ∧ recvRequest defaultEnv ⟨[q.dump], true⟩ = .ok (some q', c')
      ∧ q.path = ascii "b:c" ∧ q'.path = ascii "c")
    ∧ ∃ q c c', recvRequest defaultEnv ⟨[ascii "<a >" ++ [0]], true⟩
        = .ok (some q, c)
      ∧ recvRequest defaultEnv ⟨[q.dump], true⟩ = .ok (none, c') := by
  refine ⟨⟨⟨.get, 0x11, true, ascii "b:c", [], [], [], []⟩, ⟨[], true⟩,
    ⟨.get, 0x11, true, ascii "c", [], [], [],
      [(ascii "connection", ascii "close")]⟩, ⟨[], true⟩, ?_⟩,
    ⟨.get, 0x11, true, ascii "<a", [], [], [], []⟩, ⟨[], true⟩, ⟨[], true⟩,
      ?_⟩ <;>
    decide +kernel

end TinyServer.Http
