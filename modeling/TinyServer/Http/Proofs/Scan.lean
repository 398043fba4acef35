/-
The machine of `http_parser_execute` in one pass over its table, and the
parser of one buffer against the scan of the whole text.

# The sketch

What the rest of the development needs of the machine is a claim about
each of its states (`sketchOf`): how far the request has come (`rank`,
in the order method, path, query, fragment, version), whether the name of
a field has been written and no other one started, and whether a query
has started. `entryOk` follows the actions of a jump over the claim of
the state it leaves and compares with that of the state it enters. The
check of the table is one evaluation (`rows_ok`).

# One buffer

`Rel` relates the registers of the parser in a buffer that starts at
position `o` with those of the scan. A position before `o` has become
offset zero: natural subtraction. An error or an exception shows in the
scan as a token that cannot be written.
-/
import Mathlib.Data.List.Find
import TinyServer.Http.Tokens
import TinyServer.Lib.Run

namespace TinyServer.Http

open Lib

-- =============================================================== the sketch

/-- A claim about a state of the machine. -/
structure Sketch where
  rank : Nat
  field : Bool
  query : Bool
  deriving DecidableEq, Repr

namespace Sketch

/-- The claim after an action; `none` when the action must not happen. -/
def act (space : Bool) (k : Sketch) (a : HttpAction) : Option Sketch :=
  match a with
  | .startField => some { k with field := false }
  | .writeField => some { k with field := true }
  | .writeValue => if k.field then some k else none
  | .startQuery => some { k with query := true }
  | .requestMethod =>
      if space && decide (k.rank < 1) then some { k with rank := 1 } else none
  | .requestPath => if k.rank < 2 then some { k with rank := 2 } else none
  | .queryString =>
      if k.query && decide (k.rank < 3) then some { k with rank := 3 }
      else none
  | .fragment => if k.rank < 4 then some { k with rank := 4 } else none
  | .httpVersion => if k.rank < 5 then some { k with rank := 5 } else none
  | .mark | .requestUri | .done | .xml | .json => some k

/-- What holds under `k` holds under `k'`. -/
def covers (k k' : Sketch) : Bool :=
  decide (k.rank ≤ k'.rank) && (!k'.field || k.field)
    && (!k'.query || k.query)

end Sketch

def rankOf (cs : Nat) : Nat :=
  if cs ≤ 2 ∨ 175 ≤ cs ∧ cs ≤ 193 then 0
  else if 29 ≤ cs ∧ cs ≤ 32 then 2
  else if 20 ≤ cs ∧ cs ≤ 23 then 3
  else if 4 ≤ cs ∧ cs ≤ 12 then 4
  else if 13 ≤ cs ∧ cs ≤ 18 ∨ 348 ≤ cs ∨ cs ∈ [196, 197, 199, 200, 201]
    then 5
  else 1

def sketchOf (cs : Nat) : Sketch :=
  ⟨rankOf cs, cs = 15 || cs = 16, 30 ≤ cs && cs ≤ 32⟩

/-- The actions of a jump respect the claims of the states at its ends,
and it leaves the loop exactly when it enters a final state. -/
def entryOk (cs : Nat) (r : Range Label) : Bool :=
  match RequestTable.resolve r.label with
  | none => false
  | some (acts, t) =>
      match acts.foldlM (Sketch.act (r.lo = 32 && r.hi = 32))
        (sketchOf cs) with
      | none => false
      | some k =>
          k.covers (sketchOf t) && t ≠ 0
            && acts.any HttpAction.isDone == decide (RequestTable.firstFinal
              ≤ t)

theorem rows_ok : tableAll entryOk 0 RequestTable.rows = true := by
  decide +kernel

/-- What the check of the table says of a jump. -/
theorem transition_ok {relaxed : Bool} {cs t : Nat} {b : UInt8}
    {acts : List HttpAction}
    (h : RequestTable.transition relaxed cs b = some (acts, t)) :
    ∃ space k, (space = true → b = 32)
      ∧ acts.foldlM (Sketch.act space) (sketchOf cs) = some k
      ∧ k.covers (sketchOf t) = true ∧ t ≠ 0
      ∧ (acts.any HttpAction.isDone = true ↔ RequestTable.firstFinal ≤ t) := by
  rw [RequestTable.transition] at h
  split at h
  next => cases h
  next =>
      obtain ⟨l, hl, hres⟩ := Option.bind_eq_some_iff.mp h
      obtain ⟨r, hr, rfl, hlo, hhi⟩ := tableAll_lookup rows_ok hl
      rw [entryOk, hres] at hr
      dsimp only at hr
      split at hr
      next => cases hr
      next k hk =>
          simp only [Bool.and_eq_true, decide_eq_true_eq, beq_iff_eq] at hr
          refine ⟨_, k, fun hs => ?_, hk, hr.1.1, hr.1.2, ?_⟩
          · rw [Bool.and_eq_true, decide_eq_true_eq, decide_eq_true_eq] at hs
            refine UInt8.toNat_inj.mp ?_
            show b.toNat = 32
            omega
          · rw [hr.2, decide_eq_true_eq]

/-- No jump enters the error state. -/
theorem transition_pos {relaxed : Bool} {cs t : Nat} {b : UInt8}
    {acts : List HttpAction}
    (h : RequestTable.transition relaxed cs b = some (acts, t)) : t ≠ 0 := by
  obtain ⟨_, _, -, -, -, ht, -⟩ := transition_ok h
  exact ht

/-- `done` leads to the final states, and nothing else does. -/
theorem transition_last {relaxed : Bool} {cs t : Nat} {b : UInt8}
    {acts : List HttpAction}
    (h : RequestTable.transition relaxed cs b = some (acts, t)) :
    acts.any HttpAction.isDone = true ↔ RequestTable.firstFinal ≤ t := by
  obtain ⟨_, _, -, -, -, -, hlast⟩ := transition_ok h
  exact hlast

-- ============================================================ callbacks' text

/-- No method has a space in its name: what follows a space makes no
difference to `CharsToHttpMethod`. -/
theorem charsToHttpMethod_space (xs ys : Bytes) :
    charsToHttpMethod (xs ++ 32 :: ys) = charsToHttpMethod xs := by
  have hname : ∀ m ∈ httpMethodMap, (32 : UInt8) ∉ m.2 := by decide +kernel
  have hsame : ∀ m ∈ httpMethodMap,
      m.2.isPrefixOf (xs ++ 32 :: ys) = m.2.isPrefixOf xs := by
    intro m hm
    rw [Bool.eq_iff_iff, List.isPrefixOf_iff_prefix,
      List.isPrefixOf_iff_prefix]
    refine ⟨fun h => ?_, fun h => h.trans (List.prefix_append xs _)⟩
    have hspace : xs ++ [32] <+: xs ++ 32 :: ys := ⟨ys, by simp⟩
    rcases List.prefix_or_prefix_of_prefix h hspace with h | h
    · rcases List.prefix_concat_iff.mp h with h | h
      · exact absurd (h ▸ by simp) (hname m hm)
      · exact h
    · exact absurd (h.mem (by simp)) (hname m hm)
  rw [charsToHttpMethod, charsToHttpMethod, List.find?_congr hsame]

/-- `strncmp` with the length of the first text does not look behind
it. -/
theorem strncmpEq_append (xs ys b : Bytes) :
    strncmpEq (xs ++ ys) b xs.length = strncmpEq xs b xs.length := by
  have htake : ∀ xs : Bytes, (cStr (xs ++ ys)).take xs.length
      = (cStr xs).take xs.length := by
    intro xs
    induction xs with
    | nil => rfl
    | cons x xs ih =>
        simp only [cStr, List.cons_append, List.takeWhile_cons] at ih ⊢
        split
        · rw [List.length_cons, List.take_succ_cons, ih,
            List.take_succ_cons]
        · rfl
  rw [strncmpEq, strncmpEq, Int.toNat_natCast, htake]

-- ================================================================ one buffer

variable {r seg : Bytes} {B : Nat → Nat} {o p : Nat}

/-- The piece `seg` of the text stands at position `o`. -/
structure Piece (r : Bytes) (B : Nat → Nat) (o : Nat) (seg : Bytes) :
    Prop where
  text : slice r o seg.length = seg
  le : o + seg.length ≤ r.length
  base : ∀ {q : Nat}, o ≤ q → q < o + seg.length → B q = o

/-- The pieces `segs` of the text from position `o` on. -/
def Pieces (r : Bytes) (B : Nat → Nat) : Nat → List Bytes → Prop
  | _, [] => True
  | o, seg :: rest => Piece r B o seg ∧ Pieces r B (o + seg.length) rest

namespace Piece

theorem slice_eq (h : Piece r B o seg) {k n : Nat}
    (hk : k + n ≤ seg.length) : slice seg k n = slice r (o + k) n := by
  have hslice : slice (slice r o seg.length) k n = slice r (o + k) n := by
    rw [show slice r o seg.length = (r.drop o).take seg.length from rfl,
      slice_take hk, slice, slice, List.drop_drop]
  rwa [h.text] at hslice

/-- A token's bytes in the buffer are what is seen of it. -/
theorem stdString_eq (h : Piece r B o seg) {s e : Nat} (hse : s ≤ e)
    (he : e ≤ o + seg.length) :
    stdString seg (s - o) (((e - o : Nat) : Int) - (s - o : Nat))
      = .ok (seen r o s e) := by
  have hn : (((e - o : Nat) : Int) - (s - o : Nat)).toNat = e - max s o := by
    omega
  rw [stdString, if_neg (by omega), hn, ← slice, h.slice_eq (by omega), seen,
    show o + (s - o) = max s o by omega]

theorem length_seen (h : Piece r B o seg) {s e : Nat}
    (he : e ≤ o + seg.length) : (seen r o s e).length = e - max s o := by
  rw [seen, slice, List.length_take, List.length_drop]
  have := h.le
  omega

/-- The rest of the buffer from a token that ends at `p` on. -/
theorem drop_eq (h : Piece r B o seg) {s : Nat} (hs : s ≤ o + p)
    (hp : p ≤ seg.length) :
    seg.drop (s - o) = seen r o s (o + p) ++ seg.drop p := by
  have hsplit : seg.drop (s - o)
      = slice seg (s - o) (p - (s - o)) ++ seg.drop p := by
    have hdrop : (seg.drop (s - o)).drop (p - (s - o)) = seg.drop p := by
      rw [List.drop_drop, show s - o + (p - (s - o)) = p by omega]
    rw [slice, ← hdrop, List.take_append_drop]
  rw [hsplit, h.slice_eq (by omega), seen,
    show o + (s - o) = max s o by omega,
    show o + p - max s o = p - (s - o) by omega]

end Piece

/-- The request under construction is what the tokens so far give. -/
def Holds (r : Bytes) (B : Nat → Nat) (ts : List Token) (x : RequestRegs) :
    Prop :=
  (x.error = 0 → replay r B ts = some x.data)
    ∧ (x.error ≠ 0 → replay r B ts = none)

theorem replay_snoc (ts : List Token) (t : Token) :
    replay r B (ts ++ [t]) = (replay r B ts).bind fun q => t.write r B q := by
  rw [replay, List.foldlM_append, ← replay]
  cases replay r B ts with
  | none => rfl
  | some q =>
      show (t.write r B q).bind some = t.write r B q
      exact Option.bind_fun_some _

namespace Holds

variable {ts : List Token} {t : Token} {x x' : RequestRegs}

/-- A callback that stores what the token writes. -/
theorem snoc (h : Holds r B ts x) (herr : x'.error = x.error)
    (hw : t.write r B x.data = some x'.data) :
    Holds r B (ts ++ [t]) x' := by
  rw [Holds, herr, replay_snoc]
  refine ⟨fun h0 => ?_, fun h0 => ?_⟩
  · rw [h.1 h0]
    exact hw
  · rw [h.2 h0]
    rfl

/-- A callback that reports an error or throws. -/
theorem snoc_none (h : Holds r B ts x) (hw : t.write r B x.data = none) :
    replay r B (ts ++ [t]) = none := by
  rw [replay_snoc]
  by_cases h0 : x.error = 0
  · rw [h.1 h0]
    exact hw
  · rw [h.2 h0]
    rfl

end Holds

/-- A token that cannot be written spoils the request for good. -/
theorem act_none {q : Nat} {a : HttpAction} {y : Scan}
    (h : replay r B y.tokens = none) :
    replay r B (y.act q a).tokens = none := by
  have hsnoc : ∀ t, replay r B (y.tokens ++ [t]) = none := by
    intro t
    rw [replay_snoc, h]
    rfl
  cases a
  case mark | startField | writeField | requestUri | startQuery | done | xml
      | json => exact h
  all_goals exact hsnoc _

theorem foldl_act_none {q : Nat} (acts : List HttpAction) {y : Scan}
    (h : replay r B y.tokens = none) :
    replay r B (acts.foldl (fun y a => y.act q a) y).tokens = none := by
  induction acts generalizing y with
  | nil => exact h
  | cons a acts ih => exact ih (act_none h)

/-- The registers of the parser at offset `p` of the buffer at `o`, those
of the scan, and the claim `k` about the state. -/
structure Rel (r : Bytes) (B : Nat → Nat) (o : Nat) (k : Sketch) (p : Nat)
    (x : RequestRegs) (y : Scan) : Prop where
  mark_le : y.mark ≤ o + p
  mark : x.mark = y.mark - o
  fieldStart_le : y.fieldStart ≤ o + p
  fieldStart : x.fieldStart = y.fieldStart - o
  fieldLen : k.field = true → y.fieldStart ≤ y.fieldEnd
    ∧ y.fieldEnd ≤ o + p
    ∧ x.fieldLen = ((y.fieldEnd - o : Nat) : Int) - (y.fieldStart - o : Nat)
  queryStart : k.query = true → y.queryStart ≤ o + p
    ∧ x.queryStart = y.queryStart - B y.queryStart
  holds : Holds r B y.tokens x

namespace Rel

variable {k k' : Sketch} {x x' : RequestRegs} {y : Scan} {b : UInt8}
  {space : Bool} {a : HttpAction}

theorem weaken (h : Rel r B o k p x y) (hk : k.covers k' = true) :
    Rel r B o k' (p + 1) x y := by
  simp only [Sketch.covers, Bool.and_eq_true, Bool.or_eq_true,
    Bool.not_eq_true'] at hk
  have := h.mark_le
  have := h.fieldStart_le
  refine ⟨by omega, h.mark, by omega, h.fieldStart, fun hf => ?_,
    fun hq => ?_, h.holds⟩
  · rcases hk.1.2 with hk | hk
    · exact absurd (hk.symm.trans hf) Bool.false_ne_true
    · obtain ⟨h1, h2, h3⟩ := h.fieldLen hk
      exact ⟨h1, by omega, h3⟩
  · rcases hk.2 with hk | hk
    · exact absurd (hk.symm.trans hq) Bool.false_ne_true
    · obtain ⟨h1, h2⟩ := h.queryStart hk
      exact ⟨by omega, h2⟩

/-- The text of a callback whose token starts at `mark`. -/
theorem stdString_mark (h : Rel r B o k p x y) (hseg : Piece r B o seg)
    (hp : p ≤ seg.length) :
    stdString seg x.mark (RequestRegs.len x.mark p)
      = .ok (seen r o y.mark (o + p)) := by
  have hlen : RequestRegs.len x.mark p
      = ((o + p - o : Nat) : Int) - (y.mark - o : Nat) := by
    rw [RequestRegs.len, h.mark, Nat.add_sub_cancel_left]
  rw [hlen, h.mark]
  exact hseg.stdString_eq h.mark_le (by omega)

/-- A callback that changes the request under construction only. -/
theorem snoc (h : Rel r B o k p x y) {t : Token} {d : HttpRequest} {e : Nat}
    (hk : k'.field = k.field ∧ k'.query = k.query)
    (hd : Holds r B (y.tokens ++ [t]) { x with data := d, error := e }) :
    Rel r B o k' p { x with data := d, error := e }
      { y with tokens := y.tokens ++ [t] } :=
  ⟨h.mark_le, h.mark, h.fieldStart_le, h.fieldStart,
    fun hf => h.fieldLen (hk.1 ▸ hf), fun hq => h.queryStart (hk.2 ▸ hq), hd⟩

/-- `on_request_method`. -/
theorem requestMethod (h : Rel r B o k p x y) (hseg : Piece r B o seg)
    (hb : seg[p]? = some 32)
    (hk : k'.field = k.field ∧ k'.query = k.query) :
    Rel r B o k' p (x.onRequestMethod (seg.drop x.mark))
      (y.act (o + p) .requestMethod) := by
  obtain ⟨hp, hget⟩ := List.getElem?_eq_some_iff.mp hb
  have hrest : seg.drop p = 32 :: seg.drop (p + 1) := by
    rw [List.drop_eq_getElem_cons hp, hget]
  have hbase : B (o + p) = o := hseg.base (by omega) (by omega)
  have htext : charsToHttpMethod (seg.drop x.mark)
      = charsToHttpMethod (seen r (B (o + p)) y.mark (o + p)) := by
    rw [h.mark, hseg.drop_eq h.mark_le hp.le, hrest,
      charsToHttpMethod_space, hbase]
  rw [RequestRegs.onRequestMethod]
  dsimp only
  split
  next hbad =>
      refine h.snoc hk ⟨fun h0 => ?_, fun _ => h.holds.snoc_none ?_⟩
      · exact absurd h0 (show ¬ 1000 = 0 by decide)
      · rw [Token.write, ← htext, if_pos hbad]
  next hok =>
      refine h.snoc hk (h.holds.snoc rfl ?_)
      rw [Token.write, ← htext, if_neg hok]

/-- `on_request_version`. -/
theorem httpVersion (h : Rel r B o k p x y) (hseg : Piece r B o seg)
    (hp : p < seg.length) (hk : k'.field = k.field ∧ k'.query = k.query) :
    Rel r B o k' p
      (x.onRequestVersion (seg.drop x.mark) (RequestRegs.len x.mark p))
      (y.act (o + p) .httpVersion) := by
  have hbase : B (o + p) = o := hseg.base (by omega) (by omega)
  have hlen : RequestRegs.len x.mark p
      = ((seen r o y.mark (o + p)).length : Int) := by
    have := h.mark_le
    rw [RequestRegs.len, hseg.length_seen (by omega), h.mark]
    omega
  have htext : ∀ v, strncmpEq (seg.drop x.mark) v (RequestRegs.len x.mark p)
      = strncmpEq (seen r o y.mark (o + p)) v
          (seen r o y.mark (o + p)).length := by
    intro v
    rw [hlen, h.mark, hseg.drop_eq h.mark_le hp.le, strncmpEq_append]
  have hwrite : ∀ q : HttpRequest,
      Token.write r B q (.version y.mark (o + p))
        = (versionOf (seen r o y.mark (o + p))).map
            fun v => { q with version := v } := by
    intro q
    rw [Token.write, hbase]
  rw [RequestRegs.onRequestVersion, htext, htext]
  rw [versionOf] at hwrite
  split
  next h11 =>
      refine h.snoc hk (h.holds.snoc rfl ?_)
      rw [hwrite, if_pos h11]
      rfl
  next h11 =>
      split
      next h10 =>
          refine h.snoc hk (h.holds.snoc rfl ?_)
          rw [hwrite, if_neg h11, if_pos h10]
          rfl
      next h10 =>
          refine h.snoc hk ⟨fun h0 => ?_, fun _ => h.holds.snoc_none ?_⟩
          · exact absurd h0 (show ¬ 1001 = 0 by decide)
          · rw [hwrite, if_neg h11, if_neg h10]
            rfl

/-- `on_request_query`: other bytes than those of the query when it began
in an earlier buffer, and an exception when there are not that many. -/
theorem queryString (h : Rel r B o k p x y) (hseg : Piece r B o seg)
    (hp : p < seg.length) (hk : k'.field = k.field ∧ k'.query = k.query)
    (hq : k.query = true) :
    (∀ {x' : RequestRegs}, RequestRegs.perform seg p .queryString x = .ok x' →
        Rel r B o k' p x' (y.act (o + p) .queryString))
      ∧ ∀ {e : Thrown}, RequestRegs.perform seg p .queryString x = .error e →
          replay r B (y.act (o + p) .queryString).tokens = none := by
  have hbase : B (o + p) = o := hseg.base (by omega) (by omega)
  obtain ⟨hle, hqs⟩ := h.queryStart hq
  have hwrite : ∀ q : HttpRequest,
      Token.write r B q (.query y.queryStart (o + p))
        = if o + p < o + x.queryStart then none
          else some { q with
            query := slice r (o + x.queryStart) (o + p - (o + x.queryStart)) }
          := by
    intro q
    rw [Token.write, hbase, hqs]
  by_cases hneg : p < x.queryStart
  · have hthrow : RequestRegs.perform seg p .queryString x
        = .error .lengthError := by
      rw [RequestRegs.perform, stdString, RequestRegs.len, if_pos (by omega)]
      rfl
    refine ⟨fun hx => ?_, fun _ => h.holds.snoc_none ?_⟩
    · rw [hthrow] at hx
      cases hx
    · rw [hwrite, if_pos (by omega)]
  · have hok : RequestRegs.perform seg p .queryString x
        = .ok (x.onRequestQuery (slice r (o + x.queryStart)
            (o + p - (o + x.queryStart)))) := by
      rw [RequestRegs.perform, stdString, RequestRegs.len, if_neg (by omega),
        ← slice, show ((p : Int) - x.queryStart).toNat = p - x.queryStart by
          omega, hseg.slice_eq (by omega),
        show o + p - (o + x.queryStart) = p - x.queryStart by omega]
      rfl
    rw [hok]
    refine ⟨fun hx => ?_, fun he => by cases he⟩
    cases hx
    refine h.snoc hk (h.holds.snoc rfl ?_)
    rw [hwrite, if_neg (by omega)]

/-- `on_request_http_field`. -/
theorem writeValue (h : Rel r B o k p x y) (hseg : Piece r B o seg)
    (hp : p < seg.length) (hf : k.field = true) :
    ∃ x', RequestRegs.perform seg p .writeValue x = .ok x'
      ∧ Rel r B o k p x' (y.act (o + p) .writeValue) := by
  have hbase : B (o + p) = o := hseg.base (by omega) (by omega)
  obtain ⟨hle, hend, hlen⟩ := h.fieldLen hf
  have hname : x.fieldLen = 0
      ↔ seen r o y.fieldStart y.fieldEnd = [] := by
    rw [← List.length_eq_zero_iff, hseg.length_seen (by omega), hlen]
    omega
  have hwrite : ∀ q : HttpRequest,
      Token.write r B q (.field y.fieldStart y.fieldEnd y.mark (o + p))
        = some { q with
            headers :=
              if seen r o y.fieldStart y.fieldEnd = [] then q.headers
              else q.headers.set (seen r o y.fieldStart y.fieldEnd)
                (seen r o y.mark (o + p)) } := by
    intro q
    rw [Token.write, Token.addField, hbase]
  by_cases h0 : x.fieldLen = 0
  · refine ⟨x, if_pos h0, h.snoc ⟨rfl, rfl⟩ (h.holds.snoc rfl ?_)⟩
    rw [hwrite, if_pos (hname.mp h0)]
  · refine ⟨x.setHeader (seen r o y.fieldStart y.fieldEnd)
      (seen r o y.mark (o + p)), ?_,
      h.snoc ⟨rfl, rfl⟩ (h.holds.snoc rfl ?_)⟩
    · rw [RequestRegs.perform, if_neg h0, h.stdString_mark hseg hp.le, hlen,
        h.fieldStart, hseg.stdString_eq hle (by omega)]
      rfl
    · rw [hwrite, if_neg (mt hname.mpr h0)]

/-- An action that neither reports an error nor throws. -/
theorem of_ok {y' : Scan} (hx : x.perform seg p a = .ok x')
    (h : Rel r B o k' p x' y') :
    (∀ {x' : RequestRegs}, x.perform seg p a = .ok x' → Rel r B o k' p x' y')
      ∧ ∀ {e : Thrown}, x.perform seg p a = .error e →
          replay r B y'.tokens = none := by
  rw [hx]
  refine ⟨fun hx' => ?_, fun he => by cases he⟩
  cases hx'
  exact h

/-- One action. -/
theorem perform (h : Rel r B o k p x y) (hseg : Piece r B o seg)
    (hb : seg[p]? = some b) (hspace : space = true → b = 32)
    (hk : k.act space a = some k') :
    (∀ {x' : RequestRegs}, x.perform seg p a = .ok x' →
        Rel r B o k' p x' (y.act (o + p) a))
      ∧ ∀ {e : Thrown}, x.perform seg p a = .error e →
          replay r B (y.act (o + p) a).tokens = none := by
  obtain ⟨hp, -⟩ := List.getElem?_eq_some_iff.mp hb
  have hbase : B (o + p) = o := hseg.base (by omega) (by omega)
  have hpos : p = o + p - o := (Nat.add_sub_cancel_left o p).symm
  have htext := h.stdString_mark hseg hp.le
  obtain ⟨hm, hm', hs, hs', hf, hq, hd⟩ := id h
  cases a with
  | mark =>
      cases hk
      exact of_ok rfl ⟨le_rfl, hpos, hs, hs', hf, hq, hd⟩
  | startField =>
      cases hk
      exact of_ok rfl ⟨hm, hm', le_rfl, hpos, fun h0 => (by cases h0), hq, hd⟩
  | writeField =>
      cases hk
      refine of_ok rfl ⟨hm, hm', hs, hs', fun _ => ⟨hs, le_rfl, ?_⟩, hq, hd⟩
      show RequestRegs.len x.fieldStart p = _
      rw [RequestRegs.len, hs']
      exact congrArg (fun n : Nat => (n : Int) - (y.fieldStart - o : Nat)) hpos
  | startQuery =>
      cases hk
      refine of_ok rfl ⟨hm, hm', hs, hs', hf, fun _ => ⟨le_rfl, ?_⟩, hd⟩
      show p = o + p - B (o + p)
      rw [hbase, ← hpos]
  | requestUri =>
      cases hk
      exact of_ok rfl h
  | xml =>
      cases hk
      exact of_ok rfl ⟨hm, hm', hs, hs', hf, hq, hd⟩
  | json =>
      cases hk
      exact of_ok rfl ⟨hm, hm', hs, hs', hf, hq, hd⟩
  | done =>
      cases hk
      by_cases hsent : x.xmlSent || x.jsonSent
      · exact of_ok (if_pos hsent) ⟨hm, hm', hs, hs', hf, hq, hd⟩
      · exact of_ok (if_neg hsent) ⟨hm, hm', hs, hs', hf, hq, hd⟩
  | writeValue =>
      rw [Sketch.act] at hk
      split at hk
      next hfield =>
          cases hk
          obtain ⟨x', hx', hR⟩ := h.writeValue hseg hp hfield
          exact of_ok hx' hR
      next => cases hk
  | requestMethod =>
      rw [Sketch.act] at hk
      split at hk
      next hcond =>
          cases hk
          rw [Bool.and_eq_true] at hcond
          rw [hspace hcond.1] at hb
          exact of_ok rfl (h.requestMethod hseg hb ⟨rfl, rfl⟩)
      next => cases hk
  | httpVersion =>
      rw [Sketch.act] at hk
      split at hk
      next =>
          cases hk
          exact of_ok rfl (h.httpVersion hseg hp ⟨rfl, rfl⟩)
      next => cases hk
  | queryString =>
      rw [Sketch.act] at hk
      split at hk
      next hcond =>
          cases hk
          rw [Bool.and_eq_true] at hcond
          exact h.queryString hseg hp ⟨rfl, rfl⟩ hcond.1
      next => cases hk
  | requestPath =>
      rw [Sketch.act] at hk
      split at hk
      next =>
          cases hk
          have hx : x.perform seg p .requestPath
              = .ok (x.onRequestPath (seen r o y.mark (o + p))) := by
            rw [RequestRegs.perform, htext]
            rfl
          refine of_ok hx (h.snoc ⟨rfl, rfl⟩ (hd.snoc rfl ?_))
          rw [Token.write, hbase]
      next => cases hk
  | fragment =>
      rw [Sketch.act] at hk
      split at hk
      next =>
          cases hk
          have hx : x.perform seg p .fragment
              = .ok (x.onRequestFragment (seen r o y.mark (o + p))) := by
            rw [RequestRegs.perform, htext]
            rfl
          refine of_ok hx (h.snoc ⟨rfl, rfl⟩ (hd.snoc rfl ?_))
          rw [Token.write, hbase]
      next => cases hk

/-- The actions of one jump. -/
theorem actions (hseg : Piece r B o seg) (hb : seg[p]? = some b)
    (hspace : space = true → b = 32) (acts : List HttpAction) :
    ∀ {k : Sketch} {x : RequestRegs} {y : Scan}, Rel r B o k p x y →
      acts.foldlM (Sketch.act space) k = some k' →
      (∀ {x' : RequestRegs},
          acts.foldlM (fun x a => RequestRegs.perform seg p a x) x = .ok x' →
          Rel r B o k' p x' (acts.foldl (fun y a => y.act (o + p) a) y))
        ∧ ∀ {e : Thrown},
            acts.foldlM (fun x a => RequestRegs.perform seg p a x) x
              = .error e →
            replay r B (acts.foldl (fun y a => y.act (o + p) a) y).tokens
              = none := by
  induction acts with
  | nil =>
      intro k x y h hk
      cases hk
      refine ⟨fun hx => ?_, fun he => by cases he⟩
      cases hx
      exact h
  | cons a acts ih =>
      intro k x y h hk
      obtain ⟨k₁, hk₁, hk⟩ := run_cons.mp hk
      obtain ⟨hok, hthrow⟩ := h.perform hseg hb hspace hk₁
      rw [List.foldlM_cons, List.foldl_cons]
      cases hx : x.perform seg p a with
      | ok x₁ => exact ih (hok hx) hk
      | error e =>
          refine ⟨fun hx' => (by cases hx'), fun _ => ?_⟩
          exact foldl_act_none acts (hthrow hx)

end Rel

/-- `http_parser_execute` on one piece of the text makes the moves of the
scan over that piece. -/
theorem drive_scan {relaxed : Bool} {cs : Nat} {x : RequestRegs} {y : Scan}
    {z : Stop Scan} (hseg : Piece r B o seg)
    (h : Rel r B o (sketchOf cs) 0 x y)
    (hz : sweep (RequestTable.transition relaxed) HttpAction.isDone Scan.act
      o seg cs y = z) :
    (∀ {s : Stop RequestRegs},
        drive (RequestTable.transition relaxed) HttpAction.isDone
          (RequestRegs.perform seg) 0 seg cs x = .ok s →
        z.halt = s.halt ∧ z.pos = o + s.pos ∧ z.cs = s.cs
          ∧ (s.halt ≠ .failed →
            Rel r B o (sketchOf s.cs) s.pos s.regs z.regs))
      ∧ ∀ {e : Thrown},
          drive (RequestTable.transition relaxed) HttpAction.isDone
            (RequestRegs.perform seg) 0 seg cs x = .error e →
          replay r B z.regs.tokens = none := by
  obtain ⟨hok, hthrow⟩ := drive_sweep
    (R := fun cs p x y => Rel r B o (sketchOf cs) p x y)
    (F := fun y => replay r B y.tokens = none)
    (fun hnext hb hR hx => by
      obtain ⟨space, k, hspace, hk, hcov, -, -⟩ := transition_ok hnext
      exact ((Rel.actions hseg hb hspace _ hR hk).1 hx).weaken hcov)
    (fun hnext hb hR he => by
      obtain ⟨space, k, hspace, hk, -, -, -⟩ := transition_ok hnext
      exact (Rel.actions hseg hb hspace _ hR hk).2 he)
    (fun hy => act_none hy) seg h rfl hz
  refine ⟨fun hs => ?_, hthrow⟩
  obtain ⟨hhalt, hpos, hcs, hR, -⟩ := hok hs
  exact ⟨hhalt, hpos, hcs, hR⟩

-- ======================================================== order of the tokens

/-- The place of a token in a request; a field has none. -/
def Token.kind : Token → Nat
  | .method .. => 1
  | .path .. => 2
  | .query .. => 3
  | .fragment .. => 4
  | .version .. => 5
  | .field .. => 0

/-- Where a token, or the value of a field, starts and ends. -/
def Token.span : Token → Nat × Nat
  | .method s e | .path s e | .query s e | .fragment s e | .version s e
  | .field _ _ s e => (s, e)

/-- The last position that a token refers to. -/
def Token.reach : Token → Nat
  | .method _ e | .path _ e | .query _ e | .fragment _ e | .version _ e => e
  | .field _ ne _ e => max ne e

/-- Each kind of token other than a field comes at most once. -/
def Once (ts : List Token) : Prop :=
  ts.Pairwise fun t t' => t'.kind = 0 ∨ t.kind < t'.kind

/-- The tokens before position `p`, in order. -/
structure Ordered (p : Nat) (k : Sketch) (y : Scan) : Prop where
  mark_le : y.mark ≤ p
  queryStart_le : y.queryStart ≤ p
  fieldEnd_le : y.fieldEnd ≤ p
  span : ∀ t ∈ y.tokens, t.span.1 ≤ t.span.2
  reach : ∀ t ∈ y.tokens, t.reach ≤ p
  le : ∀ t ∈ y.tokens, t.kind ≤ k.rank
  once : Once y.tokens

namespace Ordered

variable {k k' : Sketch} {y : Scan} {space : Bool} {a : HttpAction}

theorem weaken (h : Ordered p k y) (hk : k.covers k' = true) :
    Ordered (p + 1) k' y := by
  have hrank : k.rank ≤ k'.rank := by
    simp only [Sketch.covers, Bool.and_eq_true, decide_eq_true_eq] at hk
    exact hk.1.1
  exact ⟨h.mark_le.trans p.le_succ, h.queryStart_le.trans p.le_succ,
    h.fieldEnd_le.trans p.le_succ, h.span,
    fun t ht => (h.reach t ht).trans p.le_succ,
    fun t ht => (h.le t ht).trans hrank, h.once⟩

theorem snoc (h : Ordered p k y) {t : Token} (hspan : t.span.1 ≤ t.span.2)
    (hreach : t.reach ≤ p) (hkind : t.kind = 0 ∨ k.rank < t.kind)
    (hk' : t.kind ≤ k'.rank) (hrank : k.rank ≤ k'.rank) :
    Ordered p k' { y with tokens := y.tokens ++ [t] } := by
  refine ⟨h.mark_le, h.queryStart_le, h.fieldEnd_le, fun t' ht' => ?_,
    fun t' ht' => ?_, fun t' ht' => ?_, ?_⟩
  · rcases List.mem_append.mp ht' with ht' | ht'
    · exact h.span t' ht'
    · rwa [List.mem_singleton.mp ht']
  · rcases List.mem_append.mp ht' with ht' | ht'
    · exact h.reach t' ht'
    · rwa [List.mem_singleton.mp ht']
  · rcases List.mem_append.mp ht' with ht' | ht'
    · exact (h.le t' ht').trans hrank
    · rwa [List.mem_singleton.mp ht']
  · refine List.pairwise_append.mpr ⟨h.once, List.pairwise_singleton _ _, ?_⟩
    intro t₁ ht₁ t₂ ht₂
    rw [List.mem_singleton.mp ht₂]
    exact hkind.imp id fun hlt => (h.le t₁ ht₁).trans_lt hlt

/-- One action. -/
theorem act (h : Ordered p k y) (hk : k.act space a = some k') :
    Ordered p k' (y.act p a) := by
  obtain ⟨hm, hq, hf, hs, hr, hle, ho⟩ := id h
  cases a <;> rw [Sketch.act] at hk
  case mark =>
    cases hk
    exact ⟨le_rfl, hq, hf, hs, hr, hle, ho⟩
  case startQuery =>
    cases hk
    exact ⟨hm, le_rfl, hf, hs, hr, hle, ho⟩
  case writeField =>
    cases hk
    exact ⟨hm, hq, le_rfl, hs, hr, hle, ho⟩
  case startField | requestUri | done | xml | json =>
    cases hk
    exact ⟨hm, hq, hf, hs, hr, hle, ho⟩
  case writeValue =>
    split at hk
    next =>
        cases hk
        exact h.snoc hm (max_le hf le_rfl) (.inl rfl) (Nat.zero_le _) le_rfl
    next => cases hk
  case queryString =>
    split at hk
    next hcond =>
        cases hk
        rw [Bool.and_eq_true, decide_eq_true_eq] at hcond
        exact h.snoc hq le_rfl (.inr hcond.2) le_rfl hcond.2.le
    next => cases hk
  case requestMethod =>
    split at hk
    next hcond =>
        cases hk
        rw [Bool.and_eq_true, decide_eq_true_eq] at hcond
        exact h.snoc hm le_rfl (.inr hcond.2) le_rfl hcond.2.le
    next => cases hk
  case requestPath | fragment | httpVersion =>
    split at hk
    next hrank =>
        cases hk
        exact h.snoc hm le_rfl (.inr hrank) le_rfl hrank.le
    next => cases hk

/-- The actions of one jump. -/
theorem actions (acts : List HttpAction) :
    ∀ {k : Sketch} {y : Scan}, Ordered p k y →
      acts.foldlM (Sketch.act space) k = some k' →
      Ordered p k' (acts.foldl (fun y a => y.act p a) y) := by
  induction acts with
  | nil =>
      intro k y h hk
      cases hk
      exact h
  | cons a acts ih =>
      intro k y h hk
      obtain ⟨k₁, hk₁, hk⟩ := run_cons.mp hk
      exact ih (h.act hk₁) hk

end Ordered

/-- The tokens of a text come in order and lie before the position that
the scan reached. -/
theorem scan_ordered {relaxed : Bool} {r : Bytes}
    (h : (scan relaxed r).halt ≠ .failed) :
    Ordered (scan relaxed r).pos (sketchOf (scan relaxed r).cs)
      (scan relaxed r).regs := by
  have hinit : Ordered 0 (sketchOf RequestTable.start) Scan.init :=
    ⟨le_rfl, le_rfl, le_rfl, fun t ht => (by cases ht),
      fun t ht => (by cases ht), fun t ht => (by cases ht),
      List.Pairwise.nil⟩
  refine sweep_inv (I := fun p cs y => Ordered p (sketchOf cs) y)
    (fun hnext hI => ?_) r hinit rfl h
  obtain ⟨space, k, -, hk, hcov, -, -⟩ := transition_ok hnext
  exact (Ordered.actions _ hI hk).weaken hcov

theorem scan_pos {relaxed : Bool} (r : Bytes) :
    (scan relaxed r).pos ≤ r.length := by
  have hpos := (sweep_pos r (s := scan relaxed r) rfl).2.2.2
  rwa [Nat.zero_add] at hpos

end TinyServer.Http
