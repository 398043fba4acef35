/-
What a parser makes of the memory it was built in.

`query_start` is written before it is read: the claim `query` of the
sketch follows it through the states (`SameBut`), also from one piece to
the next. `uri_relaxed` is read, and never written: two parsers that are
relaxed and not come apart at the first byte that only the relaxed one
takes, and there the counts differ.

A failed assertion is one way for a call to end. That about `body_start`
can fail only behind a finished request, from where the machine comes to
headers but to no URI any more (`Rests`); so a parser that comes before a
byte for relaxed ones stops there and returns.
-/
import TinyServer.Http.Proofs.Receive
import TinyServer.Http.Uninit

namespace TinyServer.Http

open Lib

-- ============================================================== query_start

/-- The registers differ in `query_start` only, and not there either
where a query has started. -/
def SameBut (k : Sketch) (x y : RequestRegs) : Prop :=
  ∃ q, y = { x with queryStart := q }
    ∧ (k.query = true → q = x.queryStart)

variable {k k' : Sketch} {x y : RequestRegs} {space : Bool} {a : HttpAction}
  {buf : Bytes} {p : Nat}

/-- A register that may differ later may differ. -/
theorem SameBut.weaken (h : SameBut k x y)
    (hk : k'.query = true → k.query = true) : SameBut k' x y := by
  obtain ⟨q, hy, hq⟩ := h
  exact ⟨q, hy, fun hk' => hq (hk hk')⟩

/-- Rewinding the marks keeps what is the same. -/
theorem SameBut.rewind (h : SameBut k x y) :
    SameBut k x.rewind y.rewind := by
  obtain ⟨q, rfl, hq⟩ := h
  exact ⟨q, rfl, hq⟩

/-- Only `start_query` makes a query start. -/
theorem act_query (h : Sketch.act space k a = some k')
    (ha : a ≠ .startQuery) : k'.query = k.query := by
  cases a <;> simp only [Sketch.act] at h
  case startQuery => exact absurd rfl ha
  case startField | writeField | mark | requestUri | done | xml | json =>
      cases h
      rfl
  all_goals
    split at h
    · cases h
      rfl
    · cases h

/-- An action on registers that differ in `query_start` only. -/
theorem perform_sameBut (h : SameBut k x y)
    (hk : Sketch.act space k a = some k') :
    Alike (SameBut k') (x.perform buf p a) (y.perform buf p a) := by
  obtain ⟨q, rfl, hq⟩ := h
  by_cases ha : a = .startQuery
  · subst ha
    exact ⟨p, rfl, fun _ => rfl⟩
  · have hq' : k'.query = true → q = x.queryStart :=
      fun hquery => hq (act_query hk ha ▸ hquery)
    cases a with
    | startQuery => exact absurd rfl ha
    | queryString =>
        -- the sketch only lets it happen where a query has started
        have hquery : k.query = true := by
          rw [Sketch.act] at hk
          split at hk
          next hc => exact (Bool.and_eq_true_iff.mp hc).1
          next => cases hk
        obtain rfl := hq hquery
        unfold RequestRegs.perform
        cases stdString buf x.queryStart (RequestRegs.len x.queryStart p)
        · rfl
        · exact ⟨x.queryStart, rfl, hq'⟩
    | writeValue =>
        unfold RequestRegs.perform
        dsimp only
        split
        next => exact ⟨q, rfl, hq'⟩
        next =>
          cases stdString buf x.fieldStart x.fieldLen with
          | error e => rfl
          | ok key =>
              cases stdString buf x.mark (RequestRegs.len x.mark p)
              · rfl
              · exact ⟨q, rfl, hq'⟩
    | fragment | requestPath =>
        unfold RequestRegs.perform
        cases stdString buf x.mark (RequestRegs.len x.mark p)
        · rfl
        · exact ⟨q, rfl, hq'⟩
    | requestMethod =>
        unfold RequestRegs.perform RequestRegs.onRequestMethod
        dsimp only
        split <;> exact ⟨q, rfl, hq'⟩
    | httpVersion =>
        unfold RequestRegs.perform RequestRegs.onRequestVersion
        dsimp only
        split
        next => exact ⟨q, rfl, hq'⟩
        next => split <;> exact ⟨q, rfl, hq'⟩
    | done =>
        unfold RequestRegs.perform
        dsimp only
        split <;> exact ⟨q, rfl, hq'⟩
    | _ => exact ⟨q, rfl, hq'⟩

/-- The actions of a jump. -/
theorem foldlM_sameBut (acts : List HttpAction) :
    ∀ {k : Sketch} {x y : RequestRegs}, SameBut k x y →
      acts.foldlM (Sketch.act space) k = some k' →
      Alike (SameBut k') (acts.foldlM (fun x a => x.perform buf p a) x)
        (acts.foldlM (fun x a => x.perform buf p a) y) := by
  induction acts with
  | nil =>
      intro k x y h hk
      cases hk
      exact h
  | cons a acts ih =>
      intro k x y h hk
      obtain ⟨k₁, hk₁, hk⟩ := run_cons.mp hk
      rw [List.foldlM_cons, List.foldlM_cons]
      exact (perform_sameBut h hk₁).bind fun x y h => ih h hk

/-- Two machines on the same text. -/
theorem twin {Q : Nat → UInt8 → Bool} {r r' : Bool}
    (hsame : ∀ cs b, Q cs b = false →
      RequestTable.transition r cs b = RequestTable.transition r' cs b) :
    Twin Q (RequestTable.transition r) (RequestTable.transition r')
      (RequestRegs.perform buf) fun cs => SameBut (sketchOf cs) := by
  refine ⟨hsame, fun h => h.weaken fun h0 => ?_, fun hjump h => ?_⟩
  · exact absurd h0 (by decide)
  · obtain ⟨space, k, -, hk, hcovers, -, -⟩ := transition_ok hjump
    refine (foldlM_sameBut _ h hk).imp fun x y hxy => ?_
    refine hxy.weaken fun hquery => ?_
    unfold Sketch.covers at hcovers
    simp only [Bool.and_eq_true, Bool.or_eq_true, Bool.not_eq_true',
      hquery] at hcovers
    rcases hcovers.2 with h | h
    · cases h
    · exact h

-- ============================================================== uri_relaxed

/-- The two machines move alike but before these bytes. -/
theorem transition_of_unguarded (r r' : Bool) (cs : Nat) (b : UInt8)
    (h : RequestTable.relaxedOnly cs b = false) :
    RequestTable.transition r cs b = RequestTable.transition r' cs b := by
  unfold RequestTable.transition
  rw [h]
  rfl

/-- The rows of the table that ask for the flag, read off once. -/
theorem relaxed_rows : ∀ cs ∈ RequestTable.relaxedStates,
    ∀ b ∈ [(94 : UInt8), 123, 125],
      (RequestTable.transition true cs b).isSome = true := by
  decide +kernel

/-- Before them only a relaxed parser goes on. -/
theorem transition_of_guarded (cs : Nat) (b : UInt8)
    (h : RequestTable.relaxedOnly cs b = true) :
    RequestTable.transition false cs b = none
      ∧ RequestTable.transition true cs b ≠ none := by
  refine ⟨?_, ?_⟩
  · unfold RequestTable.transition
    rw [h]
    rfl
  · simp only [RequestTable.relaxedOnly, Bool.and_eq_true, Bool.or_eq_true,
      decide_eq_true_eq, List.contains_iff_mem] at h
    have hb : b ∈ [(94 : UInt8), 123, 125] := by
      simp only [List.mem_cons, List.not_mem_nil, or_false]
      tauto
    exact Option.isSome_iff_ne_none.mp (relaxed_rows cs h.2 b hb)

/-- Nothing leads out of the error state. -/
theorem transition_error (r : Bool) (b : UInt8) :
    RequestTable.transition r 0 b = none := by
  have hrow : tableLookup RequestTable.rows 0 b.toNat = none := rfl
  unfold RequestTable.transition
  rw [hrow]
  split <;> rfl

namespace HttpRequestParser

variable {u v : Uninit} {ps qs : HttpRequestParser} {piece : Bytes}
  {pieces : List Bytes}

-- ================================================================ assertions

/-- The machine is behind the request line, or in the error state. -/
def PastUri (cs : Nat) : Prop := cs = 0 ∨ 5 ≤ rankOf cs

/-- Only a request that is past its URI has a `body_start`. -/
def Rests (ps : HttpRequestParser) : Prop :=
  ps.regs.bodyStart = 0 ∨ PastUri ps.cs

/-- The rank does not go down. -/
theorem act_rank {k k' : Sketch} {space : Bool} {a : HttpAction}
    (h : Sketch.act space k a = some k') : k.rank ≤ k'.rank := by
  cases a <;> simp only [Sketch.act] at h
  case startField | writeField | mark | requestUri | startQuery | done | xml
      | json =>
      cases h
      exact Nat.le_refl _
  case writeValue =>
      split at h
      · cases h
        exact Nat.le_refl _
      · cases h
  case requestPath | fragment | httpVersion =>
      split at h
      next hlt =>
          cases h
          exact Nat.le_of_lt hlt
      next => cases h
  case requestMethod | queryString =>
      split at h
      next hc =>
          cases h
          exact Nat.le_of_lt (of_decide_eq_true (Bool.and_eq_true_iff.mp hc).2)
      next => cases h

/-- No transition leads back to the URI. -/
theorem PastUri.next {relaxed : Bool} {cs t : Nat} {b : UInt8}
    {acts : List HttpAction}
    (h : RequestTable.transition relaxed cs b = some (acts, t))
    (hcs : PastUri cs) : PastUri t := by
  rcases hcs with rfl | hrank
  · rw [transition_error] at h
    cases h
  · obtain ⟨space, k, -, hk, hcovers, -, -⟩ := transition_ok h
    have hle : 5 ≤ k.rank :=
      run_inv (P := fun k : Sketch => 5 ≤ k.rank)
        (fun hk h => Nat.le_trans hk (act_rank h)) acts hrank hk
    simp only [Sketch.covers, Bool.and_eq_true, decide_eq_true_eq] at hcovers
    exact .inr (Nat.le_trans hle hcovers.1.1)

/-- There a relaxed parser takes what any takes. -/
theorem PastUri.unguarded {cs : Nat} {b : UInt8} (h : PastUri cs) :
    RequestTable.relaxedOnly cs b = false := by
  have hstates : ∀ cs ∈ RequestTable.relaxedStates, cs ≠ 0 ∧ rankOf cs < 5 := by
    decide
  refine Bool.eq_false_iff.mpr fun hb => ?_
  rw [RequestTable.relaxedOnly, Bool.and_eq_true] at hb
  obtain ⟨hne, hlt⟩ := hstates cs (List.contains_iff_mem.mp hb.2)
  exact h.elim hne fun hle => Nat.not_lt.mpr hle hlt

/-- The final states are past it. -/
theorem pastUri_final {cs : Nat} (h : RequestTable.firstFinal ≤ cs) :
    PastUri cs := by
  have hcs : 348 ≤ cs := h
  refine .inr ?_
  unfold rankOf
  rw [if_neg (by omega), if_neg (by omega), if_neg (by omega),
    if_neg (by omega), if_pos (by omega)]

/-- So no run of the machine leads back. -/
theorem PastUri.drive {relaxed : Bool} {cs : Nat} {x : RequestRegs}
    {s : Stop RequestRegs} (hcs : PastUri cs)
    (hd : drive (RequestTable.transition relaxed) HttpAction.isDone
      (RequestRegs.perform piece) 0 piece cs x = .ok s) : PastUri s.cs := by
  obtain ⟨-, hfin, hrun, hfail⟩ := drive_keeps
    (I := fun cs _ _ => PastUri cs) (J := fun cs _ _ => PastUri cs)
    (fun hnext _ h _ => h.next hnext) (fun hnext _ h _ => h.next hnext)
    piece hcs hd
  cases hhalt : s.halt with
  | finished => exact hfin hhalt
  | running => exact hrun hhalt
  | failed => exact .inl (hfail hhalt).1

/-- A call leaves the parser at rest, as it found it. -/
theorem Rests.execute {r : Nat × HttpRequestParser} (h : ps.Rests)
    (hx : ps.execute u piece = .ok r) : r.2.Rests := by
  obtain ⟨n, ps'⟩ := r
  by_cases hpiece : piece = []
  · rw [HttpRequestParser.execute, if_pos hpiece] at hx
    cases hx
    exact h
  · obtain ⟨s, hd, -, rfl⟩ := execute_eq_ok hpiece hx
    by_cases hcs : ps.cs = 0
    · exact .inr (.inl (if_pos hcs))
    · show s.regs.bodyStart = 0 ∨ PastUri (if ps.cs = 0 then 0 else s.cs)
      rw [if_neg hcs]
      rcases h with hbody | hpast
      · obtain ⟨-, hor⟩ := drive_bodyStart (x := ps.regs.rewind) rfl hbody hd
        exact hor.imp_right pastUri_final
      · exact .inr (hpast.drive hd)

/-- A parser that comes before a guarded byte has not finished a
request. -/
theorem Rests.bodyStart (h : ps.Rests) {p : Nat} {x : RequestRegs}
    (hmeets : meets RequestTable.relaxedOnly (RequestTable.transition false)
      HttpAction.isDone (RequestRegs.perform piece) p piece ps.cs x = true) :
    ps.regs.bodyStart = 0 := by
  refine h.resolve_right fun hpast => ?_
  rw [meets_eq_false (P := PastUri) PastUri.unguarded PastUri.next piece
    hpast] at hmeets
  cases hmeets

-- ================================================================ two parsers

/-- Parsers in the same state. -/
def SameState (ps qs : HttpRequestParser) : Prop :=
  ps.cs = qs.cs ∧ SameBut (sketchOf ps.cs) ps.regs qs.regs

/-- What two calls return. -/
abbrev SameResult (r r' : Nat × HttpRequestParser) : Prop :=
  r.1 = r'.1 ∧ SameState r.2 r'.2

/-- `execute` of two parsers, where the stops of the machine are
alike. -/
theorem execute_of_drive (h : SameState ps qs)
    (hdrive : Alike (StopsAlike fun cs => SameBut (sketchOf cs))
      (drive (RequestTable.transition u.uriRelaxed) HttpAction.isDone
        (RequestRegs.perform piece) 0 piece ps.cs ps.regs.rewind)
      (drive (RequestTable.transition v.uriRelaxed) HttpAction.isDone
        (RequestRegs.perform piece) 0 piece ps.cs qs.regs.rewind)) :
    Alike SameResult (ps.execute u piece) (qs.execute v piece) := by
  unfold execute
  split
  next => exact ⟨rfl, h⟩
  next =>
    rw [← h.1]
    refine hdrive.bind fun s s' hs => ?_
    have hbody : s'.regs.bodyStart = s.regs.bodyStart := by
      obtain ⟨q, hq, -⟩ := hs.regs
      rw [hq]
    rw [hbody]
    split
    next =>
      refine ⟨hs.pos, ?_, ?_⟩
      · show (if ps.cs = 0 then 0 else s.cs) = if ps.cs = 0 then 0 else s'.cs
        rw [hs.cs]
      · show SameBut (sketchOf (if ps.cs = 0 then 0 else s.cs)) _ _
        split
        next => exact hs.regs.weaken fun h0 => absurd h0 (by decide)
        next => exact hs.regs
    next => exact rfl

/-- The assertion on the length is the same for both parsers. -/
theorem executePiece_alike
    (h : piece.length < 0x80000000 →
      Alike SameResult (ps.execute u piece) (qs.execute v piece)) :
    Alike SameResult (ps.executePiece u piece) (qs.executePiece v piece) := by
  unfold executePiece
  split
  next hlen => exact h hlen
  next => exact rfl

/-- Parsers in the same state with the same flag do the same. -/
theorem executePiece_same (h : SameState ps qs)
    (hsame : u.uriRelaxed = v.uriRelaxed) :
    Alike SameResult (ps.executePiece u piece) (qs.executePiece v piece) := by
  refine executePiece_alike fun _ => execute_of_drive h
    (drive_alike (twin fun cs b _ => ?_) piece h.2.rewind (meets_never piece))
  rw [hsame]

/-- With different flags they do the same on a piece that does not ask for
it. -/
theorem executePiece_unguarded (h : SameState ps qs)
    (hmeets : (decide (piece.length < 0x80000000)
      && meets RequestTable.relaxedOnly (RequestTable.transition false)
        HttpAction.isDone (RequestRegs.perform piece) 0 piece ps.cs
        ps.regs.rewind) = false) :
    Alike SameResult (ps.executePiece zeros piece)
      (qs.executePiece v piece) := by
  refine executePiece_alike fun hlen => execute_of_drive h
    (drive_alike (twin (transition_of_unguarded _ _)) piece h.2.rewind ?_)
  rwa [decide_eq_true hlen, Bool.true_and] at hmeets

-- ================================================================= the pieces

/-- The outcome of a piece, then those of the rest. -/
theorem feed_of_ok {r : Nat × HttpRequestParser}
    (h : ps.executePiece u piece = .ok r) :
    ps.feed u (piece :: pieces)
      = (r.1 :: (r.2.feed u pieces).1, (r.2.feed u pieces).2) := by
  rw [feed, h]

/-- A failed assertion ends the program. -/
theorem feed_of_error {e : Thrown} (h : ps.executePiece u piece = .error e) :
    ps.feed u (piece :: pieces) = ([], .error e) := by
  rw [feed, h]

/-- Two parsers that agree on `uri_relaxed`, or of which one is in memory
of zeros and meets no guarded byte. -/
theorem feed_alike (pieces : List Bytes) :
    ∀ {ps qs : HttpRequestParser}, SameState ps qs →
      (u.uriRelaxed = v.uriRelaxed
        ∨ u = zeros ∧ ps.guarded pieces = false) →
      (ps.feed u pieces).1 = (qs.feed v pieces).1
        ∧ Alike SameState (ps.feed u pieces).2 (qs.feed v pieces).2 := by
  induction pieces with
  | nil => exact fun h _ => ⟨rfl, h⟩
  | cons piece pieces ih =>
      intro ps qs h hor
      have hpiece : Alike SameResult (ps.executePiece u piece)
          (qs.executePiece v piece) := by
        rcases hor with hsame | ⟨rfl, hguard⟩
        · exact executePiece_same h hsame
        · rw [guarded, Bool.or_eq_false_iff] at hguard
          exact executePiece_unguarded h hguard.1
      cases hx : ps.executePiece u piece with
      | error e =>
          cases hy : qs.executePiece v piece with
          | error f =>
              rw [hx, hy] at hpiece
              rw [feed_of_error hx, feed_of_error hy]
              exact ⟨rfl, hpiece⟩
          | ok r' =>
              rw [hx, hy] at hpiece
              exact absurd hpiece id
      | ok r =>
          cases hy : qs.executePiece v piece with
          | error f =>
              rw [hx, hy] at hpiece
              exact absurd hpiece id
          | ok r' =>
              rw [hx, hy] at hpiece
              obtain ⟨hn, hstate⟩ := hpiece
              rw [feed_of_ok hx, feed_of_ok hy]
              obtain ⟨hcounts, hlast⟩ := ih hstate (hor.imp_right fun hz => by
                obtain ⟨rfl, hguard⟩ := hz
                rw [guarded, hx, Bool.or_eq_false_iff] at hguard
                exact ⟨rfl, hguard.2⟩)
              exact ⟨congrArg₂ List.cons hn hcounts, hlast⟩

/-- At a guarded byte the parser in zeros stops, and a relaxed one takes
more, or fails. -/
theorem execute_part (hv : v.uriRelaxed = true) (h : SameState ps qs)
    (hrest : ps.Rests)
    (hmeets : meets RequestTable.relaxedOnly (RequestTable.transition false)
      HttpAction.isDone (RequestRegs.perform piece) 0 piece ps.cs
      ps.regs.rewind = true) :
    ∃ r, ps.execute zeros piece = .ok r
      ∧ ∀ r', qs.execute v piece = .ok r' → r.1 ≠ r'.1 := by
  obtain ⟨s, hs, -, hmore⟩ := drive_part
    (twin (transition_of_unguarded false true))
    transition_of_guarded piece h.2.rewind hmeets
  have hpiece : piece ≠ [] := by
    rintro rfl
    cases hmeets
  obtain ⟨hle, -⟩ := drive_bodyStart (x := ps.regs.rewind) rfl
    (hrest.bodyStart hmeets) hs
  refine ⟨_, (execute_of_drive_ok hpiece hs).trans (if_pos hle),
    fun r' hr' => ?_⟩
  obtain ⟨n, qs'⟩ := r'
  obtain ⟨s', hs', rfl, -⟩ := execute_eq_ok hpiece hr'
  rw [hv, ← h.1] at hs'
  exact Nat.ne_of_lt (hmore s' hs')

/-- A parser that meets a guarded byte returns another count there than a
relaxed one, which may also fail. -/
theorem feed_part (hv : v.uriRelaxed = true) (pieces : List Bytes) :
    ∀ {ps qs : HttpRequestParser}, SameState ps qs → ps.Rests →
      ps.guarded pieces = true →
      (ps.feed zeros pieces).1 ≠ (qs.feed v pieces).1 := by
  induction pieces with
  | nil =>
      intro ps qs _ _ hguard
      cases hguard
  | cons piece pieces ih =>
      intro ps qs h hrest hguard
      rw [guarded, Bool.or_eq_true] at hguard
      rcases Bool.eq_false_or_eq_true (decide (piece.length < 0x80000000)
        && meets RequestTable.relaxedOnly (RequestTable.transition false)
          HttpAction.isDone (RequestRegs.perform piece) 0 piece ps.cs
          ps.regs.rewind) with hmeets | hmeets
      · -- here they come apart
        obtain ⟨hlen, hbyte⟩ := Bool.and_eq_true_iff.mp hmeets
        have hlen := of_decide_eq_true hlen
        obtain ⟨r, hr, hmore⟩ := execute_part hv h hrest hbyte
        have hx : ps.executePiece zeros piece = .ok r := (if_pos hlen).trans hr
        rw [feed_of_ok hx]
        cases hy : qs.executePiece v piece with
        | error e =>
            rw [feed_of_error hy]
            exact List.cons_ne_nil _ _
        | ok r' =>
            rw [feed_of_ok hy]
            have hy' : qs.execute v piece = .ok r' :=
              (if_pos hlen).symm.trans hy
            exact fun heq => hmore r' hy' (List.cons.inj heq).1
      · have hguard := hguard.resolve_left (Bool.eq_false_iff.mp hmeets)
        have hpiece := executePiece_unguarded (v := v) h hmeets
        cases hx : ps.executePiece zeros piece with
        | error e =>
            rw [hx] at hguard
            cases hguard
        | ok r =>
            rw [hx] at hguard hpiece
            cases hy : qs.executePiece v piece with
            | error f =>
                rw [hy] at hpiece
                exact absurd hpiece id
            | ok r' =>
                rw [hy] at hpiece
                have hexec : ps.execute zeros piece = .ok r := by
                  unfold executePiece at hx
                  split at hx
                  next => exact hx
                  next => cases hx
                rw [feed_of_ok hx, feed_of_ok hy]
                exact fun heq => ih hpiece.2 (hrest.execute hexec) hguard
                  (List.cons.inj heq).2

/-- New parsers differ in what is not initialised only. -/
theorem sameState_new (u v : Uninit) : SameState (new u) (new v) := by
  have hstart : (sketchOf RequestTable.start).query = false := by decide
  exact ⟨rfl, v.queryStart, rfl, fun h =>
    absurd (hstart.symm.trans h) Bool.false_ne_true⟩

/-- The view of parsers in the same state. -/
theorem view_of_feed
    (h : ((new u).feed u pieces).1 = ((new v).feed v pieces).1
      ∧ Alike SameState ((new u).feed u pieces).2
        ((new v).feed v pieces).2) :
    view u pieces = view v pieces := by
  obtain ⟨hcounts, hlast⟩ := h
  have hstate : ∀ {ps qs : HttpRequestParser}, SameState ps qs →
      ps.state = qs.state := by
    rintro ps qs ⟨hcs, q, hregs, -⟩
    unfold state hasError isFinished
    rw [hcs, hregs]
  unfold view
  dsimp only
  rw [hcounts]
  refine congrArg (ParserView.mk _) ?_
  cases hx : ((new u).feed u pieces).2 with
  | error e =>
      cases hy : ((new v).feed v pieces).2 with
      | error f =>
          rw [hx, hy] at hlast
          exact congrArg Except.error hlast
      | ok qs =>
          rw [hx, hy] at hlast
          exact absurd hlast id
  | ok ps =>
      cases hy : ((new v).feed v pieces).2 with
      | error f =>
          rw [hx, hy] at hlast
          exact absurd hlast id
      | ok qs =>
          rw [hx, hy] at hlast
          exact congrArg Except.ok (hstate hlast)

/-- With the same flag the views are the same. -/
theorem view_same (hsame : u.uriRelaxed = v.uriRelaxed) :
    view u pieces = view v pieces :=
  view_of_feed (feed_alike pieces (sameState_new u v) (Or.inl hsame))

/-- With a set flag they are where no piece asks for it. -/
theorem view_zeros_iff (hv : v.uriRelaxed = true) :
    view zeros pieces = view v pieces
      ↔ (new zeros).guarded pieces = false := by
  constructor
  · intro heq
    by_contra hguard
    exact feed_part hv pieces (sameState_new zeros v) (.inl rfl)
      (eq_true_of_ne_false hguard) (congrArg ParserView.counts heq)
  · exact fun hguard => view_of_feed (feed_alike pieces (sameState_new zeros v)
      (Or.inr ⟨rfl, hguard⟩))

/-- For two parsers in any memory, and any pieces: all that the caller
sees, also of a call that throws or aborts, is the same exactly where
both are relaxed or none is, or no guarded byte is met; and on all pieces
it is the same exactly in the first case. -/
theorem view_eq_iff (u v : Uninit) :
    (∀ pieces, view u pieces = view v pieces
        ↔ u.uriRelaxed = v.uriRelaxed
          ∨ (new zeros).guarded pieces = false)
      ∧ ((∀ pieces, view u pieces = view v pieces)
        ↔ u.uriRelaxed = v.uriRelaxed) := by
  have hiff : ∀ pieces, view u pieces = view v pieces
      ↔ u.uriRelaxed = v.uriRelaxed ∨ (new zeros).guarded pieces = false := by
    intro pieces
    cases hu : u.uriRelaxed <;> cases hv : v.uriRelaxed
    case false.false | true.true =>
        refine iff_of_true (view_same ?_) (Or.inl rfl)
        rw [hu, hv]
    case false.true =>
        rw [view_same (u := u) (v := zeros) hu, view_zeros_iff hv]
        simp
    case true.false =>
        rw [view_same (u := v) (v := zeros) hv, eq_comm, view_zeros_iff hu]
        simp
  refine ⟨hiff, fun hall => ?_, fun hsame pieces => (hiff pieces).mpr
    (Or.inl hsame)⟩
  rcases (hiff [ascii "GET /^"]).mp (hall _) with hsame | hguard
  · exact hsame
  · exact absurd hguard (by decide +kernel)

/-- A request with `^` in its path. -/
theorem caret_accepted_by_chance :
    view ⟨false, 0⟩ [ascii "GET /^ HTTP/1.1\r\n\r\n"]
        ≠ view ⟨true, 0⟩ [ascii "GET /^ HTTP/1.1\r\n\r\n"]
      ∧ (view ⟨false, 0⟩ [ascii "GET /^ HTTP/1.1\r\n\r\n"]).counts = [5]
      ∧ (view ⟨false, 0⟩ [ascii "GET /^ HTTP/1.1\r\n\r\n"]).last.map
        ParserState.isFinished = .ok (-1)
      ∧ (view ⟨true, 0⟩ [ascii "GET /^ HTTP/1.1\r\n\r\n"]).counts = [19]
      ∧ (view ⟨true, 0⟩ [ascii "GET /^ HTTP/1.1\r\n\r\n"]).last.map
        ParserState.isFinished = .ok 1 := by
  have hstrict : (view ⟨false, 0⟩
      [ascii "GET /^ HTTP/1.1\r\n\r\n"]).counts = [5] := by
    decide +kernel
  have hrelaxed : (view ⟨true, 0⟩
      [ascii "GET /^ HTTP/1.1\r\n\r\n"]).counts = [19] := by
    decide +kernel
  refine ⟨fun heq => ?_, hstrict, by decide +kernel, hrelaxed,
    by decide +kernel⟩
  rw [heq, hrelaxed] at hstrict
  cases hstrict

/-- A short piece after a finished request fails an assertion. -/
example : view zeros [ascii "GET / HTTP/1.1\r\n\r\n", ascii "x"]
    = ⟨[18], .error .assertion⟩ := by
  decide +kernel

end HttpRequestParser

end TinyServer.Http
