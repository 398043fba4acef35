/-
A text in one read: the session against `read`.

`Sees` relates the registers of the scan, which are positions in the
text, with the bytes that `read` keeps. Every action keeps it
(`Sees.act`), and so do whole runs (`sweep_read`). With what is known of
the session and the scan this gives `recvRequest_read`.
-/
import TinyServer.Http.Proofs.Segments
import TinyServer.Http.Reading

namespace TinyServer.Http

open Lib

/-- Of a text in one piece a token is seen from its start on. -/
theorem seen_zero {r : Bytes} {s e : Nat} : seen r 0 s e = slice r s (e - s) :=
  seen_of_le (Nat.zero_le s)

theorem slice_self {r : Bytes} {p : Nat} : slice r p (p - p) = [] := by
  rw [Nat.sub_self]
  exact List.take_zero

/-- A slice and the byte behind it. -/
theorem slice_snoc {r : Bytes} {b : UInt8} {m p : Nat} (hm : m ≤ p)
    (hb : r[p]? = some b) :
    slice r m (p + 1 - m) = slice r m (p - m) ++ [b] := by
  have hget : (r.drop m)[p - m]? = some b := by
    rw [List.getElem?_drop, Nat.add_sub_cancel' hm]
    exact hb
  unfold slice
  rw [Nat.succ_sub hm, List.take_add_one, hget]
  rfl

/-- The scan at position `p` of `r`, in a state with the sketch `k`. -/
structure Sees (r : Bytes) (k : Sketch) (p : Nat) (y : Scan) (z : Reading) :
    Prop where
  mark_le : y.mark ≤ p
  field_le : y.fieldStart ≤ p
  query_le : y.queryStart ≤ p
  mark : z.mark = slice r y.mark (p - y.mark)
  field : z.field = slice r y.fieldStart (p - y.fieldStart)
  query : z.query = slice r y.queryStart (p - y.queryStart)
  name : k.field = true →
    z.name = slice r y.fieldStart (y.fieldEnd - y.fieldStart)
  data : z.data = replay r (fun _ => 0) y.tokens

namespace Sees

variable {r : Bytes} {k k' : Sketch} {p : Nat} {y : Scan} {z : Reading}
  {space : Bool} {a : HttpAction} {b : UInt8}

theorem init (r : Bytes) : Sees r (sketchOf RequestTable.start) 0 Scan.init
    Reading.init :=
  ⟨le_rfl, le_rfl, le_rfl, slice_self.symm, slice_self.symm, slice_self.symm,
    fun h => (nomatch h), rfl⟩

/-- A callback that does what its token writes. -/
theorem snoc (h : Sees r k p y z) {t : Token}
    {f : HttpRequest → Option HttpRequest}
    (hk : k'.field = true → k.field = true)
    (hw : ∀ q, f q = t.write r (fun _ => 0) q) :
    Sees r k' p { y with tokens := y.tokens ++ [t] } (z.store f) where
  mark_le := h.mark_le
  field_le := h.field_le
  query_le := h.query_le
  mark := h.mark
  field := h.field
  query := h.query
  name hfield := h.name (hk hfield)
  data := by
    rw [replay_snoc, ← h.data]
    exact congrArg z.data.bind (funext hw)

theorem act (h : Sees r k p y z) (hk : k.act space a = some k') :
    Sees r k' p (y.act p a) (z.act a) := by
  obtain ⟨hm, hf, hq, hmark, hfield, hquery, hname, hdata⟩ := id h
  cases a <;> rw [Sketch.act] at hk
  case mark =>
    cases hk
    exact ⟨le_rfl, hf, hq, slice_self.symm, hfield, hquery, hname, hdata⟩
  case startField =>
    cases hk
    exact ⟨hm, le_rfl, hq, hmark, slice_self.symm, hquery,
      fun h => absurd h Bool.false_ne_true, hdata⟩
  case writeField =>
    cases hk
    exact ⟨hm, hf, hq, hmark, hfield, hquery, fun _ => hfield, hdata⟩
  case startQuery =>
    cases hk
    exact ⟨hm, hf, le_rfl, hmark, hfield, slice_self.symm, hname, hdata⟩
  case requestUri | done | xml | json =>
    cases hk
    exact h
  case writeValue =>
    split at hk
    next hkf =>
      cases hk
      refine h.snoc id fun q => ?_
      dsimp only [Token.write, Token.addField]
      rw [seen_zero, seen_zero, ← hname hkf, ← hmark]
      split
      next => rfl
      next => rfl
    next => cases hk
  case requestMethod =>
    split at hk
    next =>
      cases hk
      refine h.snoc id fun q => ?_
      dsimp only [Token.write]
      rw [seen_zero, ← hmark]
    next => cases hk
  case requestPath | fragment =>
    split at hk
    next =>
      cases hk
      refine h.snoc id fun q => ?_
      dsimp only [Token.write]
      rw [seen_zero, ← hmark]
    next => cases hk
  case httpVersion =>
    split at hk
    next =>
      cases hk
      refine h.snoc id fun q => ?_
      dsimp only [Token.write]
      rw [seen_zero, ← hmark]
    next => cases hk
  case queryString =>
    split at hk
    next =>
      cases hk
      refine h.snoc id fun q => ?_
      dsimp only [Token.write]
      rw [Nat.sub_zero, Nat.zero_add, if_neg (by omega), ← hquery]
    next => cases hk

theorem actions (acts : List HttpAction) :
    ∀ {k : Sketch} {y : Scan} {z : Reading}, Sees r k p y z →
      acts.foldlM (Sketch.act space) k = some k' →
      Sees r k' p (acts.foldl (fun y a => y.act p a) y)
        (acts.foldl (fun z a => z.act a) z) := by
  induction acts with
  | nil =>
      intro k y z h hk
      cases hk
      exact h
  | cons a acts ih =>
      intro k y z h hk
      obtain ⟨k₁, hk₁, hk⟩ := run_cons.mp hk
      exact ih (h.act hk₁) hk

/-- On to the next byte. -/
theorem push (h : Sees r k p y z) (hk : k.covers k' = true)
    (hb : r[p]? = some b) : Sees r k' (p + 1) y (z.push b) := by
  unfold Sketch.covers at hk
  rw [Bool.and_eq_true, Bool.and_eq_true] at hk
  refine ⟨h.mark_le.trans p.le_succ, h.field_le.trans p.le_succ,
    h.query_le.trans p.le_succ, ?_, ?_, ?_, fun hf => h.name ?_, h.data⟩
  · rw [slice_snoc h.mark_le hb, ← h.mark]
    rfl
  · rw [slice_snoc h.field_le hb, ← h.field]
    rfl
  · rw [slice_snoc h.query_le hb, ← h.query]
    rfl
  · rw [hf] at hk
    exact hk.1.2

end Sees

/-- The scan and `read` from the same place on. -/
theorem sweep_read {relaxed : Bool} {r : Bytes} (bs : Bytes) :
    ∀ {p cs : Nat} {y : Scan} {z : Reading} {s : Stop Scan},
      Sees r (sketchOf cs) p y z → r.drop p = bs →
      sweep (RequestTable.transition relaxed) HttpAction.isDone Scan.act p bs
        cs y = s →
      if s.halt = .finished then ∃ z', read relaxed cs z bs
          = some (z', r.drop s.pos)
        ∧ z'.data = replay r (fun _ => 0) s.regs.tokens
      else read relaxed cs z bs = none := by
  induction bs with
  | nil =>
      intro p cs y z s _ _ hs
      cases hs
      rfl
  | cons b bs ih =>
      intro p cs y z s h hbs hs
      have hb : r[p]? = some b := by
        rw [← List.head?_drop, hbs]
        rfl
      have hbs' : r.drop (p + 1) = bs := by
        rw [← List.drop_drop, hbs]
        rfl
      unfold sweep at hs
      unfold read
      split at hs
      next hnext =>
        cases hs
        rw [hnext]
        rfl
      next acts t hnext =>
        obtain ⟨space, k, -, hk, hcov, -, -⟩ := transition_ok hnext
        have hacts := Sees.actions acts h hk
        rw [hnext]
        dsimp only
        split at hs
        next hlast =>
          cases hs
          rw [if_pos rfl, if_pos hlast, hbs']
          exact ⟨_, rfl, hacts.data⟩
        next hlast =>
          rw [if_neg hlast]
          exact ih (hacts.push hcov hb) hbs' hs

/-- A request from one read: `read` stores it, and the body is there. -/
theorem recvRequest_read {env : SessionEnv} {waits : Bool} {r : Bytes}
    {req : HttpRequest} (hfit : r.length ≤ env.bufferSize) :
    (∃ c', HttpSession.recvRequest env ⟨[r], waits⟩ = .ok (some req, c'))
      ↔ ∃ z rest d, read env.uninit.uriRelaxed RequestTable.start .init r
          = some (z, rest) ∧ z.data = some d
        ∧ (HttpSession.contentLength env d).toNat ≤ rest.length
        ∧ req = HttpSession.withBody env d rest := by
  by_cases hr : r = []
  · subst hr
    refine iff_of_false (fun ⟨_, h⟩ => HttpSession.recvRequest_ne_nil h rfl) ?_
    intro h
    obtain ⟨z, rest, d, hz, -⟩ := h
    nomatch hz
  have hread := sweep_read r (Sees.init r) rfl
    (s := scan env.uninit.uriRelaxed r) rfl
  rw [HttpSession.recvRequest_iff (pieces_whole r) (List.flatten_singleton ..)
    (by simpa using ⟨hr, hfit⟩)]
  split at hread
  next hfin =>
    obtain ⟨z', hz', hdata⟩ := hread
    rw [hz']
    constructor
    · intro h
      obtain ⟨-, d, hd, hle, hreq⟩ := h
      exact ⟨z', _, d, rfl, hdata.trans hd, hle, hreq⟩
    · intro h
      obtain ⟨z, rest, d, hz, hd, hle, hreq⟩ := h
      cases hz
      exact ⟨hfin, d, hdata.symm.trans hd, hle, hreq⟩
  next hfin =>
    rw [hread]
    refine iff_of_false (fun h => hfin h.1) fun h => ?_
    obtain ⟨z, rest, d, hz, -⟩ := h
    nomatch hz

end TinyServer.Http
