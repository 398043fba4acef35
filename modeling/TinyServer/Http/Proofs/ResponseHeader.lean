/-
What `HttpResponseParser::execute` does with the header of a chunked
response, in any pieces, and with the size line of a chunk.

`scanHeader` is the machine over a whole header with a single register:
whether `Transfer-Encoding: chunked` was read. The parser makes the same
moves on the pieces, since its state is kept from one piece to the next,
and what it records of the transfer encoding is not an offset.
-/
import Mathlib.Algebra.Group.Nat.Defs
import TinyServer.Http.Connection
import TinyServer.Http.Proofs.Number

namespace TinyServer.Http

open Lib

-- ================================================================= the header

/-- The register of `scanHeader`. -/
def sawChunked (_ : Nat) (a : ClientAction) (y : Bool) : Bool :=
  y || a = .transChunked

/-- The machine over the text `h`. -/
def scanHeader (h : Bytes) : Stop Bool :=
  sweep ClientTable.transition ClientAction.isDone sawChunked 0 h
    ClientTable.start false

/-- The text is a response header, complete with its last byte and not
before, that has a field `Transfer-Encoding: chunked`. -/
structure AnnouncesChunked (h : Bytes) : Prop where
  halt : (scanHeader h).halt = .finished
  pos : (scanHeader h).pos = h.length
  cs : (scanHeader h).cs = ClientTable.firstFinal
  chunked : (scanHeader h).regs = true

/-- The parser has recorded what the scan has, and no error. -/
def Follows (x : ResponseRegs) (y : Bool) : Prop :=
  (y = true → x.chunked = true) ∧ x.error = 0

namespace ResponseRegs

variable {x : ResponseRegs} {y : Bool} {buf : Bytes} {p q : Nat}
  {a : ClientAction}

theorem onResponseVersion_error (at_ : Bytes) (length : Nat) :
    (x.onResponseVersion at_ length).error = x.error := by
  unfold onResponseVersion
  split
  · rfl
  · split
    · rfl
    · next h h' => simp [h] at h'

theorem follows_perform (h : Follows x y) :
    Follows (x.perform buf p a) (sawChunked q a y) := by
  obtain ⟨hc, he⟩ := h
  cases a with
  | transChunked => exact ⟨fun _ => rfl, he⟩
  | chunkSize => exact ⟨fun _ => rfl, he⟩
  | httpVersion =>
      refine ⟨fun hy => ?_, (onResponseVersion_error _ _).trans he⟩
      have hx := hc (by simpa [sawChunked] using hy)
      simp only [perform, onResponseVersion]
      split
      · exact hx
      · split <;> exact hx
  | writeValue =>
      have hx : y = true → x.chunked = true := hc
      simp only [perform, onResponseHttpField]
      split
      · exact ⟨fun hy => hx (by simpa [sawChunked] using hy), he⟩
      · exact ⟨fun hy => hx (by simpa [sawChunked] using hy), he⟩
  | _ => exact ⟨fun hy => hc (by simpa [sawChunked] using hy), he⟩

theorem perform_bodyStart (h : a.isDone = false) :
    (x.perform buf p a).bodyStart = x.bodyStart := by
  cases a with
  | done => cases h
  | httpVersion =>
      simp only [perform, onResponseVersion]
      split
      · rfl
      · split <;> rfl
  | writeValue =>
      simp only [perform, onResponseHttpField]
      split <;> rfl
  | _ => rfl

/-- `body_start` is right behind the position where it is set. -/
theorem perform_bodyStart_le (h : x.bodyStart ≤ p + 1) :
    (x.perform buf p a).bodyStart ≤ p + 1 := by
  cases ha : a.isDone with
  | true =>
      cases a <;> first | exact Nat.le_refl _ | cases ha
  | false =>
      rw [perform_bodyStart ha]
      exact h

end ResponseRegs

namespace HttpResponseParser

variable {ps : HttpResponseParser} {y : Bool} {data : Bytes} {q : Nat}

/-- A piece of a header. -/
theorem execute_piece {z : Stop Bool} (hf : Follows ps.regs y)
    (hb : ps.regs.bodyStart = 0)
    (hz : sweep ClientTable.transition ClientAction.isDone sawChunked q data
      ps.cs y = z) (hhalt : z.halt ≠ .failed) :
    ∃ n ps', ps.execute data false = some (n, ps') ∧ n + q = z.pos
      ∧ ps'.cs = z.cs ∧ Follows ps'.regs z.regs
      ∧ (z.halt = .running → ps'.regs.bodyStart = 0) := by
  generalize hs : sweep ClientTable.transition ClientAction.isDone
    (ResponseRegs.perform data) 0 data ps.cs ps.regs.rewind = s
  have hrewind : Follows ps.regs.rewind y := hf
  obtain ⟨hh, hcs, hpos, hregs⟩ :=
    sweep_rel (f := ResponseRegs.perform data) (g := sawChunked)
      (R := Follows) ResponseRegs.follows_perform data hrewind hs hz
  have hle : s.regs.bodyStart ≤ s.pos := by
    refine sweep_inv (I := fun p _ x => x.bodyStart ≤ p) ?_ data
      (show ps.regs.rewind.bodyStart ≤ 0 from Nat.le_of_eq hb) hs
      (hh ▸ hhalt)
    intro cs b acts t p x _ hx
    refine List.foldlRecOn (motive := fun x : ResponseRegs =>
      x.bodyStart ≤ p + 1) acts _
      (Nat.le_succ_of_le hx) fun x hx a _ => ?_
    exact ResponseRegs.perform_bodyStart_le hx
  have hend := (sweep_pos data hs).2.2.2
  rw [Nat.zero_add] at hend
  refine ⟨s.pos, ⟨s.cs, s.regs⟩, ?_, hpos, hcs, hregs, fun hrun => ?_⟩
  · simp only [execute, Bool.false_eq_true, if_false, hs]
    rw [if_pos (Nat.le_trans hle hend)]
  · have hrun' : (sweep ClientTable.transition ClientAction.isDone
        (ResponseRegs.perform data) 0 data ps.cs
        ps.regs.rewind).halt = .running := by
      rw [hs, hh, hrun]
    have hzero := sweep_running (F := fun x => x.bodyStart = 0)
      (fun ha hx => (ResponseRegs.perform_bodyStart ha).trans hx) data
      (show ps.regs.rewind.bodyStart = 0 from hb) hrun'
    rw [hs] at hzero
    exact hzero

end HttpResponseParser

-- ============================================================== the size line

/-- A hexadecimal digit. -/
def isHexDigit (b : UInt8) : Bool := (digitVal 16 b).isSome

/-- A property of all bytes, checked value by value. -/
private theorem forall_byte {P : UInt8 → Prop}
    (h : ∀ n < 256, P (UInt8.ofNat n)) (b : UInt8) : P b := by
  have hb := h b.toNat b.toNat_lt
  rwa [UInt8.ofNat_toNat] at hb

theorem transition_digit {b : UInt8} (h : isHexDigit b = true) :
    ClientTable.transition 1 b = some ([.mark], 2)
      ∧ ClientTable.transition 2 b = some ([], 2) := by
  refine forall_byte (P := fun b => isHexDigit b = true →
    ClientTable.transition 1 b = some ([.mark], 2)
      ∧ ClientTable.transition 2 b = some ([], 2)) ?_ b h
  decide +kernel

/-- The machine goes over digits without an action. -/
theorem sweep_digits {σ : Type} {f : Nat → ClientAction → σ → σ} {x : σ}
    {rest : Bytes} (ds : Bytes) (hds : ∀ b ∈ ds, isHexDigit b = true) :
    ∀ p, sweep ClientTable.transition ClientAction.isDone f p (ds ++ rest)
        2 x
      = sweep ClientTable.transition ClientAction.isDone f (p + ds.length)
        rest 2 x := by
  exact fun p => sweep_loop ds fun b hb => (transition_digit (hds b hb)).2

/-- Digits at the front of a line are not `0x`. -/
theorem dropHexMark_line {ds : Bytes} (rest : Bytes) (hne : ds ≠ [])
    (hds : ∀ d ∈ ds, isHexDigit d = true) :
    dropHexMark 16 (ds ++ 13 :: rest) = ds ++ 13 :: rest := by
  unfold dropHexMark
  split
  next x d bs heq =>
    -- what follows the first digit is a digit or the end of the line
    have hx : x ≠ 120 ∧ x ≠ 88 := by
      rcases ds with _ | ⟨d₁, _ | ⟨d₂, ds⟩⟩
      · exact absurd rfl hne
      · simp only [List.cons_append, List.nil_append, List.cons.injEq] at heq
        rw [← heq.2.1]
        decide
      · simp only [List.cons_append, List.cons.injEq] at heq
        have hd := digit_plain (hds d₂ (by simp))
        rw [heq.2.1] at hd
        exact hd.2.2.2
    rw [if_neg fun h => h.2.1.elim hx.1 hx.2]
    exact heq.symm
  next => rfl

/-- `strtol` of a size line. -/
theorem strtol_line {ds rest : Bytes} (hne : ds ≠ [])
    (hds : ∀ d ∈ ds, isHexDigit d = true)
    (hbound : digitsValue 16 0 ds < 2 ^ 63) :
    strtol 16 (ds ++ 13 :: rest) = digitsValue 16 0 ds := by
  rw [strtol_digits hne hds (fun b bs hb => by cases hb; rfl)
    (dropHexMark_line rest hne hds)]
  omega

/-- The machine over a size line: the size is taken at its end. -/
theorem sweep_line {σ : Type} {f : Nat → ClientAction → σ → σ} {x : σ}
    {ds rest : Bytes} (hne : ds ≠ [])
    (hds : ∀ d ∈ ds, isHexDigit d = true) :
    sweep ClientTable.transition ClientAction.isDone f 0
        (ds ++ crlf ++ rest) 1 x
      = ⟨.finished, (ds ++ crlf).length, 120,
        f (ds.length + 1) .done (f ds.length .chunkSize (f 0 .mark x))⟩ := by
  obtain ⟨d, ds', rfl⟩ := List.exists_cons_of_ne_nil hne
  have hd := (transition_digit (hds d List.mem_cons_self)).1
  have hcr : ClientTable.transition 2 13 = some ([.chunkSize], 3) := rfl
  have hlf : ClientTable.transition 3 10 = some ([.done], 120) := rfl
  rw [List.append_assoc, List.cons_append, sweep, hd]
  simp only [List.any_cons, List.any_nil, ClientAction.isDone, Bool.or_false,
    Bool.false_eq_true, if_false, List.foldl_cons, List.foldl_nil]
  rw [sweep_digits ds' fun c hc => hds c (List.mem_cons_of_mem _ hc), crlf,
    List.cons_append, sweep, hcr]
  simp only [List.any_cons, List.any_nil, ClientAction.isDone, Bool.or_false,
    Bool.false_eq_true, if_false, List.foldl_cons, List.foldl_nil]
  rw [List.cons_append, sweep, hlf]
  simp only [List.any_cons, List.any_nil, ClientAction.isDone, Bool.or_false,
    if_true, List.foldl_cons, List.foldl_nil, List.length_append,
    List.length_cons, List.length_nil]
  rw [Nat.add_comm 1 ds'.length]

namespace HttpResponseParser

/-- The size line of a chunk, with whatever follows it. -/
theorem execute_line (ps : HttpResponseParser) (rest : Bytes) {ds : Bytes}
    {n : Nat} (hne : ds ≠ []) (hds : ∀ d ∈ ds, isHexDigit d = true)
    (hval : digitsValue 16 0 ds = n) (hn : n < 2 ^ 31) :
    ∃ ps', ps.execute (ds ++ crlf ++ rest) true
        = some ((ds ++ crlf).length, ps')
      ∧ ps'.cs = ClientTable.firstFinal ∧ ps'.regs.error = ps.regs.error
      ∧ ps'.regs.contentLen = n ∧ ps'.regs.chunksDone = decide (n = 0) := by
  have hsize : toInt (strtol 16 (ds ++ crlf ++ rest)) = n := by
    rw [List.append_assoc]
    refine (congrArg toInt (strtol_line hne hds (by omega))).trans ?_
    rw [hval, toInt_of_lt hn]
  have hbody : ds.length + 1 + 1 ≤ (ds ++ crlf ++ rest).length := by
    simp only [crlf, List.length_append, List.length_cons, List.length_nil]
    omega
  let regs := ((ps.regs.init.rewind.perform (ds ++ crlf ++ rest) 0
    .mark).perform (ds ++ crlf ++ rest) ds.length .chunkSize).perform
      (ds ++ crlf ++ rest) (ds.length + 1) .done
  refine ⟨⟨120, regs⟩, ?_, rfl, rfl, hsize, ?_⟩
  · simp only [execute, if_true, init, ClientTable.start]
    rw [sweep_line hne hds]
    exact if_pos hbody
  · show decide (toInt (strtol 16 (ds ++ crlf ++ rest)) ≤ 0) = _
    rw [hsize]
    simp only [decide_eq_decide]
    omega

/-- A buffer that starts with `\r` is no size line. -/
theorem execute_cr (ps : HttpResponseParser) (rest : Bytes) :
    ∃ ps', ps.execute (13 :: rest) true = some (0, ps') ∧ ps'.cs = 0 :=
  ⟨_, rfl, rfl⟩

end HttpResponseParser

end TinyServer.Http
