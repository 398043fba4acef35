/-
The versions of requests and responses.

`on_request_version` takes `HTTP/1.1` for 0x11, `HTTP/1.0` for 0x10 and
refuses every other token. `on_response_version` asks for `HTTP/1.0`
twice, the second time for what is not `HTTP/1.0`: it takes that token
for 0x11 and every other one for 0x10, and refuses none. Since `dump`
prints 0x10 as `HTTP/1.0`, no response has its version back after it was
printed and parsed. Behind the version there is no way back to it in the
machine (`version_rows`), so what was taken stays.
-/
import TinyServer.Http.Proofs.Headers
import TinyServer.Http.Proofs.ResponseHeader
import TinyServer.Http.Proofs.Scan

namespace TinyServer.Http

open Lib

-- ==================================================================== tokens

/-- A non-empty row of decimal digits. -/
def IsDigits (ds : Bytes) : Prop := ds ≠ [] ∧ ∀ b ∈ ds, 48 ≤ b ∧ b ≤ 57

/-- `HTTP/digits.digits` -/
def VersionToken (t : Bytes) : Prop :=
  ∃ major minor, IsDigits major ∧ IsDigits minor
    ∧ t = ascii "HTTP/" ++ major ++ ascii "." ++ minor

/-- The version that a token stands for. -/
def versionNumber (t : Bytes) : Option Nat :=
  if t = ascii "HTTP/1.1" then some 0x11
  else if t = ascii "HTTP/1.0" then some 0x10
  else none

/-- Set the version, or report error 1001. -/
def RequestRegs.withVersion (x : RequestRegs) : Option Nat → RequestRegs
  | some v => { x with data := { x.data with version := v } }
  | none => { x with error := 1001 }

def ResponseRegs.withVersion (x : ResponseRegs) : Option Nat → ResponseRegs
  | some v => { x with data := { x.data with version := v } }
  | none => { x with error := 1001 }

theorem isDigits_toDecimal (n : Nat) : IsDigits (toDecimal n) :=
  ⟨toDecimal_ne_nil n, toDecimal_digit n⟩

variable {t rest : Bytes}

theorem VersionToken.length (h : VersionToken t) : 8 ≤ t.length := by
  obtain ⟨major, minor, ⟨hmajor, -⟩, ⟨hminor, -⟩, rfl⟩ := h
  have h₁ := List.length_pos_iff.mpr hmajor
  have h₂ := List.length_pos_iff.mpr hminor
  have h₃ : (ascii "HTTP/").length = 5 := rfl
  have h₄ : (ascii ".").length = 1 := rfl
  simp only [List.length_append, h₃, h₄]
  omega

theorem VersionToken.cStr (h : VersionToken t) : cStr t = t := by
  obtain ⟨major, minor, ⟨-, hmajor⟩, ⟨-, hminor⟩, rfl⟩ := h
  have hdigit : ∀ {b : UInt8}, 48 ≤ b ∧ b ≤ 57 → b ≠ 0 := by
    rintro b ⟨hb, -⟩ rfl
    exact absurd hb (by decide)
  apply cStr_eq_self
  simp only [List.mem_append, not_or]
  refine ⟨⟨⟨by decide, fun h0 => ?_⟩, by decide⟩, fun h0 => ?_⟩
  · exact hdigit (hmajor 0 h0) rfl
  · exact hdigit (hminor 0 h0) rfl

/-- A token compared with a text of eight characters. -/
theorem VersionToken.strncmpEq_iff (h : VersionToken t) (rest : Bytes)
    {v : Bytes} (hv : TinyServer.Http.cStr v = v) (hlen : v.length = 8) :
    strncmpEq (t ++ rest) v t.length = true ↔ t = v := by
  have hle : v.length ≤ t.length := hlen ▸ h.length
  rw [strncmpEq_append, strncmpEq, h.cStr, hv, Int.toNat_natCast,
    List.take_length, List.take_of_length_le hle, decide_eq_true_eq]

/-- Requests: the version that the token stands for. -/
theorem onRequestVersion_token (h : VersionToken t) (x : RequestRegs) :
    x.onRequestVersion (t ++ rest) t.length
      = x.withVersion (versionNumber t) := by
  have h₁₁ := h.strncmpEq_iff rest (v := ascii "HTTP/1.1") rfl rfl
  have h₁₀ := h.strncmpEq_iff rest (v := ascii "HTTP/1.0") rfl rfl
  unfold RequestRegs.onRequestVersion versionNumber
  simp only [h₁₁, h₁₀]
  split
  · rfl
  · split <;> rfl

/-- Responses: 0x11 for `HTTP/1.0` and 0x10 for the rest. -/
theorem onResponseVersion_token (h : VersionToken t) (x : ResponseRegs) :
    x.onResponseVersion (t ++ rest) t.length
      = x.withVersion (some (if t = ascii "HTTP/1.0" then 0x11 else 0x10)) := by
  have h₁₀ := h.strncmpEq_iff rest (v := ascii "HTTP/1.0") rfl rfl
  unfold ResponseRegs.onResponseVersion
  by_cases ht : t = ascii "HTTP/1.0"
  · rw [if_pos (h₁₀.mpr ht), if_pos ht]
    rfl
  · have hne := Bool.eq_false_iff.mpr (mt h₁₀.mp ht)
    rw [if_neg (mt h₁₀.mp ht), hne, if_neg ht]
    rfl

/-- No token is taken for the version it stands for, or refused for
standing for none. -/
theorem onResponseVersion_wrong (h : VersionToken t) {x : ResponseRegs}
    (hx : x.error = 0) :
    x.onResponseVersion (t ++ rest) t.length
      ≠ x.withVersion (versionNumber t) := by
  rw [onResponseVersion_token h]
  unfold versionNumber
  have hne : ascii "HTTP/1.1" ≠ ascii "HTTP/1.0" := by decide
  intro heq
  by_cases h₁₁ : t = ascii "HTTP/1.1"
  · have h₁₀ : t ≠ ascii "HTTP/1.0" := fun h => hne (h₁₁.symm.trans h)
    rw [if_pos h₁₁, if_neg h₁₀] at heq
    have hv := congrArg (fun y => y.data.version) heq
    simp [ResponseRegs.withVersion] at hv
  · rw [if_neg h₁₁] at heq
    by_cases h₁₀ : t = ascii "HTTP/1.0"
    · rw [if_pos h₁₀, if_pos h₁₀] at heq
      have hv := congrArg (fun y => y.data.version) heq
      simp [ResponseRegs.withVersion] at hv
    · rw [if_neg h₁₀, if_neg h₁₀] at heq
      have he := congrArg ResponseRegs.error heq
      simp [ResponseRegs.withVersion, hx] at he

-- ================================================================= the machine

namespace ClientTable

/-- The states behind the version. -/
def afterVersion (cs : Nat) : Bool := cs = 3 || 16 ≤ cs

/-- An entry of the table keeps to these states and does not take a
version there. -/
def versionEntry (cs : Nat) (r : Range Label) : Bool :=
  !afterVersion cs
    || (resolve r.label).all fun (acts, t) =>
      !acts.contains .httpVersion && afterVersion t

theorem version_rows : tableAll versionEntry 0 rows = true := by
  decide +kernel

theorem afterVersion_transition {cs t : Nat} {b : UInt8}
    {acts : List ClientAction} (h : transition cs b = some (acts, t))
    (hcs : afterVersion cs = true) :
    .httpVersion ∉ acts ∧ afterVersion t = true := by
  obtain ⟨l, hl, hres⟩ := Option.bind_eq_some_iff.mp h
  obtain ⟨r, hr, rfl, -, -⟩ := tableAll_lookup version_rows hl
  rw [versionEntry, hcs, hres] at hr
  simpa using hr

/-- The digits lead from `cs` to `t`, without an action, and stay there. -/
def DigitsTo (cs t : Nat) : Prop :=
  ∀ n < 58, 48 ≤ n → transition cs (UInt8.ofNat n) = some ([], t)
    ∧ transition t (UInt8.ofNat n) = some ([], t)

theorem DigitsTo.transition {cs t : Nat} (h : DigitsTo cs t) {b : UInt8}
    (hb : 48 ≤ b ∧ b ≤ 57) : transition cs b = some ([], t)
      ∧ ClientTable.transition t b = some ([], t) := by
  have hlo : 48 ≤ b.toNat := hb.1
  have hhi : b.toNat ≤ 57 := hb.2
  have hn := h b.toNat (by omega) hlo
  rw [UInt8.ofNat_toNat] at hn
  exact hn

theorem digitsTo_major : DigitsTo 12 13 := by
  unfold DigitsTo
  decide +kernel

theorem digitsTo_minor : DigitsTo 14 15 := by
  unfold DigitsTo
  decide +kernel

variable {σ : Type} {f : Nat → ClientAction → σ → σ} {x : σ}

/-- The digits of a number. -/
theorem sweep_number {ds rest : Bytes} (hds : IsDigits ds) {cs t : Nat}
    (h : DigitsTo cs t) (p : Nat) :
    sweep transition ClientAction.isDone f p (ds ++ rest) cs x
      = sweep transition ClientAction.isDone f (p + ds.length) rest t x := by
  obtain ⟨hne, hall⟩ := hds
  obtain ⟨d, ds, rfl⟩ := List.exists_cons_of_ne_nil hne
  rw [List.cons_append, sweep, (h.transition (hall d List.mem_cons_self)).1]
  simp only [List.any_nil, Bool.false_eq_true, if_false, List.foldl_nil]
  rw [sweep_loop ds fun b hb =>
    (h.transition (hall b (List.mem_cons_of_mem d hb))).2, List.length_cons,
    Nat.add_assoc, Nat.add_comm 1]

/-- A byte on which the machine moves without an action. -/
theorem sweep_byte {b : UInt8} {rest : Bytes} {cs t : Nat}
    (h : transition cs b = some ([], t)) (p : Nat) :
    sweep transition ClientAction.isDone f p (b :: rest) cs x
      = sweep transition ClientAction.isDone f (p + 1) rest t x := by
  rw [sweep, h]
  rfl

/-- The machine over a version and the blank behind it. -/
theorem sweep_version {t rest : Bytes} (h : VersionToken t) :
    sweep transition ClientAction.isDone f 0 (t ++ 32 :: rest) start x
      = sweep transition ClientAction.isDone f (t.length + 1) rest 16
        (f t.length .httpVersion (f 0 .mark x)) := by
  obtain ⟨major, minor, hmajor, hminor, rfl⟩ := h
  have htext : ascii "HTTP/" ++ major ++ ascii "." ++ minor ++ 32 :: rest
      = 72 :: 84 :: 84 :: 80 :: 47 ::
        (major ++ 46 :: (minor ++ 32 :: rest)) := by
    have hname : ascii "HTTP/" = [72, 84, 84, 80, 47] := by decide
    have hdot : ascii "." = [46] := by decide
    simp [hname, hdot]
  have hlen : (ascii "HTTP/" ++ major ++ ascii "." ++ minor).length
      = 0 + 1 + 1 + 1 + 1 + 1 + major.length + 1 + minor.length := by
    have hname : (ascii "HTTP/").length = 5 := rfl
    have hdot : (ascii ".").length = 1 := rfl
    simp only [List.length_append, hname, hdot]
  have hfirst : transition start 72 = some ([.mark], 8) := rfl
  have hlast : transition 15 32 = some ([.httpVersion], 16) := rfl
  rw [htext, hlen, sweep, hfirst]
  simp only [List.any_cons, List.any_nil, ClientAction.isDone, Bool.or_false,
    Bool.false_eq_true, if_false, List.foldl_cons, List.foldl_nil]
  rw [sweep_byte (t := 9) rfl, sweep_byte (t := 10) rfl,
    sweep_byte (t := 11) rfl, sweep_byte (t := 12) rfl,
    sweep_number hmajor digitsTo_major, sweep_byte (t := 14) rfl,
    sweep_number hminor digitsTo_minor, sweep, hlast]
  rfl

end ClientTable

/-- Only the action for the version sets it. -/
theorem ResponseRegs.perform_version {x : ResponseRegs} {buf : Bytes} {p : Nat}
    {a : ClientAction} (ha : a ≠ .httpVersion) :
    (x.perform buf p a).data.version = x.data.version := by
  cases a with
  | httpVersion => exact absurd rfl ha
  | writeValue =>
      simp only [perform, onResponseHttpField]
      split <;> rfl
  | _ => rfl

-- ============================================================== round trips

/-- The version as `HttpResponse::dump` prints it. -/
def printedVersion (v : Nat) : Bytes :=
  ascii "HTTP/" ++ toDecimal (v / 16) ++ ascii "." ++ toDecimal (v % 16)

theorem versionToken_printed (v : Nat) : VersionToken (printedVersion v) :=
  ⟨_, _, isDigits_toDecimal _, isDigits_toDecimal _, rfl⟩

theorem dump_printed (r : HttpResponse) :
    ∃ rest, r.dump = printedVersion r.version ++ 32 :: rest := by
  have hspace : ascii " " = [32] := by decide
  unfold HttpResponse.dump printedVersion
  simp only [List.append_assoc, hspace, List.cons_append, List.nil_append]
  exact ⟨_, rfl⟩

namespace HttpResponseParser

/-- The machine is behind the version `v`, and the body starts within
what was read. -/
def BehindVersion (v p cs : Nat) (y : ResponseRegs) : Prop :=
  ClientTable.afterVersion cs = true ∧ y.bodyStart ≤ p
    ∧ y.data.version = v

theorem BehindVersion.step {buf : Bytes} {v cs : Nat} {b : UInt8}
    {acts : List ClientAction} {t p : Nat} {y : ResponseRegs}
    (hjump : ClientTable.transition cs b = some (acts, t))
    (h : BehindVersion v p cs y) :
    BehindVersion v (p + 1) t
      (acts.foldl (fun y a => y.perform buf p a) y) := by
  obtain ⟨hcs, hstart, hversion⟩ := h
  obtain ⟨hacts, ht⟩ := ClientTable.afterVersion_transition hjump hcs
  refine ⟨ht, ?_⟩
  refine List.foldlRecOn (motive := fun y : ResponseRegs =>
    y.bodyStart ≤ p + 1 ∧ y.data.version = v) acts _
    ⟨Nat.le_succ_of_le hstart, hversion⟩ fun y hy a ha => ?_
  refine ⟨ResponseRegs.perform_bodyStart_le hy.1, ?_⟩
  rw [ResponseRegs.perform_version fun heq => hacts (heq ▸ ha)]
  exact hy.2

/-- What `HttpResponseParser` takes for the version of a text that starts
with a version. -/
theorem execute_token (status : Int) (h : VersionToken t) (rest : Bytes) :
    ∃ n ps, (new status).execute (t ++ 32 :: rest) false = some (n, ps)
      ∧ ps.regs.data.version
        = if t = ascii "HTTP/1.0" then 0x11 else 0x10 := by
  obtain ⟨x, hx⟩ : ∃ x, ((new status).regs.rewind.perform (t ++ 32 :: rest) 0
      .mark).perform (t ++ 32 :: rest) t.length .httpVersion = x := ⟨_, rfl⟩
  have hversion : x.data.version
      = if t = ascii "HTTP/1.0" then 0x11 else 0x10 := by
    rw [← hx, ResponseRegs.perform, ResponseRegs.perform]
    dsimp only
    rw [List.drop_zero, Nat.sub_zero, onResponseVersion_token h]
    rfl
  have hbody : x.bodyStart = 0 := by
    rw [← hx]
    exact ResponseRegs.perform_bodyStart (a := .httpVersion) rfl
  obtain ⟨q, u, hq, -, hstart, hkept⟩ :
      ∃ q u, q ≤ t.length + 1 + rest.length
        ∧ BehindVersion x.data.version q u
          (sweep ClientTable.transition ClientAction.isDone
            (ResponseRegs.perform (t ++ 32 :: rest)) (t.length + 1) rest 16
            x).regs :=
    sweep_reached (I := BehindVersion x.data.version) BehindVersion.step rest
      ⟨rfl, by omega, rfl⟩
  have hlen : (t ++ 32 :: rest).length = t.length + 1 + rest.length := by
    rw [List.length_append, List.length_cons]
    omega
  have hcs : (new status).cs = ClientTable.start := rfl
  unfold execute
  simp only [Bool.false_eq_true, if_false]
  rw [hcs, ClientTable.sweep_version h, hx, if_pos (by omega)]
  exact ⟨_, _, rfl, hkept.trans hversion⟩

/-- For a printed response. -/
theorem execute_dump (status : Int) (r : HttpResponse) :
    ∃ n ps, (new status).execute r.dump false = some (n, ps)
      ∧ ps.regs.data.version
        = if printedVersion r.version = ascii "HTTP/1.0" then 0x11
          else 0x10 := by
  obtain ⟨rest, hdump⟩ := dump_printed r
  rw [hdump]
  exact execute_token status (versionToken_printed r.version) rest

end HttpResponseParser

/-- Requests have the version that their token stands for, and an error
for the other tokens; no token of a response has; and the version that
`HttpResponse::dump` prints is never the one that `HttpResponseParser`
takes from it. -/
theorem versions_agree_never (status : Int) (r : HttpResponse)
    (rest : Bytes) :
    (∀ t, VersionToken t → ∀ x : RequestRegs,
        x.onRequestVersion (t ++ rest) t.length
          = x.withVersion (versionNumber t))
      ∧ (∀ t, VersionToken t → ∀ x : ResponseRegs,
          x.error = 0 → x.onResponseVersion (t ++ rest) t.length
            ≠ x.withVersion (versionNumber t))
      ∧ ∃ n ps,
          (HttpResponseParser.new status).execute r.dump false = some (n, ps)
            ∧ ps.regs.data.version ≠ r.version := by
  refine ⟨fun t ht x => onRequestVersion_token ht x,
    fun t ht x hx => onResponseVersion_wrong ht hx, ?_⟩
  obtain ⟨n, ps, hexec, hversion⟩ :=
    HttpResponseParser.execute_dump status r
  refine ⟨n, ps, hexec, ?_⟩
  rw [hversion]
  split
  next hprinted =>
      rintro heq
      rw [← heq] at hprinted
      exact absurd hprinted (by decide)
  next hprinted =>
      rintro heq
      rw [← heq] at hprinted
      exact absurd rfl hprinted

/-- A response of version 1.1 is parsed as 1.0, and one of version 1.0
as 1.1. -/
theorem response_version_swapped :
    (∃ n ps, (HttpResponseParser.new 0).execute HttpResponse.new.dump false
        = some (n, ps) ∧ HttpResponse.new.version = 0x11
          ∧ ps.regs.data.version = 0x10)
      ∧ ∃ n ps, (HttpResponseParser.new 0).execute
          { HttpResponse.new with version := 0x10 }.dump false = some (n, ps)
            ∧ ps.regs.data.version = 0x11 := by
  obtain ⟨n, ps, hexec, hversion⟩ :=
    HttpResponseParser.execute_dump 0 HttpResponse.new
  obtain ⟨n', ps', hexec', hversion'⟩ :=
    HttpResponseParser.execute_dump 0 { HttpResponse.new with version := 0x10 }
  exact ⟨⟨n, ps, hexec, rfl, hversion⟩, n', ps', hexec', hversion'⟩

end TinyServer.Http
