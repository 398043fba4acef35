/-
The names of fields in the machine of `httpclient_parser_execute`.

The machine knows three names, `connection`, `content-length` and
`transfer-encoding`, in any case. It follows a name along these as long
as it can and goes to state 21 where they part; `letters` are the moves
along them. The checks of the table go by its ranges (`rows_ok`). What
follows for all names is that a token is read (`follow_name`) and, when
it is not a known name, is the name of an ordinary field
(`colon_other`).
-/
import Mathlib.Data.List.Induction
import TinyServer.Http.Basic
import TinyServer.Http.ClientTable
import TinyServer.Lib.Cover

namespace TinyServer.Http

open Lib

namespace ClientTable

-- ================================================================== following

/-- The state after a text without an action. -/
def walk (cs : Nat) : Bytes → Option Nat
  | [] => some cs
  | b :: bs =>
      match transition cs b with
      | some (acts, t) => if acts = [] then walk t bs else none
      | none => none

/-- The state after a text that starts with the action `a` and has no
other. -/
def follow (a : ClientAction) (cs : Nat) : Bytes → Option Nat
  | [] => some cs
  | b :: bs =>
      match transition cs b with
      | some (acts, t) => if acts = [a] then walk t bs else none
      | none => none

variable {cs t : Nat} {b : UInt8} {w : Bytes} {a : ClientAction}

theorem walk_cons : walk cs (b :: w) = some t
    ↔ ∃ c, transition cs b = some ([], c) ∧ walk c w = some t := by
  rw [walk]
  constructor
  · intro h
    split at h
    next acts c hstep =>
      split at h
      next hacts => exact ⟨c, hacts ▸ hstep, h⟩
      next => cases h
    next => cases h
  · rintro ⟨c, hstep, h⟩
    rw [hstep]
    exact h

theorem follow_cons : follow a cs (b :: w) = some t
    ↔ ∃ c, transition cs b = some ([a], c) ∧ walk c w = some t := by
  rw [follow]
  constructor
  · intro h
    split at h
    next acts c hstep =>
      split at h
      next hacts => exact ⟨c, hacts ▸ hstep, h⟩
      next => cases h
    next => cases h
  · rintro ⟨c, hstep, h⟩
    rw [hstep]
    exact (if_pos rfl).trans h

/-- A state that a set of bytes does not leave. -/
theorem walk_loop {P : UInt8 → Prop}
    (hstep : ∀ b, P b → transition cs b = some ([], cs)) :
    ∀ w : Bytes, (∀ b ∈ w, P b) → walk cs w = some cs := by
  intro w
  induction w with
  | nil => exact fun _ => rfl
  | cons b w ih =>
      intro hw
      obtain ⟨hb, hw⟩ := List.forall_mem_cons.mp hw
      exact walk_cons.mpr ⟨cs, hstep b hb, ih hw⟩

-- =================================================================== the names

/-- `tspecials` -/
def tspecials : Bytes := ascii "()<>@,;:\\\"/[]?= \t" ++ [123, 125]

/-- `token`: ASCII, no control character and none of `tspecials`. -/
def isToken (b : UInt8) : Bool := 32 ≤ b && b ≤ 126 && !tspecials.contains b

/-- The names that the machine knows, and its states along them. -/
def keywords : List (Bytes × List Nat) :=
  [(ascii "connection", [25, 26, 27, 28, 29, 30, 31, 32, 33, 34]),
    (ascii "content-length",
      [25, 26, 27, 101, 102, 103, 104, 105, 106, 107, 108, 109, 110, 111]),
    (ascii "transfer-encoding",
      [44, 45, 46, 47, 48, 49, 50, 51, 52, 53, 54, 55, 56, 57, 58, 59, 60])]

/-- The beginnings of the known names, each with its state. -/
def beginnings : List (Bytes × Nat) :=
  ([], 20) :: keywords.flatMap fun k =>
    k.2.zipIdx.map fun s => (k.1.take (s.2 + 1), s.1)

/-- The moves along the known names: a state, a letter in lower case and
the next state. -/
def letters : List (Nat × Nat × Nat) :=
  [(20, 99, 25), (25, 111, 26), (26, 110, 27), (27, 110, 28), (28, 101, 29),
    (29, 99, 30), (30, 116, 31), (31, 105, 32), (32, 111, 33), (33, 110, 34),
    (27, 116, 101), (101, 101, 102), (102, 110, 103), (103, 116, 104),
    (104, 45, 105), (105, 108, 106), (106, 101, 107), (107, 110, 108),
    (108, 103, 109), (109, 116, 110), (110, 104, 111),
    (20, 116, 44), (44, 114, 45), (45, 97, 46), (46, 110, 47), (47, 115, 48),
    (48, 102, 49), (49, 101, 50), (50, 114, 51), (51, 45, 52), (52, 101, 53),
    (53, 110, 54), (54, 99, 55), (55, 111, 56), (56, 100, 57), (57, 105, 58),
    (58, 110, 59), (59, 103, 60)]

/-- The state after one more byte of a name. -/
def nextName (s : Nat) (b : UInt8) : Nat :=
  ((letters.find? fun e => e.1 = s ∧ e.2.1 = (toLower b).toNat).map
    fun e => e.2.2).getD 21

/-- The state after a name. -/
def nameState (w : Bytes) : Nat := w.foldl nextName 20

/-- The states inside a name. -/
def inName (s : Nat) : Bool :=
  s = 21 || 25 ≤ s && s ≤ 34 || 44 ≤ s && s ≤ 60 || 101 ≤ s && s ≤ 111

theorem nextName_cases (s : Nat) (b : UInt8) :
    (nextName s b = 21 ∧ ∀ t, (s, (toLower b).toNat, t) ∉ letters)
      ∨ (s, (toLower b).toNat, nextName s b) ∈ letters := by
  unfold nextName
  cases hfind : letters.find? fun e =>
      e.1 = s ∧ e.2.1 = (toLower b).toNat with
  | none =>
      refine .inl ⟨rfl, fun t ht => ?_⟩
      simpa using List.find?_eq_none.mp hfind _ ht
  | some e =>
      have hkey := List.find?_some hfind
      simp only [decide_eq_true_eq] at hkey
      obtain ⟨rfl, hletter⟩ := hkey
      rw [← hletter]
      exact .inr (List.mem_of_find?_eq_some hfind)

/-- A move of `letters` is the only one with its letter, leads into a name
and goes from one beginning to the next. -/
theorem letters_ok :
    (∀ e ∈ letters, ∀ e' ∈ letters, e.1 = e'.1 → e.2.1 = e'.2.1 → e = e')
      ∧ (∀ e ∈ letters, inName e.2.2 = true ∧ e.1 ≠ 21)
      ∧ ∀ e ∈ letters, ∀ x ∈ beginnings, x.2 = e.1 →
        (x.1 ++ [UInt8.ofNat e.2.1], e.2.2) ∈ beginnings := by
  decide +kernel

theorem nextName_of_mem {s t : Nat} {b : UInt8}
    (h : (s, (toLower b).toNat, t) ∈ letters) : nextName s b = t := by
  rcases nextName_cases s b with ⟨-, hnone⟩ | hmem
  · exact absurd h (hnone t)
  · have heq := letters_ok.1 _ hmem _ h rfl rfl
    simp only [Prod.mk.injEq, true_and] at heq
    exact heq

theorem inName_nextName (s : Nat) (b : UInt8) :
    inName (nextName s b) = true := by
  rcases nextName_cases s b with ⟨h, -⟩ | h
  · rw [h]
    rfl
  · exact (letters_ok.2.1 _ h).1

-- ================================================================== the checks

/-- The range has the letter, in one of the cases. -/
def hasLetter (r : Range Label) (letter : Nat) : Bool :=
  (r.lo ≤ letter && letter ≤ r.hi)
    || (r.lo ≤ letter - 32 && letter - 32 ≤ r.hi)

/-- The check of one entry in a row inside a name: a range of other bytes
leads to 21, a letter along a known name. -/
def nameEntry (s : Nat) (r : Range Label) : Bool :=
  !inName s || r.lo = 58 && r.hi = 58
    || match r.label with
      | .st t =>
          t = 21 && letters.all (fun e => e.1 ≠ s || !hasLetter r e.2.1)
            || r.lo = r.hi
              && letters.contains (s, (toLower (UInt8.ofNat r.lo)).toNat, t)
      | .tr _ => false

/-- The ranges of `token`. -/
def tokenRanges : List (Nat × Nat) :=
  [(33, 33), (35, 39), (42, 43), (45, 46), (48, 57), (65, 90), (94, 122),
    (124, 124), (126, 126)]

/-- The rows inside a name have a range for every byte of a token, and lead
where `nameEntry` says. A colon behind a beginning, or behind any other
name, ends it. -/
theorem rows_ok : tableAll nameEntry 0 rows = true
    ∧ (∀ s < 112, inName s = true →
      (rows[s]?.any fun row => tokenRanges.all fun t => covers row t.1 t.2)
        = true)
    ∧ (∀ e ∈ beginnings, e.1 ≠ [] → (∀ k ∈ keywords, k.1 ≠ e.1) →
      transition e.2 58 = some ([.writeField], 22))
    ∧ transition 21 58 = some ([.writeField], 22) := by
  decide +kernel

/-- Where a byte of a token leads at the beginning of a line, the range
that it is in, and the letter that it is in lower case. -/
theorem bytes_ok : ∀ n < 256,
    (isToken (UInt8.ofNat n) = true →
      (∃ t ∈ tokenRanges, t.1 ≤ n ∧ n ≤ t.2)
        ∧ transition 20 (UInt8.ofNat n)
          = some ([.startField], nextName 20 (UInt8.ofNat n)))
      ∧ ((toLower (UInt8.ofNat n)).toNat = n
        ∨ (toLower (UInt8.ofNat n)).toNat - 32 = n) := by
  decide +kernel

theorem inName_lt {s : Nat} (h : inName s = true) : s < 112 := by
  unfold inName at h
  simp only [Bool.or_eq_true, Bool.and_eq_true, decide_eq_true_eq] at h
  omega

/-- A letter of a known name is found in its range. -/
theorem hasLetter_toLower {r : Range Label} (hlo : r.lo ≤ b.toNat)
    (hhi : b.toNat ≤ r.hi) : hasLetter r (toLower b).toNat = true := by
  unfold hasLetter
  rw [Bool.or_eq_true, Bool.and_eq_true, Bool.and_eq_true, decide_eq_true_eq,
    decide_eq_true_eq, decide_eq_true_eq, decide_eq_true_eq]
  have hletter := (bytes_ok b.toNat b.toNat_lt).2
  rw [UInt8.ofNat_toNat] at hletter
  rcases hletter with heq | heq
  · exact .inl (by omega)
  · exact .inr (by omega)

/-- One more byte of a name. -/
theorem step_name {s : Nat} (hs : inName s = true) (hb : isToken b = true) :
    transition s b = some ([], nextName s b) := by
  obtain ⟨⟨t, ht, hlo, hhi⟩, -⟩ := (bytes_ok b.toNat b.toNat_lt).1
    (by rwa [UInt8.ofNat_toNat])
  have hcover := rows_ok.2.1 s (inName_lt hs) hs
  obtain ⟨row, hrow, hall⟩ : ∃ row, rows[s]? = some row
      ∧ (tokenRanges.all fun t => covers row t.1 t.2) = true := by
    cases hrow : rows[s]? with
    | none =>
        rw [hrow] at hcover
        cases hcover
    | some row =>
        rw [hrow] at hcover
        exact ⟨row, rfl, hcover⟩
  obtain ⟨l, hl⟩ :=
    rowLookup_covers (List.all_eq_true.mp hall t ht) hlo hhi
  have hlook : tableLookup rows s b.toNat = some l :=
    Option.bind_eq_some_iff.mpr ⟨row, hrow, hl⟩
  obtain ⟨r, hr, rfl, hrlo, hrhi⟩ := tableAll_lookup rows_ok.1 hlook
  have hcolon : ¬(r.lo = 58 ∧ r.hi = 58) := by
    rintro ⟨h₁, h₂⟩
    have hbyte : b = 58 := UInt8.toNat_inj.mp (by
      rw [h₁] at hrlo
      rw [h₂] at hrhi
      exact Nat.le_antisymm hrhi hrlo)
    rw [hbyte] at hb
    exact absurd hb (by decide)
  unfold nameEntry at hr
  rw [hs, Bool.not_true, Bool.false_or, Bool.or_eq_true, Bool.and_eq_true,
    decide_eq_true_eq, decide_eq_true_eq] at hr
  replace hr := hr.resolve_left hcolon
  unfold transition
  rw [hlook, Option.bind_some]
  split at hr
  next u hlabel =>
    rw [hlabel]
    unfold resolve
    dsimp only
    rw [Bool.or_eq_true, Bool.and_eq_true, Bool.and_eq_true, decide_eq_true_eq,
      decide_eq_true_eq] at hr
    rcases hr with ⟨rfl, hnone⟩ | ⟨hsingle, hmem⟩
    · rcases nextName_cases s b with ⟨heq, -⟩ | hmem
      · rw [heq]
      · have hbad := List.all_eq_true.mp hnone _ hmem
        rw [hasLetter_toLower hrlo hrhi] at hbad
        simp at hbad
    · have hlob : r.lo = b.toNat := by omega
      rw [hlob, UInt8.ofNat_toNat] at hmem
      rw [nextName_of_mem (List.contains_iff_mem.mp hmem)]
  next => cases hr

theorem walk_name (v : Bytes) : ∀ {s : Nat}, inName s = true →
    (∀ b ∈ v, isToken b = true) → walk s v = some (v.foldl nextName s) := by
  induction v with
  | nil => exact fun _ _ => rfl
  | cons b v ih =>
      intro s hs hv
      obtain ⟨hb, hv⟩ := List.forall_mem_cons.mp hv
      exact walk_cons.mpr
        ⟨_, step_name hs hb, ih (inName_nextName s b) hv⟩

/-- A name at the beginning of a line. -/
theorem follow_name (hw : w ≠ []) (hall : ∀ b ∈ w, isToken b = true) :
    follow .startField 20 w = some (nameState w) := by
  obtain ⟨b, v, rfl⟩ := List.exists_cons_of_ne_nil hw
  obtain ⟨hb, hv⟩ := List.forall_mem_cons.mp hall
  have hstart := (bytes_ok b.toNat b.toNat_lt).1 (by rwa [UInt8.ofNat_toNat])
  rw [UInt8.ofNat_toNat] at hstart
  exact follow_cons.mpr
    ⟨nextName 20 b, hstart.2, walk_name v (inName_nextName 20 b) hv⟩

-- =================================================================== the colon

/-- Where the machine is along a known name, it has read its beginning. -/
theorem nameState_spells (w : Bytes) : nameState w = 21
    ∨ (w.map toLower, nameState w) ∈ beginnings := by
  induction w using List.reverseRecOn with
  | nil => exact .inr List.mem_cons_self
  | append_singleton w b ih =>
      have hsnoc : nameState (w ++ [b]) = nextName (nameState w) b := by
        unfold nameState
        rw [List.foldl_append]
        rfl
      rw [hsnoc, List.map_append, List.map_cons, List.map_nil]
      rcases nextName_cases (nameState w) b with ⟨h, -⟩ | h
      · exact .inl h
      · refine .inr ?_
        have hne := (letters_ok.2.1 _ h).2
        have hnext := letters_ok.2.2 _ h _ (ih.resolve_left hne) rfl
        rwa [UInt8.ofNat_toNat] at hnext

/-- A colon behind a name that is not a known one. -/
theorem colon_other (hw : w ≠ []) (h : ∀ k ∈ keywords, k.1 ≠ w.map toLower) :
    transition (nameState w) 58 = some ([.writeField], 22) := by
  rcases nameState_spells w with hstate | hmem
  · rw [hstate]
    exact rows_ok.2.2.2
  · exact rows_ok.2.2.1 _ hmem (fun hnil => hw (List.map_eq_nil_iff.mp hnil)) h

end ClientTable

end TinyServer.Http
