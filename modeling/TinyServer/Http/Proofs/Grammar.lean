/-
The table of the machine against its regions.

`transition_jump` and `mirror_step` are what the checks of the table say
of a single move. The rest follows the tokens of a text: `Token` for the
regions that are read the same everywhere, `PathTrace` for paths.
-/
import TinyServer.Http.Grammar

namespace TinyServer.Http

open Lib RequestTable

variable {relaxed relaxed' : Bool} {cs t c m : Nat} {b : UInt8}
  {acts : List HttpAction} {a : HttpAction} {w v rest : Bytes} {z : Reading}

-- ================================================================== the checks

/-- The check of one entry: it is a jump, no `-` is in a method, and a
path behind a method or a JSON path stays one. -/
def jumpEntry (cs : Nat) (r : Range Label) : Bool :=
  match resolve r.label with
  | none => false
  | some (acts, t) =>
      decide (cs = firstFinal) ||
        decide (Jump cs acts t (regionOf t))
          && (decide (regionOf t ≠ .method) || decide (r.hi < 45 ∨ 45 < r.lo))
          && (decide (¬(regionOf t = .path ∧ acts = []))
            || decide ((198 ≤ t → 198 ≤ cs) ∧ (cs ≤ 173 → t ≤ 173
              ∧ (firstSegment t = true → firstSegment cs = true
                ∧ (r.hi < 47 ∨ 47 < r.lo)))))

/-- The jumps of the table are all of the known kinds, checked once. -/
theorem jump_rows : tableAll jumpEntry 0 rows = true := by
  decide +kernel

/-- What the check says of a move. -/
theorem transition_jump (h : transition relaxed cs b = some (acts, t))
    (hcs : cs ≠ firstFinal) :
    Jump cs acts t (regionOf t) ∧ (regionOf t = .method → b ≠ 45)
      ∧ (regionOf t = .path → acts = [] → (198 ≤ t → 198 ≤ cs)
        ∧ (cs ≤ 173 → t ≤ 173
          ∧ (firstSegment t = true → firstSegment cs = true ∧ b ≠ 47))) := by
  unfold transition at h
  split at h
  next => cases h
  next =>
    obtain ⟨l, hl, hres⟩ := Option.bind_eq_some_iff.mp h
    obtain ⟨r, hr, rfl, hlo, hhi⟩ := tableAll_lookup jump_rows hl
    have hne : ∀ d : UInt8, r.hi < d.toNat ∨ d.toNat < r.lo → b ≠ d := by
      intro d hd hb
      rw [hb] at hlo hhi
      omega
    unfold jumpEntry at hr
    rw [hres] at hr
    dsimp only at hr
    rw [decide_eq_false hcs, Bool.false_or, Bool.and_eq_true, Bool.and_eq_true,
      Bool.or_eq_true, Bool.or_eq_true] at hr
    simp only [decide_eq_true_eq] at hr
    obtain ⟨⟨hjump, hmethod⟩, hpath⟩ := hr
    refine ⟨hjump, fun ht => hne 45 (hmethod.resolve_left fun h => h ht),
      fun ht hacts => ?_⟩
    obtain ⟨hjson, hself⟩ := hpath.resolve_left fun h => h ⟨ht, hacts⟩
    refine ⟨hjson, fun hle => ⟨(hself hle).1, fun hfirst => ?_⟩⟩
    obtain ⟨hcs, hb⟩ := (hself hle).2 hfirst
    exact ⟨hcs, hne 47 hb⟩

/-- A state mirrors itself. -/
theorem mem_mirrors (h : t ≤ 173) : t ∈ mirrors t := by
  have hall : ∀ t < 174, t ∈ mirrors t := by decide +kernel
  exact hall t (by omega)

/-- The states with mirrors other than themselves. -/
def moved : List Nat :=
  [26, 27, 28, 198, 202, 203, 204, 205, 206, 207, 208, 209, 210, 211, 212, 213,
    214, 215, 216, 217, 218, 219, 220, 221]

/-- The mirrors of a state are behind a method. -/
theorem mirrors_spec (hc : c ∈ mirrors cs) :
    c ≤ 173 ∧ (c ≠ cs → cs ∈ moved) := by
  have hall : ∀ cs < 222, ∀ c ∈ mirrors cs, c ≤ 173
      ∧ (c ≠ cs → cs ∈ moved) := by
    decide +kernel
  rcases Nat.lt_or_ge cs 222 with hlt | hge
  · exact hall cs hlt c hc
  · have hnil : mirrors cs = [] := by
      unfold mirrors
      simp (disch := omega) only [List.mem_cons, List.not_mem_nil, or_false,
        if_neg]
    rw [hnil] at hc
    nomatch hc

/-- The check of the byte `n`, which leads from `cs` to `t`, in the row of
the mirror `c`. -/
def mirrorByte (cs c t : Nat) (row : List (Range Label)) (n : Nat) : Bool :=
  (decide (n = 58) && firstSegment c) || (decide (n = 91) && decide (198 ≤ cs))
    || match (rowLookup row n).bind resolve with
      | some (acts, c') => decide (acts = []) && decide (c' ∈ mirrors t)
          && (!firstSegment c' || (firstSegment c && decide (n ≠ 47)))
          && (!relaxedOnly c (.ofNat n) || relaxedOnly cs (.ofNat n))
      | none => false

/-- The check of the silent moves of a range. -/
def mirrorEntry (cs c : Nat) (row : List (Range Label)) (r : Range Label) :
    Bool :=
  match resolve r.label with
  | some (acts, t) => decide (acts ≠ []) || decide (regionOf t ≠ .path)
      || (List.range' r.lo (r.hi + 1 - r.lo)).all (mirrorByte cs c t row)
  | none => true

/-- The check of two states. -/
def mirrorPair (cs c : Nat) : Bool :=
  match rows[cs]?, rows[c]? with
  | some row, some row' => row.all (mirrorEntry cs c row')
  | _, _ => false

/-- The rows of the states that are moved, checked once. -/
theorem mirror_rows : ∀ cs ∈ moved, ∀ c ∈ mirrors cs, c ≠ cs →
    mirrorPair cs c = true := by
  decide +kernel

/-- The parts of a move. -/
theorem transition_eq_some : transition relaxed cs b = some (acts, t)
    ↔ (relaxedOnly cs b && !relaxed) = false
      ∧ ∃ row l, rows[cs]? = some row ∧ rowLookup row b.toNat = some l
        ∧ resolve l = some (acts, t) := by
  unfold transition tableLookup
  split
  next h =>
    refine iff_of_false (fun h' => (nomatch h')) fun h' => ?_
    rw [h] at h'
    nomatch h'.1
  next h =>
    rw [Bool.not_eq_true] at h
    constructor
    · intro htr
      obtain ⟨l, hl, hres⟩ := Option.bind_eq_some_iff.mp htr
      obtain ⟨row, hrow, hl⟩ := Option.bind_eq_some_iff.mp hl
      exact ⟨h, row, l, hrow, hl, hres⟩
    · intro htr
      obtain ⟨-, row, l, hrow, hl, hres⟩ := htr
      rw [hrow, Option.bind_some, hl, Option.bind_some, hres]

/-- A byte of a path in a state and in its mirror. -/
theorem mirror_step (hstep : transition relaxed cs b = some ([], t))
    (hfinal : cs ≠ firstFinal) (ht : regionOf t = .path) (hc : c ∈ mirrors cs)
    (hcolon : firstSegment c = true → b ≠ 58) (hlit : 198 ≤ cs → b ≠ 91) :
    ∃ c', transition relaxed c b = some ([], c') ∧ c' ∈ mirrors t
      ∧ (firstSegment c' = true → firstSegment c = true ∧ b ≠ 47) := by
  obtain ⟨hle, hmoved⟩ := mirrors_spec hc
  by_cases hself : c = cs
  · subst hself
    obtain ⟨-, -, hpath⟩ := transition_jump hstep hfinal
    obtain ⟨hle', hfirst⟩ := (hpath ht rfl).2 hle
    exact ⟨t, hstep, mem_mirrors hle', hfirst⟩
  · have hpair := mirror_rows cs (hmoved hself) c hc hself
    obtain ⟨hopen, row, l, hrow, hl, hres⟩ := transition_eq_some.mp hstep
    unfold mirrorPair at hpair
    rw [hrow] at hpair
    cases hrow' : rows[c]? with
    | none =>
        rw [hrow'] at hpair
        nomatch hpair
    | some row' =>
        rw [hrow'] at hpair
        obtain ⟨r, hr, hlo, hhi, rfl⟩ := rowLookup_mem hl
        have hentry := List.all_eq_true.mp hpair r hr
        unfold mirrorEntry at hentry
        rw [hres] at hentry
        simp only [ne_eq, not_true_eq_false, decide_false, Bool.false_or, ht]
          at hentry
        have hbyte := List.all_eq_true.mp hentry b.toNat
          (List.mem_range'_1.mpr ⟨hlo, by omega⟩)
        unfold mirrorByte at hbyte
        rw [UInt8.ofNat_toNat, Bool.or_eq_true, Bool.or_eq_true,
          Bool.and_eq_true,
          Bool.and_eq_true, decide_eq_true_eq, decide_eq_true_eq,
          decide_eq_true_eq] at hbyte
        rcases hbyte with (⟨hb, hfirst⟩ | ⟨hb, hjson⟩) | hbyte
        · exact absurd (UInt8.toNat_inj.mp hb) (hcolon hfirst)
        · exact absurd (UInt8.toNat_inj.mp hb) (hlit hjson)
        · split at hbyte
          next acts' c' hlook =>
            obtain ⟨l', hl', hres'⟩ := Option.bind_eq_some_iff.mp hlook
            simp only [Bool.and_eq_true, decide_eq_true_eq] at hbyte
            obtain ⟨⟨⟨rfl, hc'⟩, hfirst⟩, hrel⟩ := hbyte
            refine ⟨c', transition_eq_some.mpr
              ⟨?_, row', l', hrow', hl', hres'⟩, hc', fun h => ?_⟩
            · cases hc : relaxedOnly c b with
              | false => rfl
              | true =>
                  rw [hc] at hrel
                  rw [Bool.not_true, Bool.false_or] at hrel
                  rw [hrel] at hopen
                  exact hopen
            · rw [h, Bool.not_true, Bool.false_or, Bool.and_eq_true,
                decide_eq_true_eq] at hfirst
              exact ⟨hfirst.1, fun hb => hfirst.2 (congrArg UInt8.toNat hb)⟩
          next => nomatch hbyte

/-- The check of a byte that starts a path in the state `cs`. -/
def startOk (relaxed : Bool) (cs : Nat) (b : UInt8) : Bool :=
  match transition relaxed cs b with
  | none => true
  | some (acts, t) =>
      decide (acts ≠ [.mark]) || decide (regionOf t ≠ .path)
        || (decide (t < 198) || decide (b = 64))
          && (decide (b = 58) || decide (b = 60)
            || match transition relaxed 3 b with
              | some (acts, c) => decide (acts = [.mark])
                  && decide (c ∈ mirrors t)
                    && (!firstSegment c || decide (b ≠ 47))
              | none => false)

/-- And those of the states in which a path starts. -/
theorem start_rows : ∀ relaxed, ∀ cs ∈ [1, 3, 174], ∀ n < 256,
    startOk relaxed cs (UInt8.ofNat n) = true := by
  decide +kernel

/-- The first byte of a path where it is read and behind a method. -/
theorem mirror_start (hstep : transition relaxed cs b = some ([.mark], t))
    (hcs : cs ∈ [1, 3, 174]) (ht : regionOf t = .path) :
    (198 ≤ t → b = 64) ∧ (b ≠ 58 → b ≠ 60 →
      ∃ c, transition relaxed 3 b = some ([.mark], c) ∧ c ∈ mirrors t
        ∧ (firstSegment c = true → b ≠ 47)) := by
  have hok := start_rows relaxed cs hcs b.toNat b.toNat_lt
  rw [UInt8.ofNat_toNat] at hok
  unfold startOk at hok
  rw [hstep] at hok
  simp only [ne_eq, not_true_eq_false, decide_false, Bool.false_or, ht,
    Bool.and_eq_true, Bool.or_eq_true, decide_eq_true_eq] at hok
  obtain ⟨hjson, hok⟩ := hok
  refine ⟨fun hge => hjson.resolve_left (by omega), fun hcolon hxml => ?_⟩
  have hok := hok.resolve_left fun h => h.elim hcolon hxml
  split at hok
  next acts' c hnext =>
    simp only [Bool.and_eq_true, Bool.or_eq_true, Bool.not_eq_true',
      decide_eq_true_eq] at hok
    obtain ⟨⟨rfl, hc⟩, hfirst⟩ := hok
    refine ⟨c, hnext, hc, fun h => hfirst.resolve_left fun h' => ?_⟩
    rw [h] at h'
    nomatch h'
  next => nomatch hok

-- =================================================================== following

/-- A move with the actions `as`, and what is done behind it. -/
theorem move_iff {as : List HttpAction} {f : Nat → Option Nat} :
    (match transition relaxed m b with
      | some (acts, t) => if acts = as then f t else none
      | none => none) = some c
      ↔ ∃ t, transition relaxed m b = some (as, t) ∧ f t = some c := by
  cases h : transition relaxed m b with
  | none => exact ⟨fun h => (nomatch h), fun ⟨_, h, _⟩ => (nomatch h)⟩
  | some move =>
      obtain ⟨acts, t⟩ := move
      dsimp only
      constructor
      · intro hf
        split at hf
        next hacts =>
          subst hacts
          exact ⟨t, rfl, hf⟩
        next => nomatch hf
      · intro hf
        obtain ⟨t', heq, hf⟩ := hf
        cases heq
        exact (if_pos rfl).trans hf

/-- A walk by its first byte, -/
theorem walk_cons : walk relaxed m (b :: w) = some c
    ↔ ∃ t, transition relaxed m b = some ([], t) ∧ walk relaxed t w = some c :=
  move_iff

/-- and a token by its first byte, which has the action. -/
theorem follow_cons : follow relaxed a m (b :: w) = some c
    ↔ ∃ t, transition relaxed m b = some ([a], t) ∧ walk relaxed t w = some c :=
  move_iff

/-- A walk goes on by a byte without an action. -/
theorem walk_snoc (h : walk relaxed m w = some cs)
    (hstep : transition relaxed cs b = some ([], t)) :
    walk relaxed m (w ++ [b]) = some t := by
  induction w generalizing m with
  | nil =>
      cases h
      exact walk_cons.mpr ⟨t, hstep, rfl⟩
  | cons d w ih =>
      obtain ⟨t', hnext, h⟩ := walk_cons.mp h
      exact walk_cons.mpr ⟨t', hnext, ih h⟩

/-- And so does a token. -/
theorem follow_snoc (hw : w ≠ []) (h : follow relaxed a m w = some cs)
    (hstep : transition relaxed cs b = some ([], t)) :
    follow relaxed a m (w ++ [b]) = some t := by
  obtain ⟨d, w, rfl⟩ := List.exists_cons_of_ne_nil hw
  obtain ⟨t', hnext, h⟩ := follow_cons.mp h
  exact follow_cons.mpr ⟨t', hnext, walk_snoc h hstep⟩

/-- A relaxed parser makes the moves of any other. -/
theorem transition_mono (hrel : relaxed = true → relaxed' = true)
    (h : transition relaxed cs b = some (acts, t)) :
    transition relaxed' cs b = some (acts, t) := by
  obtain ⟨hopen, hrow⟩ := transition_eq_some.mp h
  refine transition_eq_some.mpr ⟨?_, hrow⟩
  cases hc : relaxedOnly cs b with
  | false => rfl
  | true =>
      rw [hc] at hopen
      cases relaxed with
      | false => nomatch hopen
      | true =>
          rw [hrel rfl]
          rfl

/-- What a parser walks, a relaxed one does. -/
theorem walk_mono (hrel : relaxed = true → relaxed' = true)
    (h : walk relaxed m w = some cs) : walk relaxed' m w = some cs := by
  induction w generalizing m with
  | nil => exact h
  | cons d w ih =>
      obtain ⟨t', hnext, h⟩ := walk_cons.mp h
      exact walk_cons.mpr ⟨t', transition_mono hrel hnext, ih h⟩

/-- So its tokens are tokens for a relaxed one. -/
theorem follow_mono (hrel : relaxed = true → relaxed' = true)
    (h : follow relaxed a m w = some cs) : follow relaxed' a m w = some cs := by
  cases w with
  | nil => exact h
  | cons d w =>
      obtain ⟨t', hnext, h⟩ := follow_cons.mp h
      exact follow_cons.mpr ⟨t', transition_mono hrel hnext, walk_mono hrel h⟩

-- ====================================================================== tokens

/-- The bytes since the action `a`. -/
def Reading.since (a : HttpAction) (z : Reading) : Bytes :=
  match a with
  | .startField => z.field
  | .startQuery => z.query
  | _ => z.mark

/-- The machine is in `cs` inside a token `w` that started in `m`. -/
structure InToken (relaxed : Bool) (a : HttpAction) (m : Nat) (w : Bytes)
    (cs : Nat) : Prop where
  ne : w ≠ []
  follows : follow relaxed a m w = some cs

/-- A byte that is read is behind every mark. -/
theorem since_push : (z.push b).since a = z.since a ++ [b] := by
  cases a <;> rfl

/-- A token starts with its action. -/
theorem InToken.start (hstep : transition relaxed m b = some ([a], t)) :
    InToken relaxed a m [b] t :=
  ⟨List.cons_ne_nil _ _, follow_cons.mpr ⟨t, hstep, rfl⟩⟩

/-- And goes on without one. -/
theorem InToken.snoc (h : InToken relaxed a m w cs)
    (hstep : transition relaxed cs b = some ([], t)) :
    InToken relaxed a m (w ++ [b]) t :=
  ⟨List.append_ne_nil_of_right_ne_nil _ (List.cons_ne_nil _ _),
    follow_snoc h.ne h.follows hstep⟩

/-- The machine is in `cs` inside the path `w`: as far as the path is
plain, it can be read behind a method. -/
structure PathTrace (relaxed : Bool) (w : Bytes) (cs : Nat) : Prop where
  ne : w ≠ []
  json : 198 ≤ cs → w.head? = some 64
  mirror : PlainPath w → ∃ c ∈ mirrors cs, follow relaxed .mark 3 w = some c
    ∧ (firstSegment c = true → 47 ∉ w)

/-- The beginning of a plain path is plain. -/
theorem PlainPath.of_snoc (h : PlainPath (w ++ [b])) (hw : w ≠ []) :
    PlainPath w := by
  obtain ⟨d, w, rfl⟩ := List.exists_cons_of_ne_nil hw
  refine ⟨h.not_xml, fun c e he => h.colon c (e ++ [b]) ?_, fun hd hin => ?_⟩
  · rw [he, List.append_assoc]
    rfl
  · exact h.not_literal hd (List.mem_append_left _ hin)

/-- A path starts with a mark. -/
theorem PathTrace.start (hstep : transition relaxed cs b = some ([.mark], t))
    (hcs : cs ∈ [1, 3, 174]) (ht : regionOf t = .path) :
    PathTrace relaxed [b] t := by
  obtain ⟨hjson, hmirror⟩ := mirror_start hstep hcs ht
  refine ⟨List.cons_ne_nil _ _, fun hge => congrArg some (hjson hge), fun hp =>
    ?_⟩
  have hcolon : b ≠ 58 :=
    fun hb => nomatch hp.colon [] [] (congrArg (· :: []) hb)
  have hxml : b ≠ 60 := fun hb => hp.not_xml (congrArg some hb)
  obtain ⟨c, hnext, hc, hfirst⟩ := hmirror hcolon hxml
  refine ⟨c, hc, follow_cons.mpr ⟨c, hnext, rfl⟩, fun h hin => ?_⟩
  exact hfirst h (List.mem_singleton.mp hin).symm

/-- And goes on inside its region. -/
theorem PathTrace.snoc (h : PathTrace relaxed w cs) (hfinal : cs ≠ firstFinal)
    (hstep : transition relaxed cs b = some ([], t)) (ht : regionOf t = .path) :
    PathTrace relaxed (w ++ [b]) t := by
  obtain ⟨-, -, hpath⟩ := transition_jump hstep hfinal
  have hhead : (w ++ [b]).head? = w.head? := by
    obtain ⟨d, w, rfl⟩ := List.exists_cons_of_ne_nil h.ne
    rfl
  refine ⟨List.append_ne_nil_of_right_ne_nil _ (List.cons_ne_nil _ _),
    fun hge => ?_, fun hp => ?_⟩
  · rw [hhead]
    exact h.json ((hpath ht rfl).1 hge)
  · obtain ⟨c, hc, hfollow, hfirst⟩ := h.mirror (hp.of_snoc h.ne)
    have hcolon : firstSegment c = true → b ≠ 58 := fun h58 hb =>
      hfirst h58 (hp.colon w [] (congrArg (w ++ [·]) hb))
    have hlit : 198 ≤ cs → b ≠ 91 := fun hge hb => by
      refine hp.not_literal (hhead.trans (h.json hge)) ?_
      rw [hb]
      exact List.mem_append_right _ List.mem_cons_self
    obtain ⟨c', hnext, hc', hfirst'⟩ :=
      mirror_step hstep hfinal ht hc hcolon hlit
    refine ⟨c', hc', follow_snoc h.ne hfollow hnext, fun h' hin => ?_⟩
    rcases List.mem_append.mp hin with hin | hin
    · exact hfirst (hfirst' h').1 hin
    · exact (hfirst' h').2 (List.mem_singleton.mp hin).symm

end TinyServer.Http
