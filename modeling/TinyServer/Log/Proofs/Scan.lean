/-
How `LogFormatter::init` reads a pattern.

# The loop over `n`

What follows a `%` is a word of letters and closing braces. It ends at the
end of the pattern or at another character, or a format in braces comes
behind it, or a brace that is never closed (`scan_cases`).

# The loop over `i`

`Cuts` is the loop without its variables: one `Piece` for each iteration.
`split` is `assemble` after it, which puts the texts between two items
together (`split_eq`).
-/
import TinyServer.Lib.Cut
import TinyServer.Log.Pattern

namespace TinyServer

open Lib
open Http (Bytes ascii)

namespace LogFormatter

-- ============================================================= the loop over n

/-- A character of the word after a `%`. -/
def isWordChar (c : UInt8) : Bool := isAlpha c || c = 125

/-- The character ends a word without opening a format. -/
def Stops (c : UInt8) : Prop := isWordChar c = false ∧ c ≠ 123

theorem not_stop {c : UInt8} (hc : isWordChar c = true) :
    c ≠ 123 ∧ (!isAlpha c && c ≠ 123 && c ≠ 125) = false := by
  constructor
  · rintro rfl
    cases hc
  · unfold isWordChar at hc
    rcases Bool.or_eq_true_iff.mp hc with hc | hc
    · simp [hc]
    · simp [of_decide_eq_true hc]

theorem scanItem_word {c : UInt8} {rest : Bytes} (hc : isWordChar c = true)
    (hrest : rest ≠ []) (seen fmt : Bytes) :
    scanItem false [] seen fmt (c :: rest)
      = scanItem false [] (seen ++ [c]) fmt rest := by
  obtain ⟨hbrace, hgo⟩ := not_stop hc
  rw [scanItem]
  simp only [hrest, false_and, if_false, hgo, hbrace, Bool.false_eq_true]

/-- The loop goes over a word. -/
theorem scanItem_words {w x : Bytes} (hw : ∀ c ∈ w, isWordChar c = true)
    (hx : x ≠ []) (fmt : Bytes) : ∀ seen, scanItem false [] seen fmt (w ++ x)
      = scanItem false [] (seen ++ w) fmt x := by
  induction w with
  | nil => exact fun seen => by rw [List.append_nil, List.nil_append]
  | cons c w ih =>
      intro seen
      have hne : w ++ x ≠ [] := by simp [hx]
      rw [List.cons_append, scanItem_word (hw c List.mem_cons_self) hne,
        ih fun d hd => hw d (List.mem_cons_of_mem c hd), List.append_assoc]
      rfl

/-- The pattern ends with a word. -/
theorem scanItem_end {w : Bytes} (hw : ∀ c ∈ w, isWordChar c = true)
    (hne : w ≠ []) (fmt : Bytes) : ∀ seen, scanItem false [] seen fmt w
      = (false, seen ++ w, fmt, []) := by
  induction w with
  | nil => exact absurd rfl hne
  | cons c w ih =>
      intro seen
      have hc := hw c List.mem_cons_self
      cases w with
      | nil =>
          obtain ⟨hbrace, hgo⟩ := not_stop hc
          rw [scanItem]
          simp only [and_self, if_true, hgo, hbrace, if_false,
            Bool.false_eq_true]
          rfl
      | cons d w =>
          rw [scanItem_word hc (List.cons_ne_nil d w), ih
            (fun e he => hw e (List.mem_cons_of_mem c he))
            (List.cons_ne_nil d w), List.append_assoc]
          rfl

/-- A word ends before `x`. -/
theorem scanItem_stop {w x : Bytes} (hw : ∀ c ∈ w, isWordChar c = true)
    (hx : ∀ c ∈ x.head?, Stops c) :
    scanItem false [] [] [] (w ++ x) = (false, w, [], x) := by
  cases x with
  | nil =>
      rw [List.append_nil]
      by_cases hne : w = []
      · subst hne
        rfl
      · exact scanItem_end hw hne [] []
  | cons c x =>
      obtain ⟨hword, hbrace⟩ := hx c rfl
      unfold isWordChar at hword
      obtain ⟨halpha, hclose⟩ := Bool.or_eq_false_iff.mp hword
      rw [scanItem_words hw (List.cons_ne_nil c x), List.nil_append, scanItem]
      have hstop : (!isAlpha c && c ≠ 123 && c ≠ 125) = true := by
        simp [halpha, hbrace, of_decide_eq_false hclose]
      simp only [hstop, Bool.false_eq_true, if_false, if_true]

theorem scanItem_open {w y : Bytes} (hw : ∀ c ∈ w, isWordChar c = true) :
    scanItem false [] [] [] (w ++ 123 :: y)
      = scanItem true w (w ++ [123]) [] y := by
  rw [scanItem_words hw (List.cons_ne_nil 123 y), List.nil_append, scanItem]
  rfl

theorem scanItem_closed {f : Bytes} (hf : 125 ∉ f) (str z : Bytes) :
    ∀ seen fmt, scanItem true str seen fmt (f ++ 125 :: z)
      = (false, str, fmt ++ f, z) := by
  induction f with
  | nil =>
      intro seen fmt
      rw [List.nil_append, scanItem, List.append_nil]
      rfl
  | cons c f ih =>
      intro seen fmt
      have hc : c ≠ 125 := fun h => hf (h ▸ List.mem_cons_self)
      have hrest : f ++ 125 :: z ≠ [] := by simp
      rw [List.cons_append, scanItem]
      simp only [hrest, false_and, if_false, if_true, hc]
      rw [ih fun h => hf (List.mem_cons_of_mem c h), List.append_assoc]
      rfl

/-- A format in braces comes behind a word. -/
theorem scanItem_format {w f : Bytes} (hw : ∀ c ∈ w, isWordChar c = true)
    (hf : 125 ∉ f) (z : Bytes) :
    scanItem false [] [] [] (w ++ 123 :: (f ++ 125 :: z))
      = (false, w, f, z) := by
  rw [scanItem_open hw, scanItem_closed hf, List.nil_append]

theorem scanItem_unclosed {y : Bytes} (hy : 125 ∉ y) :
    ∀ str seen fmt, (scanItem true str seen fmt y).1 = true := by
  induction y with
  | nil => exact fun str seen fmt => rfl
  | cons c y ih =>
      intro str seen fmt
      have hc : c ≠ 125 := fun h => hy (h ▸ List.mem_cons_self)
      rw [scanItem]
      simp only [if_true, hc, if_false]
      exact ih (fun h => hy (List.mem_cons_of_mem c h)) _ _ _

/-- What can follow a `%`. -/
theorem scan_cases (q : Bytes) :
    (∃ w x, q = w ++ x ∧ (∀ c ∈ w, isWordChar c = true)
        ∧ ∀ c ∈ x.head?, Stops c)
      ∨ (∃ w f z, q = w ++ 123 :: (f ++ 125 :: z)
        ∧ (∀ c ∈ w, isWordChar c = true) ∧ 125 ∉ f)
      ∨ ∃ w y, q = w ++ 123 :: y ∧ (∀ c ∈ w, isWordChar c = true)
        ∧ 125 ∉ y := by
  obtain ⟨heq, hall, hstop⟩ := cut isWordChar q
  cases hx : q.dropWhile isWordChar with
  | nil =>
      rw [hx] at heq
      exact .inl ⟨_, [], heq, hall, fun c hc => by cases hc⟩
  | cons c y =>
      rw [hx] at heq
      by_cases hopen : c = 123
      · subst hopen
        right
        by_cases hclose : 125 ∈ y
        · obtain ⟨f, z, rfl, hf⟩ := List.eq_append_cons_of_mem hclose
          exact .inl ⟨_, f, z, heq, hall, hf⟩
        · exact .inr ⟨_, y, heq, hall, hclose⟩
      · refine .inl ⟨_, c :: y, heq, hall, fun d hd => ?_⟩
        cases hd
        exact ⟨hstop c y hx, hopen⟩

-- ============================================================= the loop over i

/-- What one iteration reads: a character of a text, an item with its
format, or a `%` with a brace that is not closed. -/
inductive Piece
  | text (c : UInt8)
  | item (str fmt : Bytes)
  | unclosed

/-- The iterations of the loop. -/
inductive Cuts : Bytes → List Piece → Prop
  | nil : Cuts [] []
  | text {c : UInt8} {rest : Bytes} {ps : List Piece} (hc : c ≠ 37)
      (hrest : Cuts rest ps) : Cuts (c :: rest) (.text c :: ps)
  | escape {rest : Bytes} {ps : List Piece}
      -- the second `%` is read again
      (hrest : Cuts (37 :: rest) ps) :
      Cuts (37 :: 37 :: rest) (.text 37 :: ps)
  | item {q str fmt rest : Bytes} {ps : List Piece} (hq : q.head? ≠ some 37)
      (hscan : scanItem false [] [] [] q = (false, str, fmt, rest))
      (hrest : Cuts rest ps) : Cuts (37 :: q) (.item str fmt :: ps)
  | unclosed {q : Bytes} {ps : List Piece} (hq : q.head? ≠ some 37)
      (hscan : (scanItem false [] [] [] q).1 = true) (hrest : Cuts q ps) :
      Cuts (37 :: q) (.unclosed :: ps)

/-- `vec` and `m_error` after the pieces. -/
def assemble (nstr : Bytes) (vec : List (Bytes × Option Bytes))
    (error : Bool) : List Piece → List (Bytes × Option Bytes) × Bool
  | [] => (if nstr = [] then vec else vec ++ [(nstr, none)], error)
  | .text c :: ps => assemble (nstr ++ [c]) vec error ps
  | .item str fmt :: ps =>
      assemble []
        ((if nstr = [] then vec else vec ++ [(nstr, none)])
          ++ [(str, some fmt)]) error ps
  | .unclosed :: ps =>
      assemble nstr (vec ++ [(ascii "<<pattern_error>>", none)]) true ps

/-- A text is put together. -/
theorem assemble_texts (text : Bytes) (ps : List Piece) :
    ∀ (nstr : Bytes) (vec : List (Bytes × Option Bytes)) (error : Bool),
      assemble nstr vec error (text.map .text ++ ps)
        = assemble (nstr ++ text) vec error ps := by
  induction text with
  | nil => exact fun nstr vec error => by rw [List.append_nil]; rfl
  | cons c text ih =>
      intro nstr vec error
      show assemble (nstr ++ [c]) vec error (text.map .text ++ ps) = _
      rw [ih, List.append_assoc]
      rfl

theorem scanItem_length (b : Bool) (str seen fmt q : Bytes) :
    (scanItem b str seen fmt q).2.2.2.length ≤ q.length := by
  induction q generalizing b str seen fmt with
  | nil => exact Nat.le_refl _
  | cons c q ih =>
      rw [scanItem]
      split
      next =>
          split
          next => exact Nat.le_succ _
          next => exact Nat.le_succ_of_le (ih ..)
      next =>
          split
          next => exact Nat.le_refl _
          next =>
              split
              next => exact Nat.le_succ_of_le (ih ..)
              next => exact Nat.le_succ_of_le (ih ..)

theorem cuts_literal {text rest : Bytes} {ps : List Piece} (h : 37 ∉ text)
    (hrest : Cuts rest ps) : Cuts (text ++ rest) (text.map .text ++ ps) := by
  induction text with
  | nil => exact hrest
  | cons c text ih =>
      have hc : c ≠ 37 := fun heq => h (heq ▸ List.mem_cons_self)
      exact .text hc (ih fun hmem => h (List.mem_cons_of_mem c hmem))

/-- The loop reads every pattern. -/
theorem cuts_exists (pattern : Bytes) : ∃ ps, Cuts pattern ps := by
  induction hn : pattern.length using Nat.strong_induction_on generalizing
    pattern with
  | _ n ih =>
      cases pattern with
      | nil => exact ⟨[], .nil⟩
      | cons c rest =>
          have hrest : ∀ q : Bytes, q.length ≤ rest.length →
              ∃ ps, Cuts q ps := by
            intro q hq
            refine ih q.length ?_ q rfl
            rw [← hn]
            exact Nat.lt_succ_of_le hq
          by_cases hc : c = 37
          · subst hc
            obtain ⟨ps, hps⟩ := hrest rest (Nat.le_refl _)
            by_cases hhead : rest.head? = some 37
            · cases rest with
              | nil => cases hhead
              | cons d rest =>
                  cases hhead
                  exact ⟨_, .escape hps⟩
            · cases hscan : (scanItem false [] [] [] rest).1 with
              | true => exact ⟨_, .unclosed hhead hscan hps⟩
              | false =>
                  have hlen := scanItem_length false [] [] [] rest
                  obtain ⟨qs, hqs⟩ := hrest _ hlen
                  exact ⟨_, .item hhead (Prod.ext hscan rfl) hqs⟩
          · obtain ⟨ps, hps⟩ := hrest rest (Nat.le_refl _)
            exact ⟨_, .text hc hps⟩

/-- And in one way only. -/
theorem cuts_unique {pattern : Bytes} {ps : List Piece}
    (h : Cuts pattern ps) : ∀ {qs : List Piece}, Cuts pattern qs → ps = qs := by
  induction h with
  | nil =>
      intro qs hqs
      cases hqs
      rfl
  | text hc hrest ih =>
      intro qs hqs
      cases hqs with
      | text _ hqs => rw [ih hqs]
      | escape | item | unclosed => exact absurd rfl hc
  | escape hrest ih =>
      intro qs hqs
      cases hqs with
      | text hc => exact absurd rfl hc
      | escape hqs => rw [ih hqs]
      | item hq | unclosed hq => exact absurd rfl hq
  | item hq hscan hrest ih =>
      intro qs hqs
      cases hqs with
      | text hc => exact absurd rfl hc
      | escape => exact absurd rfl hq
      | item _ hscan' hqs =>
          rw [hscan] at hscan'
          cases hscan'
          rw [ih hqs]
      | unclosed _ hscan' =>
          rw [hscan] at hscan'
          cases hscan'
  | unclosed hq hscan hrest ih =>
      intro qs hqs
      cases hqs with
      | text hc => exact absurd rfl hc
      | escape => exact absurd rfl hq
      | item _ hscan' =>
          rw [hscan'] at hscan
          cases hscan
      | unclosed _ _ hqs => rw [ih hqs]

/-- The loop takes its pieces one by one. -/
theorem split_eq {pattern : Bytes} {ps : List Piece} (h : Cuts pattern ps) :
    ∀ {fuel : Nat}, pattern.length ≤ fuel →
      ∀ (nstr : Bytes) (vec : List (Bytes × Option Bytes)) (error : Bool),
        split fuel nstr vec error pattern = assemble nstr vec error ps := by
  induction h with
  | nil =>
      intro fuel _ nstr vec error
      cases fuel <;> rfl
  | @text c rest ps hc hrest ih =>
      intro fuel hfuel nstr vec error
      cases fuel with
      | zero => cases hfuel
      | succ fuel =>
          rw [split, assemble, if_pos hc]
          exact ih (Nat.le_of_succ_le_succ hfuel) _ _ _
  | @escape rest ps hrest ih =>
      intro fuel hfuel nstr vec error
      cases fuel with
      | zero => cases hfuel
      | succ fuel =>
          rw [split, assemble, if_neg (not_not_intro rfl), List.head?_cons,
            if_pos rfl]
          exact ih (Nat.le_of_succ_le_succ hfuel) _ _ _
  | @item q str fmt rest ps hq hscan hrest ih =>
      intro fuel hfuel nstr vec error
      cases fuel with
      | zero => cases hfuel
      | succ fuel =>
          have hlen := scanItem_length false [] [] [] q
          rw [hscan] at hlen
          rw [split, assemble, if_neg (not_not_intro rfl), if_neg hq, hscan]
          exact ih (Nat.le_trans hlen (Nat.le_of_succ_le_succ hfuel)) _ _ _
  | @unclosed q ps hq hscan hrest ih =>
      intro fuel hfuel nstr vec error
      cases fuel with
      | zero => cases hfuel
      | succ fuel =>
          rw [split, assemble, if_neg (not_not_intro rfl), if_neg hq]
          split
          next hs =>
              rw [hs] at hscan
              cases hscan
          next => exact ih (Nat.le_of_succ_le_succ hfuel) _ _ _

-- =================================================================== the items

theorem letter_word (d : Directive) : isWordChar d.letter = true := by
  cases d <;> rfl

theorem formatItem_letter (d : Directive) (fmt : Bytes) :
    formatItem [d.letter] fmt = some (d.item fmt) := by
  cases d <;> rfl

/-- The words that are in the table. -/
theorem formatItem_cases (str fmt : Bytes) :
    formatItem str fmt = none ∨ ∃ d : Directive, str = [d.letter] := by
  by_cases h : ∃ d : Directive, str = [d.letter]
  · exact .inr h
  · left
    have hno : ∀ d : Directive, str ≠ [d.letter] := fun d hd => h ⟨d, hd⟩
    have hm : str ≠ ascii "m" := hno .message
    have hp : str ≠ ascii "p" := hno .level
    have hr : str ≠ ascii "r" := hno .elapse
    have hc : str ≠ ascii "c" := hno .loggerName
    have ht : str ≠ ascii "t" := hno .threadId
    have hn : str ≠ ascii "n" := hno .newLine
    have hd : str ≠ ascii "d" := hno .dateTime
    have hf : str ≠ ascii "f" := hno .fileName
    have hl : str ≠ ascii "l" := hno .line
    have hT : str ≠ ascii "T" := hno .tab
    have hF : str ≠ ascii "F" := hno .fiberId
    have hN : str ≠ ascii "N" := hno .threadName
    unfold formatItem
    simp only [hm, hp, hr, hc, ht, hn, hd, hf, hl, hT, hF, hN, if_false]

end LogFormatter

end TinyServer
