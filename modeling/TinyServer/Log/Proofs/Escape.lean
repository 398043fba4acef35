/-
The percent escape between two patterns never is what it should be.

# Why

After the first `%` of `%%` the loop goes on with the second one, and what
follows is read as an item. Where the second pattern is `q`, the law would
make `"%" ++ q` print what `q` prints, for every event.

# The proof

The pieces of a pattern tell what it prints (`printed_eq`), and how much
when a brace is not closed (`printed_length`). For each way in which the
loop can read `"%" ++ q` there is an event for which the outputs differ;
the long one is a date whose format begins like the text that it replaces
(`date_ne`).
-/
import TinyServer.Log.Format
import TinyServer.Log.Proofs.Scan

namespace TinyServer

open Http (Bytes ascii cStr)

namespace LogFormatter

variable {lib : Strftime} {e : Printing} {pattern : Bytes} {ps : List Piece}

-- ================================================================== the pieces

/-- What a piece prints. -/
def Piece.print (lib : Strftime) (e : Printing) : Piece → Bytes
  | .text c => [c]
  | .item str fmt => printItem lib e (itemOf (str, some fmt)).1
  | .unclosed => ascii "<<pattern_error>>"

def printPieces (lib : Strftime) (e : Printing) (ps : List Piece) : Bytes :=
  ps.flatMap (Piece.print lib e)

/-- The piece is no error. -/
def Piece.good : Piece → Bool
  | .text _ => true
  | .item str fmt => (formatItem str fmt).isSome
  | .unclosed => false

def Piece.closed : Piece → Bool
  | .unclosed => false
  | _ => true

/-- What the entries of `vec` print. -/
private def printVec (lib : Strftime) (e : Printing)
    (vec : List (Bytes × Option Bytes)) : Bytes :=
  vec.flatMap fun entry => printItem lib e (itemOf entry).1

-- ================================================================== the output

theorem printed_vec (h : Cuts pattern ps) :
    printed lib e pattern
      = printVec lib e (assemble [] [] false ps).1 := by
  unfold printed LogFormatter.new LogFormatter.format printVec
  rw [split_eq h (Nat.le_refl _)]
  simp only [List.flatMap_map, List.map_map]
  rfl

theorem printVec_flushed (nstr : Bytes) (vec : List (Bytes × Option Bytes)) :
    printVec lib e (if nstr = [] then vec else vec ++ [(nstr, none)])
      = printVec lib e vec ++ nstr := by
  split
  next h => rw [h, List.append_nil]
  next =>
      unfold printVec
      rw [List.flatMap_append]
      exact congrArg (_ ++ ·) (List.append_nil nstr)

theorem printVec_append (vec : List (Bytes × Option Bytes))
    (entry : Bytes × Option Bytes) :
    printVec lib e (vec ++ [entry])
      = printVec lib e vec ++ printItem lib e (itemOf entry).1 := by
  simp [printVec]

/-- Without an unclosed brace the pieces are printed in order. -/
theorem print_assemble (hps : ∀ p ∈ ps, p.closed = true) :
    ∀ (nstr : Bytes) (vec : List (Bytes × Option Bytes)) (error : Bool),
      printVec lib e (assemble nstr vec error ps).1
        = printVec lib e vec ++ nstr ++ printPieces lib e ps := by
  induction ps with
  | nil =>
      intro nstr vec error
      rw [assemble, printVec_flushed]
      exact (List.append_nil _).symm
  | cons p ps ih =>
      intro nstr vec error
      have ih := ih fun q hq => hps q (List.mem_cons_of_mem p hq)
      cases p with
      | text c =>
          rw [assemble, ih]
          simp [printPieces, Piece.print]
      | item str fmt =>
          rw [assemble, ih, printVec_append, printVec_flushed]
          simp [printPieces, Piece.print]
      | unclosed => cases hps _ List.mem_cons_self

/-- With one, they are printed too. -/
theorem length_assemble :
    ∀ (ps : List Piece) (nstr : Bytes) (vec : List (Bytes × Option Bytes))
      (error : Bool),
      (printVec lib e (assemble nstr vec error ps).1).length
        = (printVec lib e vec).length + nstr.length
          + (printPieces lib e ps).length := by
  intro ps
  induction ps with
  | nil =>
      intro nstr vec error
      rw [assemble, printVec_flushed, List.length_append]
      rfl
  | cons p ps ih =>
      intro nstr vec error
      have hcons : (printPieces lib e (p :: ps)).length
          = (p.print lib e).length + (printPieces lib e ps).length := by
        simp [printPieces]
      rw [hcons]
      cases p with
      | text c =>
          rw [assemble, ih, Piece.print, List.length_append]
          show _ + (_ + 1) + _ = _ + _ + (1 + _)
          omega
      | item str fmt =>
          rw [assemble, ih, printVec_append, printVec_flushed, Piece.print,
            List.length_append, List.length_append]
          show _ + 0 + _ = _
          omega
      | unclosed =>
          rw [assemble, ih, printVec_append, Piece.print, List.length_append]
          show _ + (ascii "<<pattern_error>>").length + _ + _ = _
          omega

/-- A pattern prints what its pieces print. -/
theorem printed_eq (h : Cuts pattern ps) (hps : ∀ p ∈ ps, p.closed = true) :
    printed lib e pattern = printPieces lib e ps := by
  rw [printed_vec h, print_assemble hps]
  rfl

theorem printed_length (h : Cuts pattern ps) :
    (printed lib e pattern).length = (printPieces lib e ps).length := by
  rw [printed_vec h, length_assemble]
  show 0 + 0 + _ = _
  omega

-- ================================================================== acceptance

theorem itemOf_error (str fmt : Bytes) :
    (itemOf (str, some fmt)).2 = !(formatItem str fmt).isSome := by
  unfold itemOf
  cases h : formatItem str fmt with
  | none => simp only [h]; rfl
  | some item => simp only [h]; rfl

/-- What is in error after the pieces. -/
theorem error_assemble :
    ∀ (ps : List Piece) (nstr : Bytes) (vec : List (Bytes × Option Bytes))
      (error : Bool),
      ((assemble nstr vec error ps).2
          || (assemble nstr vec error ps).1.any fun entry => (itemOf entry).2)
        = ((error || vec.any fun entry => (itemOf entry).2)
          || ps.any fun p => !p.good) := by
  intro ps
  have hflushed : ∀ (nstr : Bytes) (vec : List (Bytes × Option Bytes)),
      (if nstr = [] then vec else vec ++ [(nstr, none)]).any
          (fun entry => (itemOf entry).2)
        = vec.any fun entry => (itemOf entry).2 := by
    intro nstr vec
    split
    next => rfl
    next => simp [itemOf]
  induction ps with
  | nil =>
      intro nstr vec error
      rw [assemble, hflushed]
      simp
  | cons p ps ih =>
      intro nstr vec error
      cases p with
      | text c =>
          rw [assemble, ih]
          simp [Piece.good]
      | item str fmt =>
          rw [assemble, ih, List.any_append, hflushed]
          simp [Piece.good, itemOf_error, Bool.or_assoc]
      | unclosed =>
          rw [assemble, ih]
          simp [Piece.good]

/-- A pattern is accepted if all its pieces are. -/
theorem accepted_iff (h : Cuts pattern ps) :
    (new pattern).error = false ↔ ∀ p ∈ ps, p.good = true := by
  have herror := error_assemble ps [] [] false
  unfold LogFormatter.new
  rw [split_eq h (Nat.le_refl _)]
  simp only [List.any_map]
  show ((assemble [] [] false ps).2
    || (assemble [] [] false ps).1.any fun entry => (itemOf entry).2) = false
      ↔ _
  rw [herror]
  simp

theorem good_closed {p : Piece} (h : p.good = true) : p.closed = true := by
  cases p with
  | unclosed => cases h
  | _ => rfl

/-- The name of an item that is no error. -/
theorem good_item {str fmt : Bytes} (h : (Piece.item str fmt).good = true) :
    ∃ d : Directive, str = [d.letter] := by
  rcases formatItem_cases str fmt with hnone | hd
  · simp [Piece.good, hnone] at h
  · exact hd

/-- What stands behind an accepted pattern does not change how it is read,
when it begins with the escape. -/
theorem cuts_escape {p q : Bytes} {ps gs : List Piece} (hp : Cuts p ps)
    (hgood : ∀ piece ∈ ps, piece.good = true) (hq : Cuts (37 :: q) gs) :
    Cuts (p ++ 37 :: 37 :: q) (ps ++ .text 37 :: gs) := by
  induction hp with
  | nil => exact .escape hq
  | @text c rest ps hc hrest ih =>
      exact .text hc (ih fun p hp => hgood p (List.mem_cons_of_mem _ hp))
  | @escape rest ps hrest ih =>
      exact .escape (ih fun p hp => hgood p (List.mem_cons_of_mem _ hp))
  | @item s str fmt rest ps hs hscan hrest ih =>
      have ih := ih fun p hp => hgood p (List.mem_cons_of_mem _ hp)
      obtain ⟨d, rfl⟩ := good_item (hgood _ List.mem_cons_self)
      have hne : s ≠ [] := by
        rintro rfl
        cases hscan
      have hhead : (s ++ 37 :: 37 :: q).head? ≠ some 37 := by
        rw [List.head?_append_of_ne_nil s hne]
        exact hs
      refine .item hhead ?_ ih
      rcases scan_cases s with ⟨w, x, rfl, hw, hx⟩ | ⟨w, f, z, rfl, hw, hf⟩ |
        ⟨w, y, rfl, hw, hy⟩
      · rw [scanItem_stop hw hx] at hscan
        cases hscan
        show scanItem false [] [] [] ([d.letter] ++ (rest ++ 37 :: 37 :: q)) = _
        refine scanItem_stop hw fun c hc => ?_
        cases rest with
        | nil =>
            cases hc
            exact ⟨rfl, by decide⟩
        | cons c' rest => exact hx c hc
      · rw [scanItem_format hw hf] at hscan
        cases hscan
        have happ : ([d.letter] ++ 123 :: (fmt ++ 125 :: rest))
            ++ 37 :: 37 :: q
            = [d.letter] ++ 123 :: (fmt ++ 125 :: (rest ++ 37 :: 37 :: q)) := by
          simp
        exact (congrArg (scanItem false [] [] []) happ).trans
          (scanItem_format hw hf _)
      · have htrue := scanItem_unclosed hy w (w ++ [123]) []
        rw [scanItem_open hw] at hscan
        rw [hscan] at htrue
        cases htrue
  | unclosed hs hscan hrest ih => cases hgood _ List.mem_cons_self

-- =================================================================== the dates

theorem letter_ne_brace (d : Directive) : (125 : UInt8) ≠ d.letter := by
  cases d <;> decide

/-- The name of an item that is no error has no brace in it. -/
theorem word_closed {s str fmt rest : Bytes}
    (hgood : (Piece.item str fmt).good = true)
    (hscan : scanItem false [] [] [] s = (false, str, fmt, rest)) (w z : Bytes)
    (hw : ∀ c ∈ w, isWordChar c = true) : s ≠ w ++ 125 :: z := by
  rintro rfl
  obtain ⟨d, rfl⟩ := good_item hgood
  have hlong : ∀ v, (∀ c ∈ v, isWordChar c = true) →
      ∀ c ∈ w ++ 125 :: v, isWordChar c = true := by
    intro v hv c hc
    rcases List.mem_append.mp hc with hc | hc
    · exact hw c hc
    · rcases List.mem_cons.mp hc with rfl | hc
      · rfl
      · exact hv c hc
  have hno : ∀ v, w ++ 125 :: v ≠ [d.letter] := by
    intro v heq
    have hmem : 125 ∈ [d.letter] := heq ▸ by simp
    exact letter_ne_brace d (List.mem_singleton.mp hmem)
  rcases scan_cases z with ⟨v, x, rfl, hv, hx⟩ | ⟨v, f, y, rfl, hv, hf⟩ |
    ⟨v, y, rfl, hv, hy⟩
  · have happ : w ++ 125 :: (v ++ x) = (w ++ 125 :: v) ++ x := by simp
    rw [happ, scanItem_stop (hlong v hv) hx] at hscan
    exact hno v (congrArg (fun r => r.2.1) hscan)
  · have happ : w ++ 125 :: (v ++ 123 :: (f ++ 125 :: y))
        = (w ++ 125 :: v) ++ 123 :: (f ++ 125 :: y) := by simp
    rw [happ, scanItem_format (hlong v hv) hf] at hscan
    exact hno v (congrArg (fun r => r.2.1) hscan)
  · have happ : w ++ 125 :: (v ++ 123 :: y)
        = (w ++ 125 :: v) ++ 123 :: y := by simp
    have htrue := scanItem_unclosed hy (w ++ 125 :: v)
      (w ++ 125 :: v ++ [123]) []
    rw [happ, scanItem_open (hlong v hv)] at hscan
    rw [hscan] at htrue
    cases htrue

/-- Of an accepted pattern with a closing brace, what is behind the brace
is read as if it stood alone. -/
theorem cuts_behind {z : Bytes} {zs : List Piece} (hz : Cuts z zs) :
    ∀ (n : Nat) (f : Bytes), f.length ≤ n → 125 ∉ f →
      ∀ ys, Cuts (f ++ 125 :: z) ys → (∀ p ∈ ys, p.good = true) →
        ∃ as, ys = as ++ zs := by
  intro n
  induction n with
  | zero =>
      intro f hlen hf ys hys hgood
      rw [List.eq_nil_of_length_eq_zero (Nat.le_zero.mp hlen)] at hys
      cases hys with
      | text _ hys =>
          rw [cuts_unique hys hz]
          exact ⟨[_], rfl⟩
  | succ n ih =>
      intro f hlen hf ys hys hgood
      cases f with
      | nil => exact ih [] (Nat.zero_le n) hf ys hys hgood
      | cons c f =>
          have hf' : 125 ∉ f := fun h => hf (List.mem_cons_of_mem c h)
          have hlen' : f.length ≤ n := Nat.le_of_succ_le_succ hlen
          have hnext : ∀ {p : Piece} {qs : List Piece}, ys = p :: qs →
              Cuts (f ++ 125 :: z) qs → ∃ as, ys = as ++ zs := by
            rintro p qs rfl hqs
            obtain ⟨as, rfl⟩ := ih f hlen' hf' qs hqs
              fun r hr => hgood r (List.mem_cons_of_mem p hr)
            exact ⟨p :: as, rfl⟩
          generalize hs : f ++ 125 :: z = s at hnext
          have hcuts : Cuts (c :: s) ys := hs ▸ hys
          cases hcuts with
          | text _ hrest => exact hnext rfl hrest
          | escape hrest => exact hnext rfl hrest
          | unclosed _ _ _ => cases hgood _ List.mem_cons_self
          | @item _ str fmt rest qs _ hscan hrest =>
              have hqs : ∀ p ∈ qs, p.good = true :=
                fun p hp => hgood p (List.mem_cons_of_mem _ hp)
              have hclosed := word_closed (hgood _ List.mem_cons_self) hscan
              rcases scan_cases f with ⟨w, x, rfl, hw, hx⟩ |
                ⟨w, g, y, rfl, hw, hg⟩ | ⟨w, y, rfl, hw, hy⟩
              · cases x with
                | nil =>
                    -- the word would go on with the brace
                    rw [List.append_nil] at hs
                    exact absurd hs.symm (hclosed w z hw)
                | cons d x =>
                    have hstop : ∀ e ∈ (d :: (x ++ 125 :: z)).head?,
                        Stops e := fun e he => hx e he
                    have happ : (w ++ d :: x) ++ 125 :: z
                        = w ++ (d :: (x ++ 125 :: z)) := by simp
                    rw [← hs, happ, scanItem_stop hw hstop] at hscan
                    cases hscan
                    have hx' : 125 ∉ d :: x :=
                      fun h => hf' (List.mem_append_right _ h)
                    have hlx : (d :: x).length ≤ n := by
                      rw [List.length_append] at hlen'
                      exact Nat.le_trans (Nat.le_add_left _ _) hlen'
                    obtain ⟨as, rfl⟩ := ih (d :: x) hlx hx' qs hrest hqs
                    exact ⟨_ :: as, rfl⟩
              · exact absurd (by simp) hf'
              · have happ : (w ++ 123 :: y) ++ 125 :: z
                    = w ++ 123 :: (y ++ 125 :: z) := by simp
                rw [← hs, happ, scanItem_format hw hy] at hscan
                cases hscan
                rw [cuts_unique hrest hz]
                exact ⟨[_], rfl⟩

theorem printPieces_append (ps qs : List Piece) :
    printPieces lib e (ps ++ qs)
      = printPieces lib e ps ++ printPieces lib e qs :=
  List.flatMap_append

theorem cStr_cons {c : UInt8} (hc : c ≠ 0) (f : Bytes) :
    cStr (c :: f) = c :: cStr f :=
  List.takeWhile_cons_of_pos (decide_eq_true hc)

/-- No conversion gives a `d` or a brace: they are copied from the format. -/
theorem text_begins {x : UInt8} (hx : x = 100 ∨ x = 123) {f rest : Bytes}
    {time : UInt32} (h : lib.text (cStr f) time = x :: rest) :
    ∃ g, f = x :: g ∧ rest = lib.text (cStr g) time := by
  have hnil : lib.text [] time ≠ x :: rest := by
    rw [lib.text_nil]
    exact (List.cons_ne_nil x rest).symm
  cases f with
  | nil => exact absurd h hnil
  | cons c g =>
      by_cases hzero : c = 0
      · subst hzero
        exact absurd h hnil
      rw [cStr_cons hzero] at h
      by_cases hpercent : c = 37
      · subst hpercent
        obtain ⟨b, r, htext, hd, hbrace⟩ := lib.text_conversion (cStr g) time
        rw [htext] at h
        obtain rfl := (List.cons.inj h).1
        rcases hx with hx | hx
        · exact absurd hx hd
        · exact absurd hx hbrace
      rw [lib.text_char c _ time hpercent] at h
      obtain ⟨rfl, rfl⟩ := List.cons.inj h
      exact ⟨g, rfl, rfl⟩

/-- A format in braces, behind a `d`, does not print what it is as a text:
it would have to begin like that text, again and again. -/
theorem date_ne {z : Bytes} {zs : List Piece} (hz : Cuts z zs)
    (time : UInt32) (f : Bytes) (hf : 125 ∉ f) (ys : List Piece)
    (hys : Cuts (f ++ 125 :: z) ys) (hgood : ∀ p ∈ ys, p.good = true) :
    lib.text (cStr f) time ++ printPieces lib e zs
      ≠ 100 :: 123 :: printPieces lib e ys := by
  induction hn : f.length using Nat.strong_induction_on generalizing f ys with
  | _ n ih =>
      intro heq
      -- the text has to be as long as the `d` and the brace
      have hlong : 1 < (lib.text (cStr f) time).length := by
        obtain ⟨as, rfl⟩ := cuts_behind hz f.length f (Nat.le_refl _) hf ys hys
          hgood
        have hlen := congrArg List.length heq
        rw [printPieces_append] at hlen
        simp only [List.length_append, List.length_cons] at hlen
        omega
      obtain ⟨a, b, rest, htext⟩ :
          ∃ a b rest, lib.text (cStr f) time = a :: b :: rest := by
        cases htext : lib.text (cStr f) time with
        | nil => simp [htext] at hlong
        | cons a t =>
            cases t with
            | nil => simp [htext] at hlong
            | cons b rest => exact ⟨a, b, rest, rfl⟩
      rw [htext] at heq
      have htail := List.cons.inj heq
      have hrest := List.cons.inj htail.2
      obtain rfl : a = 100 := htail.1
      obtain rfl : b = 123 := hrest.1
      obtain ⟨f₁, rfl, htext₁⟩ := text_begins (.inl rfl) htext
      obtain ⟨f₂, rfl, rfl⟩ := text_begins (.inr rfl) htext₁.symm
      -- the same question, for the rest of the format
      have hys' : Cuts (100 :: 123 :: (f₂ ++ 125 :: z)) ys := hys
      cases hys' with
      | text _ hys' =>
          cases hys' with
          | @text _ _ ps _ hcuts =>
              have hf' : 125 ∉ f₂ := fun h => hf
                (List.mem_cons_of_mem 100 (List.mem_cons_of_mem 123 h))
              have hps : ∀ p ∈ ps, p.good = true := fun p hp =>
                hgood p (List.mem_cons_of_mem _ (List.mem_cons_of_mem _ hp))
              have hlt : f₂.length < n := by
                rw [← hn]
                show f₂.length < f₂.length + 1 + 1
                omega
              exact ih f₂.length hlt f₂ hf' ps hcuts hps rfl hrest.2

-- ===================================================================== the law

/-- An event in which every field and the garbage print another character
than the letter of their directive. -/
def plain : Printing :=
  ⟨ascii "<", .debug,
    ⟨ascii "<", ascii "<", 0, 0, 0, 0, ascii "<", 0, ascii "<"⟩⟩

/-- A date with the default format. -/
theorem printItem_default (lib : Strftime) :
    ∃ b rest, printItem lib plain (Directive.dateTime.item [])
      = b :: rest ∧ b ≠ 100 := by
  show ∃ b rest, lib.print (ascii "<") (ascii "%Y-%m-%d %H:%M:%S") 0
    = b :: rest ∧ b ≠ 100
  unfold Strftime.print
  simp only
  split
  next =>
      obtain ⟨b, rest, htext, hb, -⟩ :=
        lib.text_conversion (ascii "Y-%m-%d %H:%M:%S") 0
      exact ⟨b, rest, htext, hb⟩
  next => exact ⟨60, [], rfl, by decide⟩

/-- No other item prints its letter first. -/
theorem printItem_letter (lib : Strftime) (d : Directive) (fmt : Bytes)
    (hd : d ≠ .dateTime) : ∃ b rest,
      printItem lib plain (d.item fmt) = b :: rest ∧ b ≠ d.letter := by
  cases d with
  | dateTime => exact absurd rfl hd
  | _ => exact ⟨_, _, rfl, by decide⟩

/-- The item of a word that is in the table. -/
theorem print_letter (d : Directive) (fmt : Bytes) :
    (Piece.item [d.letter] fmt).print lib e = printItem lib e (d.item fmt) := by
  unfold Piece.print itemOf
  simp only [formatItem_letter]

/-- The item of a word that is not. -/
theorem print_unknown {str fmt : Bytes} (h : formatItem str fmt = none) :
    (Piece.item str fmt).print lib e
      = ascii "<<error_format %" ++ str ++ ascii ">>" := by
  unfold Piece.print itemOf
  simp only [h]
  rfl

/-- A `%` before a text that it is not part of. -/
theorem item_ne_text (lib : Strftime) (w : Bytes) :
    (Piece.item w []).print lib plain ≠ w := by
  rcases formatItem_cases w [] with hnone | ⟨d, rfl⟩
  · rw [print_unknown hnone]
    intro heq
    have hlen := congrArg List.length heq
    have hlong : (ascii "<<error_format %").length = 16 := rfl
    simp only [List.length_append, hlong] at hlen
    omega
  · rw [print_letter]
    by_cases hd : d = .dateTime
    · subst hd
      obtain ⟨b, rest, hprint, hb⟩ := printItem_default lib
      rw [hprint]
      exact fun heq => hb (List.cons.inj heq).1
    · obtain ⟨b, rest, hprint, hb⟩ := printItem_letter lib d [] hd
      rw [hprint]
      exact fun heq => hb (List.cons.inj heq).1

/-- A `%` before a text with braces. -/
theorem format_ne_text (lib : Strftime) {w f z : Bytes} {zs ys : List Piece}
    (hw : ∀ c ∈ w, isWordChar c = true) (hz : Cuts z zs) (hf : 125 ∉ f)
    (hys : Cuts (f ++ 125 :: z) ys) (hgood : ∀ p ∈ ys, p.good = true) :
    (Piece.item w f).print lib plain ++ printPieces lib plain zs
      ≠ w ++ 123 :: printPieces lib plain ys := by
  rcases formatItem_cases w f with hnone | ⟨d, rfl⟩
  · rw [print_unknown hnone]
    intro heq
    cases w with
    | nil => exact absurd (List.cons.inj heq).1 (by decide)
    | cons c w =>
        have hc : c = 60 := (List.cons.inj heq).1.symm
        have hword := hw c List.mem_cons_self
        rw [hc] at hword
        cases hword
  · rw [print_letter]
    by_cases hd : d = .dateTime
    · subst hd
      by_cases hempty : f = []
      · subst hempty
        obtain ⟨b, rest, hprint, hb⟩ := printItem_default lib
        rw [hprint]
        exact fun heq => hb (List.cons.inj heq).1
      · have hprint : printItem lib plain (Directive.dateTime.item f)
            = lib.print (ascii "<") f 0 := by
          unfold Directive.item
          rw [if_neg hempty]
          rfl
        rw [hprint]
        unfold Strftime.print
        simp only
        split
        next => exact date_ne hz 0 f hf ys hys hgood
        next => exact fun heq => absurd (List.cons.inj heq).1 (by decide)
    · obtain ⟨b, rest, hprint, hb⟩ := printItem_letter lib d f hd
      rw [hprint]
      exact fun heq => hb (List.cons.inj heq).1

theorem word_no_percent {w : Bytes} (hw : ∀ c ∈ w, isWordChar c = true) :
    37 ∉ w := by
  intro hmem
  cases hw 37 hmem

/-- Of the text and the rest of an accepted pattern, the rest is accepted. -/
theorem cuts_after {w x : Bytes} {qs : List Piece}
    (hw : ∀ c ∈ w, isWordChar c = true) (hq : Cuts (w ++ x) qs) :
    ∃ xs, Cuts x xs ∧ qs = w.map .text ++ xs := by
  obtain ⟨xs, hxs⟩ := cuts_exists x
  exact ⟨xs, hxs, cuts_unique hq (cuts_literal (word_no_percent hw) hxs)⟩

theorem printPieces_text (w : Bytes) :
    printPieces lib e (w.map .text) = w := by
  induction w with
  | nil => rfl
  | cons c w ih => exact congrArg (c :: ·) ih

/-- What `"%" ++ q` and `q` print differs: in length, or where no brace is
left open, for `plain`. -/
theorem percent_ne (lib : Strftime) {q : Bytes} {qs gs : List Piece}
    (hq : Cuts q qs) (hgood : ∀ p ∈ qs, p.good = true)
    (hg : Cuts (37 :: q) gs) :
    (printPieces lib plain gs).length ≠ (printPieces lib plain qs).length
      ∨ (∀ p ∈ gs, p.closed = true)
        ∧ printPieces lib plain gs ≠ printPieces lib plain qs := by
  have hcons : ∀ (p : Piece) (ps : List Piece),
      printPieces lib plain (p :: ps)
        = p.print lib plain ++ printPieces lib plain ps := fun _ _ => rfl
  by_cases hhead : q.head? = some 37
  · -- the second `%` is an escape again
    left
    cases q with
    | nil => cases hhead
    | cons c q =>
        cases hhead
        rw [cuts_unique hg (.escape hq), hcons, List.length_append]
        show 1 + _ ≠ _
        omega
  · rcases scan_cases q with ⟨w, x, rfl, hw, hx⟩ | ⟨w, f, z, rfl, hw, hf⟩ |
      ⟨w, y, rfl, hw, hy⟩
    · -- the text up to `x` is read as an item
      right
      obtain ⟨xs, hxs, rfl⟩ := cuts_after hw hq
      have hxgood : ∀ p ∈ xs, p.good = true :=
        fun p hp => hgood p (List.mem_append_right _ hp)
      rw [cuts_unique hg (.item hhead (scanItem_stop hw hx) hxs)]
      refine ⟨fun p hp => ?_, ?_⟩
      · rcases List.mem_cons.mp hp with rfl | hp
        · rfl
        · exact good_closed (hxgood p hp)
      · rw [hcons, printPieces_append, printPieces_text]
        exact fun heq => item_ne_text lib w (List.append_cancel_right heq)
    · -- the text up to `z` is read as an item with a format
      right
      obtain ⟨os, hos, rfl⟩ := cuts_after hw hq
      obtain ⟨zs, hz⟩ := cuts_exists z
      cases hos with
      | @text _ _ ys _ hys =>
          have hygood : ∀ p ∈ ys, p.good = true := fun p hp =>
            hgood p (List.mem_append_right _ (List.mem_cons_of_mem _ hp))
          rw [cuts_unique hg (.item hhead (scanItem_format hw hf z) hz)]
          refine ⟨fun p hp => ?_, ?_⟩
          · rcases List.mem_cons.mp hp with rfl | hp
            · rfl
            · obtain ⟨as, rfl⟩ := cuts_behind hz f.length f (Nat.le_refl _) hf
                ys hys hygood
              exact good_closed (hygood p (List.mem_append_right as hp))
          · rw [hcons, printPieces_append, printPieces_text, hcons]
            exact format_ne_text lib hw hz hf hys hygood
    · -- the brace is not closed, and everything is read again
      left
      have hscan : (scanItem false [] [] [] (w ++ 123 :: y)).1 = true := by
        rw [scanItem_open hw]
        exact scanItem_unclosed hy _ _ _
      rw [cuts_unique hg (.unclosed hhead hscan hq), hcons, List.length_append]
      show (ascii "<<pattern_error>>").length + _ ≠ _
      have hlong : (ascii "<<pattern_error>>").length = 17 := rfl
      omega

/-- No two accepted patterns obey the law. -/
theorem escape_never (lib : Strftime) {p q : Bytes}
    (hp : (new p).error = false) (hq : (new q).error = false) :
    ¬ EscapeLaw lib p q := by
  intro hlaw
  obtain ⟨ps, hps⟩ := cuts_exists p
  obtain ⟨qs, hqs⟩ := cuts_exists q
  obtain ⟨gs, hgs⟩ := cuts_exists (37 :: q)
  have hpgood := (accepted_iff hps).mp hp
  have hqgood := (accepted_iff hqs).mp hq
  have happ : p ++ ascii "%%" ++ q = p ++ 37 :: 37 :: q := by
    rw [List.append_assoc]
    rfl
  have hcuts := cuts_escape hps hpgood hgs
  have hlaw := hlaw plain
  rw [happ, printed_eq hps fun r hr => good_closed (hpgood r hr),
    printed_eq hqs fun r hr => good_closed (hqgood r hr)] at hlaw
  have hsplit : printPieces lib plain (ps ++ .text 37 :: gs)
      = printPieces lib plain ps ++ ascii "%" ++ printPieces lib plain gs := by
    rw [printPieces_append, List.append_assoc]
    rfl
  rcases percent_ne lib hqs hqgood hgs with hlen | ⟨hclosed, hne⟩
  · have hlen' := congrArg List.length hlaw
    rw [printed_length hcuts, hsplit] at hlen'
    simp only [List.length_append] at hlen'
    exact hlen (Nat.add_left_cancel hlen')
  · have hall : ∀ r ∈ ps ++ .text 37 :: gs, r.closed = true := by
      intro r hr
      rcases List.mem_append.mp hr with hr | hr
      · exact good_closed (hpgood r hr)
      · rcases List.mem_cons.mp hr with rfl | hr
        · rfl
        · exact hclosed r hr
    rw [printed_eq hcuts hall, hsplit] at hlaw
    exact hne (List.append_cancel_left hlaw)

/-- `strftime` for formats without conversions. -/
def plainText : Strftime where
  text fmt _ := fmt
  text_nil _ := rfl
  text_char _ _ _ _ := rfl
  text_conversion fmt _ := ⟨37, fmt, rfl, by decide, by decide⟩

theorem escape_never_percent :
    ¬ EscapeLaw plainText (ascii "%m 9") (ascii " %n") :=
  escape_never plainText (by decide) (by decide)

/-- The escape behind a text prints an error. -/
theorem escape_prints_error :
    ¬ ∀ (lib : Strftime) (p q : Bytes), (new p).error = false →
      (new q).error = false → EscapeLaw lib p q := by
  intro hall
  have hlaw := hall plainText (ascii "100") [] (by decide) (by decide) plain
  exact absurd hlaw (by decide)

end LogFormatter

end TinyServer
