/-
A printed pattern is read back as its tokens.

A literal is read as so many characters of a text, which `assemble` puts
together again, and a directive as an item. Where a directive has no
format, the character after its letter ends the word (`ends_word`).
-/
import TinyServer.Log.Proofs.Scan

namespace TinyServer

open Http (Bytes ascii)

open LogFormatter

variable {t : Token} {ts : List Token}

/-- What the loop reads of a token. -/
def Token.pieces : Token → List Piece
  | literal text => text.map Piece.text
  | directive d fmt => [.item [d.letter] (fmt.getD [])]

theorem letter_words (d : Directive) :
    ∀ c ∈ [d.letter], isWordChar c = true := by
  intro c hc
  rw [List.mem_singleton.mp hc]
  exact letter_word d

/-- What follows a directive without a format ends its word. -/
theorem ends_word {d : Directive} (h : Printable (.directive d none :: ts)) :
    ∀ c ∈ (printTokens ts).head?, Stops c := by
  obtain ⟨-, hnext, hts⟩ := h
  cases ts with
  | nil => exact fun c hc => by cases hc
  | cons u ts =>
      intro c hc
      cases u with
      | literal text =>
          obtain ⟨⟨hne, -⟩, -⟩ := hts
          have hbefore := hnext _ rfl
          cases text with
          | nil => exact absurd rfl hne
          | cons e text =>
              cases hc
              obtain ⟨halpha, hopen, hclose⟩ := hbefore c rfl
              refine ⟨?_, hopen⟩
              simp [isWordChar, halpha, hclose]
      | directive e fmt =>
          have hpercent : c = 37 := by
            cases fmt <;> exact (Option.some.inj hc).symm
          rw [hpercent]
          exact ⟨rfl, by decide⟩

/-- The loop reads the tokens one by one. -/
theorem cuts_print (h : Printable ts) :
    Cuts (printTokens ts) (ts.flatMap Token.pieces) := by
  induction ts with
  | nil => exact .nil
  | cons t ts ih =>
      have hrest := ih h.2.2
      show Cuts (t.print ++ printTokens ts)
          (t.pieces ++ ts.flatMap Token.pieces)
      cases t with
      | literal text => exact cuts_literal h.1.2 hrest
      | directive d fmt =>
          have hhead : ∀ q : Bytes, (d.letter :: q).head? ≠ some 37 := by
            intro q hq
            cases d <;> cases hq
          cases fmt with
          | none =>
              exact .item (hhead _)
                (scanItem_stop (letter_words d) (ends_word h)) hrest
          | some fmt =>
              have hprint : (Token.directive d (some fmt)).print
                  ++ printTokens ts
                  = 37 :: ([d.letter] ++ 123 :: (fmt ++ 125 :: printTokens ts))
                    := by
                simp [Token.print]
              rw [hprint]
              exact .item (hhead _)
                (scanItem_format (letter_words d) h.1 (printTokens ts)) hrest

/-- The entry of `vec` for a token. -/
def Token.entry : Token → Bytes × Option Bytes
  | literal text => (text, none)
  | directive d fmt => ([d.letter], some (fmt.getD []))

/-- A literal does not follow a literal, so each is put together by
itself. -/
theorem assemble_tokens (h : Printable ts) :
    ∀ (nstr : Bytes) (vec : List (Bytes × Option Bytes)),
      (nstr ≠ [] → ∀ t ∈ ts.head?, ∀ text, t ≠ .literal text) →
      assemble nstr vec false (ts.flatMap Token.pieces)
        = ((if nstr = [] then vec else vec ++ [(nstr, none)])
            ++ ts.map Token.entry, false) := by
  induction ts with
  | nil =>
      intro nstr vec _
      show (_, false) = _
      rw [List.map_nil, List.append_nil]
  | cons t ts ih =>
      intro nstr vec hnstr
      obtain ⟨hok, hnext, hts⟩ := h
      rw [List.flatMap_cons, List.map_cons]
      cases t with
      | literal text =>
          have hempty : nstr = [] := by
            by_contra hne
            exact hnstr hne _ rfl text rfl
          subst hempty
          have hafter : text ≠ [] → ∀ u ∈ ts.head?, ∀ v, u ≠ .literal v := by
            rintro - u hu v rfl
            exact hnext _ hu
          show assemble [] vec false (text.map .text ++ _) = _
          rw [assemble_texts, List.nil_append, ih hts text vec hafter,
            if_neg hok.1, if_pos rfl, List.append_assoc]
          rfl
      | directive d fmt =>
          show assemble [] _ false (ts.flatMap Token.pieces) = _
          rw [ih hts [] _ fun hne => absurd rfl hne, if_pos rfl,
            List.append_assoc]
          rfl

theorem itemOf_entry (t : Token) : itemOf t.entry = (t.item, false) := by
  cases t with
  | literal text => rfl
  | directive d fmt =>
      unfold itemOf Token.entry
      simp only [formatItem_letter]
      rfl

/-- The formatter of a printed pattern has one item for each token, in
order, and is not an error. -/
theorem new_printTokens (h : Printable ts) :
    (LogFormatter.new (printTokens ts)).items = ts.map Token.item
      ∧ (LogFormatter.new (printTokens ts)).error = false := by
  have hsplit : split (printTokens ts).length [] [] false (printTokens ts)
      = (ts.map Token.entry, false) := by
    rw [split_eq (cuts_print h) (Nat.le_refl _),
      assemble_tokens h [] [] fun hne => absurd rfl hne, if_pos rfl,
      List.nil_append]
  unfold LogFormatter.new
  simp only [hsplit, List.map_map]
  constructor
  · apply List.map_congr_left
    intro t _
    show (itemOf t.entry).1 = t.item
    rw [itemOf_entry]
  · rw [Bool.false_or, List.any_map]
    apply List.any_eq_false.mpr
    intro t _
    show ¬ (itemOf t.entry).2 = true
    rw [itemOf_entry]
    exact Bool.false_ne_true

/-- A level in brackets, the date with a format, and the message. -/
def levelDateMessage : List Token :=
  [.literal (ascii "["), .directive .level none, .literal (ascii "] "),
    .directive .dateTime (some (ascii "%H:%M")), .literal (ascii "at"),
    .directive .message none, .directive .newLine none]

theorem new_printTokens_level_date_message :
    printTokens levelDateMessage = ascii "[%p] %d\x7b%H:%M\x7dat%m%n"
      ∧ (LogFormatter.new (printTokens levelDateMessage)).items
        = [.string (ascii "["), .level, .string (ascii "] "),
          .dateTime (ascii "%H:%M"), .string (ascii "at"), .message, .newLine]
      ∧ (LogFormatter.new (printTokens levelDateMessage)).error = false :=
  ⟨by decide, new_printTokens (by
    simp [Printable, levelDateMessage, Token.Ok, Token.Before, ascii,
      isAlpha])⟩

end TinyServer
