/-
The framing of a message that is written out.

`dump` writes the start line, the header lines and the body. The line for
the connection is made from `m_close`, and a stored header of that name is
left out, whatever its case. The line for the length is made from the
body, but a stored one is written next to it. What is stored is written
as it is, with the line ends in it.

# The reader

`readHead` takes a text apart as its receiver does: lines up to the first
empty one, and what follows. `Framed` says what the lines of a message
have to be, and that the body follows them.

# What is enough

The lines that are not from `m_close` and the body are those of the start
line and of the stored headers, cut at their line ends. A message is
framed exactly when none of them is empty, none is for the connection,
and the lengths among them are that of the body (`Unmixed`,
`framing_iff`). Without line ends it comes down to the stored lengths
(`unmixed_iff`).
-/
import Mathlib.Data.List.TakeWhile
import TinyServer.Http.Proofs.Headers
import TinyServer.Http.Proofs.Number

namespace TinyServer.Http

variable {h : Headers} {body : Bytes} {close : Bool}

-- =================================================================== the lines

/-- `name << ": " << value` -/
def lineText (l : Bytes × Bytes) : Bytes := l.1 ++ ascii ": " ++ l.2

/-- `os << name << ": " << value << "\r\n"` -/
def renderLine (l : Bytes × Bytes) : Bytes := lineText l ++ crlf

/-- The line for the connection. -/
def connectionLine (close : Bool) : Bytes × Bytes :=
  (ascii "connection", if close then ascii "close" else ascii "keep-alive")

/-- The line for the length of the body, if there is one. -/
def lengthLines (body : Bytes) : List (Bytes × Bytes) :=
  if body = [] then [] else [(ascii "content-length", toDecimal body.length)]

/-- The stored headers that are written. -/
def Headers.others (h : Headers) : Headers :=
  h.filter fun kv => strcasecmp kv.1 (ascii "connection") ≠ .eq

/-- The first line of a request. -/
def HttpRequest.startLine (q : HttpRequest) : Bytes :=
  httpMethodToString q.method ++ ascii " " ++ q.path
    ++ (if q.query = [] then [] else ascii "?") ++ q.query
    ++ (if q.fragment = [] then [] else ascii "#") ++ q.fragment
    ++ ascii " HTTP/" ++ toDecimal (q.version / 16) ++ ascii "."
    ++ toDecimal (q.version % 16)

/-- The header lines that `HttpRequest::dump` writes. -/
def HttpRequest.lines (q : HttpRequest) : List (Bytes × Bytes) :=
  connectionLine q.close :: q.headers.others ++ lengthLines q.body

/-- The first line of a response. -/
def HttpResponse.startLine (r : HttpResponse) : Bytes :=
  ascii "HTTP/" ++ toDecimal (r.version / 16) ++ ascii "."
    ++ toDecimal (r.version % 16) ++ ascii " "
    ++ toDecimal (r.status % 0x100000000).toNat ++ ascii " "
    ++ (if r.reason = [] then httpStatusToString r.status else r.reason)

/-- The header lines that `HttpResponse::dump` writes. -/
def HttpResponse.lines (r : HttpResponse) : List (Bytes × Bytes) :=
  r.headers.others ++ connectionLine r.close :: lengthLines r.body

/-- The headers are written line by line. -/
theorem Headers.dump_eq (h : Headers) :
    h.dump = h.others.flatMap renderLine := by
  unfold Headers.dump Headers.others
  induction h with
  | nil => rfl
  | cons kv h ih =>
      rw [List.flatMap_cons, ih, List.filter_cons]
      by_cases hkey : strcasecmp kv.1 (ascii "connection") = .eq
      · rw [if_pos hkey, if_neg (by simpa using hkey)]
        rfl
      · rw [if_neg hkey, if_pos (by simpa using hkey), List.flatMap_cons]
        rfl

/-- The end of a message: the line for the length, the empty line and the
body. -/
private theorem dump_end (body : Bytes) :
    (if body = [] then crlf
      else ascii "content-length: " ++ toDecimal body.length ++ crlf ++ crlf
        ++ body)
      = (lengthLines body).flatMap renderLine ++ crlf ++ body := by
  have hname : ascii "content-length: " = ascii "content-length"
      ++ ascii ": " := by
    decide
  unfold lengthLines
  split
  next hbody =>
    rw [hbody]
    rfl
  next =>
    rw [List.flatMap_cons, List.flatMap_nil, hname]
    unfold renderLine lineText
    simp only [List.append_assoc, List.nil_append]

/-- The text of the connection line. -/
private theorem connectionLine_eq (close : Bool) :
    renderLine (connectionLine close) = ascii "connection: "
      ++ (if close then ascii "close" else ascii "keep-alive") ++ crlf := by
  have hname : ascii "connection: " = ascii "connection" ++ ascii ": " := by
    decide
  rw [hname]
  rfl

/-- What `HttpRequest::dump` writes. -/
theorem HttpRequest.dump_lines (q : HttpRequest) :
    q.dump = q.startLine ++ crlf ++ q.lines.flatMap renderLine ++ crlf
      ++ q.body := by
  unfold HttpRequest.dump HttpRequest.lines
  rw [dump_end, Headers.dump_eq, List.flatMap_append, List.flatMap_cons,
    connectionLine_eq]
  unfold HttpRequest.startLine
  simp only [List.append_assoc]

/-- What `HttpResponse::dump` writes. -/
theorem HttpResponse.dump_lines (r : HttpResponse) :
    r.dump = r.startLine ++ crlf ++ r.lines.flatMap renderLine ++ crlf
      ++ r.body := by
  unfold HttpResponse.dump HttpResponse.lines
  rw [dump_end, Headers.dump_eq, List.flatMap_append, List.flatMap_cons,
    connectionLine_eq]
  unfold HttpResponse.startLine
  simp only [List.append_assoc]

-- ================================================================== the reader

/-- A line that ends in CR LF, without the CR. -/
def chomp (line : Bytes) : Bytes :=
  if line.getLast? = some 13 then line.dropLast else line

/-- The lines of a text up to the first empty one, and what follows, when
`line` has been read of the first. A line ends in LF or CR LF. -/
def readHead : (line text : Bytes) → Option (List Bytes × Bytes)
  | _, [] => none
  | line, 10 :: rest =>
      if chomp line = [] then some ([], rest)
      else (readHead [] rest).map fun r => (chomp line :: r.1, r.2)
  | line, b :: rest => readHead (line ++ [b]) rest

/-- The lines of a text that CR LF follows. -/
def cutLines : (line text : Bytes) → List Bytes
  | line, [] => [line]
  | line, 10 :: rest => chomp line :: cutLines [] rest
  | line, b :: rest => cutLines (line ++ [b]) rest

/-- A space or a tab. -/
def isBlank (b : UInt8) : Bool := b = 32 || b = 9

/-- A header line as name and value: what stands before the first colon,
and behind it after blanks. -/
def splitLine (l : Bytes) : Bytes × Bytes :=
  (l.takeWhile (· ≠ 58),
    ((l.dropWhile (· ≠ 58)).drop 1).dropWhile isBlank)

/-- A CR at the end of a line is taken off. -/
theorem chomp_concat (line : Bytes) : chomp (line ++ [13]) = line := by
  simp [chomp]

/-- A LF ends a line, and an empty line the head. -/
theorem readHead_lf {line rest : Bytes} :
    readHead line (10 :: rest) = if chomp line = [] then some ([], rest)
      else (readHead [] rest).map fun r => (chomp line :: r.1, r.2) := by
  rw [readHead]

/-- Any other byte is one of the line. -/
theorem readHead_byte {line rest : Bytes} {b : UInt8} (hb : b ≠ 10) :
    readHead line (b :: rest) = readHead (line ++ [b]) rest := by
  rw [readHead]
  exact fun h => hb h

/-- And so it is in a text without a body. -/
theorem cutLines_byte {line rest : Bytes} {b : UInt8} (hb : b ≠ 10) :
    cutLines line (b :: rest) = cutLines (line ++ [b]) rest := by
  rw [cutLines]
  exact fun h => hb h

/-- The line ends that `dump` writes. -/
theorem readHead_crlf {line rest : Bytes} :
    readHead line (crlf ++ rest) = if line = [] then some ([], rest)
      else (readHead [] rest).map fun r => (line :: r.1, r.2) := by
  show readHead line (13 :: 10 :: rest) = _
  rw [readHead_byte (by decide), readHead_lf, chomp_concat]

/-- The lines of a part of the head are read one by one, when none is
empty. -/
theorem readHead_cut (w rest : Bytes) : ∀ {line : Bytes},
    [] ∉ cutLines line w →
      readHead line (w ++ crlf ++ rest)
        = (readHead [] rest).map fun r => (cutLines line w ++ r.1, r.2) := by
  induction w with
  | nil =>
      intro line hw
      have hline : line ≠ [] := fun h0 => hw (by rw [cutLines, h0]; simp)
      rw [List.nil_append, readHead_crlf, if_neg hline, cutLines]
      rfl
  | cons b w ih =>
      intro line hw
      by_cases hb : b = 10
      · subst hb
        rw [cutLines, List.mem_cons, not_or] at hw
        rw [List.cons_append, List.cons_append, readHead_lf,
          if_neg (Ne.symm hw.1), ih hw.2, cutLines, Option.map_map]
        rfl
      · rw [cutLines_byte hb] at hw ⊢
        rw [List.cons_append, List.cons_append, readHead_byte hb, ih hw]

/-- At an empty line in a part of the head the reader takes the rest of
the text for what follows. -/
theorem readHead_cut_empty (w rest : Bytes) : ∀ {line : Bytes},
    [] ∈ cutLines line w →
      ∃ lines z, readHead line (w ++ crlf ++ rest)
        = some (lines, z ++ rest) := by
  induction w with
  | nil =>
      intro line hw
      rw [cutLines, List.mem_singleton] at hw
      rw [List.nil_append, readHead_crlf, if_pos hw.symm]
      exact ⟨[], [], rfl⟩
  | cons b w ih =>
      intro line hw
      by_cases hb : b = 10
      · subst hb
        rw [List.cons_append, List.cons_append, readHead_lf]
        split
        next => exact ⟨[], w ++ crlf, rfl⟩
        next hline =>
            rw [cutLines, List.mem_cons] at hw
            obtain ⟨lines, z, hz⟩ := ih (hw.resolve_left (Ne.symm hline))
            rw [hz]
            exact ⟨chomp line :: lines, z, rfl⟩
      · rw [cutLines_byte hb] at hw
        rw [List.cons_append, List.cons_append, readHead_byte hb]
        exact ih hw

/-- A reader finds the body behind the head exactly when no line of the
head is empty, and then the lines of the head are those of its parts. -/
theorem readHead_iff (body : Bytes) (parts : List Bytes) :
    ∀ {lines : List Bytes},
      readHead [] (parts.flatMap (· ++ crlf) ++ crlf ++ body)
          = some (lines, body)
        ↔ (∀ w ∈ parts, [] ∉ cutLines [] w)
          ∧ lines = parts.flatMap (cutLines []) := by
  induction parts with
  | nil =>
      intro lines
      show readHead [] (crlf ++ body) = _ ↔ _
      rw [readHead_crlf, if_pos rfl]
      simp [eq_comm]
  | cons w parts ih =>
      intro lines
      have htext : (w :: parts).flatMap (· ++ crlf) ++ crlf ++ body
          = w ++ crlf ++ (parts.flatMap (· ++ crlf) ++ crlf ++ body) := by
        rw [List.flatMap_cons]
        simp only [List.append_assoc]
      rw [htext, List.forall_mem_cons, List.flatMap_cons]
      by_cases hw : [] ∈ cutLines [] w
      · -- too much follows
        obtain ⟨found, z, hz⟩ := readHead_cut_empty w
          (parts.flatMap (· ++ crlf) ++ crlf ++ body) hw
        refine iff_of_false (fun hread => ?_) fun h => h.1.1 hw
        rw [hz, Option.some.injEq, Prod.mk.injEq] at hread
        have hlen := congrArg List.length hread.2
        have hcrlf : crlf.length = 2 := rfl
        simp only [List.length_append, hcrlf] at hlen
        omega
      · rw [readHead_cut w _ hw, Option.map_eq_some_iff]
        constructor
        · intro hsome
          obtain ⟨⟨found, rest⟩, hread, heq⟩ := hsome
          rw [Prod.mk.injEq] at heq
          obtain ⟨rfl, rfl⟩ := heq
          obtain ⟨hall, rfl⟩ := ih.mp hread
          exact ⟨⟨hw, hall⟩, rfl⟩
        · intro h
          obtain ⟨⟨-, hall⟩, rfl⟩ := h
          exact ⟨_, ih.mpr ⟨hall, rfl⟩, rfl⟩

/-- A text without line ends is one line. -/
theorem cutLines_of_not_mem {w : Bytes} (hw : 10 ∉ w) (line : Bytes) :
    cutLines line w = [line ++ w] := by
  induction w generalizing line with
  | nil => rw [cutLines, List.append_nil]
  | cons b w ih =>
      rw [List.mem_cons, not_or] at hw
      rw [cutLines_byte (Ne.symm hw.1), ih hw.2, List.append_assoc]
      rfl

/-- A header line is taken apart at its colon. -/
theorem splitLine_lineText {l : Bytes × Bytes} (hname : 58 ∉ l.1) :
    splitLine (lineText l) = (l.1, l.2.dropWhile isBlank) := by
  have hcolon : ascii ": " = [58, 32] := by decide
  have hall : ∀ b ∈ l.1, decide (b ≠ 58) = true := by
    intro b hb
    rw [decide_eq_true_eq]
    rintro rfl
    exact hname hb
  unfold splitLine lineText
  rw [hcolon, List.append_assoc, List.takeWhile_append_of_pos hall,
    List.dropWhile_append_of_pos hall]
  simp [isBlank]

-- ================================================================= the framing

/-- The name of a line, whatever its case. -/
def Named (name : Bytes) (l : Bytes × Bytes) : Prop :=
  l.1.map toLower = name

instance (name : Bytes) (l : Bytes × Bytes) : Decidable (Named name l) :=
  inferInstanceAs (Decidable (_ = _))

/-- The text is the number `n` in decimal. -/
structure Denotes (text : Bytes) (n : Nat) : Prop where
  ne_nil : text ≠ []
  digits : ∀ b ∈ text, 48 ≤ b ∧ b ≤ 57
  value : digitsValue 10 0 text = n

/-- A number as `dump` writes it. -/
theorem denotes_toDecimal (n : Nat) : Denotes (toDecimal n) n :=
  ⟨toDecimal_ne_nil n, toDecimal_digit n, digitsValue_toDecimal n⟩

/-- The lengths among the header lines are that of the body, with one at
least when there is a body, and one line is for the connection, as
`close` says. -/
structure Consistent (lines : List (Bytes × Bytes)) (body : Bytes)
    (close : Bool) : Prop where
  lengths : ∀ l ∈ lines, Named (ascii "content-length") l →
    Denotes l.2 body.length
  length : body ≠ [] → ∃ l ∈ lines, Named (ascii "content-length") l
  connection : (lines.filter fun l => Named (ascii "connection") l)
    = [connectionLine close]

/-- A reader of the text finds consistent header lines behind the start
line, and then the body. -/
def Framed (text body : Bytes) (close : Bool) : Prop :=
  ∃ lines, readHead [] text = some (lines, body)
    ∧ Consistent (lines.tail.map splitLine) body close

/-- The header lines that come of the start line and the stored
headers. -/
def storedLines (start : Bytes) (h : Headers) : List (Bytes × Bytes) :=
  ((cutLines [] start).tail
    ++ h.others.flatMap fun kv => cutLines [] (lineText kv)).map splitLine

/-- Of the lines that the start line and the stored headers make, none is
empty and none is for the connection, and every length is `n`. -/
structure Unmixed (start : Bytes) (h : Headers) (n : Nat) : Prop where
  first : [] ∉ cutLines [] start
  headers : ∀ kv ∈ h.others, [] ∉ cutLines [] (lineText kv)
  connection : ∀ l ∈ storedLines start h, ¬ Named (ascii "connection") l
  lengths : ∀ l ∈ storedLines start h, Named (ascii "content-length") l →
    Denotes l.2 n

/-- Every length among the stored headers is `n`. -/
def StoredLength (h : Headers) (n : Nat) : Prop :=
  ∀ kv ∈ h, Named (ascii "content-length") kv →
    Denotes (kv.2.dropWhile isBlank) n

/-- A name in lower case is that of a key for `strcasecmp`. -/
theorem strcasecmp_of_named {name : Bytes} {kv : Bytes × Bytes}
    (hname : name.map toLower = name) (hnul : 0 ∉ name)
    (h : Named name kv) : strcasecmp kv.1 name = .eq := by
  have hkey : 0 ∉ kv.1 := by
    intro hmem
    apply hnul
    rw [← h]
    exact List.mem_map.mpr ⟨0, hmem, rfl⟩
  exact (strcasecmp_eq_iff hkey hnul).mpr (h.trans hname.symm)

/-- A stored header that is written is not for the connection. -/
theorem not_connection {kv : Bytes × Bytes} (hkv : kv ∈ h.others) :
    ¬ Named (ascii "connection") kv := by
  intro hnamed
  have hne := (List.mem_filter.mp hkv).2
  rw [decide_eq_true_eq] at hne
  exact hne (strcasecmp_of_named (by decide) (by decide) hnamed)

/-- A stored length is written. -/
theorem length_mem_others {kv : Bytes × Bytes} (hkv : kv ∈ h)
    (hnamed : Named (ascii "content-length") kv) : kv ∈ h.others := by
  refine List.mem_filter.mpr ⟨hkv, ?_⟩
  rw [decide_eq_true_eq]
  intro hconn
  have hlen := strcasecmp_of_named (by decide) (by decide) hnamed
  have hsame : strcasecmp (ascii "content-length") (ascii "connection")
      = .eq :=
    Std.TransCmp.eq_trans (Std.OrientedCmp.eq_symm hlen) hconn
  exact absurd hsame (by decide)

/-- Without line ends in the start line and the headers, and without a
colon in a name, only the stored lengths count. -/
theorem unmixed_iff {start : Bytes} {n : Nat} (hne : start ≠ [])
    (hstart : 10 ∉ start)
    (hplain : ∀ kv ∈ h, 10 ∉ kv.1 ∧ 58 ∉ kv.1 ∧ 10 ∉ kv.2) :
    Unmixed start h n ↔ StoredLength h n := by
  have hcolon : ascii ": " = [58, 32] := by decide
  have hline : ∀ kv ∈ h.others, cutLines [] (lineText kv) = [lineText kv] := by
    intro kv hkv
    obtain ⟨hname, -, hvalue⟩ := hplain kv (List.mem_filter.mp hkv).1
    refine cutLines_of_not_mem ?_ []
    unfold lineText
    rw [hcolon]
    simp [hname, hvalue]
  have hlines : storedLines start h
      = h.others.map fun kv => (kv.1, kv.2.dropWhile isBlank) := by
    unfold storedLines
    rw [cutLines_of_not_mem hstart, List.tail_cons, List.nil_append,
      List.map_flatMap, List.flatMap_congr (g := fun kv =>
        [(kv.1, kv.2.dropWhile isBlank)]) fun kv hkv => ?_]
    · exact (List.map_eq_flatMap ..).symm
    · rw [hline kv hkv, List.map_singleton,
        splitLine_lineText (hplain kv (List.mem_filter.mp hkv).1).2.1]
  constructor
  · intro hunmixed kv hkv hnamed
    refine hunmixed.lengths (kv.1, kv.2.dropWhile isBlank) ?_ hnamed
    rw [hlines]
    exact List.mem_map.mpr ⟨kv, length_mem_others hkv hnamed, rfl⟩
  · intro hstored
    refine ⟨?_, fun kv hkv => ?_, ?_, ?_⟩
    · rw [cutLines_of_not_mem hstart, List.mem_singleton]
      exact fun h0 => hne h0.symm
    · rw [hline kv hkv, List.mem_singleton]
      unfold lineText
      rw [hcolon]
      simp
    · rw [hlines]
      intro l hl
      obtain ⟨kv, hkv, rfl⟩ := List.mem_map.mp hl
      exact fun hnamed => not_connection hkv hnamed
    · rw [hlines]
      intro l hl hnamed
      obtain ⟨kv, hkv, rfl⟩ := List.mem_map.mp hl
      exact hstored kv (List.mem_filter.mp hkv).1 hnamed

-- =============================================================== the own lines

/-- The lines that are made of `m_close` and the body are read as they
are written. -/
theorem read_connectionLine (close : Bool) :
    (cutLines [] (lineText (connectionLine close))).map splitLine
      = [connectionLine close] := by
  cases close <;> decide

/-- The written length is one line. -/
theorem read_lengthLines (body : Bytes) :
    ((lengthLines body).flatMap fun l => cutLines [] (lineText l)).map splitLine
        = lengthLines body
      ∧ ∀ l ∈ lengthLines body, [] ∉ cutLines [] (lineText l) := by
  unfold lengthLines
  split
  next => exact ⟨rfl, fun l hl => by cases hl⟩
  next =>
    have hdigit : ∀ b ∈ toDecimal body.length, 48 ≤ b ∧ b ≤ 57 :=
      toDecimal_digit _
    have hlf : 10 ∉ lineText (ascii "content-length",
        toDecimal body.length) := by
      intro hmem
      unfold lineText at hmem
      rcases List.mem_append.mp hmem with hmem | hmem
      · have hname : 10 ∉ ascii "content-length" ++ ascii ": " := by decide
        exact hname hmem
      · exact absurd (hdigit 10 hmem).1 (by decide)
    have hblank : (toDecimal body.length).dropWhile isBlank
        = toDecimal body.length := by
      cases hd : toDecimal body.length with
      | nil => rfl
      | cons b bs =>
          have hb := hdigit b (by rw [hd]; exact List.mem_cons_self)
          refine List.dropWhile_cons_of_neg fun hblank => ?_
          simp only [isBlank, Bool.or_eq_true, decide_eq_true_eq] at hblank
          rcases hblank with rfl | rfl
          · exact absurd hb.1 (by decide)
          · exact absurd hb.1 (by decide)
    have hname : 58 ∉ ascii "content-length" := by decide
    have hcut := cutLines_of_not_mem hlf []
    constructor
    · rw [List.flatMap_cons, List.flatMap_nil, List.append_nil, hcut,
        List.nil_append, List.map_singleton, splitLine_lineText hname,
        hblank]
    · intro l hl
      obtain rfl := List.mem_singleton.mp hl
      rw [hcut, List.mem_singleton]
      unfold lineText
      simp [ascii]

/-- It is not a connection line. -/
theorem filter_lengthLines :
    ((lengthLines body).filter fun l => Named (ascii "connection") l) = [] := by
  unfold lengthLines
  split
  next => rfl
  next =>
    have hname : ¬ Named (ascii "connection")
        (ascii "content-length", toDecimal body.length) := by
      show ¬ (ascii "content-length").map toLower = ascii "connection"
      decide
    rw [List.filter_cons, if_neg (by rw [decide_eq_true_eq]; exact hname)]
    rfl

/-- The written connection is one. -/
theorem filter_connectionLine (ls : List (Bytes × Bytes)) :
    ((connectionLine close :: ls).filter fun l => Named (ascii "connection") l)
      = connectionLine close
        :: ls.filter fun l => Named (ascii "connection") l := by
  have hname : Named (ascii "connection") (connectionLine close) := by
    show (ascii "connection").map toLower = ascii "connection"
    decide
  rw [List.filter_cons, if_pos (decide_eq_true_eq.mpr hname)]

/-- Header lines with the own ones among them. -/
theorem consistent_iff {xs ys : List (Bytes × Bytes)} :
    Consistent (xs ++ connectionLine close :: ys ++ lengthLines body) body
        close
      ↔ (∀ l ∈ xs ++ ys, ¬ Named (ascii "connection") l)
        ∧ ∀ l ∈ xs ++ ys, Named (ascii "content-length") l →
          Denotes l.2 body.length := by
  have hfilter : ((xs ++ connectionLine close :: ys
        ++ lengthLines body).filter fun l => Named (ascii "connection") l)
      = (xs.filter fun l => Named (ascii "connection") l)
        ++ connectionLine close
          :: ys.filter fun l => Named (ascii "connection") l := by
    rw [List.filter_append, List.filter_append, filter_connectionLine,
      filter_lengthLines, List.append_nil]
  constructor
  · intro hc
    have hone := congrArg List.length (hfilter.symm.trans hc.connection)
    rw [List.length_append, List.length_cons, List.length_singleton] at hone
    refine ⟨fun l hl hnamed => ?_, fun l hl => hc.lengths l ?_⟩
    · have hpos : ∀ {ls : List (Bytes × Bytes)}, l ∈ ls →
          0 < (ls.filter fun l => Named (ascii "connection") l).length :=
        fun hl => List.length_pos_of_mem
          (List.mem_filter.mpr ⟨hl, decide_eq_true hnamed⟩)
      rcases List.mem_append.mp hl with hl | hl
      · have := hpos hl
        omega
      · have := hpos hl
        omega
    · simp only [List.mem_append, List.mem_cons]
      rcases List.mem_append.mp hl with hl | hl
      · exact .inl (.inl hl)
      · exact .inl (.inr (.inr hl))
  · intro h
    obtain ⟨hconn, hlengths⟩ := h
    refine ⟨fun l hl hnamed => ?_, fun hbody => ?_, ?_⟩
    · simp only [List.mem_append, List.mem_cons] at hl
      rcases hl with (hl | rfl | hl) | hl
      · exact hlengths l (List.mem_append_left _ hl) hnamed
      · have hne : ¬ (ascii "connection").map toLower
            = ascii "content-length" := by decide
        exact absurd hnamed hne
      · exact hlengths l (List.mem_append_right _ hl) hnamed
      · unfold lengthLines at hl
        split at hl
        next => cases hl
        next =>
          obtain rfl := List.mem_singleton.mp hl
          exact denotes_toDecimal _
    · refine ⟨(ascii "content-length", toDecimal body.length),
        List.mem_append_right _ ?_, ?_⟩
      · unfold lengthLines
        rw [if_neg hbody]
        exact List.mem_singleton_self _
      · show (ascii "content-length").map toLower = ascii "content-length"
        decide
    · have hnone : ∀ {ls : List (Bytes × Bytes)}, (∀ l ∈ ls,
          ¬ Named (ascii "connection") l) →
          (ls.filter fun l => Named (ascii "connection") l) = [] :=
        fun hls => List.filter_eq_nil_iff.mpr fun l hl => by
          rw [decide_eq_true_eq]
          exact hls l hl
      rw [hfilter, hnone fun l hl => hconn l (List.mem_append_left _ hl),
        hnone fun l hl => hconn l (List.mem_append_right _ hl)]
      rfl

/-- A text has at least one line. -/
theorem cutLines_ne_nil (line w : Bytes) : cutLines line w ≠ [] := by
  induction w generalizing line with
  | nil => exact List.cons_ne_nil _ _
  | cons b w ih =>
      by_cases hb : b = 10
      · subst hb
        exact List.cons_ne_nil _ _
      · rw [cutLines_byte hb]
        exact ih _

/-- The framing of a text with the line for the connection among the
stored headers and the line for the length behind them. -/
theorem framed_iff {text start : Bytes} {lines : List (Bytes × Bytes)}
    (xs ys : List (Bytes × Bytes))
    (htext : text = start ++ crlf ++ lines.flatMap renderLine ++ crlf ++ body)
    (hlines : lines = xs ++ connectionLine close :: ys ++ lengthLines body)
    (hothers : h.others = xs ++ ys) :
    Framed text body close ↔ Unmixed start h body.length := by
  have hparts : text = (start :: lines.map lineText).flatMap (· ++ crlf)
      ++ crlf ++ body := by
    rw [htext, List.flatMap_cons, List.flatMap_map]
    rfl
  obtain ⟨first, rest, hfirst⟩ :=
    List.exists_cons_of_ne_nil (cutLines_ne_nil [] start)
  -- what the reader finds behind the start line
  have hread : ((start :: lines.map lineText).flatMap
        (cutLines [])).tail.map splitLine
      = (rest ++ xs.flatMap fun kv => cutLines [] (lineText kv)).map splitLine
        ++ connectionLine close
          :: (ys.flatMap fun kv => cutLines [] (lineText kv)).map splitLine
        ++ lengthLines body := by
    rw [List.flatMap_cons, hfirst, List.flatMap_map, hlines]
    simp only [List.cons_append, List.tail_cons, List.flatMap_append,
      List.flatMap_cons, List.map_append, (read_lengthLines body).1,
      read_connectionLine, List.append_assoc, List.nil_append]
  have hstored : storedLines start h
      = (rest ++ xs.flatMap fun kv => cutLines [] (lineText kv)).map splitLine
        ++ (ys.flatMap fun kv => cutLines [] (lineText kv)).map splitLine := by
    unfold storedLines
    rw [hfirst, hothers]
    simp only [List.tail_cons, List.flatMap_append, List.map_append,
      List.append_assoc]
  have hempty : (∀ w ∈ start :: lines.map lineText, [] ∉ cutLines [] w)
      ↔ [] ∉ cutLines [] start
        ∧ ∀ kv ∈ h.others, [] ∉ cutLines [] (lineText kv) := by
    have hown : [] ∉ cutLines [] (lineText (connectionLine close)) := by
      cases close <;> decide
    rw [List.forall_mem_cons, List.forall_mem_map, hlines, hothers]
    simp only [List.mem_append, List.mem_cons]
    refine and_congr_right fun _ => ⟨fun hall kv hkv => ?_, fun hall l hl => ?_⟩
    · refine hall kv (.inl ?_)
      exact hkv.imp_right .inr
    · rcases hl with (hl | rfl | hl) | hl
      · exact hall l (.inl hl)
      · exact hown
      · exact hall l (.inr hl)
      · exact (read_lengthLines body).2 l hl
  unfold Framed
  rw [hparts]
  constructor
  · intro hframed
    obtain ⟨found, hfound, hc⟩ := hframed
    obtain ⟨hall, rfl⟩ := (readHead_iff body _).mp hfound
    rw [hread] at hc
    obtain ⟨hconn, hlengths⟩ := consistent_iff.mp hc
    obtain ⟨hstart, hheaders⟩ := hempty.mp hall
    rw [← hstored] at hconn hlengths
    exact ⟨hstart, hheaders, hconn, hlengths⟩
  · intro hunmixed
    refine ⟨_, (readHead_iff body _).mpr ⟨hempty.mpr ⟨hunmixed.first,
      hunmixed.headers⟩, rfl⟩, ?_⟩
    rw [hread]
    refine consistent_iff.mpr ?_
    rw [← hstored]
    exact ⟨hunmixed.connection, hunmixed.lengths⟩

/-- When the text of a request is framed, -/
theorem HttpRequest.framed_iff (q : HttpRequest) :
    Framed q.dump q.body q.close
      ↔ Unmixed q.startLine q.headers q.body.length :=
  Http.framed_iff [] q.headers.others q.dump_lines rfl rfl

/-- and that of a response. -/
theorem HttpResponse.framed_iff (r : HttpResponse) :
    Framed r.dump r.body r.close
      ↔ Unmixed r.startLine r.headers r.body.length := by
  refine Http.framed_iff r.headers.others [] r.dump_lines ?_
    (List.append_nil _).symm
  unfold HttpResponse.lines
  rw [List.append_assoc]
  rfl

/-- The text of a request and that of a response are framed exactly when
the lines of their start lines and stored headers do not mix with those
of `dump`. -/
theorem framing_iff (q : HttpRequest) (r : HttpResponse) :
    (Framed q.dump q.body q.close
      ↔ Unmixed q.startLine q.headers q.body.length)
    ∧ (Framed r.dump r.body r.close
      ↔ Unmixed r.startLine r.headers r.body.length) :=
  ⟨q.framed_iff, r.framed_iff⟩

/-- A request with a stored length of 5 and a body of two bytes. -/
def stale : HttpRequest :=
  { HttpRequest.new with
    body := ascii "ab"
    headers := [(ascii "Content-Length", ascii "5")] }

/-- Both lengths are written. -/
theorem framing_conflict :
    stale.dump = ascii "GET / HTTP/1.1\r\nconnection: close\r\n"
        ++ ascii "Content-Length: 5\r\ncontent-length: 2\r\n\r\nab"
      ∧ ¬ Framed stale.dump stale.body stale.close := by
  refine ⟨by decide, fun hframed => ?_⟩
  have hstored : StoredLength stale.headers stale.body.length :=
    (unmixed_iff (by decide) (by decide) (by decide)).mp
      (stale.framed_iff.mp hframed)
  have hvalue := (hstored (ascii "Content-Length", ascii "5") (by decide)
    (by decide)).value
  exact absurd hvalue (by decide)

end TinyServer.Http
