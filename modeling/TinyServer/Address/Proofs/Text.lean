/-
The text of an IPv6 address denotes the address.

The loop skips the first run of zeros, and only that: the words are some
that are not zero, the run, and the rest. What it writes is the groups
before the run, and `::` and the groups behind it if there is a run
(`insert_text`). At the end of the words the `::` comes after the loop.

A group has a hexadecimal digit, so that between two groups there is no
`::` (`cutDouble_append`, `doubleColons_append`).
-/
import TinyServer.Address.Text
import TinyServer.Http.Proofs.Number
import TinyServer.Lib.Cut

namespace TinyServer

open Lib
open Http (Bytes ascii toDecimal digitVal digitsValue)

variable {n g : Nat} {gs : List Nat} {s t : Bytes}

-- ================================================================= hexadecimal

/-- A digit is read as its value. -/
theorem hexDigit (h : n < 16) :
    digitVal 16 (UInt8.ofNat n.digitChar.toNat) = some n := by
  revert n
  decide

/-- A number below 16 is one digit. -/
theorem toHex_small (h : n < 16) :
    toHex n = [UInt8.ofNat n.digitChar.toNat] := by
  unfold toHex
  rw [Nat.toDigits_of_lt_base h]
  rfl

/-- A larger one ends in the digit of its remainder. -/
theorem toHex_large (h : 16 ≤ n) :
    toHex n = toHex (n / 16) ++ [UInt8.ofNat (n % 16).digitChar.toNat] := by
  unfold toHex
  rw [Nat.toDigits_of_base_le (by decide) h, List.map_append]
  rfl

/-- A number is written in hexadecimal digits. -/
theorem toHex_digit (n : Nat) : ∀ b ∈ toHex n, (digitVal 16 b).isSome := by
  induction n using Nat.strongRecOn with
  | ind n ih =>
      intro b hb
      by_cases h : n < 16
      · rw [toHex_small h, List.mem_singleton] at hb
        rw [hb, hexDigit h]
        rfl
      · rw [toHex_large (by omega)] at hb
        rcases List.mem_append.mp hb with hb | hb
        · exact ih (n / 16) (by omega) b hb
        · rw [List.mem_singleton.mp hb, hexDigit (Nat.mod_lt n (by decide))]
          rfl

/-- None of them is a colon. -/
theorem toHex_colon (n : Nat) : 58 ∉ toHex n := fun h =>
  absurd (toHex_digit n 58 h) (by decide)

/-- There is at least one digit. -/
theorem toHex_ne_nil (n : Nat) : toHex n ≠ [] := fun h =>
  Nat.toDigits_ne_nil (List.map_eq_nil_iff.mp h)

/-- 16 bits take four digits at most. -/
theorem toHex_length (h : n < 2 ^ 16) : (toHex n).length ≤ 4 := by
  unfold toHex
  rw [List.length_map]
  exact (Nat.length_toDigits_le_iff (by decide) (by decide)).mpr h

/-- One more digit. -/
theorem digitsValue_snoc {acc : Nat} {d : UInt8} {v : Nat}
    (hs : ∀ b ∈ s, (digitVal 16 b).isSome) (hd : digitVal 16 d = some v) :
    digitsValue 16 acc (s ++ [d]) = digitsValue 16 acc s * 16 + v := by
  induction s generalizing acc with
  | nil =>
      rw [List.nil_append]
      unfold digitsValue
      rw [hd]
      rfl
  | cons b s ih =>
      obtain ⟨hb, hs⟩ := List.forall_mem_cons.mp hs
      obtain ⟨w, hw⟩ := Option.isSome_iff_exists.mp hb
      rw [List.cons_append]
      unfold digitsValue
      rw [hw]
      exact ih hs

/-- The digits have the value of the number. -/
theorem digitsValue_toHex (n : Nat) : digitsValue 16 0 (toHex n) = n := by
  induction n using Nat.strongRecOn with
  | ind n ih =>
      by_cases h : n < 16
      · rw [toHex_small h]
        unfold digitsValue
        rw [hexDigit h]
        exact Nat.zero_add n
      · rw [toHex_large (by omega), digitsValue_snoc (toHex_digit _)
          (hexDigit (Nat.mod_lt n (by decide))), ih (n / 16) (by omega)]
        omega

-- ===================================================================== reading

namespace Rfc4291

/-- A group is read back as it was written. -/
theorem readGroup_toHex (h : n < 2 ^ 16) : readGroup (toHex n) = some n := by
  unfold readGroup
  rw [if_pos ⟨toHex_ne_nil n, toHex_length h,
    List.all_eq_true.mpr (toHex_digit n)⟩, digitsValue_toHex]

/-- Groups, each behind a colon. -/
def following (gs : List Nat) : Bytes := gs.flatMap fun g => 58 :: toHex g

/-- Groups with colons between them. -/
def joined : List Nat → Bytes
  | [] => []
  | g :: gs => toHex g ++ following gs

/-- Groups between colons are cut apart again. -/
theorem splitOn_joined (gs : List Nat) (g : Nat) :
    (joined (g :: gs)).splitOn 58 = (g :: gs).map toHex := by
  induction gs generalizing g with
  | nil =>
      show (toHex g ++ []).splitOn 58 = [toHex g]
      rw [List.append_nil, List.splitOn_eq_singleton (toHex_colon g)]
  | cons h gs ih =>
      show (toHex g ++ 58 :: joined (h :: gs)).splitOn 58 = _
      rw [List.splitOn_append_cons_self_of_not_mem (toHex_colon g), ih h]
      rfl

/-- And read back, each as it was written. -/
theorem readGroups_joined (h : ∀ g ∈ gs, g < 2 ^ 16) :
    readGroups (joined gs) = some gs := by
  have hmap : ∀ gs : List Nat, (∀ g ∈ gs, g < 2 ^ 16) →
      (gs.map toHex).mapM readGroup = some gs := by
    intro gs h
    induction gs with
    | nil => rfl
    | cons g gs ih =>
        obtain ⟨hg, hgs⟩ := List.forall_mem_cons.mp h
        rw [List.map_cons, List.mapM_cons, readGroup_toHex hg, ih hgs]
        rfl
  unfold readGroups
  cases gs with
  | nil => rfl
  | cons g gs =>
      have hne : joined (g :: gs) ≠ [] := fun hnil =>
        toHex_ne_nil g (List.append_eq_nil_iff.mp hnil).1
      rw [if_neg hne, splitOn_joined, hmap _ h]

-- ============================================================== double colons

/-- There is no `::` in text without a colon. -/
theorem cutDouble_plain {d : Bytes} (hd : 58 ∉ d) :
    cutDouble (d ++ s) = (cutDouble s).map (Prod.map (d ++ ·) id) := by
  induction d with
  | nil => rw [List.nil_append]; cases cutDouble s <;> rfl
  | cons b d ih =>
      have hb : 58 ≠ b := List.ne_of_not_mem_cons hd
      have hd : 58 ∉ d := List.not_mem_of_not_mem_cons hd
      rw [List.cons_append]
      conv => lhs; unfold cutDouble
      split
      next heq => exact absurd (List.cons.inj heq).1.symm hb
      next heq =>
        cases heq
        rw [ih hd]
        cases cutDouble s <;> rfl
      next heq => cases heq

/-- Nor does such text count one in front of another text. -/
theorem doubleColons_plain {d : Bytes} (hd : 58 ∉ d) :
    doubleColons (d ++ s) = doubleColons s := by
  induction d with
  | nil => rfl
  | cons b d ih =>
      have hb : 58 ≠ b := List.ne_of_not_mem_cons hd
      have hd : 58 ∉ d := List.not_mem_of_not_mem_cons hd
      rw [List.cons_append]
      conv => lhs; unfold doubleColons
      split
      next heq => exact absurd (List.cons.inj heq).1.symm hb
      next heq =>
        cases heq
        exact ih hd
      next heq => cases heq

/-- The first byte behind a colon is a digit. -/
theorem toHex_cons (g : Nat) : ∃ b d, toHex g = b :: d ∧ b ≠ 58 := by
  obtain ⟨b, d, hg⟩ := List.exists_cons_of_ne_nil (toHex_ne_nil g)
  refine ⟨b, d, hg, ?_⟩
  rintro rfl
  exact toHex_colon g (hg ▸ List.mem_cons_self)

/-- A single colon before a group is not a `::`. -/
theorem cutDouble_colon (g : Nat) (s : Bytes) :
    cutDouble (58 :: (toHex g ++ s))
      = (cutDouble (toHex g ++ s)).map (Prod.map (58 :: ·) id) := by
  obtain ⟨b, d, hg, hb⟩ := toHex_cons g
  rw [hg, List.cons_append]
  conv => lhs; unfold cutDouble
  split
  next heq => cases heq; exact absurd rfl hb
  next heq => cases heq; rfl
  next heq => cases heq

/-- And does not count as one. -/
theorem doubleColons_colon (g : Nat) (s : Bytes) :
    doubleColons (58 :: (toHex g ++ s)) = doubleColons (toHex g ++ s) := by
  obtain ⟨b, d, hg, hb⟩ := toHex_cons g
  rw [hg, List.cons_append]
  conv => lhs; unfold doubleColons
  split
  next heq => cases heq; exact absurd rfl hb
  next heq => cases heq; rfl
  next heq => cases heq

/-- Groups with their colons in front have no `::`. -/
theorem cutDouble_following (gs : List Nat) (s : Bytes) :
    cutDouble (following gs ++ s)
      = (cutDouble s).map (Prod.map (following gs ++ ·) id) := by
  induction gs with
  | nil =>
      show cutDouble s = _
      cases cutDouble s <;> rfl
  | cons g gs ih =>
      have hcons : ∀ l, following (g :: gs) ++ l
          = 58 :: (toHex g ++ (following gs ++ l)) :=
        fun l => congrArg (58 :: ·) (List.append_assoc ..)
      rw [hcons, cutDouble_colon, cutDouble_plain (toHex_colon g), ih]
      simp only [Option.map_map, hcons]
      rfl

/-- And do not count one. -/
theorem doubleColons_following (gs : List Nat) (s : Bytes) :
    doubleColons (following gs ++ s) = doubleColons s := by
  induction gs with
  | nil => rfl
  | cons g gs ih =>
      show doubleColons (58 :: (toHex g ++ following gs) ++ s) = _
      rw [List.cons_append, List.append_assoc, doubleColons_colon,
        doubleColons_plain (toHex_colon g), ih]

/-- Groups between colons have no `::`. -/
theorem cutDouble_joined (gs : List Nat) (s : Bytes) :
    cutDouble (joined gs ++ s)
      = (cutDouble s).map (Prod.map (joined gs ++ ·) id) := by
  cases gs with
  | nil =>
      show cutDouble s = _
      cases cutDouble s <;> rfl
  | cons g gs =>
      have hcons : ∀ l, joined (g :: gs) ++ l
          = toHex g ++ (following gs ++ l) :=
        fun l => List.append_assoc ..
      rw [hcons, cutDouble_plain (toHex_colon g), cutDouble_following]
      simp only [Option.map_map, hcons]
      rfl

/-- And do not count one. -/
theorem doubleColons_joined (gs : List Nat) (s : Bytes) :
    doubleColons (joined gs ++ s) = doubleColons s := by
  cases gs with
  | nil => rfl
  | cons g gs =>
      show doubleColons (toHex g ++ following gs ++ s) = _
      rw [List.append_assoc, doubleColons_plain (toHex_colon g),
        doubleColons_following]

/-- Groups without a `::` between them. -/
theorem joined_single (gs : List Nat) :
    cutDouble (joined gs) = none ∧ doubleColons (joined gs) = 0 := by
  have hcut := cutDouble_joined gs []
  have hcount := doubleColons_joined gs []
  rw [List.append_nil] at hcut hcount
  exact ⟨hcut, hcount⟩

/-- A `::` between groups is the only one. -/
theorem doubleColons_double (gs hs : List Nat) :
    doubleColons (joined gs ++ 58 :: 58 :: joined hs) = 1 := by
  rw [doubleColons_joined]
  show doubleColons (58 :: joined hs) + 1 = 1
  cases hs with
  | nil => rfl
  | cons g hs =>
      show doubleColons (58 :: (toHex g ++ following hs)) + 1 = 1
      rw [doubleColons_colon]
      exact congrArg (· + 1) (joined_single (g :: hs)).2

/-- Eight groups are an address without a `::`. -/
theorem readAddress_joined (h : ∀ g ∈ gs, g < 2 ^ 16) (hlen : gs.length = 8) :
    readAddress (joined gs) = some gs := by
  unfold readAddress
  rw [(joined_single gs).1]
  show (readGroups (joined gs)).filter _ = some gs
  rw [readGroups_joined h]
  exact if_pos (decide_eq_true hlen)

/-- A `::` for a run of zeros. -/
theorem readAddress_double {hs : List Nat} {k : Nat}
    (hg : ∀ g ∈ gs, g < 2 ^ 16) (hh : ∀ g ∈ hs, g < 2 ^ 16) (hk : 0 < k)
    (hlen : gs.length + k + hs.length = 8) :
    readAddress (joined gs ++ 58 :: 58 :: joined hs)
      = some (gs ++ List.replicate k 0 ++ hs) := by
  have hcut : cutDouble (joined gs ++ 58 :: 58 :: joined hs)
      = some (joined gs, joined hs) := by
    rw [cutDouble_joined]
    show some (joined gs ++ [], joined hs) = _
    rw [List.append_nil]
  have hfill : 8 - (gs.length + hs.length) = k := by omega
  unfold readAddress
  rw [hcut]
  show (readGroups (joined gs)).bind (fun left => (readGroups (joined hs)).bind
    fun right => _) = _
  rw [readGroups_joined hg, readGroups_joined hh, Option.bind_some,
    Option.bind_some, if_pos (by omega), hfill]

end Rfc4291

-- ===================================================================== writing

namespace IPv6Address

open Rfc4291

variable {e : Endian} {w p : BitVec 16} {ws zs : List (BitVec 16)}

/-- What is printed of a word. -/
def group (e : Endian) (w : BitVec 16) : Nat :=
  (byteswapOnLittleEndian16 e w).toNat

/-- The two bytes of a word, reversed. -/
theorem bswap16_append (x y : BitVec 8) : bswap16 (x ++ y) = y ++ x := by
  unfold bswap16
  ext i hi
  simp only [BitVec.getElem_append, BitVec.getElem_extractLsb']
  grind

/-- The words in network order are the groups. -/
theorem group_word (e : Endian) (a : IPv6Address) :
    (a.words e).map (group e) = a.groups := by
  unfold words groups
  rw [List.map_map]
  refine List.map_congr_left fun i _ => ?_
  cases e with
  | little => exact congrArg BitVec.toNat (bswap16_append _ _)
  | big => rfl

/-- 0 is 0 in either byte order. -/
theorem group_zero (e : Endian) : group e 0 = 0 := by
  cases e <;> rfl

/-- A word that is printed, behind one that was. -/
theorem insertLoop_print {used : Bool} (hw : ¬(w = 0 ∧ used = false))
    (hp : ¬(p = 0 ∧ used = false)) : insertLoop e (some p) used (w :: ws)
      = (58 :: (toHex (group e w) ++ (insertLoop e (some w) used ws).1),
        (insertLoop e (some w) used ws).2) := by
  have hfirst : (some p = some 0 ∧ used = false) = False :=
    eq_false fun h => hp ⟨Option.some.inj h.1, h.2⟩
  rw [insertLoop, if_neg hw]
  simp only [hfirst, decide_false, Bool.or_false, if_false]
  rfl

/-- Behind a `::` every word is printed. -/
theorem insertLoop_used : insertLoop e (some p) true ws
    = (following (ws.map (group e)), true) := by
  induction ws generalizing p with
  | nil => rfl
  | cons w ws ih =>
      rw [insertLoop_print (by simp) (by simp), ih]
      rfl

/-- The first word behind a run of zeros. -/
theorem insertLoop_first (hw : w ≠ 0) : insertLoop e (some 0) false (w :: ws)
    = (58 :: 58 :: joined ((w :: ws).map (group e)), true) := by
  unfold insertLoop
  rw [if_neg fun h => hw h.1]
  simp [insertLoop_used, joined, group, ascii]

variable {r : Bytes × Bool}

/-- The words before a run of zeros, behind another word. -/
theorem insertLoop_more (hws : ∀ w ∈ ws, w ≠ 0) (hp : p ≠ 0)
    (hzs : ∀ prev, insertLoop e prev false zs = r) :
    insertLoop e (some p) false (ws ++ zs)
      = (following (ws.map (group e)) ++ r.1, r.2) := by
  induction ws generalizing p with
  | nil => exact hzs (some p)
  | cons w ws ih =>
      obtain ⟨hw, hws⟩ := List.forall_mem_cons.mp hws
      rw [List.cons_append, insertLoop_print (fun h => hw h.1) (fun h =>
        hp h.1),
        ih hws hw, List.map_cons]
      simp [following]

/-- The words before a run of zeros. -/
theorem insertLoop_front (hws : ∀ w ∈ ws, w ≠ 0)
    (hzs : ∀ prev, insertLoop e prev false zs = r) :
    insertLoop e none false (ws ++ zs)
      = (joined (ws.map (group e)) ++ r.1, r.2) := by
  cases ws with
  | nil => exact hzs none
  | cons w ws =>
      obtain ⟨hw, hws⟩ := List.forall_mem_cons.mp hws
      rw [List.cons_append]
      unfold insertLoop
      rw [if_neg fun h => hw h.1]
      simp only [reduceCtorEq, false_and, decide_false, Bool.or_false,
        insertLoop_more hws hw hzs]
      simp [joined, group]

/-- A run of zeros. -/
theorem insertLoop_zeros (hzs : ∀ w ∈ zs, w = 0) (prev : Option (BitVec 16)) :
    insertLoop e prev false (0 :: zs ++ ws)
      = insertLoop e (some 0) false ws := by
  rw [List.cons_append, insertLoop, if_pos ⟨rfl, rfl⟩]
  induction zs with
  | nil => rfl
  | cons w zs ih =>
      obtain ⟨hw, hzs⟩ := List.forall_mem_cons.mp hzs
      rw [List.cons_append, insertLoop, if_pos ⟨hw, rfl⟩, hw]
      exact ih hzs

/-- The words: some that are not zero, a run of zeros, and the rest. -/
theorem words_split (ws : List (BitVec 16)) : (∀ w ∈ ws, w ≠ 0)
    ∨ ∃ front zs back, ws = front ++ (0 :: zs ++ back) ∧ (∀ w ∈ front, w ≠ 0)
      ∧ (∀ w ∈ zs, w = 0) ∧ ∀ w rest, back = w :: rest → w ≠ 0 := by
  have hfront := cut (· ≠ 0) ws
  cases hdrop : ws.dropWhile (· ≠ 0) with
  | nil =>
      refine .inl fun w hw => of_decide_eq_true (hfront.all w ?_)
      rw [hfront.eq, hdrop, List.append_nil] at hw
      exact hw
  | cons z rest =>
      have hz : z = 0 :=
        not_not.mp (of_decide_eq_false (hfront.stop z rest hdrop))
      have hzeros := cut (· = 0) rest
      refine .inr ⟨ws.takeWhile (· ≠ 0), rest.takeWhile (· = 0),
        rest.dropWhile (· = 0), ?_, fun w hw =>
          of_decide_eq_true (hfront.all w hw),
        fun w hw => of_decide_eq_true (hzeros.all w hw),
        fun w as h => of_decide_eq_false (hzeros.stop w as h)⟩
      calc ws = ws.takeWhile (· ≠ 0) ++ z :: rest := hdrop ▸ hfront.eq
        _ = _ := by rw [hz, List.cons_append, ← hzeros.eq]

/-- The last word is the one that `insert` looks at. -/
theorem words_last (e : Endian) (a : IPv6Address) :
    (a.words e).getLast? = some (a.word e 7) := rfl

/-- What `insert` writes, from the text of its loop. -/
theorem insert_eq {text : Bytes} {used : Bool} {a : IPv6Address}
    (h : insertLoop e none false (a.words e) = (text, used)) :
    a.insert e = ascii "[" ++ text
      ++ (if used = false ∧ a.word e 7 = 0 then ascii "::" else [])
      ++ ascii "]:" ++ toDecimal (byteswapOnLittleEndian16 e a.port).toNat := by
  rw [insert, h]

/-- The text that is written: with no zero, or with `::` for a run of them. -/
theorem insert_text (e : Endian) (a : IPv6Address) : ∃ t,
    a.insert e = ascii "[" ++ t ++ ascii "]:"
        ++ toDecimal (byteswapOnLittleEndian16 e a.port).toNat
      ∧ (t = joined a.groups ∨ ∃ gs k hs, 0 < k ∧
          a.groups = gs ++ List.replicate k 0 ++ hs
            ∧ t = joined gs ++ 58 :: 58 :: joined hs) := by
  rcases words_split (a.words e) with
    hall | ⟨front, zs, back, hws, hfront, hzs, hback⟩
  · have hloop : insertLoop e none false (a.words e ++ [])
        = (joined ((a.words e).map (group e)) ++ [], false) :=
      insertLoop_front (r := ([], false)) hall fun _ => rfl
    rw [List.append_nil, List.append_nil, group_word] at hloop
    have hlast : a.word e 7 ≠ 0 :=
      hall _ (List.mem_of_getLast? (words_last e a))
    refine ⟨joined a.groups, ?_, .inl rfl⟩
    rw [insert_eq hloop, if_neg fun h => hlast h.2, List.append_nil]
  · have hgroups : a.groups = front.map (group e)
        ++ List.replicate (zs.length + 1) 0 ++ back.map (group e) := by
      have hzero : (0 :: zs).map (group e)
          = List.replicate (zs.length + 1) 0 := by
        refine List.eq_replicate_iff.mpr ⟨by simp, fun g hg => ?_⟩
        obtain ⟨w, hw, rfl⟩ := List.mem_map.mp hg
        rcases List.mem_cons.mp hw with rfl | hw
        · exact group_zero e
        · rw [hzs w hw, group_zero]
      rw [← group_word e, hws, List.map_append, List.map_append, hzero,
        List.append_assoc]
    have hloop : insertLoop e none false (a.words e)
        = (joined (front.map (group e)) ++ (insertLoop e (some 0) false back).1,
          (insertLoop e (some 0) false back).2) := by
      rw [hws]
      exact insertLoop_front hfront (insertLoop_zeros hzs)
    refine ⟨joined (front.map (group e)) ++ 58 :: 58
      :: joined (back.map (group e)),
      ?_, .inr ⟨_, _, _, Nat.succ_pos _, hgroups, rfl⟩⟩
    rw [insert_eq hloop]
    cases back with
    | nil =>
        -- the run is at the end
        have hlast : a.word e 7 = 0 := by
          have hlast := words_last e a
          rw [hws, List.append_nil, List.getLast?_append_cons] at hlast
          rcases List.mem_cons.mp (List.mem_of_getLast? hlast) with hz | hz
          · exact hz
          · exact hzs _ hz
        rw [insertLoop, if_pos ⟨rfl, hlast⟩]
        simp [joined, ascii]
    | cons w back =>
        rw [insertLoop_first (hback w back rfl), if_neg fun h => nomatch h.1]
        simp only [List.append_assoc, List.nil_append]

/-- The text has the form `[t]:port`, and `t` denotes the address. -/
theorem insert_denotes (e : Endian) (a : IPv6Address) : ∃ t,
    a.insert e = ascii "[" ++ t ++ ascii "]:"
        ++ toDecimal (byteswapOnLittleEndian16 e a.port).toNat
      ∧ doubleColons t ≤ 1 ∧ readAddress t = some a.groups := by
  have hlt : ∀ g ∈ a.groups, g < 2 ^ 16 := by
    intro g hg
    obtain ⟨i, -, rfl⟩ := List.mem_map.mp hg
    exact BitVec.isLt _
  have hlen : a.groups.length = 8 := rfl
  obtain ⟨t, htext, rfl | ⟨gs, k, hs, hk, hgroups, rfl⟩⟩ := insert_text e a
  · refine ⟨_, htext, ?_, readAddress_joined hlt hlen⟩
    rw [(joined_single a.groups).2]
    exact Nat.zero_le 1
  · rw [hgroups] at hlt hlen
    refine ⟨_, htext, (doubleColons_double gs hs).le, ?_⟩
    rw [hgroups]
    refine readAddress_double (fun g hg => hlt g ?_) (fun g hg => hlt g ?_) hk
      ?_
    · exact List.mem_append_left _ (List.mem_append_left _ hg)
    · exact List.mem_append_right _ hg
    · rw [List.length_append, List.length_append, List.length_replicate] at hlen
      exact hlen

end IPv6Address

end TinyServer
