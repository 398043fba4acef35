/-
Typed reads that throw.

A reader that is one `read` throws before it moves. A varint is read byte
by byte and a string after its length, so these can throw behind a piece
they have taken, and then the cursor stays there. `Torn` describes the
unread bytes for which this happens; a typed read that throws leaves the
array as it was exactly when they are not torn for it
(`typed_read_atomic_iff`).
-/
import TinyServer.ByteArray.Proofs.Reads

namespace TinyServer

open Lib

/-- The typed readers. -/
def Op.isTypedRead : Op → Bool
  | .readFint8 | .readFuint8 | .readFint16 | .readFuint16 | .readFint32
  | .readFuint32 | .readFint64 | .readFuint64 | .readInt32 | .readUint32
  | .readInt64 | .readUint64 | .readFloat | .readDouble | .readStringF16
  | .readStringF32 | .readStringF64 | .readStringVint => true
  | _ => false

namespace ByteArray

variable {b p w k : Nat} {e : Endian} {host : Host} {s s' : ByteArray}
  {α β : Type}

/-- What a caller that tries again relies on. -/
structure Unchanged (s s' : ByteArray) : Prop where
  position : s'.position = s.position
  size : s'.size = s.size
  cur : s'.cur = s.cur
  bytes : s'.bytes = s.bytes

/-- If `m` throws in `s`, it has changed nothing. -/
def Atomic (m : BA α) (s : ByteArray) : Prop :=
  ∀ e s', m s = .error e s' → e ≠ .nullDeref → Unchanged s s'

/-- The bytes from the cursor on. -/
def unread (s : ByteArray) : List UInt8 :=
  s.bytes.drop s.position

/-- A varint of up to `k` bytes that has begun and does not end. -/
def TornVarint (k : Nat) (bs : List UInt8) : Prop :=
  bs ≠ [] ∧ bs.length < k ∧ ∀ c ∈ bs, 0x80 ≤ c

/-- A length of `w` bytes that announces more than is there, or more than
a string can hold. -/
def TornString (host : Host) (e : Endian) (w : Nat) (bs : List UInt8) :
    Prop :=
  w ≤ bs.length ∧ (bs.length - w < ofMem e (bs.take w)
    ∨ host.maxString < ofMem e (bs.take w))

/-- The unread bytes are torn for the reader. -/
def Torn (host : Host) (s : ByteArray) : Op → Prop
  | .readInt32 | .readUint32 => TornVarint 5 s.unread
  | .readInt64 | .readUint64 => TornVarint 10 s.unread
  | .readStringF16 => TornString host s.endian 2 s.unread
  | .readStringF32 => TornString host s.endian 4 s.unread
  | .readStringF64 | .readStringVint => TornString host s.endian 8 s.unread
  | _ => False

-- ================================================================= atomicity

theorem Unchanged.refl (s : ByteArray) : Unchanged s s :=
  ⟨rfl, rfl, rfl, rfl⟩

theorem atomic_of_ok {m : BA α} {a : α} (h : m s = .ok a s') :
    Atomic m s := by
  intro e t hrun
  rw [h] at hrun
  cases hrun

theorem atomic_of_error {m : BA α} {x : Err} (h : m s = .error x s) :
    Atomic m s := by
  intro e t hrun _
  rw [h] at hrun
  cases hrun
  exact Unchanged.refl s

theorem not_atomic {m : BA α} {x : Err} (h : m s = .error x s')
    (hx : x ≠ .nullDeref) (hpos : s'.position ≠ s.position) :
    ¬ Atomic m s :=
  fun hatomic => hpos (hatomic x s' h hx).position

theorem atomic_map {m : BA α} {f : α → β} :
    Atomic (f <$> m) s ↔ Atomic m s := by
  cases hrun : m s with
  | ok a s' =>
    exact iff_of_true (atomic_of_ok (map_ok hrun)) (atomic_of_ok hrun)
  | error x s' =>
      have hmap : (f <$> m) s = .error x s' := map_error hrun
      unfold Atomic
      rw [hmap, hrun]
      refine forall_congr' fun e => forall_congr' fun t => ?_
      constructor
      · intro h heq hx
        cases heq
        exact h rfl hx
      · intro h heq hx
        cases heq
        exact h rfl hx

theorem atomic_discard {m : BA α} : Atomic (discard m) s ↔ Atomic m s :=
  atomic_map

theorem length_unread (hs : Inv b s) :
    s.unread.length = s.size - s.position := by
  unfold unread
  rw [List.length_drop, length_bytes hs]

-- =============================================================== the readers

section Readers

variable (hb : 0 < b) (hs : Inv b s)
include hb hs

/-- A reader of one number throws before it moves. -/
theorem ReadsNumber.atomic {m : BA α} {toNat : α → Nat}
    (hm : ReadsNumber w m toNat) : Atomic m s := by
  have hpos := hs.pos_le
  by_cases hle : s.position + w ≤ s.size
  · obtain ⟨a, hrun, -⟩ := hm.ok (e := s.endian) hb hs (at_slice hs hle)
      (length_stored hs hle)
    rw [hs.moved_self] at hrun
    exact atomic_of_ok hrun
  · have hrun := hm.short (e := s.endian) hb hs hpos (by omega)
    rw [hs.moved_self] at hrun
    exact atomic_of_error hrun

/-- The varint loop at `p`: it runs out of bytes, or returns. -/
theorem readVarint_cases (shifts : List Nat) (acc : Nat) (hp : p ≤ s.size) :
    ((s.bytes.drop p).length < shifts.length
      ∧ (∀ c ∈ s.bytes.drop p, 0x80 ≤ c)
      ∧ readVarint shifts acc (s.moved e p)
        = .error .outOfRange (s.moved e s.size))
    ∨ ¬ ((s.bytes.drop p).length < shifts.length
        ∧ ∀ c ∈ s.bytes.drop p, 0x80 ≤ c)
      ∧ ∃ v s', readVarint shifts acc (s.moved e p) = .ok v s' := by
  induction shifts generalizing p acc with
  | nil => exact .inr ⟨fun h => Nat.not_lt_zero _ h.1, acc, _, rfl⟩
  | cons i is ih =>
      have hlen := length_bytes hs
      cases hbs : s.bytes.drop p with
      | nil =>
          -- no byte is left
          have hge : s.size ≤ p := by
            rw [← hlen]
            exact List.drop_eq_nil_iff.mp hbs
          obtain rfl : p = s.size := by omega
          refine .inl ⟨Nat.succ_pos _,
            fun c hc => absurd hc List.not_mem_nil, ?_⟩
          unfold readVarint
          rw [bind_error (readFuint8_short hb hs (Nat.le_refl _) hp)]
      | cons c rest =>
          have hlt : p < s.size := by
            have hpos := congrArg List.length hbs
            rw [List.length_drop, List.length_cons, hlen] at hpos
            omega
          have hrest : s.bytes.drop (p + 1) = rest := by
            rw [← List.drop_drop, hbs]
            rfl
          have hat : At s p [c] := by
            refine ⟨hlt, ?_⟩
            unfold slice
            rw [hbs]
            rfl
          have hread := readFuint8_moved hb hs (e := e) hat
          unfold readVarint
          rw [bind_ok hread]
          by_cases hc : c < 0x80
          · rw [if_pos hc]
            refine .inr ⟨fun h => ?_, _, _, rfl⟩
            exact absurd (h.2 c List.mem_cons_self) (UInt8.not_le.mpr hc)
          · rw [if_neg hc]
            have hle : 0x80 ≤ c := UInt8.not_lt.mp hc
            have hcase := ih ((acc ||| ((c &&& 0x7f).toNat <<< i)) % 2 ^ 32)
              (p := p + 1) hlt
            rw [hrest] at hcase
            have hiff : (c :: rest).length < (i :: is).length
                ∧ (∀ x ∈ c :: rest, 0x80 ≤ x)
                ↔ rest.length < is.length ∧ ∀ x ∈ rest, 0x80 ≤ x := by
              rw [List.length_cons, List.length_cons, Nat.succ_lt_succ_iff,
                List.forall_mem_cons]
              exact and_congr_right fun _ => and_iff_right hle
            rcases hcase with ⟨hlt', hall, hrun⟩ | ⟨hno, hrun⟩
            · obtain ⟨h₁, h₂⟩ := hiff.mpr ⟨hlt', hall⟩
              exact .inl ⟨h₁, h₂, hrun⟩
            · exact .inr ⟨fun h => hno (hiff.mp h), hrun⟩

theorem readVarint_atomic_iff (shifts : List Nat) (acc : Nat) :
    Atomic (readVarint shifts acc) s
      ↔ ¬ TornVarint shifts.length s.unread := by
  have hlen := length_unread hs
  rcases readVarint_cases hb hs (e := s.endian) shifts acc hs.pos_le with
    ⟨hlt, hall, hrun⟩ | ⟨hno, v, s', hrun⟩
  · rw [hs.moved_self] at hrun
    by_cases hnil : s.unread = []
    · rw [hnil, List.length_nil] at hlen
      have hpos : s.size = s.position := by
        have hle := hs.pos_le
        omega
      rw [hpos, hs.moved_self] at hrun
      exact iff_of_true (atomic_of_error hrun) fun h => h.1 hnil
    · refine iff_of_false (not_atomic hrun (by decide) fun hpos => ?_)
        fun h => h ⟨hnil, hlt, hall⟩
      have hpos : s.size = s.position := hpos
      rw [hpos, Nat.sub_self] at hlen
      exact hnil (List.eq_nil_of_length_eq_zero hlen)
  · rw [hs.moved_self] at hrun
    exact iff_of_true (atomic_of_ok hrun) fun h => hno h.2

/-- A string behind its length. -/
theorem readString_atomic_iff {m : BA α} {toNat : α → Nat} (hw : 0 < w)
    (hm : ReadsNumber w m toNat) :
    Atomic (do
      let len ← m
      readString host (toNat len)) s
        ↔ ¬ TornString host s.endian w s.unread := by
  have hpos := hs.pos_le
  have hlen := length_unread hs
  by_cases hle : s.position + w ≤ s.size
  swap
  · have hrun := hm.short (e := s.endian) hb hs hpos (by omega)
    rw [hs.moved_self] at hrun
    exact iff_of_true (atomic_of_error (bind_error hrun)) fun h => by
      have := h.1
      omega
  obtain ⟨len, hrun, hval⟩ := hm.ok (e := s.endian) hb hs (at_slice hs hle)
    (length_stored hs hle)
  rw [hs.moved_self] at hrun
  have htake : s.unread.take w = slice s.bytes s.position w := rfl
  have hmoved : s.position + w ≠ s.position := by omega
  unfold TornString
  rw [htake, ← hval, hlen]
  -- the length is read: from here on a throw is not atomic
  by_cases hmax : host.maxString < toNat len
  · have hresize : (do
        let len ← m
        readString host (toNat len)) s
          = .error .lengthError (s.moved s.endian (s.position + w)) := by
      rw [bind_ok hrun]
      unfold readString
      rw [if_pos hmax]
      rfl
    exact iff_of_false (not_atomic hresize (by decide) hmoved)
      fun h => h ⟨by omega, .inr hmax⟩
  have hstring : (do
      let len ← m
      readString host (toNat len)) s
        = read (toNat len) (s.moved s.endian (s.position + w)) := by
    rw [bind_ok hrun]
    unfold readString
    rw [if_neg hmax]
  by_cases hshort : s.size < s.position + w + toNat len
  · have hread := read_short hb hs (e := s.endian) hle hshort
    rw [← hstring] at hread
    exact iff_of_false (not_atomic hread (by decide) hmoved)
      fun h => h ⟨by omega, .inl (by omega)⟩
  refine iff_of_true (fun x s' hfail hx => ?_) fun h => by omega
  rw [hstring] at hfail
  rcases read_spec hb (hs.moved (e := s.endian) hle) (toNat len) with
    ⟨hlt, -⟩ | ⟨-, -, hnull⟩ | ⟨-, -, hok⟩
  · have hlt : s.size - (s.position + w) < toNat len := hlt
    omega
  · rw [hnull] at hfail
    cases hfail
    exact absurd rfl hx
  · rw [hok] at hfail
    cases hfail

theorem readFuint8_atomic : Atomic readFuint8 s := by
  have hpos := hs.pos_le
  by_cases hlt : s.position < s.size
  · obtain ⟨c, hc⟩ := List.length_eq_one_iff.mp (length_stored hs hlt)
    have hat := at_slice hs (n := 1) hlt
    rw [hc] at hat
    have hrun := readFuint8_moved hb hs (e := s.endian) hat
    rw [hs.moved_self] at hrun
    exact atomic_of_ok hrun
  · have hrun := readFuint8_short hb hs (e := s.endian) (p := s.position)
      (by omega) hpos
    rw [hs.moved_self] at hrun
    exact atomic_of_error hrun

end Readers

/-- A typed read that throws leaves the array as it was exactly when the
unread bytes are not torn for it. -/
theorem typed_read_atomic_iff {op : Op} (hb : 1 ≤ b)
    (h : Reachable host b s) (hop : op.isTypedRead = true) :
    Atomic (op.call host) s ↔ ¬ Torn host s op := by
  have hs := h.inv host hb
  have hnum : ∀ {α : Type} {w : Nat} {m : BA α} {toNat : α → Nat},
      ReadsNumber w m toNat → (Atomic m s ↔ ¬ False) :=
    fun hm => iff_of_true (hm.atomic hb hs) id
  have hfixed : ∀ {w : Nat}, 0 < w → ReadsNumber w (id <$> readF host w) id :=
    fun hw => readsNumber_map hw fun _ _ => rfl
  have hF : ∀ {w : Nat}, 0 < w → (Atomic (readF host w) s ↔ ¬ False) :=
    fun hw => atomic_map.symm.trans (hnum (hfixed hw))
  have hbyte : Atomic readFuint8 s ↔ ¬ False :=
    iff_of_true (readFuint8_atomic hb hs) id
  cases op <;> first | (cases hop; done) | refine atomic_discard.trans ?_
  case readFint8 => exact atomic_map.trans hbyte
  case readFuint8 => exact hbyte
  case readFint16 | readFuint16 | readFint32 | readFuint32 | readFint64
      | readFuint64 =>
    exact atomic_map.trans (hF (by decide))
  case readFloat =>
    exact atomic_map.trans (atomic_map.trans (hF (by decide)))
  case readDouble =>
    refine Iff.trans ?_ (hnum (readsNumber_uint32 host))
    exact atomic_map
  case readInt32 =>
    exact atomic_map.trans (atomic_map.trans (readVarint_atomic_iff hb hs _ 0))
  case readUint32 => exact atomic_map.trans (readVarint_atomic_iff hb hs _ 0)
  case readInt64 =>
    exact atomic_map.trans (atomic_map.trans (readVarint_atomic_iff hb hs _ 0))
  case readUint64 => exact atomic_map.trans (readVarint_atomic_iff hb hs _ 0)
  case readStringF16 =>
    exact readString_atomic_iff hb hs (by decide) (readsNumber_uint16 host)
  case readStringF32 =>
    exact readString_atomic_iff hb hs (by decide) (readsNumber_uint32 host)
  case readStringF64 | readStringVint =>
    exact readString_atomic_iff hb hs (by decide) (readsNumber_uint64 host)

/-- The first byte of a longer varint is all there is: two bytes are not
read, and nothing happens. -/
theorem typed_read_atomic_iff_fixed :
    ∃ s, s.unread = [0x80]
      ∧ Atomic (Op.readFuint16.call ⟨.little, 100, fun _ => 0⟩) s := by
  have hrun : run ⟨.little, 100, fun _ => 0⟩ 4 (fun _ => 0)
      [.write [0x80], .setPosition 0] = some _ := rfl
  exact ⟨_, rfl, (typed_read_atomic_iff (by decide)
    (reachable_run _ hrun) rfl).mpr id⟩

/-- The same byte is taken by `readUint32`, which then throws. -/
theorem varint_torn :
    ∃ s s', Reachable ⟨.little, 100, fun _ => 0⟩ 4 s ∧ s.position = 0
      ∧ Op.readUint32.call ⟨.little, 100, fun _ => 0⟩ s
        = .error .outOfRange s' ∧ s'.position = 1 := by
  have hrun : run ⟨.little, 100, fun _ => 0⟩ 4 (fun _ => 0)
      [.write [0x80], .setPosition 0] = some _ := rfl
  exact ⟨_, _, reachable_run _ hrun, rfl, rfl, rfl⟩

end ByteArray

end TinyServer
