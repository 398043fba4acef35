/-
Strings behind their lengths.

A fixed length field holds the length modulo its width while the bytes of
the string are written in full, and the empty read of an empty string dies
at the end of the capacity; apart from that the string comes back
(`fixed_string_round_trip_iff`). The length of `writeStringVint` is a varint
and `readStringVint` takes eight bytes for it, so no string comes back
(`varint_string_never_trips`): a varint of eight bytes is never its own
value in either byte order (`lt_ofMem_encode`).
-/
import TinyServer.ByteArray.Proofs.Varints

namespace TinyServer

open Lib

-- ================================================= a varint as a fixed number

theorem le_ofBytesLE_encode (n : Nat) : n ≤ ofBytesLE (Varint.encode n) := by
  induction n using Nat.strongRecOn with
  | ind n ih =>
      by_cases hn : n < 128
      · rw [Varint.encode_small hn]
        unfold ofBytesLE
        rw [Varint.toNat_ofNat (by omega)]
        omega
      · have hdiv := ih (n / 128) (by omega)
        rw [Varint.encode_large (Nat.le_of_not_lt hn)]
        unfold ofBytesLE
        rw [Varint.toNat_ofNat (by omega)]
        omega

/-- The bytes of a varint of more than one group are those of a larger
number, in either order. -/
theorem lt_ofMem_encode {n : Nat} (e : Endian) (h : 128 ≤ n) :
    n < ofMem e (Varint.encode n) := by
  have hhead : (UInt8.ofNat (n % 128 + 128)).toNat = n % 128 + 128 :=
    Varint.toNat_ofNat (by omega)
  rw [Varint.encode_large h]
  cases e with
  | little =>
      have hrest := le_ofBytesLE_encode (n / 128)
      show n < (UInt8.ofNat (n % 128 + 128)).toNat + 256 * ofBytesLE _
      rw [hhead]
      omega
  | big =>
      -- the first byte is the highest, and its top bit is set
      have hlt := Varint.lt_pow_length_encode (n / 128)
      have hpow : 128 ^ (Varint.encode (n / 128)).length
          ≤ 256 ^ (Varint.encode (n / 128)).length :=
        Nat.pow_le_pow_left (by decide) _
      unfold ofMem
      rw [List.reverse_cons, ofBytesLE_append, List.length_reverse]
      show n < _ + _ * ((UInt8.ofNat (n % 128 + 128)).toNat + 256 * 0)
      rw [hhead, Nat.mul_zero, Nat.add_zero]
      calc n < 128 * (n / 128 + 1) := by omega
        _ ≤ 128 * 256 ^ (Varint.encode (n / 128)).length :=
          Nat.mul_le_mul_left _ (by omega)
        _ = 256 ^ (Varint.encode (n / 128)).length * 128 := Nat.mul_comm _ _
        _ ≤ 256 ^ (Varint.encode (n / 128)).length * (n % 128 + 128) :=
          Nat.mul_le_mul_left _ (by omega)
        _ ≤ _ := Nat.le_add_left _ _

namespace ByteArray

variable {b p w len : Nat} {e : Endian} {host : Host} {s s' : ByteArray}
  {v t bs : List UInt8} {α : Type}

-- =============================================================== the readers

/-- A reader of a string goes behind the length field first. -/
theorem string_moved {m : BA α} {toNat : α → Nat} (hb : 0 < b)
    (hs : Inv b s) (hm : ReadsNumber w m toNat) (h : At s p bs)
    (hw : bs.length = w) :
    (do
      let len ← m
      readString host (toNat len)) (s.moved e p)
      = readString host (ofMem e bs) (s.moved e (p + w)) := by
  obtain ⟨a, hrun, hval⟩ := hm.ok (e := e) hb hs h hw
  rw [bind_ok hrun, hval]

/-- A string that is read has the announced length. -/
theorem readString_ok (hb : 0 < b) (hs : Inv b s)
    (hrun : readString host len s = .ok v s') :
    v.length = len ∧ s'.position = s.position + len := by
  unfold readString at hrun
  split at hrun
  · cases hrun
  rcases read_spec hb hs len with
    ⟨-, hread⟩ | ⟨-, -, hread⟩ | ⟨hle, -, hread⟩
  · rw [hread] at hrun
    cases hrun
  · rw [hread] at hrun
    cases hrun
  · rw [hread] at hrun
    cases hrun
    have hpos := hs.pos_le
    exact ⟨length_stored hs (by omega), rfl⟩

-- ==================================================== lengths of fixed width

/-- The strings whose length is a fixed-width number. -/
inductive LengthField
  | f16
  | f32
  | f64

namespace LengthField

def width : LengthField → Nat
  | f16 => 2
  | f32 => 4
  | f64 => 8

def write (host : Host) : LengthField → List UInt8 → BA Unit
  | f16 => writeStringF16 host
  | f32 => writeStringF32 host
  | f64 => writeStringF64 host

def read (host : Host) : LengthField → BA (List UInt8)
  | f16 => readStringF16 host
  | f32 => readStringF32 host
  | f64 => readStringF64 host

theorem writes (host : Host) (hb : 0 < b) (k : LengthField)
    (v : List UInt8) :
    Writes b (k.write host v) e e [k.width, v.length]
      (toMem e k.width (v.length % 256 ^ k.width) ++ v) := by
  have hwrites : ∀ n l, Writes b (do
      writeF host n l
      ByteArray.write v) e e [n, v.length] (toMem e n l ++ v) :=
    fun n l => (Writes.writeF hb host n l).bind (Writes.write hb v)
  cases k with
  | f16 => exact hwrites 2 _
  | f32 => exact hwrites 4 _
  | f64 => exact hwrites 8 _

theorem read_moved_string (hb : 0 < b) (hs : Inv b s) (k : LengthField)
    (h : At s p bs) (hw : bs.length = k.width) :
    k.read host (s.moved e p)
      = readString host (ofMem e bs) (s.moved e (p + k.width)) := by
  cases k with
  | f16 => exact string_moved hb hs (readsNumber_uint16 host) h hw
  | f32 => exact string_moved hb hs (readsNumber_uint32 host) h hw
  | f64 => exact string_moved hb hs (readsNumber_uint64 host) h hw

end LengthField

/-- `w` throws in `s`. -/
def Refuses (w : BA Unit) (s : ByteArray) : Prop :=
  ∃ x s', w s = .error x s' ∧ x ≠ .nullDeref

/-- A writer never throws. -/
theorem Writes.not_refuses {m : BA Unit} {e' : Endian} {ns : List Nat}
    {data : List UInt8} (hs : Inv b s) (hw : Writes b m s.endian e' ns data) :
    ¬ Refuses m s := by
  intro hrefuses
  obtain ⟨x, s', hrun, hx⟩ := hrefuses
  rcases hw s hs rfl with ⟨-, t, hnull⟩ | ⟨-, t, hok, -⟩
  · rw [hnull] at hrun
    cases hrun
    exact hx rfl
  · rw [hok] at hrun
    cases hrun

/-- Behind the length field of an empty string, with nothing written after
it. -/
theorem leftAfter_empty {left n : Nat} :
    leftAfter b left [n, 0, 0] = leftAfter b left [n] := by
  have hzero : ∀ l, l + growCount b l 0 * b - 0 = l := by
    intro l
    unfold growCount
    rw [if_pos (Nat.zero_le l)]
    omega
  show (_ + growCount b _ 0 * b - 0) = _
  rw [hzero, hzero]
  rfl

theorem string_trips_iff (hb : 0 < b) (hs : Inv b s) (k : LengthField)
    (hv : v.length ≤ host.maxString) :
    Trips (k.write host v) (k.read host) v t s
      ↔ v.length < 256 ^ k.width
        ∧ Fits b s.getCurCapacity [k.width, v.length, t.length]
        ∧ (v = [] → t = [] →
          0 < leftAfter b s.getCurCapacity [k.width]) := by
  rcases trips_cases (r := k.read host) (x := v) hb hs (k.writes host hb v) t
    with
    ⟨hno, htrip⟩ | ⟨hfits, s', hs', hat, hleft, hpos', hiff⟩
  · exact iff_of_false htrip fun h => hno h.2.1
  obtain ⟨hrecord, hbehind⟩ := hat.append
  obtain ⟨hfield, hstring⟩ := hrecord.append
  have hmod : v.length % 256 ^ k.width < 256 ^ k.width :=
    Nat.mod_lt _ (Nat.pow_pos (by decide))
  have hwidth := length_toMem s.endian k.width (v.length % 256 ^ k.width)
  rw [List.length_append, hwidth] at hbehind
  rw [hwidth] at hstring
  rw [List.length_append, List.length_append, hwidth] at hpos'
  have hq : s.position + k.width ≤ s'.size := by
    have := hstring.1
    omega
  rw [hiff, k.read_moved_string hb hs' hfield hwidth, ofMem_toMem _ hmod,
    List.length_append, hwidth]
  constructor
  · intro h
    obtain ⟨s₄, hrun, hpos, -⟩ := h
    obtain ⟨hlen, -⟩ := readString_ok hb (hs'.moved hq) hrun
    refine ⟨by omega, hfits, fun hempty hnone => Nat.pos_of_ne_zero ?_⟩
    -- the empty read at the end of the capacity
    intro hzero
    subst hempty hnone
    have hend : s'.size = s'.capacity ∧ s.position + k.width = s'.size := by
      have hleft : s'.capacity - s'.position = 0 :=
        hleft.trans (leftAfter_empty.trans hzero)
      have hle := hs'.pos_le
      have hsize := hs'.size_le
      simp only [List.length_nil] at hpos'
      omega
    rw [List.length_nil, Nat.zero_mod, hend.2] at hrun
    unfold readString at hrun
    rw [if_neg (Nat.not_lt_zero _), read_null hb hs' hend.1] at hrun
    cases hrun
  · intro h
    obtain ⟨hlt, -, hroom⟩ := h
    have hin : v = [] → s.position + k.width < s'.capacity := by
      intro hempty
      subst hempty
      cases t with
      | nil =>
          have hpos : 0 < s'.capacity - s'.position := by
            have hleft := hleft.trans leftAfter_empty
            exact Nat.lt_of_lt_of_eq (hroom rfl rfl) hleft.symm
          simp only [List.length_nil] at hpos'
          omega
      | cons c t =>
          have hle := hbehind.1
          have hsize := hs'.size_le
          rw [List.length_cons] at hle
          omega
    have hread := read_moved hb hs' (e := s.endian) hstring hin
    unfold readString
    rw [Nat.mod_eq_of_lt hlt, if_neg (Nat.not_lt.mpr hv), hread]
    refine ⟨_, rfl, Nat.add_assoc _ _ _, ?_⟩
    rw [← Nat.add_assoc] at hbehind
    exact hbehind.2

/-- A string behind a fixed length field is refused or comes back exactly
when its length fits the field, every growth suffices, and it does not
leave an empty read at the end of the capacity. -/
theorem fixed_string_round_trip_iff (hb : 1 ≤ b) (h : Reachable host b s)
    (k : LengthField) (hv : v.length ≤ host.maxString) :
    Refuses (k.write host v) s ∨ Trips (k.write host v) (k.read host) v t s
      ↔ v.length < 256 ^ k.width
        ∧ Fits b s.getCurCapacity [k.width, v.length, t.length]
        ∧ (v = [] → t = [] →
          0 < leftAfter b s.getCurCapacity [k.width]) := by
  have hs := h.inv host hb
  have hno : ¬ Refuses (k.write host v) s :=
    Writes.not_refuses hs (k.writes host hb v)
  rw [or_iff_right hno, string_trips_iff hb hs k hv]

/-- Three bytes behind a 16-bit length. -/
theorem fixed_string_round_trip_iff_abc :
    Trips (writeStringF16 ⟨.little, 100, fun _ => 0⟩ [97, 98, 99])
      (readStringF16 ⟨.little, 100, fun _ => 0⟩) [97, 98, 99] [1]
      (ByteArray.new 8 fun _ => 0) := by
  have hnew : Reachable ⟨.little, 100, fun _ => 0⟩ 8
      (ByteArray.new 8 fun _ => 0) := .new _
  have hiff := fixed_string_round_trip_iff (v := [97, 98, 99]) (t := [1])
    (by decide) hnew .f16 (by decide)
  refine (hiff.mpr (by decide)).resolve_left ?_
  exact Writes.not_refuses (inv_new 8 fun _ => 0)
    (LengthField.f16.writes _ (by decide) _)

/-- A string of `2 ^ 16` bytes is written with the length 0 and read back
as the empty string, and the cursor stays before its bytes. -/
theorem string_length_cut :
    ∃ s₁ s₂ s₃, writeStringF16 ⟨.little, 2 ^ 30, fun _ => 0⟩
        (List.replicate (2 ^ 16) 97) (ByteArray.new (2 ^ 17) fun _ => 0)
        = .ok () s₁
      ∧ s₁.position = 2 + 2 ^ 16 ∧ setPosition 0 s₁ = .ok () s₂
      ∧ readStringF16 ⟨.little, 2 ^ 30, fun _ => 0⟩ s₂ = .ok [] s₃
      ∧ s₃.position = 2 := by
  have hb : 0 < 2 ^ 17 := by decide
  have hnew := inv_new (2 ^ 17) fun _ => 0
  have hwrites := LengthField.f16.writes (e := .big)
    ⟨.little, 2 ^ 30, fun _ => 0⟩ hb (List.replicate (2 ^ 16) 97) _ hnew rfl
  rw [List.length_replicate] at hwrites
  rcases hwrites with ⟨hno, -⟩ | ⟨-, s₁, hrun, hwrote, hend, -⟩
  · exact absurd (by decide) hno
  have hs₁ := hwrote.inv
  have hpos : s₁.position = 2 + 2 ^ 16 := by
    have hpos := hwrote.position
    rw [List.length_append, length_toMem, List.length_replicate] at hpos
    exact hpos.trans (Nat.zero_add _)
  obtain ⟨hfield, -⟩ := (hwrote.at hnew).append
  have hback := setPosition_moved hb hs₁ (Nat.zero_le s₁.size)
  rw [hend] at hback
  have hle := hs₁.pos_le
  have hcap := hs₁.size_le
  have hempty : At s₁ (0 + 2) [] := by
    refine ⟨?_, rfl⟩
    rw [List.length_nil]
    omega
  have hread := read_moved hb hs₁ (e := .big) hempty fun _ => by omega
  have hfield : At s₁ 0 [0, 0] := hfield
  have hstring : readStringF16 ⟨.little, 2 ^ 30, fun _ => 0⟩
      (s₁.moved .big 0) = .ok [] (s₁.moved .big 2) :=
    (LengthField.f16.read_moved_string hb hs₁ hfield rfl).trans hread
  exact ⟨s₁, _, _, hrun, hpos, hback, hstring, rfl⟩

-- ========================================================== varint lengths

/-- No string written by `writeStringVint` is read back by
`readStringVint`. -/
theorem varint_string_never_trips (hb : 1 ≤ b) (h : Reachable host b s) :
    ¬ Trips (writeStringVint v) (readStringVint host) v t s := by
  have hs := h.inv host hb
  have hwrites : Writes b (writeStringVint v) s.endian s.endian
      [(Varint.encode (v.length % 2 ^ 64)).length, v.length]
      (Varint.encode (v.length % 2 ^ 64) ++ v) := by
    have hhead := Writes.write hb (e := s.endian)
      (varint (UInt64.ofNat v.length).toNat)
    rw [← varint_eq]
    exact hhead.bind (Writes.write hb v)
  rcases trips_cases (r := readStringVint host) (x := v) hb hs hwrites t with
    ⟨-, hno⟩ | ⟨-, s', hs', hat, -, -, hiff⟩
  · exact hno
  rw [hiff]
  intro htrip
  obtain ⟨s₄, hrun, hpos, -⟩ := htrip
  obtain ⟨hrecord, -⟩ := hat.append
  obtain ⟨hhead, -⟩ := hrecord.append
  have hreads := readsNumber_uint64 host
  by_cases height : s.position + 8 ≤ s'.size
  swap
  · have hshort := hreads.short (e := s.endian) hb hs' (by
      have := hhead.1
      omega) (Nat.lt_of_not_le height)
    unfold readStringVint at hrun
    rw [bind_error hshort] at hrun
    cases hrun
  have hstring : readStringVint host (s'.moved s.endian s.position)
      = readString host (ofMem s.endian (slice s'.bytes s.position 8))
        (s'.moved s.endian (s.position + 8)) :=
    string_moved hb hs' hreads (at_slice hs' height) (length_stored hs' height)
  rw [hstring] at hrun
  obtain ⟨hval, hend⟩ := readString_ok hb (hs'.moved height) hrun
  -- the cursor is right only behind a varint of eight bytes
  have hwidth : (Varint.encode (v.length % 2 ^ 64)).length = 8 := by
    have hend : s₄.position = s.position + 8 + _ := hend
    rw [List.length_append] at hpos
    omega
  have hslice := hhead.2
  rw [hwidth] at hslice
  rw [hslice] at hval
  have hlt := ofMem_lt s.endian (Varint.encode (v.length % 2 ^ 64))
  rw [hwidth] at hlt
  have hmod : v.length % 2 ^ 64 = v.length := by omega
  rw [hmod] at hval hwidth
  have hlarge : 128 ≤ v.length := by
    by_contra hsmall
    rw [Varint.encode_small (by omega), List.length_singleton] at hwidth
    omega
  have hgt := lt_ofMem_encode s.endian hlarge
  omega

/-- The string "abc" with twelve bytes behind it, in a new array. -/
theorem varint_string_never_trips_abc :
    ¬ Trips (writeStringVint [97, 98, 99])
      (readStringVint ⟨.little, 100, fun _ => 0⟩) [97, 98, 99]
      (List.replicate 12 0) (ByteArray.new 16 fun _ => 0) := by
  have hnew : Reachable ⟨.little, 100, fun _ => 0⟩ 16
      (ByteArray.new 16 fun _ => 0) := .new _
  exact varint_string_never_trips (by decide) hnew

/-- "abc" takes four bytes, and its reader throws for want of eight. -/
theorem varint_string_misread :
    ∃ s₁ s₂ s₃, writeStringVint [97, 98, 99]
        (ByteArray.new 16 fun _ => 0) = .ok () s₁
      ∧ setPosition 0 s₁ = .ok () s₂
      ∧ readStringVint ⟨.little, 100, fun _ => 0⟩ s₂
        = .error .outOfRange s₃ := by
  have hlength : varint 3 = [3] := by
    rw [varint_eq, Varint.encode_small (by decide)]
    rfl
  have hwrite : writeStringVint [97, 98, 99] = (do
      write [3]
      write [97, 98, 99]) := by
    rw [← hlength]
    rfl
  rw [hwrite]
  exact ⟨_, _, _, rfl, rfl, rfl⟩

end ByteArray

end TinyServer
