/-
Round trips of numbers.

In a message of varints or of fixed-width numbers every reader takes what
its writer wrote, so the message comes back when the growths on its way
suffice: for 32-bit varints (`varint32_round_trip_iff`) and for fixed-width
numbers under any changes of the byte order (`fixed_wire_format_iff`) that
is the only condition. A 64-bit varint has to fit in 32 bits besides
(`varint64_round_trip_iff`). A float comes back, and a double never does:
`readDouble` takes four of its eight bytes (`float_round_trip_iff`).
-/
import TinyServer.ByteArray.Proofs.Scalars

namespace TinyServer

open Lib

namespace Scalar

variable {e : Endian} {x y : Scalar}

/-- The two integers of 64 bits that are written as varints, -/
def isVarint64 : Scalar → Bool
  | int64 _ | uint64 _ => true
  | _ => false

/-- those of 32 bits, -/
def isVarint32 : Scalar → Bool
  | int32 _ | uint32 _ => true
  | _ => false

/-- and the integers of a fixed width. -/
def isFixed : Scalar → Bool
  | fint8 _ | fuint8 _ | fint16 _ | fuint16 _ | fint32 _ | fuint32 _
  | fint64 _ | fuint64 _ => true
  | _ => false

/-- A 64-bit value that 32 bits can hold. -/
def Narrow : Scalar → Prop
  | int64 value => -2 ^ 31 ≤ value.toInt ∧ value.toInt < 2 ^ 31
  | uint64 value => value.toNat < 2 ^ 32
  | _ => True

/-- A varint of 64 bits is stored where 32 bits hold it. -/
theorem stored_varint64 (h : x.isVarint64 = true) :
    x.stored = x ↔ x.Narrow := by
  cases x <;> first | (cases h; done) | unfold stored Narrow
  case int64 value =>
    rw [int64.injEq, ← Int64.toInt_inj, Int32.toInt_toInt64,
      Int64.toInt_toInt32, Int.bmod_def]
    split <;> omega
  case uint64 value =>
    have hlt := value.toNat_lt
    have hval : (UInt64.ofNat (value.toNat % 2 ^ 32)).toNat
        = value.toNat % 2 ^ 32 :=
      UInt64.toNat_ofNat_of_lt' (by
        show _ < 2 ^ 64
        omega)
    rw [uint64.injEq, ← UInt64.toNat_inj, hval]
    omega

/-- One of 32 bits always is. -/
theorem stored_varint32 (h : x.isVarint32 = true) : x.stored = x := by
  cases x <;> first | (cases h; done) | rfl

/-- And so is an integer of a fixed width. -/
theorem stored_fixed (h : x.isFixed = true) : x.stored = x := by
  cases x <;> first | (cases h; done) | rfl

/-- A 32-bit varint is the encoding of a 32-bit number. -/
theorem bytes_varint32 (h : x.isVarint32 = true) :
    ∃ v : UInt32, ∀ e, x.bytes e = Varint.encode v.toNat := by
  cases x <;> first | (cases h; done) | exact ⟨_, fun _ => varint_eq _⟩

/-- The bytes of a varint of 32 bits, -/
theorem length_varint32 (h : x.isVarint32 = true) :
    1 ≤ (x.bytes e).length ∧ (x.bytes e).length ≤ 5 := by
  obtain ⟨v, hv⟩ := bytes_varint32 h
  have hlt := v.toNat_lt
  rw [hv]
  exact ⟨List.length_pos_of_ne_nil (Varint.encode_ne_nil _),
    Varint.length_encode_le (k := 4) (by omega)⟩

/-- and of one of 64. -/
theorem length_varint64 (h : x.isVarint64 = true) :
    (x.bytes e).length ≤ 10 := by
  have hvarint : ∃ v < 2 ^ 64, x.bytes e = Varint.encode v := by
    cases x <;> first | (cases h; done) | refine ⟨_, ?_, varint_eq _⟩
    case int64 value =>
      have hlt := (encodeZigzag32 value.toInt32).toNat_lt
      omega
    case uint64 value => exact value.toNat_lt
  obtain ⟨v, hlt, hv⟩ := hvarint
  rw [hv]
  exact Varint.length_encode_le (k := 9) (by omega)

/-- No varint is the beginning of another one. -/
theorem prefix_varint32 (hx : x.isVarint32 = true) (hy : y.isVarint32 = true)
    (h : x.bytes e <+: y.bytes e) : x.bytes e = y.bytes e := by
  obtain ⟨v, hv⟩ := bytes_varint32 hx
  obtain ⟨u, hu⟩ := bytes_varint32 hy
  rw [hv, hu] at h ⊢
  rw [Varint.eq_of_prefix h]

end Scalar

/-- The numbers without changes of the byte order. -/
def Item.ofScalars (xs : List Scalar) : List Item := xs.map Item.scalar

/-- The scalars of a list of scalars. -/
theorem Item.scalars_ofScalars (xs : List Scalar) :
    Item.scalars (Item.ofScalars xs) = xs := by
  induction xs with
  | nil => rfl
  | cons x xs ih => exact congrArg (x :: ·) ih

/-- An item without a varint. -/
def Item.isFixed : Item → Bool
  | order _ => true
  | scalar x => x.isFixed

/-- Its scalars are of a fixed width. -/
theorem Item.isFixed_scalars {is : List Item}
    (h : ∀ i ∈ is, i.isFixed = true) :
    ∀ x ∈ Item.scalars is, x.isFixed = true := by
  induction is with
  | nil => exact fun x hx => absurd hx List.not_mem_nil
  | cons i is ih =>
      obtain ⟨hi, his⟩ := List.forall_mem_cons.mp h
      cases i with
      | order little => exact ih his
      | scalar x => exact List.forall_mem_cons.mpr ⟨hi, ih his⟩

namespace ByteArray

variable {b : Nat} {host : Host} {s : ByteArray}

/-- The numbers are written one after another and read back in order. -/
def SequenceTrips (host : Host) (xs : List Scalar) (s : ByteArray) : Prop :=
  Trips (Item.writeAll host (Item.ofScalars xs))
    (Item.readAll host (Item.ofScalars xs)) xs [] s

/-- A sequence without a change of the byte order. -/
theorem sequence_trips_iff (hb : 0 < b) (hs : Inv b s) (xs : List Scalar) :
    SequenceTrips host xs s
      ↔ Fits b s.getCurCapacity (Item.sizes s.endian (Item.ofScalars xs))
        ∧ ∀ x ∈ xs, x.stored = x := by
  have hiff := message_trips_iff host hb hs (Item.ofScalars xs)
  rw [Item.scalars_ofScalars] at hiff
  exact hiff

-- ============================================================= 64-bit varints

/-- Where there is room for them, 64-bit varints come back exactly when
each fits in 32 bits. -/
theorem varint64_round_trip_iff {xs : List Scalar} (hb : 1 ≤ b)
    (h : Reachable host b s) (hxs : ∀ x ∈ xs, x.isVarint64 = true)
    (hroom : (Item.encode s.endian (Item.ofScalars xs)).length
      ≤ s.getCurCapacity) :
    (∀ x ∈ xs, (x.bytes s.endian).length ≤ 10) ∧ SequenceTrips host xs s
      ↔ ∀ x ∈ xs, x.Narrow := by
  have hs := h.inv host hb
  have hfits : Fits b s.getCurCapacity
      (Item.sizes s.endian (Item.ofScalars xs)) :=
    fits_of_sum_le (by rw [Item.sum_sizes]; exact hroom)
  have hlen : ∀ x ∈ xs, (x.bytes s.endian).length ≤ 10 :=
    fun x hx => Scalar.length_varint64 (hxs x hx)
  rw [sequence_trips_iff hb hs, and_iff_right hlen, and_iff_right hfits]
  exact forall₂_congr fun x hx => Scalar.stored_varint64 (hxs x hx)

/-- Two values that fit. -/
theorem varint64_round_trip_iff_small :
    SequenceTrips ⟨.little, 100, fun _ => 0⟩ [.uint64 1, .int64 (-1)]
      (ByteArray.new 8 fun _ => 0) := by
  have hnew : Reachable ⟨.little, 100, fun _ => 0⟩ 8
      (ByteArray.new 8 fun _ => 0) := .new _
  have hroom : (Item.encode .big (Item.ofScalars
      [.uint64 1, .int64 (-1)])).length ≤ 8 := by
    show (varint 1 ++ (varint 1 ++ [])).length ≤ 8
    rw [varint_eq, Varint.encode_small (by decide)]
    decide
  refine ((varint64_round_trip_iff (by decide) hnew (by decide) hroom).mpr
    ?_).2
  refine List.forall_mem_cons.mpr ⟨?_, List.forall_mem_cons.mpr
    ⟨?_, fun _ hx => absurd hx List.not_mem_nil⟩⟩
  · show (1 : UInt64).toNat < 2 ^ 32
    decide
  · show -2 ^ 31 ≤ (-1 : Int64).toInt ∧ (-1 : Int64).toInt < 2 ^ 31
    decide

/-- There is room for them, and yet neither `2 ^ 32` comes back as a
`uint64_t` nor `2 ^ 31` as an `int64_t`. -/
theorem varint64_cut :
    (∀ x ∈ [Scalar.uint64 0x100000000, Scalar.int64 0x80000000],
      (Item.encode .big (Item.ofScalars [x])).length
        ≤ (ByteArray.new 16 fun _ => 0).getCurCapacity)
    ∧ ¬ SequenceTrips ⟨.little, 100, fun _ => 0⟩ [.uint64 0x100000000]
      (ByteArray.new 16 fun _ => 0)
    ∧ ¬ SequenceTrips ⟨.little, 100, fun _ => 0⟩ [.int64 0x80000000]
      (ByteArray.new 16 fun _ => 0) := by
  have hs := inv_new 16 fun _ => 0
  refine ⟨fun x hx => ?_, ?_, ?_⟩
  · have hwide : x.isVarint64 = true := by
      revert x
      decide
    have hlen := Scalar.length_varint64 (e := .big) hwide
    show (x.bytes .big ++ []).length ≤ 16
    rw [List.append_nil]
    omega
  · rw [sequence_trips_iff (by decide) hs]
    exact fun h => absurd (h.2 _ List.mem_cons_self) (by decide)
  · rw [sequence_trips_iff (by decide) hs]
    exact fun h => absurd (h.2 _ List.mem_cons_self) (by decide)

-- ============================================================= 32-bit varints

/-- 32-bit varints take one to five bytes, none is a proper prefix of
another, and a sequence of them comes back exactly when every growth on
its way suffices. -/
theorem varint32_round_trip_iff {xs : List Scalar} (hb : 1 ≤ b)
    (h : Reachable host b s) (hxs : ∀ x ∈ xs, x.isVarint32 = true) :
    (∀ x : Scalar, x.isVarint32 = true →
        1 ≤ (x.bytes s.endian).length ∧ (x.bytes s.endian).length ≤ 5)
      ∧ (∀ x y : Scalar, x.isVarint32 = true → y.isVarint32 = true →
        x.bytes s.endian <+: y.bytes s.endian →
        x.bytes s.endian = y.bytes s.endian)
      ∧ (SequenceTrips host xs s ↔ Fits b s.getCurCapacity
        (Item.sizes s.endian (Item.ofScalars xs))) := by
  refine ⟨fun x hx => Scalar.length_varint32 hx,
    fun x y hx hy => Scalar.prefix_varint32 hx hy, ?_⟩
  rw [sequence_trips_iff hb (h.inv host hb)]
  exact and_iff_left fun x hx => Scalar.stored_varint32 (hxs x hx)

/-- `INT32_MIN` and a one-byte value behind it. -/
theorem varint32_round_trip_iff_min :
    SequenceTrips ⟨.little, 100, fun _ => 0⟩
      [.int32 Int32.minValue, .uint32 1] (ByteArray.new 16 fun _ => 0) := by
  have hnew : Reachable ⟨.little, 100, fun _ => 0⟩ 16
      (ByteArray.new 16 fun _ => 0) := .new _
  have hxs : ∀ x ∈ [Scalar.int32 Int32.minValue, .uint32 1],
      x.isVarint32 = true := by decide
  obtain ⟨hlen, -, hiff⟩ := varint32_round_trip_iff (by decide) hnew hxs
  refine hiff.mpr (fits_of_sum_le ?_)
  have hmin := (hlen (.int32 Int32.minValue) rfl).2
  have hone := (hlen (.uint32 1) rfl).2
  show _ + (_ + 0) ≤ 16
  omega

/-- A value of one byte and one of five: in an array of base size 4 the
second runs into the null node. -/
theorem varint32_falls_short :
    ∃ s', Item.writeAll ⟨.little, 100, fun _ => 0⟩
      (Item.ofScalars [.uint32 1, .uint32 0xFFFFFFFF])
      (ByteArray.new 4 fun _ => 0) = .error .nullDeref s' := by
  have hone : varint 1 = [1] := by
    rw [varint_eq, Varint.encode_small (by decide)]
    rfl
  have hmax : (varint 0xFFFFFFFF).length = 5 := by
    rw [varint_eq, Varint.encode_large (by decide),
      Varint.encode_large (by decide), Varint.encode_large (by decide),
      Varint.encode_large (by decide), Varint.encode_small (by decide)]
    rfl
  have hsizes : Item.sizes .big
      (Item.ofScalars [.uint32 1, .uint32 0xFFFFFFFF]) = [1, 5] := by
    show [(varint 1).length, (varint 0xFFFFFFFF).length] = [1, 5]
    rw [hone, hmax]
    rfl
  rcases writes_items ⟨.little, 100, fun _ => 0⟩ (by decide)
    (Item.ofScalars [.uint32 1, .uint32 0xFFFFFFFF]) .big _
    (inv_new 4 fun _ => 0) rfl with ⟨-, hrun⟩ | ⟨hfits, -⟩
  · exact hrun
  · rw [hsizes] at hfits
    exact absurd hfits (by decide)

-- ======================================================== fixed-width numbers

/-- The bytes of a message are those of its format, and the message comes
back. -/
structure WireFormat (host : Host) (b : Nat) (is : List Item)
    (s : ByteArray) : Prop where
  written : ∃ s', Item.writeAll host is s = .ok () s'
    ∧ Wrote b s (Item.encode s.endian is) s'
  read : Trips (Item.writeAll host is) (Item.readAll host is)
    (Item.scalars is) [] s

/-- Fixed-width numbers are written in the byte order of the array and
come back, on every host, exactly when every growth suffices. -/
theorem fixed_wire_format_iff {is : List Item} (hb : 1 ≤ b)
    (h : Reachable host b s) (his : ∀ i ∈ is, i.isFixed = true) :
    WireFormat host b is s
      ↔ Fits b s.getCurCapacity (Item.sizes s.endian is) := by
  have hs := h.inv host hb
  have htrip := message_trips_iff host hb hs is
  constructor
  · intro hwire
    exact (htrip.mp hwire.read).1
  · intro hfits
    refine ⟨?_, htrip.mpr ⟨hfits, fun x hx =>
      Scalar.stored_fixed (Item.isFixed_scalars his x hx)⟩⟩
    rcases writes_items host hb is s.endian s hs rfl with
      ⟨hno, -⟩ | ⟨-, s', hrun, hwrote, -⟩
    · exact absurd hfits hno
    · exact ⟨s', hrun, hwrote⟩

/-- A change of the byte order between two numbers. -/
theorem fixed_wire_format_iff_switch :
    WireFormat ⟨.little, 100, fun _ => 0⟩ 16
      [.scalar (.fint16 (-2)), .order true, .scalar (.fuint32 1)]
      (ByteArray.new 16 fun _ => 0) := by
  have hnew : Reachable ⟨.little, 100, fun _ => 0⟩ 16
      (ByteArray.new 16 fun _ => 0) := .new _
  exact (fixed_wire_format_iff (by decide) hnew (by decide)).mpr (by decide)

/-- Two bytes and then four: in an array of base size 4 the second number
runs into the null node. -/
theorem fixed_falls_short :
    ∃ s', Item.writeAll ⟨.little, 100, fun _ => 0⟩
      [.scalar (.fuint16 1), .scalar (.fuint32 1)]
      (ByteArray.new 4 fun _ => 0) = .error .nullDeref s' :=
  ⟨_, rfl⟩

-- =========================================================== floating point

/-- A float comes back exactly when the growths suffice, and a double never
does. -/
theorem float_round_trip_iff {f : BitVec 32} {d : BitVec 64}
    {t : List UInt8} (hb : 1 ≤ b) (h : Reachable host b s) :
    (Trips (writeFloat host f) (readFloat host) f t s
      ↔ Fits b s.getCurCapacity [4, t.length])
    ∧ ¬ Trips (writeDouble host d) (readDouble host) d t s := by
  have hs := h.inv host hb
  constructor
  · have hwrites : Writes b (writeFloat host f) s.endian s.endian [4]
        (toMem s.endian 4 f.toNat) := Writes.writeF hb host 4 f.toNat
    rw [trips_iff hb hs hwrites (decodes_float host f) t]
    exact and_iff_left rfl
  · have hwrites : Writes b (writeDouble host d) s.endian s.endian [8]
        (toMem s.endian 8 d.toNat) := Writes.writeF hb host 8 d.toNat
    rcases trips_cases (r := readDouble host) (x := d) hb hs hwrites t with
      ⟨-, hno⟩ | ⟨-, s', hs', hat, -, -, hiff⟩
    · exact hno
    rw [hiff]
    intro htrip
    obtain ⟨s₄, hrun, hpos, -⟩ := htrip
    obtain ⟨hdata, -⟩ := hat.append
    -- four of the eight bytes are read
    have hlen := length_toMem s.endian 8 d.toNat
    have hsize : s.position + 4 ≤ s'.size := by
      have hle := hdata.1
      omega
    obtain ⟨v, hread, -⟩ := (readsNumber_uint32 host).ok (e := s.endian) hb hs'
      (at_slice hs' hsize) (length_stored hs' hsize)
    unfold readDouble at hrun
    rw [bind_ok hread] at hrun
    injection hrun with _ hstate
    have hend : s₄.position = s.position + 4 := by
      rw [← hstate]
      rfl
    omega

/-- The float 1.0, with two bytes behind it. -/
theorem float_round_trip_iff_one :
    Trips (writeFloat ⟨.little, 100, fun _ => 0⟩ 0x3F800000)
      (readFloat ⟨.little, 100, fun _ => 0⟩) 0x3F800000 [1, 2]
      (ByteArray.new 16 fun _ => 0) := by
  have hnew : Reachable ⟨.little, 100, fun _ => 0⟩ 16
      (ByteArray.new 16 fun _ => 0) := .new _
  exact (float_round_trip_iff (d := 0) (by decide) hnew).1.mpr (by decide)

/-- The double 1.0 is read as 1.875, from four of its bytes. -/
theorem double_halved :
    ∃ s₁ s₂ s₃, writeDouble ⟨.little, 100, fun _ => 0x3FFE000000000000⟩
        0x3FF0000000000000 (ByteArray.new 16 fun _ => 0) = .ok () s₁
      ∧ s₁.position = 8 ∧ setPosition 0 s₁ = .ok () s₂
      ∧ readDouble ⟨.little, 100, fun _ => 0x3FFE000000000000⟩ s₂
        = .ok 0x3FFE000000000000 s₃
      ∧ s₃.position = 4 :=
  ⟨_, _, _, rfl, rfl, rfl, rfl, rfl⟩

end ByteArray

end TinyServer
