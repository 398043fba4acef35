/-
What is written and read back.

`Writes` describes a computation that only writes: the sizes of its calls
of `write` decide whether it survives (`Fits`: every growth suffices), and
what it leaves is its bytes at the cursor. The rules follow the monad, so
a message is described by the pieces it is made of.

`Trips` is a round trip: write a record and the bytes `t` behind it, go
back, and read the record; the value comes back and the cursor is exactly
before `t`. `trips_cases` reduces it to the reader alone, on an array that
holds the bytes.
-/
import TinyServer.ByteArray.Proofs.Reads

namespace TinyServer.ByteArray

open Lib

variable {b left n : Nat} {ns ms : List Nat} {e e₁ e₂ : Endian} {host : Host}
  {s s' : ByteArray} {data data' t : List UInt8} {α : Type}

-- ====================================================================== sizes

/-- The capacity left after writes of the sizes `ns`. -/
def leftAfter (b : Nat) : (left : Nat) → (ns : List Nat) → Nat
  | left, [] => left
  | left, n :: ns => leftAfter b (left + growCount b left n * b - n) ns

/-- Every growth on the way through writes of the sizes `ns` suffices. -/
def Fits (b : Nat) : (left : Nat) → (ns : List Nat) → Prop
  | _, [] => True
  | left, n :: ns =>
      Suffices b left n ∧ Fits b (left + growCount b left n * b - n) ns

instance decidableFits (b : Nat) : ∀ left ns, Decidable (Fits b left ns)
  | _, [] => inferInstanceAs (Decidable True)
  | left, n :: ns =>
      have := decidableFits b (left + growCount b left n * b - n) ns
      inferInstanceAs (Decidable (_ ∧ _))

/-- The room after two rows of writes. -/
theorem leftAfter_append :
    leftAfter b left (ns ++ ms) = leftAfter b (leftAfter b left ns) ms := by
  induction ns generalizing left with
  | nil => rfl
  | cons n ns ih => exact ih

/-- They fit when the second fits behind the first. -/
theorem fits_append :
    Fits b left (ns ++ ms)
      ↔ Fits b left ns ∧ Fits b (leftAfter b left ns) ms := by
  induction ns generalizing left with
  | nil => exact ⟨fun h => ⟨trivial, h⟩, fun h => h.2⟩
  | cons n ns ih =>
      exact (and_congr_right fun _ => ih).trans and_assoc.symm

/-- Nothing behind the record asks for no growth. -/
theorem fits_nil_behind :
    Fits b left (ns ++ [([] : List UInt8).length]) ↔ Fits b left ns := by
  rw [fits_append]
  exact and_iff_left ⟨.inl (Nat.zero_le _), trivial⟩

/-- Where there is room for everything nothing grows. -/
theorem fits_of_sum_le (h : ns.sum ≤ left) : Fits b left ns := by
  induction ns generalizing left with
  | nil => trivial
  | cons n ns ih =>
      rw [List.sum_cons] at h
      have hle : n ≤ left := by omega
      refine ⟨.inl hle, ih ?_⟩
      unfold growCount
      rw [if_pos hle]
      omega

-- ===================================================================== writes

/-- Two writes write both texts. -/
theorem Wrote.append (hs : Inv b s) (h : Wrote b s data s')
    {s'' : ByteArray} (h' : Wrote b s' data' s'') :
    Wrote b s (data ++ data') s'' := by
  refine ⟨h'.inv, ?_, ?_, ?_⟩
  · rw [h'.position, h.position, List.length_append, Nat.add_assoc]
  · rw [h'.size, h.size, h.position, List.length_append]
    omega
  · rw [h'.bytes, h.bytes, h.position, overlay_overlay hs.pos_le_bytes]

/-- What was written is there. -/
theorem Wrote.at (hs : Inv b s) (h : Wrote b s data s') :
    At s' s.position data := by
  refine ⟨?_, ?_⟩
  · rw [h.size]
    exact Nat.le_max_right _ _
  · rw [h.bytes, slice_overlay hs.pos_le_bytes]

/-- `w` turns the byte order from `e` to `e'` and writes `data`, in calls
of `write` of the sizes `ns`. -/
def Writes (b : Nat) (w : BA Unit) (e e' : Endian) (ns : List Nat)
    (data : List UInt8) : Prop :=
  ∀ s, Inv b s → s.endian = e →
    (¬ Fits b s.getCurCapacity ns ∧ ∃ s', w s = .error .nullDeref s')
    ∨ Fits b s.getCurCapacity ns
      ∧ ∃ s', w s = .ok () s' ∧ Wrote b s data s' ∧ s'.endian = e'
        ∧ s'.getCurCapacity = leftAfter b s.getCurCapacity ns

namespace Writes

/-- Writing nothing. -/
theorem nothing (hs : Inv b s) : Wrote b s [] s := by
  have hpos := hs.pos_le
  refine ⟨hs, rfl, ?_, ?_⟩
  · rw [List.length_nil]
    omega
  · unfold overlay
    rw [List.append_nil, List.length_nil, Nat.add_zero, List.take_append_drop]

/-- And doing nothing. -/
theorem pure : Writes b (Pure.pure ()) e e [] [] :=
  fun s hs he => .inr ⟨trivial, s, rfl, nothing hs, he, rfl⟩

/-- A `write` writes its bytes. -/
theorem write (hb : 0 < b) (buf : List UInt8) :
    Writes b (ByteArray.write buf) e e [buf.length] buf := by
  intro s hs he
  have hle := hs.pos_le_capacity
  rcases write_spec hb hs buf with
    ⟨hno, s', hrun⟩ | ⟨hsuff, s', hrun, hwrote, hcap, hend⟩
  · exact .inl ⟨fun h => hno h.1, s', hrun⟩
  · refine .inr ⟨⟨hsuff, trivial⟩, s', hrun, hwrote, hend.trans he, ?_⟩
    have hpos := hwrote.position
    unfold leftAfter leftAfter getCurCapacity
    unfold getCurCapacity at hcap
    omega

/-- A number is written in the order of the array. -/
theorem writeF (hb : 0 < b) (host : Host) (n v : Nat) :
    Writes b (ByteArray.writeF host n v) e e [n] (toMem e n v) := by
  intro s hs he
  have hwrite := Writes.write hb (toMem e n v) s hs he
  rw [length_toMem] at hwrite
  rw [writeF_eq, he]
  exact hwrite

/-- Setting the order writes nothing. -/
theorem order (little : Bool) :
    Writes b (setIsLittleEndian little) e (if little then .little else .big)
      [] [] := by
  intro s hs _
  obtain ⟨-, hposition, hsize, hbytes⟩ := nothing hs
  have hinv : Inv b { s with endian := if little then .little else .big } :=
    ⟨hs.base, hs.chain, hs.root_ne, hs.capacity_eq, hs.pos_le, hs.size_le,
      hs.cur_eq⟩
  exact .inr ⟨trivial, _, rfl, ⟨hinv, hposition, hsize, hbytes⟩, rfl, rfl⟩

/-- One after the other. -/
theorem bind {w w' : BA Unit} (h : Writes b w e e₁ ns data)
    (h' : Writes b w' e₁ e₂ ms data') :
    Writes b (do w; w') e e₂ (ns ++ ms) (data ++ data') := by
  intro s hs he
  rw [fits_append]
  rcases h s hs he with ⟨hno, s', hrun⟩ | ⟨hfits, s', hrun, hwrote, he', hleft⟩
  · exact .inl ⟨fun h => hno h.1, s', bind_error hrun⟩
  rw [bind_ok hrun, ← hleft, leftAfter_append, ← hleft]
  rcases h' s' hwrote.inv he' with
    ⟨hno, hrun'⟩ | ⟨hfits', s'', hrun', hwrote', he'', hleft'⟩
  · exact .inl ⟨fun h => hno h.2, hrun'⟩
  · exact .inr ⟨⟨hfits, hfits'⟩, s'', hrun', hwrote.append hs hwrote', he'',
      hleft'⟩

end Writes

-- ================================================================ round trips

/-- Back to the cursor and the byte order of `s`. -/
def rewind (s : ByteArray) : BA Unit := do
  setPosition s.position
  setIsLittleEndian s.isLittleEndian

/-- What `w` and a `write(t)` behind it wrote is read by `r` as `x`, and
then the cursor is exactly before `t`. -/
def Trips (w : BA Unit) (r : BA α) (x : α) (t : List UInt8)
    (s : ByteArray) : Prop :=
  ∃ s₁ s₂ s₃ s₄, w s = .ok () s₁ ∧ write t s₁ = .ok () s₂
    ∧ rewind s s₂ = .ok () s₃ ∧ r s₃ = .ok x s₄
    ∧ s₄.position = s₁.position ∧ slice s₄.bytes s₄.position t.length = t

/-- Setting the cursor back moves the cursor only. -/
theorem rewind_eq (hb : 0 < b) (hs' : Inv b s') (h : s.position ≤ s'.size) :
    rewind s s' = .ok () (s'.moved s.endian s.position) := by
  unfold rewind
  rw [bind_ok (setPosition_moved hb hs' h)]
  unfold isLittleEndian
  cases hend : s.endian with
  | little => rfl
  | big => rfl

/-- A record either does not fit, or the round trip is that of the reader
on an array `s'` that holds the record and `t`. -/
theorem trips_cases {w : BA Unit} {r : BA α} {x : α} (hb : 0 < b)
    (hs : Inv b s) (hw : Writes b w s.endian e ns data) (t : List UInt8) :
    (¬ Fits b s.getCurCapacity (ns ++ [t.length]) ∧ ¬ Trips w r x t s)
    ∨ Fits b s.getCurCapacity (ns ++ [t.length])
      ∧ ∃ s', Inv b s' ∧ At s' s.position (data ++ t)
        ∧ s'.getCurCapacity
          = leftAfter b s.getCurCapacity (ns ++ [t.length])
        ∧ s'.position = s.position + (data ++ t).length
        ∧ (Trips w r x t s ↔ ∃ s₄, r (s'.moved s.endian s.position) = .ok x s₄
          ∧ s₄.position = s.position + data.length
          ∧ slice s₄.bytes s₄.position t.length = t) := by
  have hwt := hw.bind (Writes.write hb t)
  rcases hw s hs rfl with ⟨hno, s', hrun⟩ | ⟨-, s₁, hrun, hwrote₁, he₁, -⟩
  · refine .inl ⟨fun h => hno (fits_append.mp h).1, fun h => ?_⟩
    obtain ⟨s₁, -, -, -, hok, -⟩ := h
    rw [hrun] at hok
    cases hok
  rcases hwt s hs rfl with
    ⟨hno, s₂, hrun₂⟩ | ⟨hfits, s₂, hrun₂, hwrote, he₂, hleft⟩
  · rw [bind_ok hrun] at hrun₂
    refine .inl ⟨hno, fun h => ?_⟩
    obtain ⟨t₁, t₂, -, -, hok, hok₂, -⟩ := h
    rw [hrun] at hok
    cases hok
    rw [hrun₂] at hok₂
    cases hok₂
  rw [bind_ok hrun] at hrun₂
  have hsize : s.position ≤ s₂.size := by
    rw [hwrote.size]
    omega
  have hrewind := rewind_eq hb hwrote.inv hsize
  refine .inr ⟨hfits, s₂, hwrote.inv, hwrote.at hs, hleft, hwrote.position, ?_⟩
  constructor
  · intro h
    obtain ⟨t₁, t₂, t₃, t₄, hok, hok₂, hok₃, hok₄, hpos, hbehind⟩ := h
    rw [hrun] at hok
    cases hok
    rw [hrun₂] at hok₂
    cases hok₂
    rw [hrewind] at hok₃
    cases hok₃
    exact ⟨t₄, hok₄, hpos.trans hwrote₁.position, hbehind⟩
  · intro h
    obtain ⟨s₄, hok₄, hpos, hbehind⟩ := h
    exact ⟨s₁, s₂, _, s₄, hrun, hrun₂, hrewind, hok₄,
      hpos.trans hwrote₁.position.symm, hbehind⟩

/-- `r` takes the bytes `bs` of an array in the order `e` for `y`, and
leaves the order `e'`. -/
def Decodes (r : BA α) (e e' : Endian) (bs : List UInt8) (y : α) : Prop :=
  ∀ b s p, 0 < b → Inv b s → At s p bs →
    r (s.moved e p) = .ok y (s.moved e' (p + bs.length))

/-- The round trip of a record whose reader takes all of its bytes. -/
theorem trips_iff {w : BA Unit} {r : BA α} {x y : α} (hb : 0 < b)
    (hs : Inv b s) (hw : Writes b w s.endian e ns data)
    (hr : Decodes r s.endian e₁ data y) (t : List UInt8) :
    Trips w r x t s
      ↔ Fits b s.getCurCapacity (ns ++ [t.length]) ∧ y = x := by
  rcases trips_cases (r := r) (x := x) hb hs hw t with
    ⟨hno, htrip⟩ | ⟨hfits, s', hs', hat, -, -, hiff⟩
  · exact iff_of_false htrip fun h => hno h.1
  obtain ⟨hdata, hbehind⟩ := hat.append
  rw [hiff, hr b s' _ hb hs' hdata]
  constructor
  · intro h
    obtain ⟨s₄, hok, -⟩ := h
    cases hok
    exact ⟨hfits, rfl⟩
  · intro h
    obtain ⟨-, rfl⟩ := h
    exact ⟨_, rfl, rfl, hbehind.2⟩

end TinyServer.ByteArray
