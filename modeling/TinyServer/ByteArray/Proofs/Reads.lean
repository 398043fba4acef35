/-
The typed readers at a cursor.

A read changes nothing but the cursor, so the states of a reader are all
`s.moved e p` for one array `s`: the byte order `e` and the position `p`
say where it is. Each reader has a lemma that says where it goes and what
it returns when the bytes `bs` lie at `p` (`At s p bs`), and one that says
how it fails when there are too few.

An empty read at the end of the capacity dereferences the null `m_cur`,
and no other read does (`read_safe_iff`).
-/
import TinyServer.ByteArray.Proofs.ByteOrder

namespace TinyServer.ByteArray

open Lib

variable {b n p : Nat} {e : Endian} {host : Host} {s : ByteArray}
  {bs cs : List UInt8} {c : UInt8} {α β : Type}

-- =========================================================== bytes at a place

/-- The bytes `bs` are stored at position `p`. -/
def At (s : ByteArray) (p : Nat) (bs : List UInt8) : Prop :=
  p + bs.length ≤ s.size ∧ slice s.bytes p bs.length = bs

/-- What is stored in a row is stored in parts. -/
theorem At.append (h : At s p (bs ++ cs)) :
    At s p bs ∧ At s (p + bs.length) cs := by
  obtain ⟨hle, heq⟩ := h
  rw [List.length_append] at hle heq
  have hfst : (slice s.bytes p bs.length).length ≤ bs.length := by
    unfold slice
    rw [List.length_take]
    exact Nat.min_le_left _ _
  rw [slice_add] at heq
  have hsnd : (slice s.bytes (p + bs.length) cs.length).length ≤ cs.length := by
    unfold slice
    rw [List.length_take]
    exact Nat.min_le_left _ _
  have hlen := congrArg List.length heq
  rw [List.length_append, List.length_append] at hlen
  obtain ⟨h₁, h₂⟩ := List.append_inj heq (by omega)
  exact ⟨⟨by omega, h₁⟩, ⟨by omega, h₂⟩⟩

/-- A slice of the stored bytes has its whole length. -/
theorem length_stored (hs : Inv b s) (h : p + n ≤ s.size) :
    (slice s.bytes p n).length = n := by
  rw [← length_bytes hs] at h
  exact length_slice h

/-- The stored bytes are at their place. -/
theorem at_slice (hs : Inv b s) (h : p + n ≤ s.size) :
    At s p (slice s.bytes p n) := by
  have hlen := length_stored hs h
  exact ⟨by omega, by rw [hlen]⟩

-- ================================================================= the reads

section Moved

variable (hb : 0 < b) (hs : Inv b s)
include hb hs

/-- A read of stored bytes. -/
theorem read_moved (h : At s p bs) (hne : bs = [] → p < s.capacity) :
    read bs.length (s.moved e p) = .ok bs (s.moved e (p + bs.length)) := by
  obtain ⟨hle, heq⟩ := h
  have hp : p ≤ s.size := by omega
  rcases read_spec hb (hs.moved (e := e) hp) bs.length with
    ⟨hlt, -⟩ | ⟨h0, hcap, -⟩ | ⟨-, -, hrun⟩
  · have hlt : s.size - p < bs.length := hlt
    omega
  · have hcap : p = s.capacity := hcap
    have hlt := hne (List.eq_nil_of_length_eq_zero h0)
    omega
  · rw [hrun]
    exact congrArg (EStateM.Result.ok · _) heq

/-- A read past the stored bytes throws and changes nothing. -/
theorem read_short (hp : p ≤ s.size) (h : s.size < p + n) :
    read n (s.moved e p) = .error .outOfRange (s.moved e p) := by
  rcases read_spec hb (hs.moved (e := e) hp) n with
    ⟨-, hrun⟩ | ⟨h0, -⟩ | ⟨hle, -⟩
  · exact hrun
  · omega
  · have hle : n ≤ s.size - p := hle
    omega

/-- The null `m_cur` at the end of the capacity. -/
theorem read_null (hp : s.size = s.capacity) :
    read 0 (s.moved e s.size) = .error .nullDeref (s.moved e s.size) := by
  rcases read_spec hb (hs.moved (e := e) (Nat.le_refl s.size)) 0 with
    ⟨hlt, -⟩ | ⟨-, -, hrun⟩ | ⟨-, hcap, -⟩
  · exact absurd hlt (Nat.not_lt_zero _)
  · exact hrun
  · have hlt : s.size < s.capacity := hcap rfl
    omega

/-- A fixed-width value is read in the order of the array, whatever the
order of the host. -/
theorem readF_moved (h : At s p bs) (hne : bs ≠ []) :
    readF host bs.length (s.moved e p)
      = .ok (ofMem e bs) (s.moved e (p + bs.length)) := by
  unfold readF
  rw [bind_ok (read_moved hb hs h fun h0 => absurd h0 hne)]
  show EStateM.Result.ok (if e = host.byteOrder then ofMem host.byteOrder bs
    else byteswap bs.length (ofMem host.byteOrder bs)) _ = _
  split
  next he => rw [he]
  next he => rw [byteswap_ofMem he]

/-- A number of which a byte is missing is not read. -/
theorem readF_short (hp : p ≤ s.size) (h : s.size < p + n) :
    readF host n (s.moved e p) = .error .outOfRange (s.moved e p) := by
  unfold readF
  rw [bind_error (read_short hb hs hp h)]

/-- A byte is read where the cursor is. -/
theorem readFuint8_moved (h : At s p [c]) :
    readFuint8 (s.moved e p) = .ok c (s.moved e (p + 1)) := by
  have hread := read_moved hb hs (e := e) h fun h0 => nomatch h0
  unfold readFuint8
  rw [show (1 : Nat) = [c].length from rfl, bind_ok hread]
  show EStateM.Result.ok (UInt8.ofNat (c.toNat + 256 * 0)) _ = _
  rw [Nat.mul_zero, Nat.add_zero, UInt8.ofNat_toNat]

/-- Behind the last byte nothing is read. -/
theorem readFuint8_short (h : s.size ≤ p) (hp : p ≤ s.size) :
    readFuint8 (s.moved e p) = .error .outOfRange (s.moved e p) := by
  unfold readFuint8
  rw [bind_error (read_short hb hs hp (by omega))]

end Moved

-- ============================================================== length fields

/-- `m` reads a number of `w` bytes in the order of the array. -/
structure ReadsNumber (w : Nat) (m : BA α) (toNat : α → Nat) : Prop where
  ok : ∀ {b s e p bs}, 0 < b → Inv b s → At s p bs → bs.length = w →
    ∃ a, m (s.moved e p) = .ok a (s.moved e (p + w)) ∧ toNat a = ofMem e bs
  short : ∀ {b s e p}, 0 < b → Inv b s → p ≤ s.size → s.size < p + w →
    m (s.moved e p) = .error .outOfRange (s.moved e p)

/-- Bytes denote a number of their width, in either order. -/
theorem ofMem_lt (e : Endian) (bs : List UInt8) :
    ofMem e bs < 256 ^ bs.length := by
  cases e with
  | little => exact ofBytesLE_lt bs
  | big =>
      have hlt := ofBytesLE_lt bs.reverse
      rw [List.length_reverse] at hlt
      exact hlt

/-- A number of `w` bytes in a type that keeps it. -/
theorem readsNumber_map {w : Nat} {f : Nat → α} {toNat : α → Nat} (hw : 0 < w)
    (hf : ∀ v < 256 ^ w, toNat (f v) = v) :
    ReadsNumber w (f <$> readF host w) toNat where
  ok := by
    intro b s e p bs hb hs hat hlen
    subst hlen
    exact ⟨_, map_ok (readF_moved hb hs hat (List.ne_nil_of_length_pos hw)),
      hf _ (ofMem_lt e bs)⟩
  short := fun hb hs hp h => map_error (readF_short hb hs hp h)

/-- The readers of the three length fields. -/
theorem readsNumber_uint16 (host : Host) :
    ReadsNumber 2 (readFuint16 host) UInt16.toNat :=
  readsNumber_map (by decide) fun _ hv => UInt16.toNat_ofNat_of_lt' hv

theorem readsNumber_uint32 (host : Host) :
    ReadsNumber 4 (readFuint32 host) UInt32.toNat :=
  readsNumber_map (by decide) fun _ hv => UInt32.toNat_ofNat_of_lt' hv

theorem readsNumber_uint64 (host : Host) :
    ReadsNumber 8 (readFuint64 host) UInt64.toNat :=
  readsNumber_map (by decide) fun _ hv => UInt64.toNat_ofNat_of_lt' hv

-- ============================================================ reads are safe

/-- A read of no more than the stored bytes returns and moves the cursor
by `n`, unless it reads nothing at the end of the capacity. -/
theorem read_safe_iff (hb : 1 ≤ b) (h : Reachable host b s)
    (hn : n ≤ s.getReadSize) :
    (∃ bs s', read n s = .ok bs s' ∧ s'.position = s.position + n)
      ↔ 0 < n ∨ s.position < s.capacity := by
  have hs := h.inv host hb
  have hle := hs.pos_le_capacity
  rcases read_spec hb hs n with
    ⟨hlt, -⟩ | ⟨h0, hcap, hrun⟩ | ⟨-, hcap, hrun⟩
  · exact absurd hlt (Nat.not_lt.mpr hn)
  · rw [hrun]
    refine iff_of_false (fun ⟨_, _, hcon, _⟩ => ?_) (by omega)
    cases hcon
  · rw [hrun]
    exact iff_of_true ⟨_, _, rfl, rfl⟩ (by omega)

/-- Three bytes in nodes of two; the read ends at the border of the first
node. -/
theorem read_safe_iff_border :
    ∃ s, run ⟨.little, 100, fun _ => 0⟩ 2 (fun _ => 0)
        [.write [1, 2], .write [3], .setPosition 0] = some s
      ∧ (∃ bs s', read 2 s = .ok bs s' ∧ s'.position = s.position + 2) := by
  have hrun : run ⟨.little, 100, fun _ => 0⟩ 2 (fun _ => 0)
      [.write [1, 2], .write [3], .setPosition 0] = some _ := rfl
  exact ⟨_, hrun, (read_safe_iff (by decide) (reachable_run _ hrun)
    (by decide)).mpr (.inl (by decide))⟩

/-- An empty string that ends with the last node: its reader dies. -/
theorem empty_read_faults :
    ∃ s s' s'', Reachable ⟨.little, 100, fun _ => 0⟩ 2 s
      ∧ s.position = 2 ∧ s.getReadSize = 0
      ∧ read 0 s = .error .nullDeref s
      ∧ setPosition 0 s = .ok () s'
      ∧ readStringF16 ⟨.little, 100, fun _ => 0⟩ s'
        = .error .nullDeref s'' := by
  have hrun : run ⟨.little, 100, fun _ => 0⟩ 2 (fun _ => 0)
      [.writeStringF16 []] = some _ := rfl
  exact ⟨_, _, _, reachable_run _ hrun, rfl, rfl, rfl, rfl, rfl⟩

end TinyServer.ByteArray
