/-
The representation invariant over whole runs: every public operation of
`ByteArray` keeps it, on return and on `std::out_of_range`, so it holds
after every sequence of calls none of which dies.

The untyped operations are read off their specifications (`Inv.lean`);
the typed ones call nothing else, so the rules of `Keeps` carry the
invariant through them. An exception out of the middle of a typed read
(a varint or a string whose last bytes are missing) leaves the cursor
where the last complete `read` put it, which is again a state with the
invariant: this is why the rules speak about both ways out.
-/
import TinyServer.ByteArray.Proofs.Inv

namespace TinyServer.ByteArray

open Lib

variable {b : Nat}

/-- The exceptions after which a caller can go on using the array. -/
def survivable (e : Err) : Bool := e = .outOfRange

/-- `m` keeps the invariant. -/
abbrev KeepsInv (b : Nat) {α : Type} (m : BA α) : Prop :=
  Keeps (fun e => survivable e = true) (Inv b) m

/-- `m` keeps the invariant on every way out that a caller survives. -/
abbrev Endures (b : Nat) {α : Type} (m : BA α) : Prop :=
  Keeps (fun e => e ≠ Err.nullDeref) (Inv b) m

-- =================================================== the untyped operations

/-- New nodes go to the end of the list. -/
theorem endures_addCapacity (hb : 0 < b) (n : Nat) :
    Endures b (addCapacity n) := by
  intro s hs
  obtain ⟨s', ns, hrun, hs', -⟩ := addCapacity_spec hb hs n
  rw [hrun]
  exact hs'

/-- A write adds the nodes it needs and fills them. -/
theorem endures_write (hb : 0 < b) (buf : List UInt8) :
    Endures b (write buf) := by
  intro s hs
  rcases write_spec hb hs buf with ⟨-, s', hrun⟩ | ⟨-, s', hrun, hs', -⟩
  · rw [hrun]
    exact fun hlive => absurd rfl hlive
  · rw [hrun]
    exact hs'.inv

/-- A read moves the cursor only. -/
theorem endures_read (hb : 0 < b) (n : Nat) : Endures b (read n) := by
  intro s hs
  have hle := hs.pos_le
  rcases read_spec hb hs n with
    ⟨-, hrun⟩ | ⟨-, -, hrun⟩ | ⟨hn, -, hrun⟩
  · rw [hrun]
    exact fun _ => hs
  · rw [hrun]
    exact fun _ => hs
  · rw [hrun]
    exact hs.moved (by omega)

/-- `setPosition` moves the cursor and the end of the bytes. -/
theorem endures_setPosition (hb : 0 < b) (pos : Nat) :
    Endures b (setPosition pos) := by
  intro s hs
  rcases setPosition_spec hb hs pos with
    ⟨-, hrun⟩ | ⟨-, s', hrun, hs', -⟩
  · rw [hrun]
    exact fun _ => hs
  · rw [hrun]
    exact hs'

/-- `clear` leaves the first node. -/
theorem endures_clear : Endures b clear := by
  intro s hs
  obtain ⟨s', hrun, hs', -⟩ := clear_spec hs
  rw [hrun]
  exact hs'

/-- The byte order is not in the invariant. -/
theorem endures_setIsLittleEndian (val : Bool) :
    Endures b (setIsLittleEndian val) :=
  fun _ hs =>
    ⟨hs.base, hs.chain, hs.root_ne, hs.capacity_eq, hs.pos_le, hs.size_le,
      hs.cur_eq⟩

-- ============================================================ the observers

/-- A read at a position changes nothing. -/
theorem observes_readAt (n p : Nat) : Observes (readAt n p) := by
  refine Observes.get_bind fun s => Observes.ite (Observes.throw _) ?_
  simp only
  split
  · exact Observes.throw _
  · refine Observes.ite (Observes.pure _) ?_
    split
    · exact Observes.throw _
    · exact Observes.pure _

/-- Nor does `toString`. -/
theorem observes_toString : Observes toString :=
  Observes.get_bind fun _ =>
    Observes.ite (Observes.pure _) (observes_readAt _ _)

/-- Nor do the iovecs for reading. -/
theorem observes_getReadBuffers (len : Nat) :
    Observes (getReadBuffers len) := by
  refine Observes.get_bind fun s => Observes.ite (Observes.pure _) ?_
  simp only
  split
  · exact Observes.throw _
  · split
    · exact Observes.throw _
    · exact Observes.pure _

/-- Nor those from a position. -/
theorem observes_getReadBuffersAt (len p : Nat) :
    Observes (getReadBuffersAt len p) := by
  refine Observes.get_bind fun s => Observes.ite (Observes.pure _) ?_
  refine Observes.ite (Observes.throw _) ?_
  split
  · exact Observes.throw _
  · split
    · exact Observes.throw _
    · exact Observes.pure _

/-- The iovecs for writing only add capacity. -/
theorem endures_getWriteBuffers (hb : 0 < b) (len : Nat) :
    Endures b (getWriteBuffers len) := by
  refine Keeps.ite (Keeps.pure _)
    ((endures_addCapacity hb len).bind fun _ => ?_)
  refine Observes.keeps (Observes.get_bind fun s => ?_) _ _
  simp only
  split
  · exact Observes.throw _
  · split
    · exact Observes.throw _
    · exact Observes.pure _

-- ===================================================== the typed operations

variable (host : Host)

/-- The writers of a number are writes. -/
theorem endures_writeF (hb : 0 < b) (n v : Nat) :
    Endures b (writeF host n v) :=
  Keeps.get.bind fun _ => endures_write hb _

/-- Its readers are reads. -/
theorem endures_readF (hb : 0 < b) (n : Nat) :
    Endures b (readF host n) :=
  (endures_read hb n).bind fun _ => Keeps.get.bind fun _ => Keeps.pure _

/-- A byte is a number of one byte. -/
theorem endures_readFuint8 (hb : 0 < b) : Endures b readFuint8 :=
  (endures_read hb 1).bind fun _ => Keeps.pure _

/-- The varint loop: one byte a round, for as many rounds as there are
shifts. -/
theorem endures_readVarint (hb : 0 < b) :
    ∀ (shifts : List Nat) (result : Nat),
      Endures b (readVarint shifts result)
  | [], _ => Keeps.pure _
  | _ :: is, _ =>
      (endures_readFuint8 hb).bind fun _ =>
        Keeps.ite (Keeps.pure _) (endures_readVarint hb is _)

/-- A string is a read of its length. -/
theorem endures_readString (hb : 0 < b) (len : Nat) :
    Endures b (readString host len) :=
  Keeps.ite (Keeps.throw _) (endures_read hb len)

/-- Every public operation keeps the invariant. -/
theorem endures_call (hb : 0 < b) (op : Op) :
    Endures b (op.call host) := by
  cases op with
  | write buf => exact endures_write hb buf
  | read n => exact (endures_read hb n).discard
  | readAt n p => exact ((observes_readAt n p).keeps _ _).discard
  | setPosition pos => exact endures_setPosition hb pos
  | clear => exact endures_clear
  | setIsLittleEndian val => exact endures_setIsLittleEndian val
  | getReadBuffers len =>
      exact ((observes_getReadBuffers len).keeps _ _).discard
  | getReadBuffersAt len p =>
      exact ((observes_getReadBuffersAt len p).keeps _ _).discard
  | getWriteBuffers len => exact (endures_getWriteBuffers hb len).discard
  | toString => exact (observes_toString.keeps _ _).discard
  | writeFint8 value => exact endures_write hb [value.toUInt8]
  | writeFuint8 value => exact endures_write hb [value]
  | writeFint16 value => exact endures_writeF host hb 2 _
  | writeFuint16 value => exact endures_writeF host hb 2 _
  | writeFint32 value => exact endures_writeF host hb 4 _
  | writeFuint32 value => exact endures_writeF host hb 4 _
  | writeFint64 value => exact endures_writeF host hb 8 _
  | writeFuint64 value => exact endures_writeF host hb 8 _
  | writeInt32 value => exact endures_write hb _
  | writeUint32 value => exact endures_write hb _
  | writeInt64 value => exact endures_write hb _
  | writeUint64 value => exact endures_write hb _
  | writeFloat value => exact endures_writeF host hb 4 _
  | writeDouble value => exact endures_writeF host hb 8 _
  | writeStringF16 value =>
      exact (endures_writeF host hb 2 _).bind fun _ => endures_write hb _
  | writeStringF32 value =>
      exact (endures_writeF host hb 4 _).bind fun _ => endures_write hb _
  | writeStringF64 value =>
      exact (endures_writeF host hb 8 _).bind fun _ => endures_write hb _
  | writeStringVint value =>
      exact (endures_write hb _).bind fun _ => endures_write hb _
  | writeStringWithoutLength value => exact endures_write hb _
  | readFint8 => exact ((endures_readFuint8 hb).map _).discard
  | readFuint8 => exact (endures_readFuint8 hb).discard
  | readFint16 => exact ((endures_readF host hb 2).map _).discard
  | readFuint16 => exact ((endures_readF host hb 2).map _).discard
  | readFint32 => exact ((endures_readF host hb 4).map _).discard
  | readFuint32 => exact ((endures_readF host hb 4).map _).discard
  | readFint64 => exact ((endures_readF host hb 8).map _).discard
  | readFuint64 => exact ((endures_readF host hb 8).map _).discard
  | readInt32 =>
      exact (((endures_readVarint hb _ _).map _).map _).discard
  | readUint32 => exact ((endures_readVarint hb _ _).map _).discard
  | readInt64 =>
      exact (((endures_readVarint hb _ _).map _).map _).discard
  | readUint64 => exact ((endures_readVarint hb _ _).map _).discard
  | readFloat => exact (((endures_readF host hb 4).map _).map _).discard
  | readDouble =>
      exact (((endures_readF host hb 4).map _).bind fun _ =>
        Keeps.pure _).discard
  | readStringF16 =>
      exact (((endures_readF host hb 2).map _).bind fun _ =>
        endures_readString host hb _).discard
  | readStringF32 =>
      exact (((endures_readF host hb 4).map _).bind fun _ =>
        endures_readString host hb _).discard
  | readStringF64 =>
      exact (((endures_readF host hb 8).map _).bind fun _ =>
        endures_readString host hb _).discard
  | readStringVint =>
      exact (((endures_readF host hb 8).map _).bind fun _ =>
        endures_readString host hb _).discard

/-- Every operation keeps the invariant. -/
theorem keepsInv_call (hb : 0 < b) (op : Op) : KeepsInv b (op.call host) := by
  refine (endures_call host hb op).imp fun e he hnull => ?_
  subst hnull
  cases he

-- ============================================================== whole runs

/-- A new array has the invariant of its base size. -/
theorem inv_new (b : Nat) (heap : Nat → UInt8) :
    Inv b (ByteArray.new b heap) := by
  constructor
  · rfl
  · intro n hn
    simp only [ByteArray.new, List.mem_singleton] at hn
    subst hn
    exact ⟨rfl, by simp [Node.new]⟩
  · simp [ByteArray.new]
  · simp [ByteArray.new]
  · exact Nat.le_refl 0
  · exact Nat.zero_le _
  · simp [ByteArray.new, nodeAt]

/-- The state of an array of base size `b` after the calls `ops`, each
of which returned or threw `std::out_of_range`. -/
def run (b : Nat) (heap : Nat → UInt8) (ops : List Op) :
    Option ByteArray :=
  surviveAll survivable (Op.call host) ops (ByteArray.new b heap)

/-- Every state a run reaches has the invariant. -/
theorem inv_run (hb : 0 < b) {heap : Nat → UInt8} {ops : List Op}
    {s : ByteArray} (h : run host b heap ops = some s) : Inv b s :=
  Keeps.surviveAll (keepsInv_call host hb) ops (inv_new b heap) h

/-- Every reachable state has the invariant. -/
theorem Reachable.inv (hb : 0 < b) {s : ByteArray}
    (h : Reachable host b s) : Inv b s := by
  induction h with
  | new heap => exact inv_new b heap
  | returned _ hcall ih => exact (endures_call host hb _).of_ok ih hcall
  | threw _ hcall he ih => exact (endures_call host hb _).of_error ih hcall he
  | stored _ hn hfit ih =>
      obtain ⟨hbase, hchain, hne, hcap, hpos, hsize, hcur⟩ := ih
      obtain ⟨hsz, hptr⟩ := hchain _ (List.mem_of_getElem? hn)
      refine ⟨hbase, fun m hm => ?_, ?_, ?_, hpos, hsize, ?_⟩
      · rcases List.mem_or_eq_of_mem_set hm with hm | rfl
        · exact hchain m hm
        · exact ⟨hsz, by rw [length_overlay_of_le (by omega)]; exact hptr⟩
      · exact fun h => hne ((List.set_eq_nil_iff _ _).mp h)
      · simp only [List.length_set]
        exact hcap
      · unfold nodeAt
        rw [List.length_set]
        exact hcur

/-- A run ends in a reachable state. -/
theorem reachable_run {heap : Nat → UInt8} {ops : List Op} {s : ByteArray}
    (h : run host b heap ops = some s) : Reachable host b s := by
  unfold run at h
  have hstart : Reachable host b (ByteArray.new b heap) := .new heap
  generalize ByteArray.new b heap = s₀ at h hstart
  induction ops generalizing s₀ with
  | nil =>
      cases h
      exact hstart
  | cons op ops ih =>
      obtain ⟨s₁, hstep, hrest⟩ := Option.bind_eq_some_iff.mp h
      refine ih s₁ hrest ?_
      unfold survive at hstep
      split at hstep
      next s' hcall =>
        cases hstep
        exact .returned hstart hcall
      next e s' hcall =>
        split at hstep
        next he =>
          cases hstep
          refine .threw hstart hcall fun hnull => ?_
          subst hnull
          cases he
        next => cases hstep

/-- After every sequence of public calls none of which died, the chain
is `capacity / b` nodes of size `b`, the three positions are ordered,
and `m_cur` is the node of `position`, null exactly at the end of the
capacity. -/
theorem representation_invariant (b : Nat) (hb : 1 ≤ b) (host : Host)
    (heap : Nat → UInt8) (ops : List Op) (s : ByteArray)
    (h : run host b heap ops = some s) :
    (s.root.length = s.capacity / b ∧ (∀ n ∈ s.root, n.size = b)
        ∧ b ∣ s.capacity)
      ∧ (s.position ≤ s.size ∧ s.size ≤ s.capacity)
      ∧ s.cur = nodeAt s.root (s.position / b)
      ∧ (s.cur = none ↔ s.position = s.capacity) := by
  have hs := inv_run host hb h
  refine ⟨⟨?_, fun n hn => (hs.chain n hn).1, ?_⟩,
    ⟨hs.pos_le, hs.size_le⟩, hs.cur_eq, hs.cur_null hb⟩
  · rw [hs.capacity_eq, Nat.mul_div_cancel _ hb]
  · rw [hs.capacity_eq]
    exact Nat.dvd_mul_left b _

/-- A run over two nodes, with a rewind and a read that throws. -/
theorem representation_invariant_two_nodes :
    ∃ s, run ⟨.little, 100, fun _ => 0⟩ 2 (fun _ => 0)
        [.write [1, 2], .write [3], .setPosition 1, .read 2, .read 9]
          = some s
      ∧ (s.root.length = s.capacity / 2 ∧ (∀ n ∈ s.root, n.size = 2)
          ∧ 2 ∣ s.capacity)
      ∧ (s.position ≤ s.size ∧ s.size ≤ s.capacity)
      ∧ s.cur = nodeAt s.root (s.position / 2)
      ∧ (s.cur = none ↔ s.position = s.capacity) := by
  have hrun : (run ⟨.little, 100, fun _ => 0⟩ 2 (fun _ => 0)
      [.write [1, 2], .write [3], .setPosition 1, .read 2,
        .read 9]).isSome := by
    decide +kernel
  obtain ⟨s, hs⟩ := Option.isSome_iff_exists.mp hrun
  exact ⟨s, hs, representation_invariant 2 (by decide) _ _ _ s hs⟩

end TinyServer.ByteArray
