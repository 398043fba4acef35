/-
Access at a position of the caller's.

`read(buf, n, p)` checks `n` against what is left behind the cursor and
starts in the cursor's node, at the offset of `p`; so it fetches what lies
at `p` when `p` lies in that node. `getReadBuffers(buffers, n, p)` walks
to the node of `p`, but takes the length from the cursor. `SameView` says
when the two agree with the caller's position (`positional_access_iff`).
-/
import TinyServer.ByteArray.Proofs.Growth

namespace TinyServer.ByteArray

open Lib

variable {b n p : Nat} {host : Host} {s : ByteArray}

/-- The accesses at `p` do what they would do with the cursor there. -/
structure PositionalAccess (s : ByteArray) (n p : Nat) : Prop where
  read : readAt n p s = if p + n ≤ s.size then .ok (slice s.bytes p n) s
    else .error .outOfRange s
  buffers : ∃ iovs, getReadBuffersAt n p s = .ok (min n (s.size - p), iovs) s
    ∧ gathered s.root iovs = slice s.bytes p (min n (s.size - p))

/-- Where the read of `p` begins: at its offset in the cursor's node. -/
def startOf (s : ByteArray) (p : Nat) : Nat :=
  s.position / s.baseSize * s.baseSize + p % s.baseSize

/-- The bytes at `p` are seen from the cursor: as many are left behind the
one as behind the other, up to `n`, and `p` lies in the cursor's node, or
what lies at its offset there happens to be the same. -/
structure SameView (s : ByteArray) (n p : Nat) : Prop where
  left : min n (s.size - s.position) = min n (s.size - p)
  check : p + n ≤ s.size ↔ s.position + n ≤ s.size
  node : p + n ≤ s.size → s.position < s.capacity
    ∧ (n = 0 ∨ p / s.baseSize = s.position / s.baseSize
      ∨ s.startOf p + n ≤ s.capacity
        ∧ slice (flat s.root) (s.startOf p) n = slice s.bytes p n)

-- ================================================================== the read

/-- `readAt`, with the monad unfolded. -/
private theorem readAt_eq (n p : Nat) (s : ByteArray) :
    readAt n p s = if n > s.getReadSize then .error .outOfRange s
      else match derefCur s with
        | none => .error .nullDeref s
        | some (_, nsize, chain) =>
            if n = 0 then .ok [] s
            else match readLoop chain (p % s.baseSize)
                (nsize - p % s.baseSize) n with
              | none => .error .nullDeref s
              | some (bs, _) => .ok bs s := by
  show (if n > s.getReadSize then throw Err.outOfRange else _ :
    BA (List UInt8)) s = _
  split
  · rfl
  · cases derefCur s with
    | none => rfl
    | some r =>
        obtain ⟨i, nsize, chain⟩ := r
        simp only
        split
        · rfl
        · cases readLoop chain (p % s.baseSize) (nsize - p % s.baseSize) n with
          | none => rfl
          | some r => rfl

/-- The loop of `read` ends inside the chain. -/
theorem readLoop_room {chain : List Node} (hc : Chain b chain) {npos : Nat}
    (hnpos : npos < b) {r : List UInt8 × Nat}
    (h : readLoop chain npos (b - npos) n = some r) :
    npos + n ≤ chain.length * b := by
  induction chain generalizing npos n r with
  | nil => cases h
  | cons m ms ih =>
      rw [List.length_cons, Nat.succ_mul]
      rw [readLoop.eq_def] at h
      simp only at h
      split at h
      next hfits => omega
      next hgt =>
        cases ms with
        | nil => cases h
        | cons q qs =>
            obtain ⟨⟨hq, -⟩, -⟩ := hc.cons.2.cons
            obtain ⟨r', hr', -⟩ := Option.map_eq_some_iff.mp h
            rw [hq, ← Nat.sub_zero b] at hr'
            have hrest := ih hc.cons.2 (Nat.zero_lt_of_lt hnpos) hr'
            omega

/-- A read at the offset of `p` in the cursor's node. -/
theorem readAt_cases (hb : 0 < b) (hs : Inv b s) (hn : 0 < n)
    (hle : s.position + n ≤ s.size) :
    (s.startOf p + n ≤ s.capacity
      ∧ readAt n p s = .ok (slice (flat s.root) (s.startOf p) n) s)
    ∨ s.capacity < s.startOf p + n
      ∧ readAt n p s = .error .nullDeref s := by
  have hcap : s.position < s.capacity := by
    have hsize := hs.size_le
    omega
  have hread : ¬ n > s.getReadSize := by
    unfold getReadSize
    omega
  have hi := node_lt hs hcap
  have hlen : (s.root.drop (s.position / b)).length * b
      = s.capacity - s.position / b * b := by
    rw [List.length_drop, Nat.sub_mul, hs.capacity_eq]
  have hnode : s.position / b * b ≤ s.capacity :=
    (Nat.div_mul_le_self _ _).trans hcap.le
  unfold startOf
  rw [readAt_eq, if_neg hread, derefCur_spec hb hs, if_pos hcap, hs.base]
  dsimp only
  rw [if_neg (Nat.ne_of_gt hn)]
  by_cases hroom : p % b + n ≤ (s.root.drop (s.position / b)).length * b
  · rw [readLoop_spec hb (hs.chain.drop _) (Nat.mod_lt p hb) hn hroom,
      slice_drop hs hi.le]
    exact .inl ⟨by omega, rfl⟩
  · cases hloop : readLoop (s.root.drop (s.position / b)) (p % b)
        (b - p % b) n with
    | none => exact .inr ⟨by omega, rfl⟩
    | some r =>
        exact absurd (readLoop_room (hs.chain.drop _) (Nat.mod_lt p hb) hloop)
          hroom

-- =============================================================== the buffers

/-- `getReadBuffersAt`, with the monad unfolded. -/
private theorem getReadBuffersAt_eq (n p : Nat) (s : ByteArray) :
    getReadBuffersAt n p s = if min n s.getReadSize = 0 then .ok (0, []) s
      else if p / s.baseSize > s.root.length then .error .nullDeref s
      else match derefCur s with
        | none => .error .nullDeref s
        | some (_, nsize, _) =>
            match iovLoop (s.root.drop (p / s.baseSize)) (p / s.baseSize)
              (p % s.baseSize) (nsize - p % s.baseSize)
              (min n s.getReadSize) with
            | none => .error .nullDeref s
            | some iovs => .ok (min n s.getReadSize, iovs) s := by
  have hlen : (if n > s.getReadSize then s.getReadSize else n)
      = min n s.getReadSize := by
    split <;> omega
  show (if (if n > s.getReadSize then s.getReadSize else n) = 0
    then pure (0, [])
    else _ : BA (Nat × List Iovec)) s = _
  rw [hlen]
  split
  · rfl
  · split
    · rfl
    · cases derefCur s with
      | none => rfl
      | some r =>
          obtain ⟨i, nsize, chain⟩ := r
          simp only
          cases iovLoop (s.root.drop (p / s.baseSize)) (p / s.baseSize)
            (p % s.baseSize) (nsize - p % s.baseSize)
            (min n s.getReadSize) with
          | none => rfl
          | some iovs => rfl

/-- The length that is returned is that of the cursor. -/
theorem getReadBuffersAt_length {k : Nat} {iovs : List Iovec}
    {s' : ByteArray} (h : getReadBuffersAt n p s = .ok (k, iovs) s') :
    k = min n (s.size - s.position) := by
  rw [getReadBuffersAt_eq] at h
  split at h
  next h0 =>
    cases h
    exact h0.symm
  next =>
    split at h
    next => cases h
    next =>
      split at h
      next => cases h
      next =>
        split at h
        next => cases h
        next =>
          cases h
          rfl

/-- The buffers cover the bytes at `p` when the lengths agree. -/
theorem getReadBuffersAt_ok (hb : 0 < b) (hs : Inv b s)
    (h : min n (s.size - s.position) = min n (s.size - p)) :
    ∃ iovs, getReadBuffersAt n p s = .ok (min n (s.size - p), iovs) s
      ∧ gathered s.root iovs = slice s.bytes p (min n (s.size - p)) := by
  have hsize := hs.size_le
  have hlen : min n s.getReadSize = min n (s.size - p) := h
  rw [getReadBuffersAt_eq, hlen]
  by_cases h0 : min n (s.size - p) = 0
  · rw [if_pos h0, h0]
    exact ⟨[], rfl, List.take_zero.symm⟩
  have hp : p < s.capacity := by omega
  have hcap : s.position < s.capacity := by omega
  have hi := node_lt hs hp
  have hroom : p + min n (s.size - p) ≤ s.root.length * b := by
    rw [← hs.capacity_eq]
    omega
  obtain ⟨iovs, hiovs, hcov⟩ := iovLoop_covers hb (hs.chain.drop _)
    (i := p / b) (Nat.mod_lt p hb) (Nat.pos_of_ne_zero h0)
    ((room_drop hs hp).mpr hroom)
  rw [Nat.div_add_mod'] at hcov
  rw [if_neg h0, hs.base, if_neg (by omega), derefCur_spec hb hs, if_pos hcap]
  dsimp only
  rw [hiovs]
  refine ⟨iovs, rfl, ?_⟩
  unfold bytes
  rw [gathered_covers hs.chain hcov hroom, slice_take (by omega)]

-- ================================================================== together

/-- The read at `p` is that of the stored bytes there. -/
theorem readAt_iff (hb : 0 < b) (hs : Inv b s) :
    (readAt n p s = if p + n ≤ s.size then .ok (slice s.bytes p n) s
      else .error .outOfRange s)
    ↔ (p + n ≤ s.size ↔ s.position + n ≤ s.size)
      ∧ (p + n ≤ s.size → s.position < s.capacity
        ∧ (n = 0 ∨ p / s.baseSize = s.position / s.baseSize
          ∨ s.startOf p + n ≤ s.capacity
            ∧ slice (flat s.root) (s.startOf p) n = slice s.bytes p n)) := by
  have hpos := hs.pos_le
  have hsize := hs.size_le
  by_cases hcur : s.position + n ≤ s.size
  swap
  · -- the check of the source throws
    have hgt : n > s.getReadSize := by
      unfold getReadSize
      omega
    rw [readAt_eq, if_pos hgt]
    by_cases hle : p + n ≤ s.size
    · rw [if_pos hle]
      refine iff_of_false (fun h => ?_) fun h => hcur (h.1.mp hle)
      cases h
    · rw [if_neg hle]
      exact iff_of_true rfl ⟨iff_of_false hle hcur, fun h => absurd h hle⟩
  have hread : ¬ n > s.getReadSize := by
    unfold getReadSize
    omega
  by_cases h0 : n = 0
  · subst h0
    rw [readAt_eq, if_neg hread, derefCur_spec hb hs]
    by_cases hcap : s.position < s.capacity
    · rw [if_pos hcap]
      dsimp only
      rw [if_pos rfl]
      by_cases hle : p + 0 ≤ s.size
      · rw [if_pos hle]
        exact iff_of_true rfl ⟨iff_of_true hle hcur, fun _ => ⟨hcap, .inl rfl⟩⟩
      · rw [if_neg hle]
        refine iff_of_false (fun h => ?_) fun h => hle (h.1.mpr hcur)
        cases h
    · rw [if_neg hcap]
      dsimp only
      refine iff_of_false (fun h => ?_) fun h =>
        hcap (h.2 (h.1.mpr hcur)).1
      split at h <;> cases h
  -- the loop runs from the cursor's node
  have hcap : s.position < s.capacity := by omega
  have hsame : p / s.baseSize = s.position / s.baseSize → p + n ≤ s.size →
      s.startOf p + n ≤ s.capacity
        ∧ slice (flat s.root) (s.startOf p) n = slice s.bytes p n := by
    intro hnode hle
    have hstart : s.startOf p = p := by
      unfold startOf
      rw [← hnode]
      exact Nat.div_add_mod' p s.baseSize
    unfold bytes
    rw [hstart, slice_take hle]
    exact ⟨by omega, rfl⟩
  rcases readAt_cases (p := p) hb hs (Nat.pos_of_ne_zero h0) hcur with
    ⟨hroom, hrun⟩ | ⟨hroom, hrun⟩
  · rw [hrun]
    by_cases hle : p + n ≤ s.size
    · rw [if_pos hle]
      constructor
      · intro h
        injection h with hbytes
        exact ⟨iff_of_true hle hcur, fun _ =>
          ⟨hcap, .inr (.inr ⟨hroom, hbytes⟩)⟩⟩
      · intro h
        rcases (h.2 hle).2 with hn | hnode | hbytes
        · exact absurd hn h0
        · rw [(hsame hnode hle).2]
        · rw [hbytes.2]
    · rw [if_neg hle]
      refine iff_of_false (fun h => ?_) fun h => hle (h.1.mpr hcur)
      cases h
  · rw [hrun]
    refine iff_of_false (fun h => ?_) fun h => ?_
    · split at h <;> cases h
    · have hle := h.1.mpr hcur
      rcases (h.2 hle).2 with hn | hnode | hbytes
      · exact h0 hn
      · have hin := (hsame hnode hle).1
        omega
      · omega

/-- Access at a position is independent of the cursor exactly when the
bytes there are seen from the cursor. -/
theorem positional_access_iff (hb : 1 ≤ b) (h : Reachable host b s) :
    PositionalAccess s n p ↔ SameView s n p := by
  have hs := h.inv host hb
  constructor
  · intro haccess
    obtain ⟨iovs, hrun, -⟩ := haccess.buffers
    obtain ⟨hcheck, hnode⟩ := (readAt_iff hb hs).mp haccess.read
    exact ⟨(getReadBuffersAt_length hrun).symm, hcheck, hnode⟩
  · intro hview
    exact ⟨(readAt_iff hb hs).mpr ⟨hview.check, hview.node⟩,
      getReadBuffersAt_ok hb hs hview.left⟩

/-- Three bytes in nodes of two, with the cursor on the second. -/
def threeBytes : ByteArray where
  baseSize := 2
  position := 1
  capacity := 4
  size := 3
  endian := .big
  root := [⟨2, [1, 2]⟩, ⟨2, [3, 0]⟩]
  cur := some 0
  heap := fun _ => 0

theorem reachable_threeBytes :
    Reachable ⟨.little, 100, fun _ => 0⟩ 2 threeBytes := by
  have hrun : run ⟨.little, 100, fun _ => 0⟩ 2 (fun _ => 0)
      [.write [1, 2], .write [3], .setPosition 1] = some threeBytes := rfl
  exact reachable_run _ hrun

/-- The byte before the cursor is in its node. -/
theorem positional_access_iff_same_node : PositionalAccess threeBytes 1 0 := by
  refine (positional_access_iff (by decide) reachable_threeBytes).mpr
    ⟨rfl, by decide, fun _ => ⟨by decide, ?_⟩⟩
  exact .inr (.inl rfl)

/-- The byte at position 2 is asked for, and the one at 0 is returned; and
of the three bytes from 0 on two are covered, and none is read. -/
theorem positional_access_misses :
    ∃ iovs, Reachable ⟨.little, 100, fun _ => 0⟩ 2 threeBytes
      ∧ threeBytes.bytes = [1, 2, 3]
      ∧ readAt 1 2 threeBytes = .ok [1] threeBytes
      ∧ readAt 3 0 threeBytes = .error .outOfRange threeBytes
      ∧ getReadBuffersAt 3 0 threeBytes = .ok (2, iovs) threeBytes :=
  ⟨_, reachable_threeBytes, rfl, rfl, rfl, rfl⟩

end TinyServer.ByteArray
