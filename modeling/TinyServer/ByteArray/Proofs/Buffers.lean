/-
The zero-copy paths against `read` and `write`.

`getReadBuffers` lays `iovec`s over the same places that `read` fetches
and `toString` copies (`read_paths_agree`). `getWriteBuffers`, a foreign
fill and `setPosition` store what `write` stores, as long as the array
grows for it; but `write(data, r)` makes room for `r` bytes of its own,
and that growth can fall short where the one by `n ≥ r` did not
(`scatter_eq_write_iff`).
-/
import TinyServer.ByteArray.Proofs.Positional

namespace TinyServer.ByteArray

open Lib

variable {b n : Nat} {host : Host} {s : ByteArray} {data : List UInt8}

-- ================================================================ the output

/-- `getReadBuffers`, with the monad unfolded. -/
private theorem getReadBuffers_eq (n : Nat) (s : ByteArray) :
    getReadBuffers n s = if min n s.getReadSize = 0 then .ok (0, []) s
      else match derefCur s with
        | none => .error .nullDeref s
        | some (i, nsize, chain) =>
            match iovLoop chain i (s.position % s.baseSize)
              (nsize - s.position % s.baseSize) (min n s.getReadSize) with
            | none => .error .nullDeref s
            | some iovs => .ok (min n s.getReadSize, iovs) s := by
  have hlen : (if n > s.getReadSize then s.getReadSize else n)
      = min n s.getReadSize := by
    split <;> omega
  show (if (if n > s.getReadSize then s.getReadSize else n) = 0
    then pure (0, [])
    else _ : BA (Nat × List Iovec)) s = _
  rw [hlen]
  split
  · rfl
  · cases derefCur s with
    | none => rfl
    | some r =>
        obtain ⟨i, nsize, chain⟩ := r
        simp only
        cases iovLoop chain i (s.position % s.baseSize)
          (nsize - s.position % s.baseSize) (min n s.getReadSize) with
        | none => rfl
        | some iovs => rfl

/-- `getReadBuffers` returns `iovec`s over the unread places, up to `n`. -/
theorem getReadBuffers_spec (hb : 0 < b) (hs : Inv b s) (n : Nat) :
    ∃ iovs, getReadBuffers n s = .ok (min n s.getReadSize, iovs) s
      ∧ Covers b s.position (min n s.getReadSize) iovs := by
  have hpos := hs.pos_le
  have hsize := hs.size_le
  rw [getReadBuffers_eq]
  by_cases h0 : min n s.getReadSize = 0
  · rw [if_pos h0, h0]
    exact ⟨[], rfl, rfl⟩
  have hle : min n s.getReadSize ≤ s.size - s.position := Nat.min_le_right _ _
  have hcap : s.position < s.capacity := by omega
  have hroom : s.position + min n s.getReadSize ≤ s.root.length * b := by
    rw [← hs.capacity_eq]
    omega
  obtain ⟨iovs, hiovs, hcov⟩ := iovLoop_covers hb (hs.chain.drop _)
    (i := s.position / b) (Nat.mod_lt s.position hb)
    (Nat.pos_of_ne_zero h0) ((room_drop hs hcap).mpr hroom)
  rw [Nat.div_add_mod'] at hcov
  rw [if_neg h0, derefCur_spec hb hs, if_pos hcap, hs.base]
  dsimp only
  rw [hiovs]
  exact ⟨iovs, rfl, hcov⟩

/-- The first `min(n, getReadSize())` unread bytes, as the three ways of
reading them return them. -/
structure ReadPaths (s : ByteArray) (n : Nat) (bs : List UInt8) : Prop where
  length : bs.length = min n s.getReadSize
  buffers : ∃ iovs, getReadBuffers n s = .ok (min n s.getReadSize, iovs) s
    ∧ gathered s.root iovs = bs
    ∧ ∀ v ∈ iovs, 0 < v.len
      ∧ ∃ m, s.root[v.node]? = some m ∧ v.off + v.len ≤ m.size
  string : ∃ str, toString s = .ok str s
    ∧ str.take (min n s.getReadSize) = bs
  read : ∃ s', read (min n s.getReadSize) s = .ok bs s'

/-- The iovecs, `toString` and `read` deliver the same bytes. -/
theorem read_paths_agree (hb : 1 ≤ b) (h : Reachable host b s)
    (hread : 1 ≤ s.getReadSize) (hn : 1 ≤ n) : ∃ bs, ReadPaths s n bs := by
  have hs := h.inv host hb
  have hpos := hs.pos_le
  have hsize := hs.size_le
  have hlen := length_bytes hs
  have hk : min n s.getReadSize ≤ s.size - s.position := Nat.min_le_right _ _
  have hk0 : 0 < min n s.getReadSize := Nat.lt_min.mpr ⟨hn, hread⟩
  obtain ⟨iovs, hbufs, hcov⟩ := getReadBuffers_spec hb hs n
  have hroom : s.position + min n s.getReadSize ≤ s.root.length * b := by
    rw [← hs.capacity_eq]
    omega
  refine ⟨slice s.bytes s.position (min n s.getReadSize),
    length_slice (by omega), ⟨iovs, hbufs, ?_, fun v hv => ?_⟩,
    ⟨_, toString_spec hb hs, rfl⟩, ?_⟩
  · unfold bytes
    rw [gathered_covers hs.chain hcov hroom, slice_take (by omega)]
  · obtain ⟨-, -, hne, hin⟩ := hcov.le hv
    obtain ⟨m, hm⟩ := hcov.node hroom hv
    refine ⟨hne, m, hm, ?_⟩
    rw [(hs.chain m (List.mem_of_getElem? hm)).1]
    exact hin
  · rcases read_spec hb hs (min n s.getReadSize) with
      ⟨hlt, -⟩ | ⟨h0, -⟩ | ⟨-, -, hrun⟩
    · omega
    · omega
    · exact ⟨_, hrun⟩

/-- Two bytes are left behind the cursor, over a border of nodes. -/
theorem read_paths_agree_three_bytes : ∃ bs, ReadPaths threeBytes 5 bs :=
  read_paths_agree (by decide) reachable_threeBytes (by decide) (by decide)

-- ================================================================= the input

/-- The array with `data` in the nodes under the `iovec`s. -/
def scattered (s : ByteArray) (iovs : List Iovec) (data : List UInt8) :
    ByteArray :=
  { s with root := scatter s.root iovs data }

/-- With enough room laid out, `data` lies behind the cursor, which is not
moved yet. -/
theorem scattered_spec (hb : 0 < b) (hs : Inv b s)
    (hn : Suffices b s.getCurCapacity n) (hdata : data.length ≤ n) :
    ∃ iovs s₁, getWriteBuffers n s = .ok (n, iovs) s₁
      ∧ (iovs.map Iovec.len).sum = n ∧ Inv b (s₁.scattered iovs data)
      ∧ s₁.position = s.position ∧ s₁.size = s.size
      ∧ s.position + n ≤ s₁.capacity
      ∧ (flat (s₁.scattered iovs data).root).take
          (max s.size (s.position + data.length))
        = overlay s.bytes s.position data := by
  obtain ⟨iovs, s₁, hbufs, hadd, hcov⟩ := getWriteBuffers_spec hb hs hn
  obtain ⟨s₁', ns, hadd', hs₁, hroot, hns, hpos₁, hsize₁, hcap₁, -⟩ :=
    addCapacity_spec hb hs n
  rw [hadd] at hadd'
  cases hadd'
  have hposcap := hs.pos_le_capacity
  have hroom : s.position + n ≤ s₁.capacity := by
    have hleft := (suffices_iff hb).mp hn
    rw [hcap₁]
    unfold getCurCapacity at hleft ⊢
    omega
  have hcapeq := hs₁.capacity_eq
  obtain ⟨hc₂, hlen₂, hflat₂⟩ :=
    scatter_covers hs₁.chain hcov (hcapeq ▸ hroom) hdata
  refine ⟨iovs, s₁, hbufs, hcov.sum, ?_, hpos₁, hsize₁, hroom, ?_⟩
  · refine ⟨hs₁.base, hc₂, ?_, ?_, hs₁.pos_le, hs₁.size_le, ?_⟩
    · have hne := List.length_pos_of_ne_nil hs₁.root_ne
      exact List.ne_nil_of_length_pos (by rw [← hlen₂] at hne; exact hne)
    · show s₁.capacity = (scatter s₁.root iovs data).length * b
      rw [hlen₂]
      exact hcapeq
    · show s₁.cur = nodeAt (scatter s₁.root iovs data) (s₁.position / b)
      unfold nodeAt
      rw [hlen₂]
      exact hs₁.cur_eq
  · have hwide : s.position + data.length ≤ (flat s₁.root).length := by
      rw [length_flat hs₁.chain]
      omega
    show (flat (scatter s₁.root iovs data)).take _ = _
    rw [hflat₂, take_overlay hs.pos_le hwide, hroot, take_size_append hs ns]

/-- With enough room laid out, a scattered input writes. -/
theorem scatterInput_spec (hb : 0 < b) (hs : Inv b s)
    (hn : Suffices b s.getCurCapacity n) (hdata : data.length ≤ n) :
    ∃ s', scatterInput n data s = .ok () s' ∧ Wrote b s data s' := by
  obtain ⟨iovs, s₁, hbufs, -, hs₂, hpos₁, hsize₁, hroom, hbytes⟩ :=
    scattered_spec hb hs hn hdata
  have hrun : scatterInput n data s
      = setPosition (s₁.position + data.length) (s₁.scattered iovs data) := by
    unfold scatterInput
    rw [bind_ok hbufs]
    rfl
  have hcap : (s₁.scattered iovs data).capacity = s₁.capacity := rfl
  rcases setPosition_spec hb hs₂ (s₁.position + data.length) with
    ⟨hgt, -⟩ | ⟨-, s₃, hset, hs₃, hpos₃, hsize₃, hroot₃⟩
  · omega
  have hmax : s₃.size = max s.size (s.position + data.length) := by
    rw [hsize₃, ← hsize₁, ← hpos₁]
    rfl
  refine ⟨s₃, hrun.trans hset, hs₃, ?_, hmax, ?_⟩
  · rw [hpos₃, hpos₁]
  · rw [← hbytes, ← hmax, ← hroot₃]
    rfl

/-- Scattering `data` over the `iovec`s for `n` bytes does what `write`
does, and the `iovec`s are `n` different bytes. -/
structure ScatterIsWrite (s : ByteArray) (n : Nat) (data : List UInt8) :
    Prop where
  buffers : ∃ iovs s', getWriteBuffers n s = .ok (n, iovs) s'
    ∧ (iovs.map Iovec.len).sum = n ∧ iovs.Pairwise Apart
  same : ∃ s' s'', scatterInput n data s = .ok () s'
    ∧ write data s = .ok () s'' ∧ s'.bytes = s''.bytes
    ∧ s'.position = s''.position ∧ s'.size = s''.size

/-- Where `addCapacity(n)` provides enough nodes, a scattered input equals
a write exactly when `addCapacity(r)` provides enough nodes for the
write. -/
theorem scatter_eq_write_iff (hb : 1 ≤ b) (h : Reachable host b s)
    (hn : ∃ s', addCapacity n s = .ok () s'
      ∧ n ≤ s'.capacity - s'.position) (hdata : data.length ≤ n) :
    ScatterIsWrite s n data ↔ Suffices b s.getCurCapacity data.length := by
  have hs := h.inv host hb
  have hsuff : Suffices b s.getCurCapacity n := by
    obtain ⟨s', hadd', hroom⟩ := hn
    obtain ⟨s₁, ns, hadd, -, -, -, hpos₁, -, hcap₁, -⟩ :=
      addCapacity_spec hb hs n
    rw [hadd] at hadd'
    cases hadd'
    have hle := hs.pos_le_capacity
    rw [suffices_iff hb]
    unfold getCurCapacity at hcap₁ ⊢
    omega
  rcases write_spec hb hs data with
    ⟨hno, s', hrun⟩ | ⟨hyes, s'', hrun, hwrote, -⟩
  · refine iff_of_false (fun hsame => ?_) hno
    obtain ⟨-, s₂, -, hrun₂, -⟩ := hsame.same
    rw [hrun] at hrun₂
    cases hrun₂
  · refine iff_of_true ?_ hyes
    obtain ⟨iovs, s₁, hbufs, -, hcov⟩ := getWriteBuffers_spec hb hs hsuff
    obtain ⟨s', hrun', hwrote'⟩ := scatterInput_spec hb hs hsuff hdata
    refine ⟨⟨iovs, s₁, hbufs, hcov.sum, hcov.pairwise⟩, s', s'', hrun', hrun,
      ?_, ?_, ?_⟩
    · rw [hwrote'.bytes, hwrote.bytes]
    · rw [hwrote'.position, hwrote.position]
    · rw [hwrote'.size, hwrote.size]

/-- Two bytes arrive in room for five. -/
theorem scatter_eq_write_iff_three_bytes : ScatterIsWrite threeBytes 5 [7, 8] :=
  (scatter_eq_write_iff (by decide) reachable_threeBytes
    ⟨_, rfl, by decide⟩ (by decide)).mpr (by decide)

/-- There is room for five bytes after `addCapacity(5)`, and four are
stored through the `iovec`s; but `write` of the four dies. -/
theorem scatter_outlives_write :
    Reachable ⟨.little, 100, fun _ => 0⟩ 2 threeBytes
      ∧ (∃ s', addCapacity 5 threeBytes = .ok () s'
        ∧ 5 ≤ s'.capacity - s'.position)
      ∧ (∃ s', scatterInput 5 [7, 8, 9, 10] threeBytes = .ok () s')
      ∧ (∃ s', write [7, 8, 9, 10] threeBytes = .error .nullDeref s')
      ∧ ¬ ScatterIsWrite threeBytes 5 [7, 8, 9, 10] := by
  have hdies : ∃ s', write [7, 8, 9, 10] threeBytes
      = .error .nullDeref s' := ⟨_, rfl⟩
  refine ⟨reachable_threeBytes, ⟨_, rfl, by decide⟩, ⟨_, rfl⟩, hdies,
    fun hsame => ?_⟩
  obtain ⟨s', hwrite⟩ := hdies
  obtain ⟨-, s'', -, hok, -⟩ := hsame.same
  rw [hwrite] at hok
  cases hok

end TinyServer.ByteArray
