/-
Growth of the chain, and the `iovec`s that are laid over it.

`addCapacity(n)` appends `n - left` bytes rounded to whole nodes, but it
rounds up only when the remainder is greater than `left`, the capacity
that was left. `Suffices` is the exact condition under which the nodes
hold what is missing; outside of it `write` and `getWriteBuffers` step
past the last node (`growth_suffices_iff`).
-/
import TinyServer.ByteArray.Proofs.Iovecs
import TinyServer.ByteArray.Proofs.Runs

namespace TinyServer.ByteArray

open Lib

variable {b : Nat} {host : Host} {s : ByteArray}

-- ================================================================ the iovecs

/-- `getWriteBuffers` after a growth, with the monad unfolded. -/
private theorem getWriteBuffers_eq {s₁ : ByteArray} {n : Nat} (hn : n ≠ 0)
    (hadd : addCapacity n s = .ok () s₁) :
    getWriteBuffers n s = match derefCur s₁ with
      | none => .error .nullDeref s₁
      | some (i, nsize, chain) =>
          match iovLoop chain i (s₁.position % s₁.baseSize)
            (nsize - s₁.position % s₁.baseSize) n with
          | none => .error .nullDeref s₁
          | some iovs => .ok (n, iovs) s₁ := by
  unfold getWriteBuffers
  rw [if_neg hn, bind_ok hadd]
  show (match derefCur s₁ with
    | none => throw Err.nullDeref
    | some (i, nsize, chain) => _ : BA (Nat × List Iovec)) s₁ = _
  cases derefCur s₁ with
  | none => rfl
  | some r =>
      obtain ⟨i, nsize, chain⟩ := r
      simp only
      cases iovLoop chain i (s₁.position % s₁.baseSize)
        (nsize - s₁.position % s₁.baseSize) n with
      | none => rfl
      | some iovs => rfl

/-- When the growth suffices, `getWriteBuffers` returns `iovec`s over the
places from the cursor on, and does nothing else. -/
theorem getWriteBuffers_spec (hb : 0 < b) (hs : Inv b s) {n : Nat}
    (h : Suffices b s.getCurCapacity n) :
    ∃ iovs s', getWriteBuffers n s = .ok (n, iovs) s'
      ∧ addCapacity n s = .ok () s' ∧ Covers b s.position n iovs := by
  by_cases h0 : n = 0
  · subst h0
    exact ⟨[], s, rfl, rfl, rfl⟩
  obtain ⟨s₁, ns, hadd, hs₁, -, -, hpos₁, -, hcap₁, -⟩ :=
    addCapacity_spec hb hs n
  have hle := hs.pos_le_capacity
  have hroom : s₁.position + n ≤ s₁.capacity := by
    have hleft := (suffices_iff hb).mp h
    unfold getCurCapacity at hleft hcap₁
    omega
  have hcap : s₁.position < s₁.capacity := by omega
  rw [hs₁.capacity_eq] at hroom
  obtain ⟨iovs, hiovs, hcov⟩ := iovLoop_covers hb (hs₁.chain.drop _)
    (i := s₁.position / b) (Nat.mod_lt s₁.position hb) (Nat.pos_of_ne_zero h0)
    ((room_drop hs₁ hcap).mpr hroom)
  rw [Nat.div_add_mod', hpos₁] at hcov
  rw [getWriteBuffers_eq h0 hadd, derefCur_spec hb hs₁, if_pos hcap, hs₁.base]
  dsimp only
  rw [hiovs]
  exact ⟨iovs, s₁, rfl, hadd, hcov⟩

-- ================================================================ the growth

/-- After `addCapacity(n)` there is room for `n` bytes, and neither of its
two callers steps past the last node. -/
structure Grows (s : ByteArray) (n : Nat) : Prop where
  room : ∃ s', addCapacity n s = .ok () s' ∧ n ≤ s'.capacity - s'.position
  write : ∀ buf : List UInt8, buf.length = n → ∃ s', write buf s = .ok () s'
  buffers : ∃ r s', getWriteBuffers n s = .ok r s'

/-- The growth by `n` bytes suffices exactly when they are there already,
or what is missing leaves the remainder 0 by the base size, or one that is
greater than the capacity that was left. -/
theorem growth_suffices_iff {n : Nat} (hb : 1 ≤ b) (h : Reachable host b s)
    (hn : 1 ≤ n) : Grows s n ↔ Suffices b s.getCurCapacity n := by
  have hs := h.inv host hb
  have hle := hs.pos_le_capacity
  obtain ⟨s₁, ns, hadd, hs₁, -, -, hpos₁, -, hcap₁, -⟩ :=
    addCapacity_spec hb hs n
  have hroom : Suffices b s.getCurCapacity n
      ↔ n ≤ s₁.capacity - s₁.position := by
    rw [suffices_iff hb, hcap₁, hpos₁]
    unfold getCurCapacity
    omega
  constructor
  · intro hgrows
    obtain ⟨s', hadd', hcap⟩ := hgrows.room
    rw [hadd] at hadd'
    cases hadd'
    exact hroom.mpr hcap
  · intro hsuff
    obtain ⟨iovs, s', hbufs, -⟩ := getWriteBuffers_spec hb hs hsuff
    refine ⟨⟨s₁, hadd, hroom.mp hsuff⟩, fun buf hbuf => ?_, ⟨_, s', hbufs⟩⟩
    subst hbuf
    rcases write_spec hb hs buf with ⟨hno, -⟩ | ⟨-, s', hrun, -⟩
    · exact absurd hsuff hno
    · exact ⟨s', hrun⟩

/-- A new array of base size 4 grows to eight bytes. -/
theorem growth_suffices_iff_two_nodes :
    Grows (ByteArray.new 4 fun _ => 0) 8 := by
  have hnew : Reachable ⟨.little, 100, fun _ => 0⟩ 4
      (ByteArray.new 4 fun _ => 0) := .new _
  exact (growth_suffices_iff (by decide) hnew (by decide)).mpr (by decide)

/-- With three bytes left of four, no node is added for five. -/
theorem growth_falls_short :
    ∃ s s', Reachable ⟨.little, 100, fun _ => 0⟩ 4 s
      ∧ addCapacity 5 s = .ok () s ∧ s.capacity - s.position = 3
      ∧ write [1, 2, 3, 4, 5] s = .error .nullDeref s' := by
  have hrun : run ⟨.little, 100, fun _ => 0⟩ 4 (fun _ => 0) [.write [1]]
      = some _ := rfl
  exact ⟨_, _, reachable_run _ hrun, rfl, rfl, rfl⟩

end TinyServer.ByteArray
