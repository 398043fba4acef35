/-
The `iovec`s cover a run of places of the chain.

A builder lays down one `iovec` per node, each where the one before it
ended, so of the flat contents they cover `n` places from some `p` on:
`Covers b p n`. What is gathered through them is then the slice there,
what is scattered over them is an overlay there, and no place is covered
twice.
-/
import TinyServer.ByteArray.Iovecs
import TinyServer.ByteArray.Proofs.Inv

namespace TinyServer.ByteArray

open Lib

variable {b : Nat}

/-- In nodes of size `b`, the `iovec`s cover the `n` places from `p` on,
in order; each has at least one and stays in its node. -/
def Covers (b : Nat) : (p n : Nat) → List Iovec → Prop
  | _, n, [] => n = 0
  | p, n, v :: vs => v.node * b + v.off = p ∧ v.off + v.len ≤ b
      ∧ 0 < v.len ∧ v.len ≤ n ∧ Covers b (p + v.len) (n - v.len) vs

/-- The two `iovec`s have no byte in common. -/
def Apart (v w : Iovec) : Prop :=
  v.node ≠ w.node ∨ v.off + v.len ≤ w.off ∨ w.off + w.len ≤ v.off

-- ================================================================= the loop

/-- The loop of the iovec builders from node `i` on covers the places that
`read` would fetch there. -/
theorem iovLoop_covers (hb : 0 < b) {chain : List Node}
    (hc : Chain b chain) {i npos len : Nat} (hnpos : npos < b)
    (hlen : 0 < len) (hle : npos + len ≤ chain.length * b) :
    ∃ iovs, iovLoop chain i npos (b - npos) len = some iovs
      ∧ Covers b (i * b + npos) len iovs := by
  induction chain generalizing i npos len with
  | nil =>
      rw [List.length_nil, Nat.zero_mul] at hle
      omega
  | cons n ns ih =>
      obtain ⟨-, hns⟩ := hc.cons
      rw [iovLoop.eq_def]
      simp only
      split
      next hfits =>
        refine ⟨_, rfl, rfl, ?_, hlen, Nat.le_refl _, Nat.sub_self _⟩
        show npos + len ≤ b
        omega
      next hgt =>
        rw [List.length_cons, Nat.succ_mul] at hle
        cases ns with
        | nil =>
            rw [List.length_nil, Nat.zero_mul] at hle
            omega
        | cons m ms =>
            have hleft : 0 < len - (b - npos) := by omega
            obtain ⟨iovs, hiovs, hcov⟩ := ih hns (i := i + 1) hb hleft
              (by omega)
            rw [Nat.sub_zero] at hiovs
            dsimp only
            rw [hns.cons.1.1, hiovs]
            refine ⟨_, rfl, rfl, ?_, ?_, ?_, ?_⟩
            · show npos + (b - npos) ≤ b
              omega
            · show 0 < b - npos
              omega
            · show b - npos ≤ len
              omega
            · have hnext : i * b + npos + (b - npos) = (i + 1) * b + 0 := by
                rw [Nat.succ_mul]
                omega
              rw [hnext]
              exact hcov

-- ============================================================ what is covered

/-- Everything that is covered lies behind the first place. -/
theorem Covers.le {p n : Nat} {iovs : List Iovec} (h : Covers b p n iovs)
    {v : Iovec} (hv : v ∈ iovs) :
    p ≤ v.node * b + v.off ∧ v.node * b + v.off + v.len ≤ p + n
      ∧ 0 < v.len ∧ v.off + v.len ≤ b := by
  induction iovs generalizing p n with
  | nil => cases hv
  | cons w ws ih =>
      obtain ⟨hp, hin, hpos, hle, hws⟩ := h
      rcases List.mem_cons.mp hv with rfl | hv
      · exact ⟨by omega, by omega, hpos, hin⟩
      · obtain ⟨h1, h2, h3⟩ := ih hws hv
        exact ⟨by omega, by omega, h3⟩

theorem Covers.sum {p n : Nat} {iovs : List Iovec} (h : Covers b p n iovs) :
    (iovs.map Iovec.len).sum = n := by
  induction iovs generalizing p n with
  | nil => exact h.symm
  | cons w ws ih =>
      obtain ⟨-, -, -, hle, hws⟩ := h
      rw [List.map_cons, List.sum_cons, ih hws]
      omega

theorem Covers.pairwise {p n : Nat} {iovs : List Iovec}
    (h : Covers b p n iovs) : iovs.Pairwise Apart := by
  induction iovs generalizing p n with
  | nil => exact List.Pairwise.nil
  | cons w ws ih =>
      obtain ⟨hp, -, -, -, hws⟩ := h
      refine List.Pairwise.cons (fun v hv => ?_) (ih hws)
      obtain ⟨hle, -⟩ := hws.le hv
      by_cases hnode : w.node = v.node
      · rw [← hnode] at hle
        exact .inr (.inl (by omega))
      · exact .inl hnode

/-- A covered place lies in a node of the chain. -/
theorem Covers.node {root : List Node} {p n : Nat} {iovs : List Iovec}
    (h : Covers b p n iovs) (hroom : p + n ≤ root.length * b) {v : Iovec}
    (hv : v ∈ iovs) : ∃ m, root[v.node]? = some m := by
  obtain ⟨-, hle, hpos, -⟩ := h.le hv
  have hlt : v.node < root.length := by
    by_contra hge
    have hmul := Nat.mul_le_mul_right b (Nat.le_of_not_lt hge)
    omega
  exact ⟨_, List.getElem?_eq_getElem hlt⟩

-- ========================================================== gather, scatter

/-- The contents around the node `i`. -/
private theorem flat_around {root : List Node} (hc : Chain b root) {i : Nat}
    {m : Node} (hm : root[i]? = some m) :
    flat root = flat (root.take i) ++ (m.ptr ++ flat (root.drop (i + 1)))
      ∧ (flat (root.take i)).length = i * b ∧ m.ptr.length = b := by
  obtain ⟨hi, rfl⟩ := List.getElem?_eq_some_iff.mp hm
  refine ⟨?_, ?_, (hc _ (List.getElem_mem hi)).2⟩
  · rw [← flat_cons, ← List.drop_eq_getElem_cons hi, flat_take_drop]
  · rw [length_flat (hc.take i), List.length_take, Nat.min_eq_left hi.le]

/-- What is gathered through the `iovec`s is the slice they cover. -/
theorem gathered_covers {root : List Node} (hc : Chain b root) {p n : Nat}
    {iovs : List Iovec} (h : Covers b p n iovs)
    (hroom : p + n ≤ root.length * b) :
    gathered root iovs = slice (flat root) p n := by
  induction iovs generalizing p n with
  | nil =>
      obtain rfl : n = 0 := h
      exact List.take_zero.symm
  | cons v vs ih =>
      obtain ⟨m, hm⟩ := h.node hroom List.mem_cons_self
      obtain ⟨hp, hin, -, hle, hvs⟩ := h
      obtain ⟨hflat, hbefore, hptr⟩ := flat_around hc hm
      have hfirst : slice (flat root) p v.len = slice m.ptr v.off v.len := by
        rw [hflat, ← hp, ← hbefore, slice_append_right,
          slice_append_left (by omega)]
      have hrest := ih hvs (by omega)
      unfold gathered at hrest ⊢
      rw [List.flatMap_cons, hrest, hm, Option.map_some, Option.getD_some,
        ← hfirst, ← slice_add, Nat.add_sub_cancel' hle]

/-- A store through an `iovec` is an overlay of the flat contents. -/
theorem storeAt_spec {root : List Node} (hc : Chain b root) {v : Iovec}
    {m : Node} (hm : root[v.node]? = some m) {data : List UInt8}
    (hin : v.off + data.length ≤ b) :
    Chain b (storeAt root v data)
      ∧ (storeAt root v data).length = root.length
      ∧ flat (storeAt root v data)
        = overlay (flat root) (v.node * b + v.off) data := by
  obtain ⟨hflat, hbefore, hptr⟩ := flat_around hc hm
  obtain ⟨hi, hget⟩ := List.getElem?_eq_some_iff.mp hm
  obtain ⟨hsz, -⟩ := hc m (List.mem_of_getElem? hm)
  unfold storeAt
  rw [hm]
  dsimp only
  refine ⟨fun q hq => ?_, List.length_set, ?_⟩
  · rcases List.mem_or_eq_of_mem_set hq with hq | rfl
    · exact hc q hq
    · refine ⟨hsz, ?_⟩
      rw [length_overlay_of_le (by omega)]
      exact hptr
  · rw [List.set_eq_take_append_cons_drop, if_pos hi, flat_append, flat_cons,
      hflat, ← hbefore, overlay_append_right, overlay_append_left (by omega)]

/-- What is scattered over the `iovec`s is an overlay of the flat contents
where they begin. -/
theorem scatter_covers {root : List Node} (hc : Chain b root) {p n : Nat}
    {iovs : List Iovec} (h : Covers b p n iovs)
    (hroom : p + n ≤ root.length * b) {data : List UInt8}
    (hdata : data.length ≤ n) :
    Chain b (scatter root iovs data)
      ∧ (scatter root iovs data).length = root.length
      ∧ flat (scatter root iovs data) = overlay (flat root) p data := by
  induction iovs generalizing root p n data with
  | nil =>
      obtain rfl : n = 0 := h
      obtain rfl := List.eq_nil_of_length_eq_zero (Nat.le_zero.mp hdata)
      refine ⟨hc, rfl, ?_⟩
      simp [overlay, scatter]
  | cons v vs ih =>
      obtain ⟨m, hm⟩ := h.node hroom List.mem_cons_self
      obtain ⟨hp, hin, -, hle, hvs⟩ := h
      have htake : (data.take v.len).length = min v.len data.length :=
        List.length_take
      have hdrop : (data.drop v.len).length = data.length - v.len :=
        List.length_drop
      have hfits : v.off + (data.take v.len).length ≤ b := by omega
      have hleft : (data.drop v.len).length ≤ n - v.len := by omega
      obtain ⟨hc₁, hlen₁, hflat₁⟩ := storeAt_spec hc hm hfits
      obtain ⟨hc₂, hlen₂, hflat₂⟩ := ih hc₁ hvs (by rw [hlen₁]; omega) hleft
      refine ⟨hc₂, hlen₂.trans hlen₁, ?_⟩
      show flat (scatter (storeAt root v _) vs _) = _
      rw [hflat₂, hflat₁, hp]
      have hin' : p ≤ (flat root).length := by
        rw [length_flat hc]
        omega
      by_cases hshort : data.length ≤ v.len
      · -- the data ends in this `iovec`: nothing is left for the others
        rw [List.take_of_length_le hshort, List.drop_of_length_le hshort]
        simp [overlay]
      · have hfull : v.len = (data.take v.len).length := by omega
        nth_rewrite 2 [hfull]
        rw [overlay_overlay hin', List.take_append_drop]

end TinyServer.ByteArray
