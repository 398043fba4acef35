/-
The representation invariant of `ByteArray` and the specification of
each untyped operation in terms of it.

# What a step does

`Inv b s` says that the chain is `capacity / b` nodes of size `b`, that
`position ≤ size ≤ capacity`, and that `m_cur` is the node at index
`position / b`. Under it the three copy loops are arithmetic on the flat
contents `flat root`: writing is `overlay` at `npos`, reading is `slice`
at `npos`, and the number of `m_cur = m_cur->next` steps is
`(npos + n) / b`. All boundary cases of the source (a copy that ends
exactly at a node border, `setPosition` to a border, growth from a full
chain) are the single fact that `i * b + npos` and the step count add up
to `(position + n) / b`.

Each operation has one lemma that says what it returns and which state
it leaves; the invariant of whole runs and the refinement of the flat
byte vector both read off these lemmas. `addCapacity` may provide too few
nodes, and then `write` and `getWriteBuffers` run into the null node at
the end of the chain: `Suffices` says when it does not.
-/
import TinyServer.ByteArray.Typed
import TinyServer.Lib.Keeps

namespace TinyServer.ByteArray

open Lib

variable {b : Nat}

-- ============================================================ the invariant

/-- A chain of nodes of size `b`, each with a full buffer. -/
def Chain (b : Nat) (chain : List Node) : Prop :=
  ∀ n ∈ chain, n.size = b ∧ n.ptr.length = b

/-- The representation invariant for base size `b`. -/
structure Inv (b : Nat) (s : ByteArray) : Prop where
  base : s.baseSize = b
  chain : Chain b s.root
  root_ne : s.root ≠ []
  capacity_eq : s.capacity = s.root.length * b
  pos_le : s.position ≤ s.size
  size_le : s.size ≤ s.capacity
  cur_eq : s.cur = nodeAt s.root (s.position / b)

/-- The stored bytes: what lies below `m_size`. -/
def bytes (s : ByteArray) : List UInt8 :=
  (flat s.root).take s.size

-- ============================================================ chain algebra

theorem Chain.cons {n : Node} {ns : List Node} (h : Chain b (n :: ns)) :
    (n.size = b ∧ n.ptr.length = b) ∧ Chain b ns :=
  ⟨h n List.mem_cons_self, fun m hm => h m (List.mem_cons_of_mem _ hm)⟩

theorem Chain.append {xs ys : List Node} (hx : Chain b xs)
    (hy : Chain b ys) : Chain b (xs ++ ys) := by
  intro n hn
  rcases List.mem_append.mp hn with h | h
  · exact hx n h
  · exact hy n h

theorem Chain.take {xs : List Node} (h : Chain b xs) (i : Nat) :
    Chain b (xs.take i) :=
  fun n hn => h n (List.mem_of_mem_take hn)

theorem Chain.drop {xs : List Node} (h : Chain b xs) (i : Nat) :
    Chain b (xs.drop i) :=
  fun n hn => h n (List.mem_of_mem_drop hn)

theorem flat_cons (n : Node) (ns : List Node) :
    flat (n :: ns) = n.ptr ++ flat ns := by
  simp [flat]

theorem flat_append (xs ys : List Node) :
    flat (xs ++ ys) = flat xs ++ flat ys := by
  simp [flat]

theorem length_flat {chain : List Node} (h : Chain b chain) :
    (flat chain).length = chain.length * b := by
  induction chain with
  | nil => simp [flat]
  | cons n ns ih =>
      obtain ⟨hn, hns⟩ := h.cons
      rw [flat_cons, List.length_append, hn.2, ih hns, List.length_cons,
        Nat.succ_mul]
      omega

/-- The chain splits at a node border, and so does its contents. -/
theorem flat_take_drop (chain : List Node) (i : Nat) :
    flat (chain.take i) ++ flat (chain.drop i) = flat chain := by
  rw [← flat_append, List.take_append_drop]

theorem length_bytes {s : ByteArray} (hs : Inv b s) :
    (bytes s).length = s.size := by
  unfold bytes
  rw [List.length_take, length_flat hs.chain, ← hs.capacity_eq]
  exact Nat.min_eq_left hs.size_le

/-- Nodes behind the chain do not change the stored bytes. -/
theorem take_size_append {s : ByteArray} (hs : Inv b s) (ns : List Node) :
    (flat (s.root ++ ns)).take s.size = bytes s := by
  have hsize : s.size ≤ (flat s.root).length := by
    rw [length_flat hs.chain, ← hs.capacity_eq]
    exact hs.size_le
  unfold bytes
  rw [flat_append, List.take_append_of_le_length hsize]

theorem Inv.pos_le_bytes {s : ByteArray} (hs : Inv b s) :
    s.position ≤ (bytes s).length := by
  rw [length_bytes hs]
  exact hs.pos_le

theorem Inv.pos_le_capacity {s : ByteArray} (hs : Inv b s) :
    s.position ≤ s.capacity :=
  hs.pos_le.trans hs.size_le

/-- A position below the capacity lies in a node. -/
theorem node_lt {s : ByteArray} (hs : Inv b s) {p : Nat}
    (h : p < s.capacity) : p / b < s.root.length := by
  rw [hs.capacity_eq, Nat.mul_comm] at h
  exact Nat.div_lt_of_lt_mul h

-- =============================================================== the loops

/-- `k` whole nodes and `npos` bytes: the step count of a copy that ends
inside or at the end of its first node. -/
private theorem moves_first {npos n : Nat} (hb : 0 < b) (h : npos + n ≤ b) :
    (if b = npos + n then 1 else 0) = (npos + n) / b := by
  split
  next he => rw [← he, Nat.div_self hb]
  next he => rw [Nat.div_eq_of_lt (by omega)]

/-- The step count of a copy that leaves its first node. -/
private theorem moves_rest {npos n : Nat} (hb : 0 < b) (h : b - npos < n)
    (hnpos : npos < b) :
    (0 + (n - (b - npos))) / b + 1 = (npos + n) / b := by
  rw [show npos + n = 0 + (n - (b - npos)) + b by omega,
    Nat.add_div_right _ hb]

/-- What the loop of `write` does when it does not run off the chain. -/
theorem writeLoop_spec (hb : 0 < b) :
    ∀ {chain : List Node} {npos : Nat} {buf : List UInt8}
      {chain' : List Node} {k : Nat},
      Chain b chain → npos < b →
      writeLoop chain npos (b - npos) buf = some (chain', k) →
      Chain b chain' ∧ chain'.length = chain.length
        ∧ npos + buf.length ≤ chain.length * b
        ∧ flat chain' = overlay (flat chain) npos buf
        ∧ k = (npos + buf.length) / b := by
  intro chain
  induction chain with
  | nil =>
      intro npos buf chain' k _ _ h
      cases h
  | cons n ns ih =>
      intro npos buf chain' k hc hnpos h
      obtain ⟨⟨hsize, hptr⟩, hns⟩ := hc.cons
      rw [writeLoop.eq_def] at h
      simp only at h
      split at h
      next hle =>
        -- the rest of the data fits into this node
        simp only [Option.some.injEq, Prod.mk.injEq] at h
        obtain ⟨rfl, rfl⟩ := h
        have hin : npos + buf.length ≤ n.ptr.length := by omega
        refine ⟨?_, by simp, ?_, ?_, ?_⟩
        · intro m hm
          rcases List.mem_cons.mp hm with rfl | hm
          · exact ⟨hsize, by
              rw [length_overlay_of_le hin]
              exact hptr⟩
          · exact hns m hm
        · rw [List.length_cons, Nat.succ_mul]
          omega
        · rw [flat_cons, flat_cons, overlay_append_left hin]
        · rw [hsize]
          exact moves_first hb (by omega)
      next hgt =>
        cases ns with
        | nil => cases h
        | cons m ms =>
            -- fill this node to its end and go on in the next one
            have hm : m.size = b := hns.cons.1.1
            simp only [Option.map_eq_some_iff, hm] at h
            obtain ⟨⟨rest, k'⟩, hrest, heq⟩ := h
            simp only [Prod.mk.injEq] at heq
            obtain ⟨rfl, rfl⟩ := heq
            rw [← Nat.sub_zero b] at hrest
            rw [show b - 0 - npos = b - npos by omega] at hrest
            obtain ⟨hc', hlen, hroom, hflat, hk⟩ := ih hns hb hrest
            have hfill : (buf.take (b - npos)).length = b - npos := by
              rw [List.length_take]
              omega
            have hdrop : (buf.drop (b - npos)).length
                = buf.length - (b - npos) := List.length_drop
            have hend : npos + (buf.take (b - npos)).length
                = n.ptr.length := by omega
            refine ⟨?_, by simp [hlen], ?_, ?_, ?_⟩
            · intro q hq
              rcases List.mem_cons.mp hq with rfl | hq
              · exact ⟨hsize, by
                  rw [length_overlay_of_le (by omega)]
                  exact hptr⟩
              · exact hc' q hq
            · rw [List.length_cons, Nat.succ_mul]
              omega
            · rw [flat_cons, flat_cons n, hflat,
                ← overlay_append_cross hend, List.take_append_drop]
            · rw [hk, hdrop]
              exact moves_rest hb (by omega) hnpos

/-- The loop of `write` on a chain that has room for the data. -/
theorem writeLoop_fits (hb : 0 < b) :
    ∀ {chain : List Node} {npos : Nat} {buf : List UInt8},
      Chain b chain → npos < b → 0 < buf.length →
      npos + buf.length ≤ chain.length * b →
      ∃ r, writeLoop chain npos (b - npos) buf = some r := by
  intro chain
  induction chain with
  | nil =>
      intro npos buf _ _ hbuf hle
      rw [List.length_nil, Nat.zero_mul] at hle
      omega
  | cons n ns ih =>
      intro npos buf hc hnpos hbuf hle
      obtain ⟨-, hns⟩ := hc.cons
      rw [writeLoop.eq_def]
      simp only
      split
      next => exact ⟨_, rfl⟩
      next hgt =>
        rw [List.length_cons, Nat.succ_mul] at hle
        cases ns with
        | nil =>
            rw [List.length_nil, Nat.zero_mul] at hle
            omega
        | cons m ms =>
            have hm : m.size = b := hns.cons.1.1
            have hdrop : (buf.drop (b - npos)).length
                = buf.length - (b - npos) := List.length_drop
            obtain ⟨r, hr⟩ := @ih 0 (buf.drop (b - npos)) hns hb (by omega)
              (by omega)
            rw [Nat.sub_zero] at hr
            simp only [hm, hr, Option.map_some]
            exact ⟨_, rfl⟩

/-- The loop of `read` on a chain that holds the requested bytes. -/
theorem readLoop_spec (hb : 0 < b) :
    ∀ {chain : List Node} {npos n : Nat},
      Chain b chain → npos < b → 0 < n → npos + n ≤ chain.length * b →
      readLoop chain npos (b - npos) n
        = some (slice (flat chain) npos n, (npos + n) / b) := by
  intro chain
  induction chain with
  | nil =>
      intro npos n _ _ hn hle
      simp only [List.length_nil, Nat.zero_mul] at hle
      omega
  | cons m ms ih =>
      intro npos n hc hnpos hn hle
      obtain ⟨⟨hsize, hptr⟩, hms⟩ := hc.cons
      rw [readLoop.eq_def]
      simp only
      split
      next hfits =>
        rw [flat_cons, slice_append_left (by omega), hsize,
          moves_first hb (by omega)]
      next hgt =>
        rw [List.length_cons, Nat.succ_mul] at hle
        cases ms with
        | nil =>
            simp only [List.length_nil, Nat.zero_mul] at hle
            omega
        | cons q qs =>
            have hq : q.size = b := hms.cons.1.1
            have hrest := @ih 0 (n - (b - npos)) hms hb (by omega)
              (by omega)
            rw [Nat.sub_zero] at hrest
            simp only [hq, hrest, Option.map_some]
            rw [moves_rest hb (by omega) hnpos, flat_cons m,
              ← slice_append_cross (by omega : npos + (b - npos)
                = m.ptr.length),
              show b - npos + (n - (b - npos)) = n by omega]

/-- The walk of `setPosition` ends at node `pos / b`. -/
theorem seek_spec (hb : 0 < b) :
    ∀ {chain : List Node} {pos : Nat}, Chain b chain → chain ≠ [] →
      pos ≤ chain.length * b → seek chain pos = some (pos / b) := by
  intro chain
  induction chain with
  | nil =>
      intro pos _ hne _
      exact absurd rfl hne
  | cons n ns ih =>
      intro pos hc _ hle
      obtain ⟨⟨hsize, -⟩, hns⟩ := hc.cons
      rw [List.length_cons, Nat.succ_mul] at hle
      unfold seek
      rw [hsize]
      split
      next hgt =>
        have hne : ns ≠ [] := by
          intro heq
          subst heq
          simp only [List.length_nil, Nat.zero_mul] at hle
          omega
        rw [ih hns hne (by omega), Option.map_some]
        rw [show pos = pos - b + b by omega, Nat.add_div_right _ hb,
          show pos - b + b - b = pos - b by omega]
      next =>
        split
        next he => rw [he, Nat.div_self hb]
        next => rw [Nat.div_eq_of_lt (by omega)]

-- ================================================================ growth

theorem newNodes_chain (b : Nat) :
    ∀ (count : Nat) (heap : Nat → UInt8), Chain b (newNodes b heap count).1
  | 0, _ => fun n hn => absurd hn (by simp [newNodes])
  | count + 1, heap => by
      intro n hn
      simp only [newNodes, List.mem_cons] at hn
      rcases hn with rfl | hn
      · exact ⟨rfl, by simp [Node.new]⟩
      · exact newNodes_chain b count _ n hn

theorem length_newNodes (b : Nat) :
    ∀ (count : Nat) (heap : Nat → UInt8),
      (newNodes b heap count).1.length = count
  | 0, _ => rfl
  | count + 1, heap => by
      simp only [newNodes, List.length_cons]
      rw [length_newNodes b count]

/-- A node pointer survives the growth of the chain behind it. -/
private theorem nodeAt_append {xs ys : List Node} {i : Nat}
    (h : i < xs.length) : nodeAt (xs ++ ys) i = nodeAt xs i := by
  simp only [nodeAt, List.length_append]
  rw [if_pos h, if_pos (by omega)]

/-- Growing a full chain by at least one byte adds at least one node. -/
private theorem count_pos (hb : 0 < b) (size : Nat) (hsize : 0 < size) :
    0 < size / b + (if size % b > 0 then 1 else 0) := by
  by_cases hlt : size < b
  · rw [Nat.mod_eq_of_lt hlt, if_pos hsize]
    exact Nat.succ_pos _
  · have := Nat.div_pos (Nat.le_of_not_lt hlt) hb
    omega

/-- How many nodes `addCapacity(n)` appends when `left` bytes of the
capacity are left. -/
def growCount (b left n : Nat) : Nat :=
  if n ≤ left then 0
  else (n - left) / b + if (n - left) % b > left then 1 else 0

/-- The nodes that `addCapacity(n)` appends hold the bytes that are
missing. The source compares the remainder with `left`, and not with 0. -/
def Suffices (b left n : Nat) : Prop :=
  n ≤ left ∨ (n - left) % b = 0 ∨ left < (n - left) % b

instance (b left n : Nat) : Decidable (Suffices b left n) :=
  inferInstanceAs (Decidable (_ ∨ _))

theorem suffices_iff (hb : 0 < b) {left n : Nat} :
    Suffices b left n ↔ n ≤ left + growCount b left n * b := by
  have hdiv := Nat.div_add_mod' (n - left) b
  have hmod := Nat.mod_lt (n - left) hb
  unfold Suffices growCount
  by_cases hle : n ≤ left
  · rw [if_pos hle]
    omega
  rw [if_neg hle]
  by_cases hgt : (n - left) % b > left
  · rw [if_pos hgt, Nat.add_mul, Nat.one_mul]
    omega
  · rw [if_neg hgt, Nat.add_zero]
    omega

/-- `addCapacity` returns, appends nodes to the chain, and moves nothing
but a null cursor. -/
theorem addCapacity_spec (hb : 0 < b) {s : ByteArray} (hs : Inv b s)
    (n : Nat) :
    ∃ s' ns, addCapacity n s = .ok () s' ∧ Inv b s'
      ∧ s'.root = s.root ++ ns ∧ Chain b ns
      ∧ s'.position = s.position ∧ s'.size = s.size
      ∧ s'.capacity = s.capacity + growCount b s.getCurCapacity n * b
      ∧ s'.endian = s.endian := by
  have hsame : n ≤ s.getCurCapacity →
      s.capacity = s.capacity + growCount b s.getCurCapacity n * b := by
    intro hle
    unfold growCount
    rw [if_pos hle, Nat.zero_mul, Nat.add_zero]
  unfold addCapacity
  by_cases hn : n = 0
  · rw [if_pos hn]
    exact ⟨s, [], rfl, hs, by simp, fun _ h => absurd h (by simp), rfl, rfl,
      hsame (hn ▸ Nat.zero_le _), rfl⟩
  rw [if_neg hn]
  by_cases hcap : s.getCurCapacity ≥ n
  · simp only [if_pos hcap]
    exact ⟨s, [], rfl, hs, by simp, fun _ h => absurd h (by simp), rfl, rfl,
      hsame hcap, rfl⟩
  simp only [if_neg hcap]
  have hposcap := hs.pos_le_capacity
  have hcount : growCount b s.getCurCapacity n
      = (n - s.getCurCapacity) / s.baseSize
        + if (n - s.getCurCapacity) % s.baseSize > s.getCurCapacity
          then 1 else 0 := by
    unfold growCount
    rw [if_neg hcap, hs.base]
  refine ⟨_, _, rfl, ?_, rfl, ?_, rfl, rfl, by rw [hcount, hs.base], rfl⟩
  · refine ⟨hs.base, ?_, List.append_ne_nil_of_left_ne_nil hs.root_ne _,
      ?_, hs.pos_le, ?_, ?_⟩
    · rw [hs.base]
      exact hs.chain.append (newNodes_chain b _ _)
    · simp only [List.length_append, length_newNodes, hs.base]
      rw [Nat.add_mul s.root.length, hs.capacity_eq]
    · exact hs.size_le.trans (Nat.le_add_right _ _)
    · by_cases h0 : s.getCurCapacity = 0
      · -- a full chain: the cursor was null and moves to the first new node
        have hfull : s.position = s.root.length * b := by
          unfold getCurCapacity at h0
          rw [← hs.capacity_eq]
          omega
        have hidx : s.position / b = s.root.length := by
          rw [hfull, Nat.mul_div_cancel _ hb]
        have hc := count_pos hb (n - 0) (by omega)
        simp only [h0, hs.base, if_pos, hidx]
        rw [if_neg (by omega)]
        simp only [nodeAt, List.length_append, length_newNodes]
        rw [if_pos (by omega)]
      · have hcur : s.position < s.capacity := by
          unfold getCurCapacity at h0
          omega
        simp only [if_neg h0]
        rw [nodeAt_append (node_lt hs hcur)]
        exact hs.cur_eq
  · rw [hs.base]
    exact newNodes_chain b _ _

-- ============================================================= the cursor

/-- The cursor is null exactly at the end of the allocated capacity. -/
theorem Inv.cur_null (hb : 0 < b) {s : ByteArray} (hs : Inv b s) :
    s.cur = none ↔ s.position = s.capacity := by
  have hle := hs.pos_le_capacity
  rw [hs.cur_eq, nodeAt, hs.capacity_eq]
  rw [hs.capacity_eq] at hle
  have hlt := @Nat.div_lt_iff_lt_mul b s.position s.root.length hb
  by_cases h : s.position / b < s.root.length
  · rw [if_pos h]
    constructor
    · intro hcon
      cases hcon
    · intro hcon
      omega
  · rw [if_neg h]
    constructor
    · intro _
      omega
    · intro _
      rfl

/-- Off the end, `m_cur` is the node of `position`; there the chain
holds `position % b` bytes before the cursor. -/
theorem derefCur_spec (hb : 0 < b) {s : ByteArray} (hs : Inv b s) :
    derefCur s = if s.position < s.capacity
      then some (s.position / b, b, s.root.drop (s.position / b))
      else none := by
  have hlt := @Nat.div_lt_iff_lt_mul b s.position s.root.length hb
  unfold derefCur
  rw [hs.cur_eq, nodeAt, hs.capacity_eq]
  by_cases h : s.position / b < s.root.length
  · rw [if_pos h, if_pos (hlt.mp h)]
    simp only
    rw [List.drop_eq_getElem_cons h]
    have hmem := hs.chain s.root[s.position / b] (List.getElem_mem h)
    simp only [hmem.1]
  · rw [if_neg h, if_neg (by omega)]

/-- The bytes before a node are whole nodes. -/
theorem length_flat_take {s : ByteArray} (hs : Inv b s) {i : Nat}
    (hi : i ≤ s.root.length) : (flat (s.root.take i)).length = i * b := by
  rw [length_flat (hs.chain.take _), List.length_take, Nat.min_eq_left hi]

/-- What lies in the chain from the node `i` on lies at `i * b`. -/
theorem slice_drop {s : ByteArray} (hs : Inv b s) {i : Nat}
    (hi : i ≤ s.root.length) (npos n : Nat) :
    slice (flat (s.root.drop i)) npos n
      = slice (flat s.root) (i * b + npos) n := by
  rw [← slice_append_right (flat (s.root.take i)), length_flat_take hs hi,
    flat_take_drop]

/-- The chain from the node of `p` on has room for `n` bytes exactly when
the capacity does. -/
theorem room_drop {s : ByteArray} (hs : Inv b s) {p : Nat}
    (h : p < s.capacity) {n : Nat} :
    p % b + n ≤ (s.root.drop (p / b)).length * b
      ↔ p + n ≤ s.root.length * b := by
  have hsplit := length_flat_take hs (node_lt hs h).le
  have hdiv := Nat.div_add_mod' p b
  have hdrop := length_flat (hs.chain.drop (p / b))
  have hall := length_flat hs.chain
  rw [← flat_take_drop s.root (p / b), List.length_append,
    hsplit, hdrop] at hall
  omega

/-- Moving `n` bytes from offset `position % b` of node `position / b`
ends at node `(position + n) / b`. -/
private theorem node_add (hb : 0 < b) (p n : Nat) :
    p / b + (p % b + n) / b = (p + n) / b := by
  rw [Nat.add_comm, ← Nat.add_mul_div_right _ _ hb]
  congr 1
  have := Nat.div_add_mod' p b
  omega

-- ======================================================= moving the cursor

/-- The array with another byte order and the cursor at `p`. -/
def moved (s : ByteArray) (e : Endian) (p : Nat) : ByteArray :=
  { s with
    endian := e
    position := p
    cur := nodeAt s.root (p / s.baseSize) }

theorem Inv.moved {s : ByteArray} (hs : Inv b s) {e : Endian} {p : Nat}
    (hp : p ≤ s.size) : Inv b (s.moved e p) :=
  ⟨hs.base, hs.chain, hs.root_ne, hs.capacity_eq, hp, hs.size_le, by
    show nodeAt s.root (p / s.baseSize) = nodeAt s.root (p / b)
    rw [hs.base]⟩

/-- An array is where its cursor is. -/
theorem Inv.moved_self {s : ByteArray} (hs : Inv b s) :
    s.moved s.endian s.position = s := by
  have hcur : nodeAt s.root (s.position / s.baseSize) = s.cur := by
    rw [hs.base, ← hs.cur_eq]
  unfold ByteArray.moved
  rw [hcur]

-- ========================================================= the operations

/-- `write` of a non-empty buffer, with the monad unfolded. -/
private theorem write_eq {s s₁ : ByteArray} {buf : List UInt8}
    (hbuf : buf.length ≠ 0) (hadd : addCapacity buf.length s = .ok () s₁) :
    write buf s = match derefCur s₁ with
      | none => .error .nullDeref s₁
      | some (i, size, chain) =>
          match writeLoop chain (s₁.position % s₁.baseSize)
            (size - s₁.position % s₁.baseSize) buf with
          | none => .error .nullDeref s₁
          | some (chain', moves) =>
              .ok () { s₁ with
                root := s₁.root.take i ++ chain'
                cur := nodeAt (s₁.root.take i ++ chain') (i + moves)
                position := s₁.position + buf.length
                size := if s₁.position + buf.length > s₁.size
                  then s₁.position + buf.length else s₁.size } := by
  unfold write
  rw [if_neg hbuf]
  show EStateM.bind _ _ _ = _
  unfold EStateM.bind
  rw [hadd]
  show (match derefCur s₁ with
    | none => throw Err.nullDeref
    | some (i, size, chain) => _ : BA Unit) s₁ = _
  cases derefCur s₁ with
  | none => rfl
  | some r =>
      obtain ⟨i, size, chain⟩ := r
      simp only
      cases writeLoop chain (s₁.position % s₁.baseSize)
        (size - s₁.position % s₁.baseSize) buf with
      | none => rfl
      | some r => rfl

/-- From `s` on `data` was written at the cursor: it overwrites and
extends the stored bytes, and the cursor is behind it. -/
structure Wrote (b : Nat) (s : ByteArray) (data : List UInt8)
    (s' : ByteArray) : Prop where
  inv : Inv b s'
  position : s'.position = s.position + data.length
  size : s'.size = max s.size (s.position + data.length)
  bytes : s'.bytes = overlay s.bytes s.position data

/-- `write` runs into the null node when the growth does not suffice, and
otherwise writes. -/
theorem write_spec (hb : 0 < b) {s : ByteArray} (hs : Inv b s)
    (buf : List UInt8) :
    (¬ Suffices b s.getCurCapacity buf.length
      ∧ ∃ s', write buf s = .error .nullDeref s')
    ∨ Suffices b s.getCurCapacity buf.length
      ∧ ∃ s', write buf s = .ok () s' ∧ Wrote b s buf s'
        ∧ s'.capacity
          = s.capacity + growCount b s.getCurCapacity buf.length * b
        ∧ s'.endian = s.endian := by
  by_cases hbuf : buf.length = 0
  · obtain rfl := List.eq_nil_of_length_eq_zero hbuf
    have hpos := hs.pos_le
    refine Or.inr ⟨.inl (Nat.zero_le _), s, rfl, ⟨hs, rfl, ?_, ?_⟩, ?_, rfl⟩
    · simp only [List.length_nil]
      omega
    · simp [overlay]
    · simp [growCount]
  obtain ⟨s₁, ns, hadd, hs₁, hroot, hns, hpos₁, hsize₁, hcap₁, hend₁⟩ :=
    addCapacity_spec hb hs buf.length
  have hposcap := hs.pos_le_capacity
  have hroom : Suffices b s.getCurCapacity buf.length
      ↔ s₁.position + buf.length ≤ s₁.root.length * b := by
    rw [suffices_iff hb, ← hs₁.capacity_eq, hcap₁, hpos₁]
    unfold getCurCapacity
    omega
  rw [write_eq hbuf hadd, derefCur_spec hb hs₁]
  by_cases hcap : s₁.position < s₁.capacity
  swap
  · rw [if_neg hcap]
    have hcapeq := hs₁.capacity_eq
    exact Or.inl ⟨fun h => by have := hroom.mp h; omega, s₁, rfl⟩
  rw [if_pos hcap]
  simp only [hs₁.base]
  cases hloop : writeLoop (s₁.root.drop (s₁.position / b))
      (s₁.position % b) (b - s₁.position % b) buf with
  | none =>
      refine Or.inl ⟨fun h => ?_, s₁, rfl⟩
      obtain ⟨r, hr⟩ := writeLoop_fits hb (hs₁.chain.drop _)
        (Nat.mod_lt _ hb) (Nat.pos_of_ne_zero hbuf)
        ((room_drop hs₁ hcap).mpr (hroom.mp h))
      rw [hloop] at hr
      cases hr
  | some r =>
      obtain ⟨chain', k⟩ := r
      obtain ⟨hc', hlen, hin, hflat, hk⟩ := writeLoop_spec hb
        (hs₁.chain.drop _) (Nat.mod_lt _ hb) hloop
      have hsplit := length_flat_take hs₁ (node_lt hs₁ hcap).le
      have hdiv := Nat.div_add_mod' s₁.position b
      have hlenroot : (s₁.root.take (s₁.position / b) ++ chain').length
          = s₁.root.length := by
        rw [List.length_append, hlen, List.length_take, List.length_drop]
        omega
      have hend := (room_drop hs₁ hcap).mp hin
      have hcontents : flat (s₁.root.take (s₁.position / b) ++ chain')
          = overlay (flat s₁.root) s₁.position buf := by
        rw [flat_append, hflat, ← overlay_append_right, hsplit, hdiv,
          flat_take_drop]
      have hcapeq := hs₁.capacity_eq
      have hposle := hs₁.pos_le
      have hszle := hs₁.size_le
      refine Or.inr ⟨hroom.mpr hend, _, rfl, ⟨?_, ?_, ?_, ?_⟩, hcap₁, hend₁⟩
      · constructor
        · rfl
        · exact (hs₁.chain.take _).append hc'
        · have hne := List.length_pos_of_ne_nil hs₁.root_ne
          exact List.ne_nil_of_length_pos (by rw [hlenroot]; exact hne)
        · simp only [hlenroot]
          exact hcapeq
        · simp only
          split <;> omega
        · simp only
          split <;> omega
        · simp only [hk, node_add hb]
      · simp only [hpos₁]
      · simp only [hpos₁, hsize₁]
        split <;> omega
      · have hwide : s.position + buf.length ≤ (flat s₁.root).length := by
          rw [length_flat hs₁.chain, ← hpos₁]
          exact hend
        have hbytes : (flat s₁.root).take s.size = bytes s := by
          rw [hroot]
          exact take_size_append hs ns
        rw [← hbytes, ← take_overlay hs.pos_le hwide]
        rw [hpos₁] at hcontents
        simp only [bytes, hpos₁, hsize₁, hcontents]
        congr 1
        split <;> omega

/-- `read`, with the monad unfolded. -/
private theorem read_eq (n : Nat) (s : ByteArray) :
    read n s = if n > s.getReadSize then .error .outOfRange s
      else match derefCur s with
        | none => .error .nullDeref s
        | some (i, nsize, chain) =>
            if n = 0 then .ok [] s
            else match readLoop chain (s.position % s.baseSize)
                (nsize - s.position % s.baseSize) n with
              | none => .error .nullDeref s
              | some (bs, moves) =>
                  .ok bs { s with
                    cur := nodeAt s.root (i + moves)
                    position := s.position + n } := by
  show (if n > s.getReadSize then throw Err.outOfRange else _ :
    BA (List UInt8)) s = _
  split
  · rfl
  · cases derefCur s with
    | none => rfl
    | some r =>
        obtain ⟨i, nsize, chain⟩ := r
        simp only
        split
        · rfl
        · cases readLoop chain (s.position % s.baseSize)
            (nsize - s.position % s.baseSize) n with
          | none => rfl
          | some r => rfl

/-- The bytes the loop of `read` fetches are those at the cursor. -/
private theorem readLoop_cur (hb : 0 < b) {s : ByteArray} (hs : Inv b s)
    {n : Nat} (hn : 0 < n) (hle : n ≤ s.size - s.position) :
    s.position < s.capacity
      ∧ readLoop (s.root.drop (s.position / b)) (s.position % b)
          (b - s.position % b) n
        = some (slice (bytes s) s.position n, (s.position % b + n) / b) := by
  have hposle := hs.pos_le
  have hsizele := hs.size_le
  have hcapeq := hs.capacity_eq
  have hcap : s.position < s.capacity := by omega
  have hdiv := Nat.div_add_mod' s.position b
  have hroom : s.position % b + n
      ≤ (s.root.drop (s.position / b)).length * b :=
    (room_drop hs hcap).mpr (by omega)
  have hcontents : slice (flat (s.root.drop (s.position / b)))
      (s.position % b) n = slice (bytes s) s.position n := by
    unfold bytes
    rw [slice_take (by omega), slice_drop hs (node_lt hs hcap).le, hdiv]
  refine ⟨hcap, ?_⟩
  rw [readLoop_spec hb (hs.chain.drop _) (Nat.mod_lt _ hb) hn hroom,
    hcontents]

/-- `read` throws without change when too few bytes are left, faults
on an empty read at the end of the capacity, and otherwise returns the
bytes at the cursor and moves past them. -/
theorem read_spec (hb : 0 < b) {s : ByteArray} (hs : Inv b s) (n : Nat) :
    (s.size - s.position < n ∧ read n s = .error .outOfRange s)
    ∨ (n = 0 ∧ s.position = s.capacity ∧ read n s = .error .nullDeref s)
    ∨ (n ≤ s.size - s.position ∧ (n = 0 → s.position < s.capacity)
        ∧ read n s = .ok (slice (bytes s) s.position n)
          (s.moved s.endian (s.position + n))) := by
  have hposle := hs.pos_le
  have hsizele := hs.size_le
  rw [read_eq]
  by_cases hn : n > s.getReadSize
  · rw [if_pos hn]
    exact Or.inl ⟨hn, rfl⟩
  have hn' : n ≤ s.size - s.position := Nat.le_of_not_lt hn
  rw [if_neg hn, derefCur_spec hb hs, hs.base]
  by_cases h0 : n = 0
  · subst h0
    by_cases hcap : s.position < s.capacity
    · rw [if_pos hcap]
      simp only [if_pos]
      refine Or.inr (Or.inr ⟨hn', fun _ => hcap, ?_⟩)
      rw [Nat.add_zero, hs.moved_self]
      simp only [slice, List.take_zero]
    · rw [if_neg hcap]
      exact Or.inr (Or.inl ⟨rfl, by omega, rfl⟩)
  obtain ⟨hcap, hloop⟩ := readLoop_cur hb hs (by omega) hn'
  rw [if_pos hcap]
  simp only [if_neg h0, hloop]
  refine Or.inr (Or.inr ⟨hn', fun h => absurd h h0, ?_⟩)
  unfold moved
  rw [hs.base, node_add hb]

/-- `setPosition` throws past the capacity, and otherwise moves the
cursor, extending the size when it passes it. -/
theorem setPosition_spec (hb : 0 < b) {s : ByteArray} (hs : Inv b s)
    (pos : Nat) :
    (s.capacity < pos ∧ setPosition pos s = .error .outOfRange s)
    ∨ (pos ≤ s.capacity ∧ ∃ s', setPosition pos s = .ok () s' ∧ Inv b s'
        ∧ s'.position = pos ∧ s'.size = max s.size pos
        ∧ s'.root = s.root) := by
  have hcapeq := hs.capacity_eq
  have hszle := hs.size_le
  show (_ ∧ (if pos > s.capacity then throw Err.outOfRange else _ :
    BA Unit) s = _) ∨ (_ ∧ ∃ s', (if pos > s.capacity
      then throw Err.outOfRange else _ : BA Unit) s = _ ∧ _)
  by_cases hpos : pos > s.capacity
  · rw [if_pos hpos]
    exact Or.inl ⟨hpos, rfl⟩
  rw [if_neg hpos, seek_spec hb hs.chain hs.root_ne (by omega)]
  refine Or.inr ⟨by omega, _, rfl, ?_, rfl, ?_, rfl⟩
  · constructor
    · exact hs.base
    · exact hs.chain
    · exact hs.root_ne
    · exact hs.capacity_eq
    · simp only
      split <;> omega
    · simp only
      split <;> omega
    · rfl
  · simp only
    split <;> omega

/-- `setPosition` below the size only moves the cursor. -/
theorem setPosition_moved (hb : 0 < b) {s : ByteArray} (hs : Inv b s)
    {pos : Nat} (h : pos ≤ s.size) :
    setPosition pos s = .ok () (s.moved s.endian pos) := by
  have hcapeq := hs.capacity_eq
  have hszle := hs.size_le
  show (if pos > s.capacity then throw Err.outOfRange else _ : BA Unit) s = _
  rw [if_neg (by omega), seek_spec hb hs.chain hs.root_ne (by omega)]
  show EStateM.Result.ok () _ = _
  unfold moved
  rw [if_neg (by omega), hs.base]

/-- `clear` returns to the state of a new array. -/
theorem clear_spec {s : ByteArray} (hs : Inv b s) :
    ∃ s', clear s = .ok () s' ∧ Inv b s' ∧ s'.position = 0
      ∧ s'.size = 0 := by
  refine ⟨_, rfl, ?_, rfl, rfl⟩
  have hpos := List.length_pos_of_ne_nil hs.root_ne
  have hlen : (s.root.take 1).length = 1 := by
    rw [List.length_take]
    omega
  constructor
  · exact hs.base
  · exact hs.chain.take 1
  · exact List.ne_nil_of_length_pos (by rw [hlen]; omega)
  · simp only [hlen, hs.base, Nat.one_mul]
  · exact Nat.le_refl 0
  · exact Nat.zero_le _
  · simp only [Nat.zero_div, nodeAt, hlen]
    rw [if_pos (by omega)]

/-- `toString` returns the unread bytes and changes nothing. -/
theorem toString_spec (hb : 0 < b) {s : ByteArray} (hs : Inv b s) :
    toString s = .ok ((bytes s).drop s.position) s := by
  have hrun : toString s = if s.getReadSize = 0 then .ok [] s
      else readAt s.getReadSize s.position s := by
    show (if s.getReadSize = 0 then _ else _ : BA (List UInt8)) s = _
    split <;> rfl
  have hlen := length_bytes hs
  rw [hrun]
  by_cases h0 : s.getReadSize = 0
  · rw [if_pos h0, List.drop_of_length_le]
    rw [hlen]
    exact Nat.le_of_sub_eq_zero h0
  rw [if_neg h0]
  obtain ⟨hcap, hloop⟩ := readLoop_cur hb hs (Nat.pos_of_ne_zero h0)
    (Nat.le_refl s.getReadSize)
  show (if s.getReadSize > s.getReadSize then throw Err.outOfRange else _ :
    BA (List UInt8)) s = _
  rw [if_neg (by omega), derefCur_spec hb hs, if_pos hcap]
  simp only [if_neg h0, hs.base, hloop]
  show EStateM.Result.ok (slice (bytes s) s.position s.getReadSize) s = _
  congr 1
  unfold slice
  rw [List.take_of_length_le]
  rw [List.length_drop, hlen]
  exact Nat.le_refl _

end TinyServer.ByteArray
