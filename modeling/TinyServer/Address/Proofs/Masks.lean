/-
Subnet masks, broadcast addresses and network addresses, bit by bit.

Where the code is defined (`Defined`), each of the three functions has one
lemma that gives the bits of its result; elsewhere each of them does
something undefined (`undefined_spec`). A mask built by `CreateMask` has
the last bits set, which is what a broadcast address needs. `subnetMask`
takes the complement of it, and `netWordAddress` does not.
-/
import TinyServer.Address.Basic

namespace TinyServer

-- ======================================================================= words

/-- The bits of a word of four bytes. -/
theorem getLsbD_bytes (u : Nat → BitVec 8) {i : Nat} (hi : i < 32) :
    (u 3 ++ u 2 ++ u 1 ++ u 0).getLsbD i = (u (i / 8)).getLsbD (i % 8) := by
  simp only [BitVec.getLsbD_append]
  by_cases h₁ : i < 8
  · have hdiv : i / 8 = 0 := by omega
    rw [if_pos h₁, hdiv, Nat.mod_eq_of_lt h₁]
  by_cases h₂ : i - 8 < 8
  · have hdiv : i / 8 = 1 := by omega
    have hmod : i % 8 = i - 8 := by omega
    rw [if_neg h₁, if_pos h₂, hdiv, hmod]
  by_cases h₃ : i - 8 - 8 < 8
  · have hdiv : i / 8 = 2 := by omega
    have hmod : i % 8 = i - 8 - 8 := by omega
    rw [if_neg h₁, if_neg h₂, if_pos h₃, hdiv, hmod]
  · have hdiv : i / 8 = 3 := by omega
    have hmod : i % 8 = i - 8 - 8 - 8 := by omega
    rw [if_neg h₁, if_neg h₂, if_neg h₃, hdiv, hmod]

/-- The bits of a word whose bytes are reversed. -/
theorem getLsbD_bswap32 (v : BitVec 32) {i : Nat} (hi : i < 32) :
    (bswap32 v).getLsbD i = v.getLsbD (24 - 8 * (i / 8) + i % 8) := by
  have hlt : i % 8 < 8 := Nat.mod_lt i (by omega)
  unfold bswap32
  rw [getLsbD_bytes (fun k => v.extractLsb' (24 - 8 * k) 8) hi,
    BitVec.getLsbD_extractLsb', decide_eq_true hlt, Bool.true_and]

/-- Reversed twice, the bytes of a word are where they were. -/
theorem bswap32_bswap32 (v : BitVec 32) : bswap32 (bswap32 v) = v := by
  apply BitVec.eq_of_getLsbD_eq
  intro i hi
  rw [getLsbD_bswap32 _ hi, getLsbD_bswap32 _ (by omega)]
  congr 1
  omega

/-- The bytes of a conjunction, reversed. -/
theorem bswap32_and (u v : BitVec 32) :
    bswap32 (u &&& v) = bswap32 u &&& bswap32 v := by
  apply BitVec.eq_of_getLsbD_eq
  intro i hi
  rw [BitVec.getLsbD_and, getLsbD_bswap32 _ hi, getLsbD_bswap32 _ hi,
    getLsbD_bswap32 _ hi, BitVec.getLsbD_and]

/-- The bytes of a disjunction, reversed. -/
theorem bswap32_or (u v : BitVec 32) :
    bswap32 (u ||| v) = bswap32 u ||| bswap32 v := by
  apply BitVec.eq_of_getLsbD_eq
  intro i hi
  rw [BitVec.getLsbD_or, getLsbD_bswap32 _ hi, getLsbD_bswap32 _ hi,
    getLsbD_bswap32 _ hi, BitVec.getLsbD_or]

/-- The bytes of a complement, reversed. -/
theorem bswap32_not (v : BitVec 32) : bswap32 (~~~v) = ~~~bswap32 v := by
  apply BitVec.eq_of_getLsbD_eq
  intro i hi
  have hat : 24 - 8 * (i / 8) + i % 8 < 32 := by omega
  rw [BitVec.getLsbD_not, getLsbD_bswap32 _ hi, getLsbD_bswap32 _ hi,
    BitVec.getLsbD_not, decide_eq_true hi, decide_eq_true hat]

section

variable {e : Endian} {u v : BitVec 32}

/-- To network order and back. -/
@[simp] theorem byteswap32_byteswap32 :
    byteswapOnLittleEndian32 e (byteswapOnLittleEndian32 e v) = v := by
  cases e with
  | little => exact bswap32_bswap32 v
  | big => rfl

/-- Conjunction, in either byte order. -/
theorem byteswap32_and : byteswapOnLittleEndian32 e (u &&& v)
    = byteswapOnLittleEndian32 e u &&& byteswapOnLittleEndian32 e v := by
  cases e with
  | little => exact bswap32_and u v
  | big => rfl

/-- Disjunction, in either byte order. -/
theorem byteswap32_or : byteswapOnLittleEndian32 e (u ||| v)
    = byteswapOnLittleEndian32 e u ||| byteswapOnLittleEndian32 e v := by
  cases e with
  | little => exact bswap32_or u v
  | big => rfl

/-- Complement, in either byte order. -/
theorem byteswap32_not : byteswapOnLittleEndian32 e (~~~v)
    = ~~~byteswapOnLittleEndian32 e v := by
  cases e with
  | little => exact bswap32_not v
  | big => rfl

end

-- ======================================================================= masks

/-- What follows something defined. -/
theorem ok_bind {α β : Type} (x : α) (f : α → Except Undefined β) :
    (Except.ok x >>= f) = f x := rfl

/-- A shift that does not reach the sign bit. -/
theorem shiftOne_ok {k : Nat} (hk : k < 31) :
    shiftOne k = .ok ((2 ^ k : Nat) : Int) := by
  have hpow : (2 : Nat) ^ k ≤ 2 ^ 30 :=
    Nat.pow_le_pow_right (by omega) (by omega)
  have hcast : (2 : Int) ^ k = ((2 ^ k : Nat) : Int) := by
    push_cast
    rfl
  unfold shiftOne
  rw [if_neg (by omega), hcast]
  generalize 2 ^ k = n at hpow
  rw [Int.bmod_eq_of_le] <;> omega

/-- Taking one from a positive `int` is defined. -/
theorem minusOne_ok {n : Nat} (hn : 0 < n) :
    minusOne (n : Int) = .ok ((n - 1 : Nat) : Int) := by
  unfold minusOne
  rw [if_neg (by omega), Int.ofNat_sub hn]
  rfl

/-- The `int` of `CreateMask` fits while the shift is by less than 31. -/
theorem createMask_ok {w bits : Nat} (h : bits ≤ w) (hlt : w - bits < 31) :
    createMask w bits = .ok (BitVec.ofNat w (2 ^ (w - bits) - 1)) := by
  have hamount : (w + 2 ^ 64 - bits) % 2 ^ 64 = w - bits := by omega
  unfold createMask
  rw [hamount, shiftOne_ok hlt, ok_bind, minusOne_ok (Nat.two_pow_pos _),
    ok_bind, BitVec.ofInt_natCast]
  rfl

/-- A mask of `k` bits has the last `k` bits set. -/
theorem getMsbD_mask {w k i : Nat} (hi : i < w) :
    (BitVec.ofNat w (2 ^ k - 1)).getMsbD i = decide (w - k ≤ i) := by
  rw [BitVec.getMsbD_eq_getLsbD, BitVec.getLsbD_ofNat,
    Nat.testBit_two_pow_sub_one, decide_eq_true hi]
  have hlt : w - 1 - i < w := by omega
  have hiff : w - 1 - i < k ↔ w - k ≤ i := by omega
  simp [hlt, hiff]

/-- A shift by all 32 bits. -/
theorem createMask_zero : createMask 32 0 = .error .shift := by rfl

/-- The shift gives the least `int`, which has no predecessor. -/
theorem createMask_one : createMask 32 1 = .error .overflow := by rfl

-- ======================================================================== IPv4

namespace IPv4Address

variable {e : Endian} {a : IPv4Address} {p : UInt32} {i : Nat}

/-- The prefix lengths for which the mask of an IPv4 address is defined. -/
theorem mask_ok (h₂ : 2 ≤ p.toNat) (h₃₂ : p.toNat ≤ 32) :
    createMask 32 p.toNat = .ok (BitVec.ofNat 32 (2 ^ (32 - p.toNat) - 1)) :=
  createMask_ok h₃₂ (by omega)

/-- For the prefixes 0 and 1 there is none. -/
theorem mask_undefined (h : p.toNat < 2) :
    ∃ u, createMask 32 p.toNat = .error u := by
  obtain h | h : p.toNat = 0 ∨ p.toNat = 1 := by omega
  · rw [h]
    exact ⟨_, createMask_zero⟩
  · rw [h]
    exact ⟨_, createMask_one⟩

/-- A prefix that fits passes the guard of the three functions. -/
theorem not_gt (h : p.toNat ≤ 32) : ¬ p > 32 := by
  intro hgt
  have hlt : (32 : UInt32).toNat < p.toNat := hgt
  have h₃₂ : (32 : UInt32).toNat = 32 := rfl
  omega

/-- The bits of an address with a mask set. -/
theorem bit_or (mask : BitVec 32) :
    bit e { a with sAddr := a.sAddr ||| byteswapOnLittleEndian32 e mask } i
      = (a.bit e i || mask.getMsbD i) := by
  unfold bit
  rw [byteswap32_or, byteswap32_byteswap32, BitVec.getMsbD_or]

/-- The bits of an address under a mask. -/
theorem bit_and (mask : BitVec 32) :
    bit e { a with sAddr := a.sAddr &&& byteswapOnLittleEndian32 e mask } i
      = (a.bit e i && mask.getMsbD i) := by
  unfold bit
  rw [byteswap32_and, byteswap32_byteswap32, BitVec.getMsbD_and]

/-- The bits of a complemented mask. -/
theorem bit_not (f p : BitVec 16) (mask : BitVec 32) (hi : i < 32) :
    bit e ⟨f, p, ~~~byteswapOnLittleEndian32 e mask⟩ i = !mask.getMsbD i := by
  unfold bit
  rw [byteswap32_not, byteswap32_byteswap32, BitVec.getMsbD_not,
    decide_eq_true hi, Bool.true_and]

/-- The host part of an IPv4 broadcast address is all ones. -/
theorem broadcastAddress_spec (h₂ : 2 ≤ p.toNat) (h₃₂ : p.toNat ≤ 32) :
    ∃ s, a.broadcastAddress e p = .ok (some { a with sAddr := s })
      ∧ ∀ i < 32, bit e { a with sAddr := s } i
        = (a.bit e i || decide (p.toNat ≤ i)) := by
  unfold broadcastAddress
  rw [if_neg (not_gt h₃₂), mask_ok h₂ h₃₂, ok_bind]
  refine ⟨_, rfl, fun i hi => ?_⟩
  rw [bit_or, getMsbD_mask hi, Nat.sub_sub_self h₃₂]

/-- `netWordAddress` keeps the host part, not the network part. -/
theorem netWordAddress_spec (h₂ : 2 ≤ p.toNat) (h₃₂ : p.toNat ≤ 32) :
    ∃ s, a.netWordAddress e p = .ok (some { a with sAddr := s })
      ∧ ∀ i < 32, bit e { a with sAddr := s } i
        = (a.bit e i && decide (p.toNat ≤ i)) := by
  unfold netWordAddress
  rw [if_neg (not_gt h₃₂), mask_ok h₂ h₃₂, ok_bind]
  refine ⟨_, rfl, fun i hi => ?_⟩
  rw [bit_and, getMsbD_mask hi, Nat.sub_sub_self h₃₂]

/-- The IPv4 subnet mask has the leading bits. -/
theorem subnetMask_spec (h₂ : 2 ≤ p.toNat) (h₃₂ : p.toNat ≤ 32) :
    ∃ m, subnetMask e p = .ok (some m)
      ∧ ∀ i < 32, bit e m i = decide (i < p.toNat) := by
  unfold subnetMask
  rw [mask_ok h₂ h₃₂, ok_bind]
  refine ⟨_, rfl, fun i hi => ?_⟩
  rw [bit_not _ _ _ hi, getMsbD_mask hi, Nat.sub_sub_self h₃₂, ← decide_not]
  exact decide_eq_decide.mpr Nat.not_le

/-- There is no IPv4 mask for the prefixes 0 and 1. -/
theorem subnetMask_undefined (h : p.toNat < 2) :
    ∃ u, subnetMask e p = .error u := by
  obtain ⟨u, hu⟩ := mask_undefined h
  unfold subnetMask
  rw [hu]
  exact ⟨u, rfl⟩

end IPv4Address

-- ======================================================================== IPv6

section

variable {v : Vector (BitVec 8) 16} {i : Nat}

/-- An assignment inside the array. -/
theorem assign_ok (hi : i < 16) (f : BitVec 8 → BitVec 8) :
    assign i f v = .ok (v.set i (f v[i])) := dif_pos hi

/-- An assignment past its end. -/
theorem assign_bounds (hi : 16 ≤ i) (f : BitVec 8 → BitVec 8) :
    assign i f v = .error .bounds := dif_neg (Nat.not_lt.mpr hi)

/-- The loop stays in the array, and fills what it is to fill. -/
theorem fill_spec (k lo : Nat) (h : lo + k ≤ 16) (v : Vector (BitVec 8) 16) :
    ∃ v', fill lo (lo + k) v = .ok v'
      ∧ ∀ j (hj : j < 16), v'[j] = if lo ≤ j ∧ j < lo + k then 0xff
        else v[j] := by
  unfold fill
  rw [Nat.add_sub_cancel_left]
  induction k generalizing lo v with
  | zero =>
      refine ⟨v, rfl, fun j hj => ?_⟩
      rw [if_neg (by omega)]
  | succ k ih =>
      obtain ⟨v', hrun, hv'⟩ :=
        ih (lo + 1) (by omega) (v.set lo 0xff (by omega))
      refine ⟨v', ?_, fun j hj => ?_⟩
      · rw [List.range'_succ, List.foldlM_cons, assign_ok (by omega)]
        exact hrun
      · rw [hv' j hj, Vector.getElem_set]
        by_cases hlo : lo = j
        · rw [if_pos hlo, ite_self, if_pos (by omega)]
        · rw [if_neg hlo]
          refine if_congr ?_ rfl rfl
          omega

end

namespace IPv6Address

variable {a : IPv6Address} {p : UInt32} {i : Nat}

/-- A bit of an address is one of the byte that it lies in. -/
theorem bit_eq (hi : i / 8 < 16) :
    a.bit i = a.s6Addr[i / 8].getMsbD (i % 8) := by
  unfold bit
  rw [Vector.getElem?_eq_getElem (by omega), Option.getD_some]

/-- The mask for the byte that the prefix ends in. -/
theorem mask_ok : createMask 8 (p % 8).toNat
    = .ok (BitVec.ofNat 8 (2 ^ (8 - p.toNat % 8) - 1)) := by
  have hmod : (p % 8).toNat = p.toNat % 8 := UInt32.toNat_mod p 8
  rw [hmod]
  exact createMask_ok (by omega) (by omega)

/-- The mask of a byte, bit by bit. -/
theorem mask_bit {k : Nat} (hk : k < 8) :
    (BitVec.ofNat 8 (2 ^ (8 - p.toNat % 8) - 1)).getMsbD k
      = decide (p.toNat % 8 ≤ k) := by
  have hsub : 8 - (8 - p.toNat % 8) = p.toNat % 8 := by omega
  rw [getMsbD_mask hk, hsub]

/-- The index of the byte that the prefix ends in. -/
theorem div_eq : (p / 8).toNat = p.toNat / 8 := UInt32.toNat_div p 8

/-- The bytes behind the one that the prefix ends in are filled. -/
theorem broadcastAddress_spec (h : p.toNat < 128) :
    ∃ v, a.broadcastAddress p = .ok (some { a with s6Addr := v })
      ∧ ∀ i < 128, bit { a with s6Addr := v } i
        = (a.bit i || decide (p.toNat ≤ i)) := by
  have hat : p.toNat / 8 < 16 := by omega
  obtain ⟨v, hfill, hv⟩ := fill_spec (15 - p.toNat / 8) (p.toNat / 8 + 1)
    (by omega) (a.s6Addr.set (p.toNat / 8) (a.s6Addr[p.toNat / 8]
      ||| BitVec.ofNat 8 (2 ^ (8 - p.toNat % 8) - 1)))
  have hend : p.toNat / 8 + 1 + (15 - p.toNat / 8) = 16 := by omega
  rw [hend] at hfill
  refine ⟨v, ?_, fun i hi => ?_⟩
  · unfold broadcastAddress
    rw [mask_ok, ok_bind, div_eq, assign_ok hat, ok_bind, hfill]
    rfl
  · rw [bit_eq (by omega), bit_eq (by omega), hv _ (by omega),
      Vector.getElem_set]
    by_cases heq : p.toNat / 8 = i / 8
    · rw [if_neg (by omega), if_pos heq, BitVec.getMsbD_or,
        mask_bit (by omega)]
      have hiff : p.toNat % 8 ≤ i % 8 ↔ p.toNat ≤ i := by omega
      simp only [heq, hiff]
    · rw [if_neg heq]
      by_cases hlt : p.toNat / 8 < i / 8
      · rw [if_pos (by omega), decide_eq_true (by omega), Bool.or_true]
        have hall : ∀ k < 8, (0xff : BitVec 8).getMsbD k = true := by decide
        exact hall _ (by omega)
      · rw [if_neg (by omega), decide_eq_false (by omega), Bool.or_false]

/-- The byte that the prefix ends in is masked, and those behind it stay. -/
theorem netWordAddress_spec (h : p.toNat < 128) :
    ∃ v, a.netWordAddress p = .ok (some { a with s6Addr := v })
      ∧ ∀ i < 128, bit { a with s6Addr := v } i
        = (a.bit i && decide (i < 8 * (p.toNat / 8) ∨ p.toNat ≤ i)) := by
  have hat : p.toNat / 8 < 16 := by omega
  refine ⟨a.s6Addr.set (p.toNat / 8) (a.s6Addr[p.toNat / 8]
    &&& BitVec.ofNat 8 (2 ^ (8 - p.toNat % 8) - 1)), ?_, fun i hi => ?_⟩
  · unfold netWordAddress
    rw [mask_ok, ok_bind, div_eq, assign_ok hat, ok_bind]
    rfl
  · rw [bit_eq (by omega), bit_eq (by omega), Vector.getElem_set]
    by_cases heq : p.toNat / 8 = i / 8
    · rw [if_pos heq, BitVec.getMsbD_and, mask_bit (by omega)]
      have hiff : p.toNat % 8 ≤ i % 8
          ↔ i < 8 * (p.toNat / 8) ∨ p.toNat ≤ i := by omega
      simp only [heq] at hiff ⊢
      simp only [hiff]
    · rw [if_neg heq, decide_eq_true (by omega), Bool.and_true]

/-- The bytes before the one that the prefix ends in are filled. -/
theorem subnetMask_spec (h : p.toNat < 128) :
    ∃ m, subnetMask p = .ok (some m)
      ∧ ∀ i < 128, m.bit i = decide (i < p.toNat) := by
  have hat : p.toNat / 8 < 16 := by omega
  obtain ⟨v, hfill, hv⟩ := fill_spec (p.toNat / 8) 0 (by omega)
    ((Vector.replicate 16 0).set (p.toNat / 8)
      (~~~BitVec.ofNat 8 (2 ^ (8 - p.toNat % 8) - 1)))
  rw [Nat.zero_add] at hfill
  refine ⟨⟨AF_INET6, 0, 0, v, 0⟩, ?_, fun i hi => ?_⟩
  · unfold subnetMask
    rw [mask_ok, ok_bind, div_eq, assign_ok hat, ok_bind, hfill]
    rfl
  · rw [bit_eq (by omega), hv _ (by omega), Vector.getElem_set]
    by_cases heq : p.toNat / 8 = i / 8
    · rw [if_neg (by omega), if_pos heq, BitVec.getMsbD_not,
        mask_bit (by omega), decide_eq_true (by omega), Bool.true_and,
        ← decide_not]
      refine decide_eq_decide.mpr ?_
      omega
    · rw [if_neg heq]
      by_cases hlt : i / 8 < p.toNat / 8
      · rw [if_pos (by omega), decide_eq_true (by omega)]
        have hall : ∀ k < 8, (0xff : BitVec 8).getMsbD k = true := by decide
        exact hall _ (by omega)
      · rw [if_neg (by omega), decide_eq_false (by omega),
          Vector.getElem_replicate]
        exact BitVec.getMsbD_zero

/-- For the prefix 128 the index is past the end of the array. -/
theorem subnetMask_undefined (h : 128 ≤ p.toNat) :
    ∃ u, subnetMask p = .error u := by
  unfold subnetMask
  rw [mask_ok, ok_bind, div_eq, assign_bounds (by omega)]
  exact ⟨.bounds, rfl⟩

end IPv6Address

-- ================================================================= the classes

namespace IPAddress

variable {e : Endian} {a b : IPAddress} {p : UInt32}

/-- The prefix lengths for which the code does nothing undefined. -/
def Defined : IPAddress → UInt32 → Prop
  | v4 _, p => 2 ≤ p.toNat ∧ p.toNat ≤ 32
  | v6 _, p => p.toNat < 128

/-- Where the bits begin that `netWordAddress` masks. -/
def start : IPAddress → UInt32 → Nat
  | v4 _, _ => 0
  | v6 _, p => 8 * (p.toNat / 8)

/-- Addresses of one class are equally wide. -/
theorem sameRest_width (h : SameRest a b) : b.width = a.width := by
  cases a <;> cases b <;> first | rfl | exact h.elim

/-- A result, as one of the class that it is of. -/
theorem map_ok {α β : Type} {x : Except Undefined (Option α)} {r : α}
    (f : α → β) (h : x = .ok (some r)) :
    (Option.map f <$> x) = .ok (some (f r)) := by
  rw [h]
  rfl

/-- Something undefined stays undefined. -/
theorem map_error {α β : Type} {x : Except Undefined (Option α)}
    {u : Undefined} (f : α → β) (h : x = .error u) :
    (Option.map f <$> x) = .error u := by
  rw [h]
  rfl

/-- The broadcast address where the code is defined, of either class. -/
theorem broadcastAddress_spec (h : a.Defined p) :
    ∃ b, a.broadcastAddress e p = .ok (some b) ∧ SameRest a b
      ∧ ∀ i < a.width, b.bit e i = (a.bit e i || decide (p.toNat ≤ i)) := by
  cases a with
  | v4 a =>
      obtain ⟨s, hs, hbits⟩ := @IPv4Address.broadcastAddress_spec e a p h.1 h.2
      exact ⟨v4 { a with sAddr := s }, map_ok v4 hs, rfl,
        hbits⟩
  | v6 a =>
      obtain ⟨v, hv, hbits⟩ := @IPv6Address.broadcastAddress_spec a p h
      exact ⟨v6 { a with s6Addr := v }, map_ok v6 hv, rfl,
        hbits⟩

/-- `netWordAddress` where the code is defined, of either class. -/
theorem netWordAddress_spec (h : a.Defined p) :
    ∃ b, a.netWordAddress e p = .ok (some b) ∧ SameRest a b
      ∧ ∀ i < a.width, b.bit e i
        = (a.bit e i && decide (i < a.start p ∨ p.toNat ≤ i)) := by
  cases a with
  | v4 a =>
      obtain ⟨s, hs, hbits⟩ := @IPv4Address.netWordAddress_spec e a p h.1 h.2
      refine ⟨v4 { a with sAddr := s }, map_ok v4 hs, rfl,
        fun i hi => ?_⟩
      have hnone : ¬ i < start (v4 a) p := Nat.not_lt_zero i
      simp only [hnone, false_or]
      exact hbits i hi
  | v6 a =>
      obtain ⟨v, hv, hbits⟩ := @IPv6Address.netWordAddress_spec a p h
      exact ⟨v6 { a with s6Addr := v }, map_ok v6 hv, rfl,
        hbits⟩

/-- The subnet mask where the code is defined, of either class. -/
theorem subnetMask_spec (h : a.Defined p) :
    ∃ m, a.subnetMask e p = .ok (some m)
      ∧ ∀ i < a.width, m.bit e i = decide (i < p.toNat) := by
  cases a with
  | v4 a =>
      obtain ⟨m, hm, hbits⟩ := @IPv4Address.subnetMask_spec e p h.1 h.2
      exact ⟨v4 m, map_ok v4 hm, hbits⟩
  | v6 a =>
      obtain ⟨m, hm, hbits⟩ := @IPv6Address.subnetMask_spec p h
      exact ⟨v6 m, map_ok v6 hm, hbits⟩

/-- For the other prefix lengths there is no mask. -/
theorem subnetMask_undefined (hp : p.toNat ≤ a.width) (h : ¬ a.Defined p) :
    ∃ u, a.subnetMask e p = .error u := by
  cases a with
  | v4 a =>
      have hle : p.toNat ≤ 32 := hp
      have hlt : p.toNat < 2 := by
        by_contra h₂
        exact h ⟨Nat.not_lt.mp h₂, hle⟩
      obtain ⟨u, hu⟩ := @IPv4Address.subnetMask_undefined e p hlt
      exact ⟨u, map_error v4 hu⟩
  | v6 a =>
      obtain ⟨u, hu⟩ := IPv6Address.subnetMask_undefined (Nat.not_lt.mp h)
      exact ⟨u, map_error v6 hu⟩

-- =================================================================== the masks

/-- The mask has the `p` leading bits, the broadcast address has all bits
behind them set and is the address otherwise, and nothing undefined
happens. -/
def Masks (e : Endian) (a : IPAddress) (p : UInt32) : Prop :=
  (∃ m, a.subnetMask e p = .ok (some m)
      ∧ ∀ i < a.width, m.bit e i = decide (i < p.toNat))
    ∧ ∃ b, a.broadcastAddress e p = .ok (some b) ∧ SameRest a b
      ∧ ∀ i < a.width, b.bit e i = (a.bit e i || decide (p.toNat ≤ i))

/-- The shift for the prefixes 0 and 1 of an IPv4 address and the index for
the prefix 128 of an IPv6 address are too large, and these are all. -/
theorem masks_iff (hp : p.toNat ≤ a.width) : a.Masks e p ↔ a.Defined p := by
  constructor
  · rintro ⟨⟨m, hm, -⟩, -⟩
    by_contra h
    obtain ⟨u, hu⟩ := @subnetMask_undefined e a p hp h
    rw [hu] at hm
    cases hm
  · exact fun h => ⟨subnetMask_spec h, broadcastAddress_spec h⟩

theorem masks_iff_private :
    (v4 ⟨AF_INET, 0x5000, 0x0101a8c0⟩).Masks .little 24 :=
  (masks_iff (by decide)).mpr (by unfold Defined; decide)

/-- The whole IPv4 network, and one IPv6 host. -/
theorem whole_width_undefined :
    ¬ (v4 ⟨AF_INET, 0, 0⟩).Masks .little 0
      ∧ IPv4Address.subnetMask .little 0 = .error .shift
      ∧ ¬ (v4 ⟨AF_INET, 0, 0⟩).Masks .little 1
      ∧ IPv4Address.subnetMask .little 1 = .error .overflow
      ∧ ¬ (v6 ⟨AF_INET6, 0, 0, .replicate 16 0, 0⟩).Masks .little 128
      ∧ IPv6Address.subnetMask 128 = .error .bounds := by
  have hno : ∀ {a : IPAddress} {p : UInt32} {u : Undefined},
      a.subnetMask .little p = .error u → ¬ a.Masks .little p := by
    rintro a p u hu ⟨⟨m, hm, -⟩, -⟩
    rw [hu] at hm
    cases hm
  exact ⟨hno (u := .shift) (by rfl), by rfl, hno (u := .overflow) (by rfl),
    by rfl, hno (u := .bounds) (by rfl), by rfl⟩

end IPAddress

end TinyServer
