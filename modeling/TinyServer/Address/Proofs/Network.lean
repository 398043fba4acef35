/-
Network addresses against masks and broadcast addresses.

`netWordAddress` masks with what `CreateMask` builds, as
`broadcastAddress` does, and not with its complement, as `subnetMask`
does. So it clears the network and keeps the host. The two come to the
same where there is nothing to clear and nothing to keep.
-/
import TinyServer.Address.Proofs.Masks

namespace TinyServer

namespace IPAddress

variable {e : Endian} {a b : IPAddress} {p : UInt32} {i : Nat}

-- ===================================================================== objects

/-- An object is determined by its bits and the rest. -/
theorem ext_bits (hrest : SameRest a b)
    (hbits : ∀ i < a.width, b.bit e i = a.bit e i) : b = a := by
  cases a with
  | v4 a =>
      cases b with
      | v6 b => exact hrest.elim
      | v4 b =>
          have hswap : byteswapOnLittleEndian32 e b.sAddr
              = byteswapOnLittleEndian32 e a.sAddr := by
            apply BitVec.eq_of_getMsbD_eq
            exact fun i hi => hbits i hi
          have hword := congrArg (byteswapOnLittleEndian32 e) hswap
          rw [byteswap32_byteswap32, byteswap32_byteswap32] at hword
          have hb : b = { a with sAddr := b.sAddr } := hrest
          rw [hb, hword]
  | v6 a =>
      cases b with
      | v4 b => exact hrest.elim
      | v6 b =>
          have hbytes : b.s6Addr = a.s6Addr := by
            apply Vector.ext
            intro j hj
            apply BitVec.eq_of_getMsbD_eq
            intro k hk
            have hlt : 8 * j + k < 128 := by omega
            have hbit : b.bit (8 * j + k) = a.bit (8 * j + k) :=
              hbits (8 * j + k) hlt
            have hdiv : (8 * j + k) / 8 = j := by omega
            have hmod : (8 * j + k) % 8 = k := by omega
            rw [IPv6Address.bit_eq (by omega), IPv6Address.bit_eq (by omega)]
              at hbit
            simp only [hdiv, hmod] at hbit
            exact hbit
          have hb : b = { a with s6Addr := b.s6Addr } := hrest
          rw [hb, hbytes]

theorem sameRest_start (h : SameRest a b) : b.start p = a.start p := by
  cases a <;> cases b <;> first | rfl | exact h.elim

theorem sameRest_defined (h : SameRest a b) : b.Defined p ↔ a.Defined p := by
  cases a <;> cases b <;> first | rfl | exact h.elim

theorem width_start (h : b.width = a.width) : b.start p = a.start p := by
  cases a <;> cases b <;> first | rfl | cases h

theorem width_defined (h : b.width = a.width) :
    b.Defined p ↔ a.Defined p := by
  cases a <;> cases b <;> first | rfl | cases h

theorem start_le : a.start p ≤ p.toNat := by
  cases a with
  | v4 a => exact Nat.zero_le _
  | v6 a => exact Nat.mul_div_le _ 8

-- ===================================================================== the law

/-- The prefix lengths of a network. -/
def InRange : IPAddress → UInt32 → Prop
  | v4 _, p => 1 ≤ p.toNat ∧ p.toNat ≤ 32
  | v6 _, p => p.toNat ≤ 127

/-- The first `p` bits are equal. -/
def Agree (e : Endian) (a b : IPAddress) (p : UInt32) : Prop :=
  b.width = a.width ∧ ∀ i < p.toNat, b.bit e i = a.bit e i

/-- The network address of `a` is its bitwise and with the mask; taking it
again changes nothing; `b` has the same one if it agrees with `a`; and with
the complement of the mask it is the broadcast address. -/
def NetworkLaw (e : Endian) (a b : IPAddress) (p : UInt32) : Prop :=
  ∃ m n w, a.subnetMask e p = .ok (some m)
    ∧ a.netWordAddress e p = .ok (some n)
    ∧ a.broadcastAddress e p = .ok (some w)
    ∧ (SameRest a n ∧ ∀ i < a.width, n.bit e i = (a.bit e i && m.bit e i))
    ∧ n.netWordAddress e p = .ok (some n)
    ∧ (Agree e a b p → ∃ n', b.netWordAddress e p = .ok (some n')
      ∧ ∀ i < a.width, n'.bit e i = n.bit e i)
    ∧ ∀ i < a.width, (n.bit e i || !m.bit e i) = w.bit e i

/-- The mask is defined, there is no bit set from where `netWordAddress`
masks on, and `b` is `a` if it agrees with it. -/
structure NetworkFine (e : Endian) (a b : IPAddress) (p : UInt32) :
    Prop where
  defined : a.Defined p
  zero : ∀ i < a.width, a.start p ≤ i → a.bit e i = false
  apart : Agree e a b p → ∀ i < a.width, b.bit e i = a.bit e i

theorem width_of_inRange (h : a.InRange p) : p.toNat ≤ a.width := by
  cases a with
  | v4 a => exact h.2
  | v6 a => exact Nat.le_succ_of_le h

/-- The network address of a network address. -/
theorem netWordAddress_idem (h : a.Defined p) {n : IPAddress}
    (hn : a.netWordAddress e p = .ok (some n)) :
    n.netWordAddress e p = .ok (some n) := by
  obtain ⟨n', hn', hrest, hbits⟩ := @netWordAddress_spec e a p h
  cases hn.symm.trans hn'
  obtain ⟨n₂, hn₂, hrest₂, hbits₂⟩ :=
    @netWordAddress_spec e n p ((sameRest_defined hrest).mpr h)
  have hsame : n₂ = n := by
    refine ext_bits (e := e) hrest₂ fun i hi => ?_
    rw [hbits₂ i hi, sameRest_start hrest]
    rw [sameRest_width hrest] at hi
    rw [hbits i hi, Bool.and_assoc, Bool.and_self]
  rw [hn₂, hsame]

/-- The law holds exactly where nothing is to be cleared or kept. -/
theorem network_law_iff (hp : a.InRange p) :
    NetworkLaw e a b p ↔ NetworkFine e a b p := by
  constructor
  · rintro ⟨m, n, w, hm, hn, hw, ⟨hrest, hand⟩, hidem, hsame, hor⟩
    have hdef : a.Defined p := by
      by_contra h
      obtain ⟨u, hu⟩ := @subnetMask_undefined e a p (width_of_inRange hp) h
      rw [hu] at hm
      cases hm
    obtain ⟨m', hm', hmask⟩ := @subnetMask_spec e a p hdef
    cases hm.symm.trans hm'
    obtain ⟨n', hn', -, hbits⟩ := @netWordAddress_spec e a p hdef
    cases hn.symm.trans hn'
    refine ⟨hdef, fun i hi hstart => ?_, fun hagree i hi => ?_⟩
    · have heq := (hbits i hi).symm.trans (hand i hi)
      rw [hmask i hi] at heq
      cases hbit : a.bit e i with
      | false => rfl
      | true =>
          rw [hbit, Bool.true_and, Bool.true_and, decide_eq_decide] at heq
          omega
    · by_cases hlt : i < p.toNat
      · exact hagree.2 i hlt
      · obtain ⟨n', hn', heq⟩ := hsame hagree
        obtain ⟨n₂, hn₂, -, hbits₂⟩ :=
          @netWordAddress_spec e b p ((width_defined hagree.1).mpr hdef)
        cases hn'.symm.trans hn₂
        have heq := heq i hi
        have hge : p.toNat ≤ i := Nat.not_lt.mp hlt
        rw [hbits₂ i (hagree.1.symm ▸ hi), hbits i hi,
          decide_eq_true (.inr hge), decide_eq_true (.inr hge),
          Bool.and_true, Bool.and_true] at heq
        exact heq
  · rintro ⟨hdef, hzero, hapart⟩
    obtain ⟨m, hm, hmask⟩ := @subnetMask_spec e a p hdef
    obtain ⟨n, hn, hrest, hbits⟩ := @netWordAddress_spec e a p hdef
    obtain ⟨w, hw, -, hall⟩ := @broadcastAddress_spec e a p hdef
    have hle := @start_le a p
    have hnet : ∀ i < a.width, n.bit e i = a.bit e i := by
      intro i hi
      rw [hbits i hi]
      by_cases hlt : i < a.start p
      · rw [decide_eq_true (.inl hlt), Bool.and_true]
      · rw [hzero i hi (Nat.not_lt.mp hlt), Bool.false_and]
    have hand : ∀ i < a.width, (a.bit e i && decide (i < p.toNat))
        = a.bit e i := by
      intro i hi
      by_cases hlt : i < a.start p
      · rw [decide_eq_true (Nat.lt_of_lt_of_le hlt hle), Bool.and_true]
      · rw [hzero i hi (Nat.not_lt.mp hlt), Bool.false_and]
    refine ⟨m, n, w, hm, hn, hw, ⟨hrest, fun i hi => ?_⟩,
      netWordAddress_idem hdef hn, fun hagree => ?_, fun i hi => ?_⟩
    · rw [hnet i hi, hmask i hi, hand i hi]
    · obtain ⟨n', hn', -, hbits'⟩ :=
        @netWordAddress_spec e b p ((width_defined hagree.1).mpr hdef)
      refine ⟨n', hn', fun i hi => ?_⟩
      rw [hbits' i (hagree.1.symm ▸ hi), hbits i hi, hapart hagree i hi,
        width_start hagree.1]
    · rw [hnet i hi, hmask i hi, hall i hi, ← decide_not]
      congr 1
      exact decide_eq_decide.mpr Nat.not_lt

/-- The network `fe80::/64`, and a host in another one. -/
theorem network_law_iff_link_local :
    NetworkLaw .little
      (v6 ⟨AF_INET6, 0, 0, #v[0xfe, 0x80, 0, 0, 0, 0, 0, 0,
        0, 0, 0, 0, 0, 0, 0, 0], 0⟩)
      (v6 ⟨AF_INET6, 0, 0, #v[0xfe, 0x81, 0, 0, 0, 0, 0, 0,
        0, 0, 0, 0, 0, 0, 0, 1], 0⟩) 64 := by
  refine (network_law_iff (by unfold InRange; decide)).mpr
    ⟨by unfold Defined; decide, by unfold start; decide, fun h => ?_⟩
  have hbit := h.2 15 (by decide)
  revert hbit
  decide

/-- The network address of `192.168.1.1/24` comes out as `0.0.0.1`. -/
theorem network_keeps_host :
    IPv4Address.netWordAddress .little ⟨AF_INET, 0, 0x0101a8c0⟩ 24
        = .ok (some ⟨AF_INET, 0, 0x01000000⟩)
      ∧ ¬ NetworkLaw .little (v4 ⟨AF_INET, 0, 0x0101a8c0⟩)
        (v4 ⟨AF_INET, 0, 0x0101a8c0⟩) 24 := by
  have hnet : netWordAddress .little (v4 ⟨AF_INET, 0, 0x0101a8c0⟩) 24
      = .ok (some (v4 ⟨AF_INET, 0, 0x01000000⟩)) := by
    rfl
  refine ⟨by rfl, ?_⟩
  rintro ⟨m, n, w, hm, hn, -, ⟨-, hand⟩, -⟩
  cases hnet.symm.trans hn
  have hbit := hand 31 (by decide)
  have hmask : subnetMask .little (v4 ⟨AF_INET, 0, 0x0101a8c0⟩) 24
      = .ok (some (v4 ⟨AF_INET, 0, 0x00ffffff⟩)) := by
    rfl
  cases hmask.symm.trans hm
  revert hbit
  decide

end IPAddress

end TinyServer
