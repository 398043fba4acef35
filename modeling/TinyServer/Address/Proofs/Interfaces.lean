/-
`CountBytes` counts the ones, and `GetInterfaceAddress` reports the length
of a network mask.

The loop is followed by its rounds (`clear_iterate`); the number it gives
is that of the ones (`countBytes_eq`). Neither the order of the bytes of a
word nor a cut into bytes changes how many there are, so a mask of `p`
leading ones is counted as `p` (`prefixLen_eq`). A round of the loop over
the interfaces reports one, skips it or reads through a null pointer
(`round_has`, `round_skipped`, `round_unreadable`), and the loop reports
them in order (`walk_reported`).
-/
import TinyServer.Address.Interfaces
import TinyServer.Address.Proofs.Masks

namespace TinyServer

open Http (Bytes ascii)
open Lib.BitCount

-- ==================================================================== counting

section

variable {w : Nat} {v : BitVec w}

/-- The loop counts the bits that are left, -/
theorem countLoop_eq (value : BitVec w) (result : UInt32) :
    countLoop value result = result + UInt32.ofNat value.cpop.toNat := by
  fun_induction countLoop value result with
  | case1 result =>
      rw [BitVec.ofNat_eq_ofNat, BitVec.cpop_zero]
      exact (UInt32.add_zero result).symm
  | case2 value result hne ih =>
      rw [← cpop_clear hne, UInt32.ofNat_add,
        UInt32.add_comm _ (UInt32.ofNat 1),
        ← UInt32.add_assoc]
      exact ih

/-- and so all of them. -/
theorem countBytes_eq (v : BitVec w) :
    countBytes v = UInt32.ofNat v.cpop.toNat := by
  rw [countBytes, countLoop_eq, UInt32.zero_add]

/-- The count fits in the result. -/
theorem toNat_countBytes (hw : w < 2 ^ 32) :
    (countBytes v).toNat = v.cpop.toNat := by
  have hlt : v.cpop.toNat < UInt32.size :=
    Nat.lt_of_le_of_lt (BitVec.toNat_cpop_le v) hw
  rw [countBytes_eq, UInt32.toNat_ofNat_of_lt' hlt]

end

/-- The loop ends after as many rounds as there are ones in the value, and
not before, and the result is their number. -/
structure Counts {w : Nat} (value : BitVec w) : Prop where
  ends : clear^[value.cpop.toNat] value = 0
  goes : ∀ k < value.cpop.toNat, clear^[k] value ≠ 0
  mod : countBytes value = UInt32.ofNat value.cpop.toNat
  count : w < 2 ^ 32 → (countBytes value).toNat = value.cpop.toNat

/-- For every width. -/
theorem counts {w : Nat} (value : BitVec w) : Counts value where
  ends := (clear_iterate value).1
  goes := (clear_iterate value).2
  mod := countBytes_eq value
  count := toNat_countBytes

-- ======================================================================= masks

/-- A word is its four bytes. -/
theorem append_bytes (v : BitVec 32) :
    v.extractLsb' 24 8 ++ v.extractLsb' 16 8 ++ v.extractLsb' 8 8
      ++ v.extractLsb' 0 8 = v := by
  apply BitVec.eq_of_getLsbD_eq
  intro i hi
  have hlt : i % 8 < 8 := Nat.mod_lt i (by omega)
  rw [getLsbD_bytes (fun k => v.extractLsb' (8 * k) 8) hi,
    BitVec.getLsbD_extractLsb', decide_eq_true hlt, Bool.true_and,
    Nat.div_add_mod]

/-- Reversing the bytes does not change the count. -/
theorem cpop_bswap32 (v : BitVec 32) :
    (bswap32 v).cpop.toNat = v.cpop.toNat := by
  have hbytes := congrArg (fun u => u.cpop.toNat) (append_bytes v)
  simp only [BitVec.toNat_cpop_append] at hbytes
  unfold bswap32
  simp only [BitVec.toNat_cpop_append]
  omega

/-- Nor does either byte order. -/
theorem cpop_byteswap32 (e : Endian) (v : BitVec 32) :
    (byteswapOnLittleEndian32 e v).cpop.toNat = v.cpop.toNat := by
  cases e with
  | little => exact cpop_bswap32 v
  | big => rfl

/-- `p` leading ones, and then zeros. -/
def IPAddress.IsMask (e : Endian) (m : IPAddress) (p : Nat) : Prop :=
  p ≤ m.width ∧ ∀ i < m.width, m.bit e i = decide (i < p)

section

variable {e : Endian} {p : Nat}

/-- A mask of `p` leading bits has the length `p`. -/
theorem toNat_countBytes_mask {m : IPv4Address}
    (h : (IPAddress.v4 m).IsMask e p) :
    (countBytes m.sAddr).toNat = p := by
  obtain ⟨hp, hbits⟩ := h
  have hword : ∀ i < 32, (byteswapOnLittleEndian32 e m.sAddr).getMsbD i
      = decide (i < p) := hbits
  rw [toNat_countBytes (by decide), ← cpop_byteswap32 e, cpop_of_leading hword]
  exact Nat.min_eq_right hp

/-- The bytes of a mask have the ones that are before its end. -/
theorem sum_of_leading {base : Nat} {bytes : List (BitVec 8)}
    (h : ∀ k (hk : k < bytes.length), ∀ j < 8,
      bytes[k].getMsbD j = decide (base + 8 * k + j < p)) :
    (bytes.map fun byte => byte.cpop.toNat).sum
      = min (8 * bytes.length) (p - base) := by
  induction bytes generalizing base with
  | nil => exact (Nat.zero_min _).symm
  | cons byte bytes ih =>
      have hfirst : ∀ j < 8, byte.getMsbD j = decide (j < p - base) := by
        intro j hj
        have hbit := h 0 (Nat.zero_lt_succ _) j hj
        rw [List.getElem_cons_zero] at hbit
        rw [hbit]
        exact decide_eq_decide.mpr (by omega)
      have hrest : ∀ k (hk : k < bytes.length), ∀ j < 8,
          bytes[k].getMsbD j = decide (base + 8 + 8 * k + j < p) := by
        intro k hk j hj
        have hbit := h (k + 1) (Nat.succ_lt_succ hk) j hj
        rw [List.getElem_cons_succ] at hbit
        rw [hbit]
        exact decide_eq_decide.mpr (by omega)
      rw [List.map_cons, List.sum_cons, ih hrest, cpop_of_leading hfirst,
        List.length_cons]
      omega

/-- The sum of the counts of the bytes. -/
theorem foldl_countBytes (bytes : List (BitVec 8)) (prefixLen : UInt32) :
    bytes.foldl (fun prefixLen byte => prefixLen + countBytes byte) prefixLen
      = prefixLen
        + UInt32.ofNat (bytes.map fun byte => byte.cpop.toNat).sum := by
  induction bytes generalizing prefixLen with
  | nil => exact (UInt32.add_zero prefixLen).symm
  | cons byte bytes ih =>
      rw [List.foldl_cons, ih, countBytes_eq, List.map_cons, List.sum_cons,
        UInt32.ofNat_add, UInt32.add_assoc]

/-- So has an IPv6 mask. -/
theorem toNat_countAll_mask {m : IPv6Address}
    (h : (IPAddress.v6 m).IsMask e p) :
    (Address.countAll m.s6Addr).toNat = p := by
  obtain ⟨hp, hbits⟩ := h
  have hle : p ≤ 128 := hp
  have hbytes : ∀ k (hk : k < m.s6Addr.toList.length), ∀ j < 8,
      m.s6Addr.toList[k].getMsbD j = decide (0 + 8 * k + j < p) := by
    intro k hk j hj
    rw [Vector.length_toList] at hk
    have hdiv : (8 * k + j) / 8 = k := by omega
    have hmod : (8 * k + j) % 8 = j := by omega
    have hbit : m.bit (8 * k + j) = decide (8 * k + j < p) :=
      hbits (8 * k + j) (show 8 * k + j < 128 by omega)
    rw [IPv6Address.bit_eq (by omega)] at hbit
    simp only [hdiv, hmod] at hbit
    rw [Vector.getElem_toList, hbit, Nat.zero_add]
  have hsum : (m.s6Addr.toList.map fun byte => byte.cpop.toNat).sum = p := by
    rw [sum_of_leading hbytes, Vector.length_toList]
    omega
  rw [Address.countAll, foldl_countBytes, hsum, UInt32.zero_add,
    UInt32.toNat_ofNat_of_lt' (Nat.lt_of_le_of_lt hle (by decide))]

end

-- ================================================================== interfaces

/-- The family is asked for. -/
def Asked (family : BitVec 32) (addr : Sockaddr) : Prop :=
  family = AF_UNSPEC.setWidth 32 ∨ family = addr.saFamily.setWidth 32

/-- An interface of the family, with its address and its mask. -/
inductive Ifaddrs.Has (family : BitVec 32) (next : Ifaddrs) :
    IPAddress → IPAddress → Prop
  | inet {a : IPv4Address} {h : a.family = AF_INET} {netmask : Netmask}
      (addr : next.ifaAddr = some (.inet a h))
      (asked : Asked family (.inet a h))
      (mask : next.ifaNetmask = some netmask) :
      Has family next (.v4 a) (.v4 netmask.sockaddrIn)
  | inet6 {a : IPv6Address} {h : a.family = AF_INET6} {netmask : Netmask}
      (addr : next.ifaAddr = some (.inet6 a h))
      (asked : Asked family (.inet6 a h))
      (mask : next.ifaNetmask = some netmask) :
      Has family next (.v6 a) (.v6 netmask.sockaddrIn6)

/-- An interface of another family, or of none that is an IP family. -/
inductive Ifaddrs.Skipped (family : BitVec 32) (next : Ifaddrs) : Prop
  | family {a : Sockaddr} (addr : next.ifaAddr = some a)
    (asked : ¬ Asked family a)
  | other {f : BitVec 16} {h : f ≠ AF_INET ∧ f ≠ AF_INET6}
      (addr : next.ifaAddr = some (.other f h))

/-- The pointers that are read are not null: `ifa_addr`, and `ifa_netmask`
where there is an IP address that is asked for. -/
def Ifaddrs.Readable (family : BitVec 32) (next : Ifaddrs) : Prop :=
  ∃ a, next.ifaAddr = some a
    ∧ (Asked family a → a.saFamily = AF_INET ∨ a.saFamily = AF_INET6 →
      next.ifaNetmask ≠ none)

/-- A name, and what is inserted under it. -/
abbrev Inserted := Bytes × IPAddress × UInt32

/-- The items for a list of interfaces: the address of each one, and the
length of its mask. -/
inductive Reports (e : Endian) (family : BitVec 32) :
    List Ifaddrs → List Inserted → Prop
  | nil : Reports e family [] []
  | skip {next : Ifaddrs} {ifs : List Ifaddrs} {items : List Inserted}
      (h : next.Skipped family) (rest : Reports e family ifs items) :
      Reports e family (next :: ifs) items
  | item {next : Ifaddrs} {ifs : List Ifaddrs} {items : List Inserted}
      {address mask : IPAddress} {prefixLen : UInt32}
      (h : next.Has family address mask)
      (len : ∀ p, mask.IsMask e p → prefixLen.toNat = p)
      (rest : Reports e family ifs items) :
      Reports e family (next :: ifs) ((next.ifaName, address, prefixLen)
        :: items)

/-- The values under a name. -/
def under (key : Bytes) (items : List Inserted) : List (IPAddress × UInt32) :=
  (items.filter fun item => item.1 = key).map Prod.snd

namespace Address

variable {e : Endian} {family : BitVec 32} {next : Ifaddrs}

/-- The number of ones in a mask. -/
def prefixLen : IPAddress → UInt32
  | .v4 m => countBytes m.sAddr
  | .v6 m => countAll m.s6Addr

/-- The length that is reported, of either class. -/
theorem prefixLen_eq {m : IPAddress} {p : Nat} (h : m.IsMask e p) :
    (prefixLen m).toNat = p := by
  cases m with
  | v4 m => exact toNat_countBytes_mask h
  | v6 m => exact toNat_countAll_mask h

/-- The length of a subnet mask, where there is one. -/
theorem prefixLen_subnetMask {a : IPAddress} {p : UInt32} (h : a.Defined p) :
    ∃ m, a.subnetMask e p = .ok (some m) ∧ (prefixLen m).toNat = p.toNat := by
  cases a with
  | v4 a =>
      obtain ⟨m, hm, hbits⟩ := @IPv4Address.subnetMask_spec e p h.1 h.2
      have hmask : (IPAddress.v4 m).IsMask e p.toNat := ⟨h.2, hbits⟩
      exact ⟨.v4 m, IPAddress.map_ok IPAddress.v4 hm, prefixLen_eq hmask⟩
  | v6 a =>
      obtain ⟨m, hm, hbits⟩ := @IPv6Address.subnetMask_spec p h
      have hmask : (IPAddress.v6 m).IsMask e p.toNat := ⟨Nat.le_of_lt h, hbits⟩
      exact ⟨.v6 m, IPAddress.map_ok IPAddress.v6 hm, prefixLen_eq hmask⟩

/-- The test of the family. -/
theorem asked_iff {a : Sockaddr} : Asked family a
    ↔ ¬(family ≠ AF_UNSPEC.setWidth 32 ∧ family ≠ a.saFamily.setWidth 32) :=
  or_iff_not_and_not

/-- What a round does at an interface of the family. -/
theorem round_has {address mask : IPAddress}
    (h : next.Has family address mask) :
    round family next = some (some (address, prefixLen mask)) := by
  cases h with
  | inet addr asked mask =>
      unfold round
      rw [addr]
      dsimp only
      rw [if_neg (asked_iff.mp asked), mask]
      rfl
  | inet6 addr asked mask =>
      unfold round
      rw [addr]
      dsimp only
      rw [if_neg (asked_iff.mp asked), mask]
      rfl

/-- And at another one. -/
theorem round_skipped (h : next.Skipped family) :
    round family next = some none := by
  cases h with
  | family addr asked =>
      unfold round
      rw [addr]
      exact if_pos (not_or.mp asked)
  | other addr =>
      unfold round
      rw [addr]
      exact ite_self _

/-- An entry that can be read is skipped or has an address with a mask. -/
theorem readable_iff : next.Readable family
    ↔ next.Skipped family ∨ ∃ address mask, next.Has family address mask := by
  constructor
  · rintro ⟨a, addr, hmask⟩
    by_cases asked : Asked family a
    · cases a with
      | inet a h =>
          obtain ⟨netmask, mask⟩ :=
            Option.ne_none_iff_exists'.mp (hmask asked (.inl h))
          exact .inr ⟨_, _, .inet addr asked mask⟩
      | inet6 a h =>
          obtain ⟨netmask, mask⟩ :=
            Option.ne_none_iff_exists'.mp (hmask asked (.inr h))
          exact .inr ⟨_, _, .inet6 addr asked mask⟩
      | other f h => exact .inl (.other addr)
    · exact .inl (.family addr asked)
  · rintro (h | ⟨address, mask, h⟩)
    · cases h with
      | family addr asked => exact ⟨_, addr, fun h => absurd h asked⟩
      | @other f h addr =>
          exact ⟨_, addr, fun _ hip => absurd hip (not_or.mpr h)⟩
    · cases h with
      | inet addr asked mask =>
          exact ⟨_, addr, fun _ _ => mask ▸ Option.some_ne_none _⟩
      | inet6 addr asked mask =>
          exact ⟨_, addr, fun _ _ => mask ▸ Option.some_ne_none _⟩

/-- A null pointer is read. -/
theorem round_unreadable (h : ¬ next.Readable family) :
    round family next = none := by
  unfold round
  cases haddr : next.ifaAddr with
  | none => rfl
  | some a =>
      have asked : Asked family a := by
        by_contra asked
        exact h ⟨a, haddr, fun hasked => absurd hasked asked⟩
      have hnull : (a.saFamily = AF_INET ∨ a.saFamily = AF_INET6)
          ∧ next.ifaNetmask = none := by
        by_contra hread
        exact h ⟨a, haddr, fun _ hip hnull => hread ⟨hip, hnull⟩⟩
      dsimp only
      rw [if_neg (asked_iff.mp asked), hnull.2]
      cases a with
      | inet a h => rfl
      | inet6 a h => rfl
      | other f h => exact absurd hnull.1 (not_or.mpr h)

/-- An insertion goes behind those of the same name. -/
theorem insert_under {result : Interfaces} {items : List Inserted}
    (name : Bytes) (value : IPAddress × UInt32) (key : Bytes) :
    result.insert name value key ++ under key items
      = result key ++ under key ((name, value) :: items) := by
  unfold Interfaces.insert under
  by_cases hkey : name = key
  · subst hkey
    rw [Function.update_self, List.filter_cons_of_pos (by simp), List.map_cons,
      List.append_assoc]
    rfl
  · rw [Function.update_of_ne (Ne.symm hkey),
      List.filter_cons_of_neg (by simpa using hkey)]

/-- The loop reports the interfaces, whatever there was before. -/
theorem walk_reported {ifs : List Ifaddrs}
    (h : ∀ next ∈ ifs, next.Readable family) :
    ∃ items, Reports e family ifs items ∧ ∀ result, ∃ out,
      walk family ifs result = some out
        ∧ ∀ key, out key = result key ++ under key items := by
  induction ifs with
  | nil =>
      refine ⟨[], .nil, fun result => ⟨result, rfl, fun key => ?_⟩⟩
      exact (List.append_nil _).symm
  | cons next ifs ih =>
      obtain ⟨items, hitems, hwalk⟩ := ih fun n hn => h n (.tail _ hn)
      rcases readable_iff.mp (h next (.head _)) with
        hskip | ⟨address, mask, hhas⟩
      · refine ⟨items, .skip hskip hitems, fun result => ?_⟩
        rw [walk, round_skipped hskip]
        exact hwalk result
      · refine ⟨_, .item hhas (fun p => prefixLen_eq) hitems, fun result => ?_⟩
        obtain ⟨out, hout, hkeys⟩ :=
          hwalk (result.insert next.ifaName (address, prefixLen mask))
        rw [walk, round_has hhas]
        refine ⟨out, hout, fun key => ?_⟩
        rw [hkeys key, insert_under]

/-- An entry that cannot be read breaks the walk. -/
theorem walk_unreadable {ifs : List Ifaddrs} (hmem : next ∈ ifs)
    (h : ¬ next.Readable family) (result : Interfaces) :
    walk family ifs result = none := by
  induction ifs generalizing result with
  | nil => cases hmem
  | cons n ifs ih =>
      rw [walk]
      cases hmem with
      | head => rw [round_unreadable h]
      | tail _ hmem =>
          split
          next => rfl
          next => exact ih hmem result
          next value _ => exact ih hmem (result.insert n.ifaName value)

/-- And nothing else does. -/
theorem walk_isSome {ifs : List Ifaddrs} {result : Interfaces} :
    (walk family ifs result).isSome ↔ ∀ next ∈ ifs, next.Readable family := by
  constructor
  · intro hsome next hmem
    by_contra hnull
    rw [walk_unreadable hmem hnull] at hsome
    cases hsome
  · intro h
    obtain ⟨_, -, hwalk⟩ := @walk_reported .little family ifs h
    obtain ⟨out, hout, -⟩ := hwalk result
    rw [hout]
    rfl

/-- What is there when the loop is through. -/
theorem walk_items {ifs : List Ifaddrs} {result out : Interfaces}
    (hout : walk family ifs result = some out) :
    ∃ items, Reports e family ifs items
      ∧ ∀ key, out key = result key ++ under key items := by
  have hread := walk_isSome.mp (Option.isSome_of_eq_some hout)
  obtain ⟨items, hitems, hwalk⟩ := @walk_reported e family ifs hread
  obtain ⟨out', hout', hkeys⟩ := hwalk result
  rw [hout, Option.some.injEq] at hout'
  exact ⟨items, hitems, hout' ▸ hkeys⟩

/-- The two functions return where no null pointer is read. What they
insert then are the items for the interfaces, under the name of each or
of the name that is asked for. -/
structure Reported (e : Endian) (family : BitVec 32) (ifs : List Ifaddrs) :
    Prop where
  defined : ∀ result, (getInterfaceAddress (some ifs) family result).isSome
    ↔ ∀ next ∈ ifs, next.Readable family
  reports : ∀ result done out,
    getInterfaceAddress (some ifs) family result = some (done, out) →
      done = true ∧ ∃ items, Reports e family ifs items
        ∧ ∀ key, out key = result key ++ under key items
  definedOf : ∀ iface result, iface ≠ [] → iface ≠ ascii "*" →
    ((getInterfaceAddressOf (some ifs) iface family result).isSome
      ↔ ∀ next ∈ ifs, next.Readable family)
  reportsOf : ∀ iface result done out, iface ≠ [] → iface ≠ ascii "*" →
    getInterfaceAddressOf (some ifs) iface family result = some (done, out) →
      done = true ∧ ∃ items, Reports e family ifs items
        ∧ out = result ++ under iface items

/-- The result after `getifaddrs` has succeeded. -/
theorem getInterfaceAddress_some (ifs : List Ifaddrs) (result : Interfaces) :
    getInterfaceAddress (some ifs) family result
      = (walk family ifs result).map fun result => (true, result) := rfl

/-- The vector gets what is inserted under the name. -/
theorem getInterfaceAddressOf_some (ifs : List Ifaddrs) {iface : Bytes}
    (hne : iface ≠ []) (hstar : iface ≠ ascii "*")
    (result : List (IPAddress × UInt32)) :
    getInterfaceAddressOf (some ifs) iface family result
      = (walk family ifs fun _ => []).map fun results =>
          (true, result ++ results iface) := by
  rw [getInterfaceAddressOf, if_neg (not_or.mpr ⟨hne, hstar⟩),
    getInterfaceAddress_some]
  cases walk family ifs fun _ => [] with
  | none => rfl
  | some results => rfl

/-- What is reported of every list. -/
theorem reported (e : Endian) (family : BitVec 32) (ifs : List Ifaddrs) :
    Reported e family ifs where
  defined result := by
    rw [getInterfaceAddress_some, Option.isSome_map]
    exact walk_isSome
  reports result done out h := by
    rw [getInterfaceAddress_some] at h
    obtain ⟨out', hout, heq⟩ := Option.map_eq_some_iff.mp h
    cases heq
    exact ⟨rfl, walk_items hout⟩
  definedOf iface result hne hstar := by
    rw [getInterfaceAddressOf_some ifs hne hstar, Option.isSome_map]
    exact walk_isSome
  reportsOf iface result done out hne hstar h := by
    rw [getInterfaceAddressOf_some ifs hne hstar] at h
    obtain ⟨results, hout, heq⟩ := Option.map_eq_some_iff.mp h
    cases heq
    obtain ⟨items, hitems, hkeys⟩ := walk_items hout
    refine ⟨rfl, items, hitems, ?_⟩
    rw [hkeys iface, List.nil_append]

example : ((getInterfaceAddress (some
    [⟨ascii "lo", some (.inet ⟨AF_INET, 0, 0x0100007f⟩ rfl),
      some ⟨⟨AF_INET, 0, 0xff⟩, ⟨AF_INET6, 0, 0, .replicate 16 0, 0⟩⟩⟩])
    (AF_INET.setWidth 32) fun _ => []).map fun r => r.2 (ascii "lo"))
      = some [(.v4 ⟨AF_INET, 0, 0x0100007f⟩, 8)] := by
  decide +kernel

/-- The ones of every value are counted, and the prefix lengths that are
reported are those of the masks. -/
theorem prefix_lengths (e : Endian) :
    (∀ {w : Nat} (value : BitVec w), Counts value)
      ∧ ∀ (family : BitVec 32) (ifs : List Ifaddrs), Reported e family ifs :=
  ⟨counts, reported e⟩

end Address

end TinyServer
