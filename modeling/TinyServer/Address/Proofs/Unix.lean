/-
What a path becomes in a Unix address, and what is printed of it.

A path in the file system is stored with its NUL, and printed up to it
(`insert_file`). The name of an abstract path is printed with as many bytes
as `sun_path` has of it, its leading NUL included, and so with one too many
(`insert_abstract`); the empty path is taken for one. And a path may be as
long as to fit once its size is cut off (`create_eq`).
-/
import TinyServer.Address.Unix
import TinyServer.Http.Proofs.Headers

namespace TinyServer

open Http (Bytes ascii cStr)

namespace UnixAddress

variable {path rest : Bytes} {a : UnixAddress}

/-- The bytes that a path takes in `sun_path`: with a NUL, unless it is
abstract. -/
def needed (path : Bytes) : Nat :=
  path.length + if path.head? = some 0 then 0 else 1

/-- The path is stored and printed exactly. -/
structure Exact (path : Bytes) : Prop where
  throws : (∃ what, create path = .error what) ↔ 108 < needed path
  prints : ∀ a, create path = .ok a → ∃ t r, a.insert = .ok (t, r)
    ∧ r ≤ a.getAddrLen ∧ (0 ∉ path → t = path)
    ∧ ∀ rest, path = 0 :: rest → t = ascii "\\0" ++ rest

/-- What the constructor does, by the number of bytes in `m_length`. -/
theorem create_eq (path : Bytes) : create path =
    if 108 < needed path % 2 ^ 32 then .error "path too long"
    else .ok ⟨AF_UNIX, zeroed ((path ++ [0]).take (needed path % 2 ^ 32)),
      UInt32.ofNat (needed path) + 2⟩ := by
  have hlength : (if path.head? = some 0 then UInt32.ofNat (path.length + 1) - 1
      else UInt32.ofNat (path.length + 1)) = UInt32.ofNat (needed path) := by
    unfold needed
    split
    next =>
      rw [UInt32.ofNat_add]
      exact UInt32.add_sub_cancel _ _
    next => rfl
  unfold create
  simp only [hlength, UInt32.lt_iff_toNat_lt, UInt32.toNat_ofNat]
  rfl

theorem create_ok (h : needed path ≤ 108) : create path =
    .ok ⟨AF_UNIX, zeroed ((path ++ [0]).take (needed path)),
      UInt32.ofNat (needed path) + 2⟩ := by
  have hmod : needed path % 2 ^ 32 = needed path := Nat.mod_eq_of_lt (by omega)
  rw [create_eq, hmod, if_neg (by omega)]

theorem zeroed_toList {bs : Bytes} (h : bs.length ≤ 108) :
    (zeroed bs).toList = bs ++ List.replicate (108 - bs.length) 0 := by
  show (bs ++ List.replicate 108 0).take 108 = _
  rw [List.take_append, List.take_of_length_le h, List.take_replicate]
  congr 2
  omega

theorem cStr_stop (s t : Bytes) : cStr (s ++ 0 :: t) = cStr s := by
  unfold cStr
  induction s with
  | nil => rfl
  | cons b s ih =>
      rw [List.cons_append, List.takeWhile_cons, List.takeWhile_cons, ih]

theorem getAddrLen_ofNat {f : BitVec 16} {v : Vector UInt8 108} {n : Nat}
    (h : n ≤ 108) : getAddrLen ⟨f, v, UInt32.ofNat n + 2⟩ = n + 2 := by
  show (UInt32.ofNat n + 2).toNat = n + 2
  rw [UInt32.toNat_add, UInt32.toNat_ofNat']
  show (n % 2 ^ 32 + 2) % 2 ^ 32 = n + 2
  omega

theorem first_of_toList {v : Vector UInt8 108} {b : UInt8} {bs : Bytes}
    (h : v.toList = b :: bs) (hpos : 0 < 108) : v[0] = b := by
  have hget : v.toList[0]? = some b := by
    rw [h]
    rfl
  rw [← Vector.getElem_toList (by simp)]
  exact List.getElem_eq_iff (by simp) |>.mpr hget

/-- A path in the file system is printed up to its first NUL. -/
theorem insert_file (hne : path ≠ []) (hfile : path.head? ≠ some 0)
    (hfit : path.length + 1 ≤ 108) :
    ∃ a, create path = .ok a ∧ a.getAddrLen = path.length + 3
      ∧ a.insert = .ok (cStr path, sunPathOffset + (cStr path).length + 1) := by
  have hneeded : needed path = path.length + 1 := by rw [needed, if_neg hfile]
  have hlist : (zeroed (path ++ [0])).toList
      = path ++ 0 :: List.replicate (107 - path.length) 0 := by
    rw [zeroed_toList (by simpa using hfit)]
    simp
  have htake : (path ++ [0]).take (needed path) = path ++ [0] :=
    List.take_of_length_le (by rw [hneeded]; simp)
  have hcreate : create path = .ok ⟨AF_UNIX, zeroed (path ++ [0]),
      UInt32.ofNat (needed path) + 2⟩ := by
    rw [create_ok (by omega), htake]
  refine ⟨_, hcreate, ?_, ?_⟩
  · rw [getAddrLen_ofNat (by omega), hneeded]
  · have hfirst : (zeroed (path ++ [0]))[0] ≠ 0 := by
      obtain ⟨b, bs, rfl⟩ := List.exists_cons_of_ne_nil hne
      rw [first_of_toList hlist (by decide)]
      exact fun hb => hfile (congrArg some hb)
    have hshort : (cStr path).length < 108 :=
      lt_of_le_of_lt (List.takeWhile_sublist _).length_le (by omega)
    unfold insert readText
    rw [if_neg fun h => hfirst h.2]
    simp only [hlist, cStr_stop, if_pos hshort]
    show Except.ok (_, max 0 _) = _
    rw [Nat.zero_max]
    rfl

/-- What is printed of an abstract path has a byte behind the path in it. -/
theorem insert_abstract (rest : Bytes) (hfit : rest.length + 1 ≤ 108) :
    ∃ a, create (0 :: rest) = .ok a
      ∧ ∀ t r, a.insert = .ok (t, r) → t.length = rest.length + 3 := by
  have hneeded : needed (0 :: rest) = rest.length + 1 := rfl
  have hlist : (zeroed ((0 :: rest ++ [0]).take (needed (0 :: rest)))).toList
      = 0 :: (rest ++ List.replicate (107 - rest.length) 0) := by
    have htake : (0 :: rest ++ [0]).take (needed (0 :: rest)) = 0 :: rest :=
      List.take_left' rfl
    rw [htake, zeroed_toList (by simpa using hfit)]
    simp
  have hlen :
      ∀ v, getAddrLen ⟨AF_UNIX, v, UInt32.ofNat (needed (0 :: rest)) + 2⟩
      = sunPathOffset + (rest.length + 1) := by
    intro v
    rw [getAddrLen_ofNat (by omega), hneeded, Nat.add_comm]
    rfl
  have hempty : ∀ s, cStr (0 :: s) = [] := fun _ => rfl
  refine ⟨_, create_ok (by omega), fun t r h => ?_⟩
  unfold insert at h
  rw [if_pos ⟨by rw [hlen]; omega, first_of_toList hlist (by decide)⟩, hlen,
    Nat.add_sub_cancel_left] at h
  unfold readBytes readText at h
  split at h
  next hin =>
    simp only [hlist, hempty] at h
    cases h
    show ((List.take _ _) ++ []).length + 2 = _
    rw [List.append_nil, List.length_take, List.drop_one, List.tail_cons,
      List.length_append, List.length_replicate]
    omega
  next => cases h

/-- The empty path is printed as an abstract one. -/
theorem insert_empty : ∃ a, create [] = .ok a
    ∧ a.insert = .ok (ascii "\\0" ++ [0], 4) :=
  ⟨_, rfl, by decide⟩

/-- The paths that are stored and printed exactly. -/
theorem exact_iff (path : Bytes) : Exact path ↔ 108 < needed path % 2 ^ 32
    ∨ needed path ≤ 108 ∧ path ≠ [] ∧ path.head? ≠ some 0 := by
  constructor
  · intro ⟨hthrows, hprints⟩
    by_cases hbig : 108 < needed path
    · -- too long, and so it must be seen to be too long
      obtain ⟨what, hwhat⟩ := hthrows.mpr hbig
      refine .inl (not_le.mp fun hle => ?_)
      rw [create_eq, if_neg (not_lt.mpr hle)] at hwhat
      cases hwhat
    · have hle : needed path ≤ 108 := not_lt.mp hbig
      refine .inr ⟨hle, ?_, ?_⟩
      · rintro rfl
        obtain ⟨a, hcreate, hempty⟩ := insert_empty
        obtain ⟨t, r, hinsert, -, ht, -⟩ := hprints a hcreate
        rw [ht List.not_mem_nil, hempty] at hinsert
        cases hinsert
      · intro habs
        obtain ⟨rest, rfl⟩ : ∃ rest, path = 0 :: rest := by
          cases path with
          | nil => cases habs
          | cons b rest =>
              cases habs
              exact ⟨rest, rfl⟩
        obtain ⟨a, hcreate, hlong⟩ := insert_abstract rest hle
        obtain ⟨t, r, hinsert, -, -, ht⟩ := hprints a hcreate
        have hlen := hlong t r hinsert
        rw [ht rest rfl, List.length_append] at hlen
        have htwo : (ascii "\\0").length = 2 := rfl
        omega
  · rintro (hbig | ⟨hle, hne, hfile⟩)
    · have hcreate : create path = .error "path too long" := by
        rw [create_eq, if_pos hbig]
      refine ⟨⟨fun _ => ?_, fun _ => ⟨_, hcreate⟩⟩, fun a ha => ?_⟩
      · exact lt_of_lt_of_le hbig (Nat.mod_le _ _)
      · rw [hcreate] at ha
        cases ha
    · have hneeded : needed path = path.length + 1 := by
        rw [needed, if_neg hfile]
      obtain ⟨a, hcreate, hlen, hinsert⟩ := insert_file hne hfile (by omega)
      refine ⟨⟨fun ⟨what, hwhat⟩ => ?_, fun hbig => absurd hle (by omega)⟩, ?_⟩
      · rw [hcreate] at hwhat
        cases hwhat
      · intro a' ha'
        cases hcreate.symm.trans ha'
        refine ⟨_, _, hinsert, ?_, Http.cStr_eq_self, fun rest hrest => ?_⟩
        · have hshort : (cStr path).length ≤ path.length :=
            (List.takeWhile_sublist _).length_le
          show 2 + _ + 1 ≤ _
          omega
        · exact absurd (congrArg List.head? hrest) hfile

/-- An abstract path, and what is printed of it. -/
theorem abstract_prints_one_more : ¬ Exact (0 :: ascii "x") := by
  intro h
  obtain ⟨a, hcreate, hlong⟩ := insert_abstract (ascii "x") (by decide)
  obtain ⟨t, r, hinsert, -, -, ht⟩ := h.prints a hcreate
  exact absurd (ht _ rfl ▸ hlong t r hinsert) (by decide)

end UnixAddress

end TinyServer
