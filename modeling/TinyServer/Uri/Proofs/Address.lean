/-
The port of the address for a URI.

The digits of a port are a `long` first, then an `int`, a `uint32_t`, an
`int32_t` and at last a `uint16_t` (`storedPort_digits`). None of it is
lost below 65536; above, a port is not refused. And a port 0 is none, so
that the scheme has the say (`getPort`).
-/
import TinyServer.Uri.Address
import TinyServer.Uri.Proofs.Faithful

namespace TinyServer.Uri

open Http (Bytes ascii digitsValue digitVal strtol dropHexMark)

variable {e : Endian} {s p rest : Bytes} {u : Uri} {n : Nat}
  {getaddrinfo : Bytes → Option Bytes → Option (List (Option IPAddress))}

/-- The port of the address is the one of the text. -/
structure PortExact (e : Endian)
    (getaddrinfo : Bytes → Option Bytes → Option (List (Option IPAddress)))
    (s : Bytes) (u : Uri) : Prop where
  address : ∀ p, portOf (.split s) = some p → p ≠ [] →
    ∀ a, u.createAddress e getaddrinfo = some a →
      (a.getPort e).toNat = digitsValue 10 0 p
  range : ∀ p, portOf (.split s) = some p → p ≠ [] → digitsValue 10 0 p ≤ 65535
  getPort : 0 ≤ u.getPort

/-- The scheme has a port of its own. -/
def WebScheme (r : Reference) : Prop :=
  r.scheme = some (ascii "http") ∨ r.scheme = some (ascii "https")

/-- The host of a reference. -/
def hostOf (r : Reference) : Bytes := (r.authority.map Authority.host).getD []

/-- The port is below 65536, and 0 only where it is not another one. -/
def PortFine
    (getaddrinfo : Bytes → Option Bytes → Option (List (Option IPAddress)))
    (s : Bytes) : Prop :=
  ∀ p, portOf (.split s) = some p → p ≠ [] → digitsValue 10 0 p ≤ 65535
    ∧ (digitsValue 10 0 p = 0 → WebScheme (.split s) →
      Address.lookupIPAddress getaddrinfo (hostOf (.split s)) = none)

-- ================================================================== the widths

theorem atoiPort_digits (hne : p ≠ []) (hp : ∀ b ∈ p, classOf b = .digit)
    (hrest : ∀ b bs, rest = b :: bs → ¬(48 ≤ b ∧ b ≤ 57)) :
    atoiPort (p ++ rest) = min (digitsValue 10 0 p) (2 ^ 63 - 1) % 2 ^ 32 := by
  have hvalue : strtol 10 (p ++ rest)
      = min (digitsValue 10 0 p : Int) (2 ^ 63 - 1) :=
    Http.strtol_digits hne
      (fun b hb => Http.digitVal_ten.mpr (classOf_digit.mp (hp b hb)))
      (fun b bs hb => Option.not_isSome_iff_eq_none.mp fun h =>
        hrest b bs hb (Http.digitVal_ten.mp h)) (Http.dropHexMark_ten _)
  unfold atoiPort Http.toInt
  rw [hvalue]
  omega

theorem storedPort_digits (hport : portOf (.split s) = some p) (hne : p ≠ [])
    (hp : ∀ b ∈ p, classOf b = .digit) :
    storedPort (.split s) = min (digitsValue 10 0 p) (2 ^ 63 - 1) % 2 ^ 32 := by
  have hroot := split_rooted (authority_of_port hport)
  unfold storedPort
  rw [hport]
  dsimp only
  rw [if_neg hne]
  exact atoiPort_digits hne hp (rooted_digit hroot rfl)

theorem bswap16_bswap16 (v : BitVec 16) : bswap16 (bswap16 v) = v := by
  unfold bswap16
  ext i hi
  simp only [BitVec.getElem_append, BitVec.getElem_extractLsb']
  grind

/-- What `setPort` has written, `getPort` reads. -/
theorem getPort_setPort (e : Endian) (a : IPAddress) (v : BitVec 16) :
    (a.setPort e v).getPort e = v.setWidth 32 := by
  cases a <;> cases e
  · exact congrArg (BitVec.setWidth 32) (bswap16_bswap16 v)
  · rfl
  · exact congrArg (BitVec.setWidth 32) (bswap16_bswap16 v)
  · rfl

/-- `getPort`, by the port and the scheme. -/
theorem getPort_cases (u : Uri) :
    u.port ≠ 0 ∧ u.getPort = Http.toInt u.port
    ∨ u.port = 0 ∧ (u.scheme = ascii "http" ∧ u.getPort = 80
      ∨ u.scheme = ascii "https" ∧ u.getPort = 443
      ∨ u.scheme ≠ ascii "http" ∧ u.scheme ≠ ascii "https"
        ∧ u.getPort = 0) := by
  unfold getPort
  by_cases hport : u.port = 0
  · refine .inr ⟨hport, ?_⟩
    rw [if_neg (not_not.mpr hport)]
    by_cases hhttp : u.scheme = ascii "http"
    · exact .inl ⟨hhttp, if_pos hhttp⟩
    · rw [if_neg hhttp]
      by_cases hhttps : u.scheme = ascii "https"
      · exact .inr (.inl ⟨hhttps, if_pos hhttps⟩)
      · rw [if_neg hhttps, hport]
        exact .inr (.inr ⟨hhttp, hhttps, rfl⟩)
  · exact .inl ⟨hport, if_pos hport⟩

/-- The scheme that is stored has a port of its own. -/
theorem webScheme_iff (r : Reference) : WebScheme r
    ↔ r.scheme.getD [] = ascii "http" ∨ r.scheme.getD [] = ascii "https" := by
  unfold WebScheme
  cases r.scheme with
  | none => decide
  | some t => rw [Option.some.injEq, Option.some.injEq, Option.getD_some]

-- ================================================================= the address

/-- The accepted texts with the port of which an address is made. -/
theorem portExact_iff (e : Endian)
    (getaddrinfo : Bytes → Option Bytes → Option (List (Option IPAddress)))
    (h : create s = .ok (some u)) :
    PortExact e getaddrinfo s u ↔ PortFine getaddrinfo s := by
  obtain ⟨hdigits, hu⟩ := create_stored h
  rw [stored_eq] at hu
  have hport : u.port = storedPort (.split s) := by rw [hu]
  have hhost : u.host = hostOf (.split s) := by rw [hu]; rfl
  have hscheme : u.scheme = (Reference.split s).scheme.getD [] := by rw [hu]
  have hweb := webScheme_iff (.split s)
  rw [← hscheme] at hweb
  have hstored : ∀ p, portOf (.split s) = some p → p ≠ [] →
      digitsValue 10 0 p ≤ 65535 → u.port = digitsValue 10 0 p := by
    intro p hp hne hrange
    rw [hport, storedPort_digits hp hne (hdigits p hp)]
    omega
  constructor
  · intro hx p hp hne
    have hrange := hx.range p hp hne
    refine ⟨hrange, fun hzero hscheme => ?_⟩
    by_contra hfound
    obtain ⟨a, ha⟩ := Option.ne_none_iff_exists'.mp hfound
    rw [← hhost] at ha
    have hwrong := hx.address p hp hne _ (by rw [createAddress, ha]; rfl)
    rw [getPort_setPort, hzero] at hwrong
    have hzero : u.port = 0 := by rw [hstored p hp hne hrange, hzero]
    rcases getPort_cases u with
      ⟨hpos, -⟩ | ⟨-, ⟨-, hget⟩ | ⟨-, hget⟩ | ⟨h1, h2, -⟩⟩
    · exact hpos hzero
    · rw [hget] at hwrong
      exact absurd hwrong (by decide)
    · rw [hget] at hwrong
      exact absurd hwrong (by decide)
    · exact (hweb.mp hscheme).elim h1 h2
  · intro hf
    refine ⟨fun p hp hne a ha => ?_, fun p hp hne => (hf p hp hne).1, ?_⟩
    · obtain ⟨hrange, hzero⟩ := hf p hp hne
      obtain ⟨b, hb, rfl⟩ := Option.map_eq_some_iff.mp ha
      have hget : u.getPort = digitsValue 10 0 p := by
        have hval := hstored p hp hne hrange
        have hfound : digitsValue 10 0 p = 0 → ¬ WebScheme (.split s) := by
          intro h0 hscheme
          rw [hhost, hzero h0 hscheme] at hb
          cases hb
        rcases getPort_cases u with
          ⟨-, hget⟩ | ⟨h0, ⟨h1, -⟩ | ⟨h1, -⟩ | ⟨-, -, hget⟩⟩
        · rw [hget, hval]
          unfold Http.toInt
          omega
        · exact absurd (hweb.mpr (.inl h1)) (hfound (hval ▸ h0))
        · exact absurd (hweb.mpr (.inr h1)) (hfound (hval ▸ h0))
        · rw [hget, ← hval, h0]
          rfl
      rw [getPort_setPort, hget, BitVec.toNat_setWidth, BitVec.toNat_ofInt]
      omega
    · have hsmall : u.port ≤ 65535 := by
        cases hp : portOf (.split s) with
        | none =>
            rw [hport, storedPort, hp]
            exact Nat.zero_le _
        | some p =>
            by_cases hne : p = []
            · rw [hport, storedPort, hp]
              exact (if_pos hne).le.trans (Nat.zero_le _)
            · have hrange := (hf p hp hne).1
              exact (hstored p hp hne hrange).le.trans hrange
      rcases getPort_cases u with
        ⟨-, hget⟩ | ⟨-, ⟨-, hget⟩ | ⟨-, hget⟩ | ⟨-, -, hget⟩⟩
      · rw [hget]
        unfold Http.toInt
        omega
      all_goals omega

/-- `getaddrinfo` of `127.0.0.1`, for each type of socket. -/
def loopback (node : Bytes) (service : Option Bytes) :
    Option (List (Option IPAddress)) :=
  if node = ascii "127.0.0.1" ∧ service = none then
    some (List.replicate 3 (some (.v4 ⟨AF_INET, 0, 0x0100007f⟩)))
  else none

/-- A port below 65536. -/
theorem portExact_iff_loopback :
    let s := ascii "http://127.0.0.1:8080/"
    let u : Uri :=
      ⟨ascii "http", [], ascii "127.0.0.1", ascii "/", [], [], 8080⟩
    create s = .ok (some u) ∧ PortExact .little loopback s u := by
  have hcreate : create (ascii "http://127.0.0.1:8080/") = .ok (some
      ⟨ascii "http", [], ascii "127.0.0.1", ascii "/", [], [], 8080⟩) := by
    decide +kernel
  have hport : portOf (.split (ascii "http://127.0.0.1:8080/"))
      = some (ascii "8080") := by
    decide +kernel
  refine ⟨hcreate, (portExact_iff .little loopback hcreate).mpr fun p hp _ =>
    ?_⟩
  cases hport.symm.trans hp
  exact ⟨by decide, fun h => absurd h (by decide)⟩

/-- The port 65616 is mapped to 80. -/
theorem large_port_wraps : ∃ u, create (ascii "http://127.0.0.1:65616/")
      = .ok (some u)
    ∧ (u.createAddress .little loopback).map (·.getPort .little) = some 80
    ∧ ¬ PortExact .little loopback (ascii "http://127.0.0.1:65616/") u := by
  have hport : portOf (.split (ascii "http://127.0.0.1:65616/"))
      = some (ascii "65616") := by
    decide +kernel
  refine ⟨⟨ascii "http", [], ascii "127.0.0.1", ascii "/", [], [], 65616⟩,
    by decide +kernel, by decide +kernel, fun h => ?_⟩
  exact absurd (h.range _ hport (by decide)) (by decide)

end TinyServer.Uri
