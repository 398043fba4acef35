/-
What `TCPServer::bind` leaves of the sockets of the server.

The loop puts a listening socket behind the old ones for each address that
goes well, and the others into `fails` (`bindLoop_eq`). But the failure is
read off `fails`, which the caller may have brought along with something in
it, and what is undone then is all of `m_sockets`.
-/
import TinyServer.Socket.Server

namespace TinyServer.Net.TcpServer

open Http (Bytes)

variable {α : Type} {e : Endian} {getFamily : α → BitVec 16}

/-- The kernel refuses something to the address. -/
def refused (x : α × Answers) : Bool :=
  x.2.fd.isNone || x.2.bound.isNone || !x.2.listens

/-- The addresses that fail. -/
def failing (addrs : List (α × Answers)) : List α :=
  (addrs.filter refused).map (·.1)

/-- A socket that listens on the address. -/
structure Listens (getFamily : α → BitVec 16) (x : α × Answers) (s : Socket) :
    Prop where
  family : s.family = (getFamily x.1).setWidth 32
  sock : s.sock = x.2.fd.map (·.1) ∧ s.sock ≠ none
  sockname : s.sockname = x.2.bound ∧ s.sockname ≠ none
  listening : s.listening = true

/-- All addresses are bound, or the server is left as it was. -/
structure AllOrNothing (e : Endian) (getFamily : α → BitVec 16)
    (addrs : List (α × Answers)) (sockets : List Socket) (fails : List α) :
    Prop where
  nothing : (bind e getFamily addrs sockets fails).1 = false →
    (bind e getFamily addrs sockets fails).2 = (sockets, failing addrs)
  all : (bind e getFamily addrs sockets fails).1 = true →
    ∃ new, (bind e getFamily addrs sockets fails).2.1 = sockets ++ new
      ∧ List.Forall₂ (Listens getFamily) addrs new

-- ================================================================= one address

variable {item : α} {fd : Option (Nat × Bytes)} {n : Nat × Bytes} {k : Bytes}
  {b : Option Bytes}

/-- A new socket that is bound. -/
theorem bind_good : (createTCP getFamily item).bind e (getFamily item) (some n)
    (some k) = (true, ⟨(getFamily item).setWidth 32, some n.1, false,
      some (Socket.readBack e ((getFamily item).setWidth 32) k), none, some k,
        none,
      false⟩) := by
  unfold Socket.bind
  exact (if_neg nofun).trans (if_neg (not_not.mpr rfl))

/-- There is no descriptor, or `::bind` fails. -/
theorem bind_bad (e : Endian) (getFamily : α → BitVec 16) (item : α)
    (h : fd = none ∨ b = none) :
    ((createTCP getFamily item).bind e (getFamily item) fd b).1 = false := by
  unfold Socket.bind
  cases fd with
  | none => exact congrArg Prod.fst (if_pos rfl)
  | some n =>
      have hb : b = none := h.resolve_left nofun
      subst hb
      exact congrArg Prod.fst ((if_neg nofun).trans (if_neg (not_not.mpr rfl)))

/-- The loop, at an address that goes well. -/
theorem bindLoop_good {x : α × Answers} (h : refused x = false)
    (rest : List (α × Answers)) (sockets : List Socket) (fails : List α) :
    ∃ s, Listens getFamily x s ∧ bindLoop e getFamily (x :: rest) sockets fails
      = bindLoop e getFamily rest (sockets ++ [s]) fails := by
  obtain ⟨item, fd, bound, listens⟩ := x
  obtain ⟨⟨hfd, hbound⟩, hlistens⟩ :
      (fd.isNone = false ∧ bound.isNone = false) ∧ (!listens) = false := by
    simpa only [refused, Bool.or_eq_false_iff] using h
  obtain ⟨n, rfl⟩ := Option.isSome_iff_exists.mp
    (Option.isNone_eq_false_iff.mp hfd)
  obtain ⟨k, rfl⟩ := Option.isSome_iff_exists.mp
    (Option.isNone_eq_false_iff.mp hbound)
  obtain rfl : listens = true := by simpa using hlistens
  refine ⟨⟨(getFamily item).setWidth 32, some n.1, false,
      some (Socket.readBack e ((getFamily item).setWidth 32) k), none, some k,
        none,
      true⟩, ⟨rfl, ⟨rfl, nofun⟩, ⟨rfl, nofun⟩, rfl⟩, ?_⟩
  rw [bindLoop]
  simp only [bind_good]
  rfl

/-- The loop, at an address that fails. -/
theorem bindLoop_bad {x : α × Answers} (h : refused x = true)
    (rest : List (α × Answers)) (sockets : List Socket) (fails : List α) :
    bindLoop e getFamily (x :: rest) sockets fails
      = bindLoop e getFamily rest sockets (fails ++ [x.1]) := by
  obtain ⟨item, fd, bound, listens⟩ := x
  rw [bindLoop]
  by_cases hnone : fd = none ∨ bound = none
  · have hbad := bind_bad e getFamily item hnone
    dsimp only
    generalize (createTCP getFamily item).bind e (getFamily item) fd bound = p
      at hbad ⊢
    obtain ⟨ok, sock⟩ := p
    exact if_pos hbad
  · obtain ⟨hfd, hbound⟩ := not_or.mp hnone
    obtain ⟨n, rfl⟩ := Option.ne_none_iff_exists'.mp hfd
    obtain ⟨k, rfl⟩ := Option.ne_none_iff_exists'.mp hbound
    cases listens with
    | false =>
        simp only [bind_good]
        rfl
    | true => cases h

-- ==================================================================== the loop

/-- All sockets that listen are new, and behind the old ones. -/
theorem bindLoop_eq (e : Endian) (getFamily : α → BitVec 16)
    (addrs : List (α × Answers)) (sockets : List Socket) (fails : List α) :
    ∃ new,
      bindLoop e getFamily addrs sockets fails
          = (sockets ++ new, fails ++ failing addrs)
        ∧ List.Forall₂ (Listens getFamily) (addrs.filter (!refused ·)) new := by
  induction addrs generalizing sockets fails with
  | nil => exact ⟨[], by simp [bindLoop, failing], .nil⟩
  | cons x rest ih =>
      cases h : refused x with
      | false =>
          obtain ⟨s, hs, hloop⟩ := bindLoop_good (e := e) h rest sockets fails
          obtain ⟨new, hnew, hlisten⟩ := ih (sockets ++ [s]) fails
          refine ⟨s :: new, ?_, ?_⟩
          · rw [hloop, hnew]
            simp [failing, h]
          · rw [List.filter_cons_of_pos (by rw [h]; rfl)]
            exact .cons hs hlisten
      | true =>
          obtain ⟨new, hnew, hlisten⟩ := ih sockets (fails ++ [x.1])
          refine ⟨new, ?_, ?_⟩
          · rw [bindLoop_bad h, hnew]
            simp [failing, h]
          · rw [List.filter_cons_of_neg (by rw [h]; decide)]
            exact hlisten

theorem failing_eq_nil {addrs : List (α × Answers)} :
    failing addrs = [] ↔ ∀ x ∈ addrs, refused x = false := by
  unfold failing
  rw [List.map_eq_nil_iff, List.filter_eq_nil_iff]
  simp only [Bool.not_eq_true]

/-- The calls that are all or nothing. -/
theorem allOrNothing_iff (e : Endian) (getFamily : α → BitVec 16)
    (addrs : List (α × Answers)) (sockets : List Socket) (fails : List α) :
    AllOrNothing e getFamily addrs sockets fails
      ↔ fails = [] ∧ ((∀ x ∈ addrs, refused x = false) ∨ sockets = []) := by
  obtain ⟨new, hloop, hlisten⟩ := bindLoop_eq e getFamily addrs sockets fails
  by_cases hnone : fails ++ failing addrs = []
  · have hbind : bind e getFamily addrs sockets fails
        = (true, sockets ++ new, fails ++ failing addrs) := by
      rw [bind, hloop]
      exact if_pos hnone
    obtain ⟨hfails, hfailing⟩ := List.append_eq_nil_iff.mp hnone
    have hgood := failing_eq_nil.mp hfailing
    refine iff_of_true ⟨fun h => ?_, fun _ => ⟨new, ?_, ?_⟩⟩
      ⟨hfails, .inl hgood⟩
    · rw [hbind] at h
      cases h
    · rw [hbind]
    · rwa [List.filter_eq_self.mpr fun x hx => by rw [hgood x hx]; rfl]
        at hlisten
  · have hbind : bind e getFamily addrs sockets fails
        = (false, [], fails ++ failing addrs) := by
      rw [bind, hloop]
      exact if_neg hnone
    constructor
    · intro h
      have hnothing := h.nothing (by rw [hbind])
      rw [hbind, Prod.mk.injEq, List.append_left_eq_self] at hnothing
      exact ⟨hnothing.2, .inr hnothing.1.symm⟩
    · rintro ⟨rfl, hgood | rfl⟩
      · exact absurd (failing_eq_nil.mpr hgood) hnone
      · refine ⟨fun _ => by rw [hbind, List.nil_append], fun h => ?_⟩
        rw [hbind] at h
        cases h

/-- A socket that listens, and an address that cannot be bound. -/
theorem failed_bind_drops_sockets : ¬ AllOrNothing .little
    (fun family : BitVec 16 => family)
    [(AF_INET, ⟨some (4, familyBytes .little AF_INET), none, false⟩)]
    [⟨AF_INET.setWidth 32, some 3, false, none, none,
      some (familyBytes .little AF_INET), none, true⟩] [] := by
  intro h
  have hnothing := h.nothing rfl
  exact absurd (congrArg (fun r => r.1.length) hnothing) (by decide)

end TinyServer.Net.TcpServer
