/-
When the addresses of a connected socket are those of the kernel.

`getRemoteAddress` and `getLocalAddress` ask the kernel once, and no
operation takes back what they keep. So a socket that is connected anew
shows the addresses of its connection only if there were none kept, or the
same (`Stale`). A connected socket has both kept (`Settled`), and an address
that is kept stays.

The kernel may have an address that is longer than the memory it is read
into; this is stale from the beginning.
-/
import TinyServer.Lib.Run
import TinyServer.Socket.Basic

namespace TinyServer.Net.Socket

open Lib
open Http (Bytes)

variable {e : Endian} {s t : Socket} {k here there : Bytes}

/-- An address of the kernel fits the memory that it is read into. -/
def Fits (family : BitVec 32) (k : Bytes) : Prop :=
  if family = AF_UNIX.setWidth 32 then
    k.length ≤ 109 ∨ k.length = 110 ∧ k.getLast? = some 0
  else k.length = if family = AF_INET6.setWidth 32 then 28 else 16

/-- `k` is what is kept, or it fits and nothing is kept. -/
def Agrees (family : BitVec 32) (kept : Option SockAddr) (k : Bytes) : Prop :=
  kept.elim (Fits family k) fun a => a.bytes = k

/-- A connected socket is open, and shows the kernel's addresses. -/
structure Follows (e : Endian) (s : Socket) : Prop where
  valid : s.isConnected = true → s.sock ≠ none
  remote : s.isConnected = true →
    s.peername = some (s.getRemoteAddress e).1.bytes
  here : s.isConnected = true →
    s.sockname = some (s.getLocalAddress e).1.bytes

/-- The operation connects the socket, or binds it while it is connected,
and another address is kept. -/
def Stale (s : Socket) : Op → Prop
  | .bind f _ bound => s.isConnected = true ∧ f.setWidth 32 = s.family
      ∧ ∃ k, bound = some k ∧ ¬ Agrees s.family s.localAddress k
  | .connect f fd names => (s.sock ≠ none ∨ fd ≠ none)
    ∧ f.setWidth 32 = s.family
      ∧ ∃ here there, names = some (here, there)
        ∧ ¬ (Agrees s.family s.remoteAddress there
          ∧ Agrees s.family s.localAddress here)
  | .close => False
  | .init _ known here there => known = true
      ∧ ¬ (Agrees s.family s.remoteAddress there
        ∧ Agrees s.family s.localAddress here)

-- ============================================================== what is kept

/-- An address that is copied to the front of others as many bytes. -/
theorem copied_eq_iff {memory : Bytes} {n : Nat} (h : memory.length = n) :
    (k.take n ++ memory.drop (k.take n).length).take n = k ↔ k.length = n := by
  have hlen : (k.take n ++ memory.drop (k.take n).length).length = n := by
    rw [List.length_append, List.length_drop, List.length_take]
    omega
  rw [List.take_of_length_le hlen.le]
  constructor
  · intro hk
    rw [hk] at hlen
    exact hlen
  · intro hk
    rw [List.take_of_length_le hk.le, List.drop_of_length_le (by omega),
      List.append_nil]

/-- A Unix address has room for a byte less than there is, and its length is
set. -/
theorem copied_unix_iff {memory : Bytes} (h : memory.drop 109 = [0]) :
    (k.take 109 ++ memory.drop (k.take 109).length).take k.length = k
      ↔ k.length ≤ 109 ∨ k.length = 110 ∧ k.getLast? = some 0 := by
  by_cases hk : k.length ≤ 109
  · rw [List.take_of_length_le hk, List.take_left]
    exact iff_of_true rfl (.inl hk)
  · have hfront : (k.take 109).length = 109 := by
      rw [List.length_take]
      omega
    have hall : (k.take 109 ++ [0]).length ≤ k.length := by
      rw [List.length_append, hfront]
      exact not_le.mp hk
    rw [hfront, h, List.take_of_length_le hall, or_iff_right hk]
    constructor
    · intro heq
      rw [← heq]
      exact ⟨by rw [List.length_append, hfront]; rfl, List.getLast?_concat⟩
    · rintro ⟨hlen, hlast⟩
      have hfront : k.dropLast = k.take 109 := by
        rw [List.dropLast_eq_take, hlen]
      rw [← hfront]
      exact List.dropLast_append_getLast? 0 hlast

/-- An address is read back as it is when it is of the family. -/
theorem readBack_eq_iff (e : Endian) (family : BitVec 32) (k : Bytes) :
    (readBack e family k).bytes = k ↔ Fits family k := by
  have hblank : ∀ f n, (familyBytes e f ++ List.replicate n 0).length
      = 2 + n := by
    intro f n
    rw [List.length_append, List.length_replicate]
    cases e <;> rfl
  unfold readBack newAddress Fits SockAddr.bytes
  by_cases hunix : family = AF_UNIX.setWidth 32
  · subst hunix
    rw [if_pos rfl, if_pos rfl]
    refine copied_unix_iff ?_
    cases e <;> rfl
  · rw [if_neg hunix, if_neg hunix]
    simp only [hunix, if_false]
    split
    next hinet =>
      rw [if_neg (by rw [hinet]; decide)]
      exact copied_eq_iff (hblank _ 14)
    next =>
      split
      next => exact copied_eq_iff (hblank _ 26)
      next => exact copied_eq_iff (hblank _ 14)

/-- The address that is kept once the kernel was asked. -/
def known (e : Endian) (s : Socket) (kept : Option SockAddr) (k : Bytes) :
    SockAddr :=
  kept.getD (readBack e s.family k)

/-- A kept address is the kernel's when it agrees with it. -/
theorem known_eq_iff (kept : Option SockAddr) :
    (known e s kept k).bytes = k ↔ Agrees s.family kept k := by
  cases kept with
  | none => exact readBack_eq_iff e s.family k
  | some a => exact Iff.rfl

/-- `getRemoteAddress` keeps what it reads. -/
theorem getRemoteAddress_eq (h : s.peername = some k) :
    s.getRemoteAddress e = (known e s s.remoteAddress k,
      { s with remoteAddress := some (known e s s.remoteAddress k) }) := by
  unfold getRemoteAddress known
  cases hkept : s.remoteAddress with
  | none => simp only [h, Option.getD_none]
  | some a =>
      show (a, s) = (a, { s with remoteAddress := some a })
      rw [← hkept]

/-- And so does `getLocalAddress`. -/
theorem getLocalAddress_eq (h : s.sockname = some k) :
    s.getLocalAddress e = (known e s s.localAddress k,
      { s with localAddress := some (known e s s.localAddress k) }) := by
  unfold getLocalAddress known
  cases hkept : s.localAddress with
  | none => simp only [h, Option.getD_none]
  | some a =>
      show (a, s) = (a, { s with localAddress := some a })
      rw [← hkept]

/-- A socket once it is connected. -/
def attached (e : Endian) (s : Socket) (here there : Bytes) : Socket :=
  { s with
    isConnected := true
    sockname := some here
    peername := some there
    localAddress := some (known e s s.localAddress here)
    remoteAddress := some (known e s s.remoteAddress there) }

/-- A socket once it is bound. -/
def boundTo (e : Endian) (s : Socket) (k : Bytes) : Socket :=
  { s with
    sockname := some k
    localAddress := some (known e s s.localAddress k) }

/-- A connected socket is open and has both addresses, which are kept. -/
structure Settled (s : Socket) : Prop where
  valid : s.isConnected = true → s.sock ≠ none
  remote : s.isConnected = true → s.peername ≠ none ∧ s.remoteAddress ≠ none
  here : s.isConnected = true → s.sockname ≠ none ∧ s.localAddress ≠ none

/-- Of a socket that is not connected nothing is asked. -/
theorem Follows.of_apart (h : s.isConnected = false) : Follows e s := by
  constructor <;> intro hc <;> rw [h] at hc <;> cases hc

/-- Nor here. -/
theorem Settled.of_apart (h : s.isConnected = false) : Settled s := by
  constructor <;> intro hc <;> rw [h] at hc <;> cases hc

/-- A socket that was just attached follows the kernel when what it kept
agrees. -/
theorem attached_follows_iff : Follows e (attached e s here there) ↔
    s.sock ≠ none ∧ Agrees s.family s.remoteAddress there
      ∧ Agrees s.family s.localAddress here := by
  have hremote : ((attached e s here there).getRemoteAddress e).1
      = known e s s.remoteAddress there := rfl
  have hlocal : ((attached e s here there).getLocalAddress e).1
      = known e s s.localAddress here := rfl
  constructor
  · intro h
    have hthere := h.remote rfl
    have hhere := h.here rfl
    rw [hremote] at hthere
    rw [hlocal] at hhere
    exact ⟨h.valid rfl, (known_eq_iff _).mp (Option.some.inj hthere).symm,
      (known_eq_iff _).mp (Option.some.inj hhere).symm⟩
  · intro ⟨hvalid, hthere, hhere⟩
    refine ⟨fun _ => hvalid, fun _ => ?_, fun _ => ?_⟩
    · rw [hremote]
      exact congrArg some ((known_eq_iff _).mpr hthere).symm
    · rw [hlocal]
      exact congrArg some ((known_eq_iff _).mpr hhere).symm

/-- It keeps both addresses. -/
theorem attached_settled (h : s.sock ≠ none) :
    Settled (attached e s here there) where
  valid _ := h
  remote _ := ⟨nofun, nofun⟩
  here _ := ⟨nofun, nofun⟩

-- ======================================================================= steps

/-- The socket that an operation goes on with. -/
def opened (fd : Option (Nat × Bytes)) (s : Socket) : Socket :=
  if s.isValid then s else s.newSock fd

/-- A descriptor is there when it was, or when one could be made. -/
theorem opened_sock (fd : Option (Nat × Bytes)) (s : Socket) :
    (s.opened fd).sock ≠ none ↔ s.sock ≠ none ∨ fd ≠ none := by
  unfold opened isValid newSock
  cases hs : s.sock <;> cases fd <;> simp [hs]

/-- Opening a socket changes nothing of its connection. -/
theorem opened_eq (fd : Option (Nat × Bytes)) (s : Socket) :
    (s.opened fd).family = s.family
      ∧ (s.opened fd).localAddress = s.localAddress
      ∧ (s.opened fd).remoteAddress = s.remoteAddress
      ∧ (s.opened fd).isConnected = s.isConnected := by
  unfold opened
  split <;> exact ⟨rfl, rfl, rfl, rfl⟩

/-- A connected socket is open already. -/
theorem opened_cases (fd : Option (Nat × Bytes))
    (h : s.isConnected = true → s.sock ≠ none) :
    s.opened fd = s ∨ (s.opened fd).isConnected = false := by
  by_cases hc : s.isConnected = true
  · exact .inl (if_pos (Option.isSome_iff_ne_none.mpr (h hc)))
  · exact .inr ((s.opened_eq fd).2.2.2.trans (Bool.eq_false_iff.mpr hc))

/-- A socket is valid when it has a descriptor. -/
theorem isValid_eq (s : Socket) : s.isValid = false ↔ s.sock = none := by
  unfold isValid
  cases s.sock <;> simp

/-- What `bind` and `connect` look at before they go on with `x`. -/
theorem guarded_eq (f : BitVec 16) (fd : Option (Nat × Bytes)) (s : Socket)
    (x : Bool × Socket) :
    (if (s.opened fd).isValid = false then (false, s.opened fd)
      else if f.setWidth 32 ≠ (s.opened fd).family then (false, s.opened fd)
      else x).2
      = if (s.opened fd).sock ≠ none ∧ f.setWidth 32 = s.family then x.2
        else s.opened fd := by
  rw [← (s.opened_eq fd).1]
  generalize s.opened fd = t
  by_cases hsock : t.sock = none
  · rw [if_pos (t.isValid_eq.mpr hsock), if_neg fun h => h.1 hsock]
  · rw [if_neg fun h => hsock (t.isValid_eq.mp h)]
    by_cases hf : f.setWidth 32 = t.family
    · rw [if_neg (not_not.mpr hf), if_pos ⟨hsock, hf⟩]
    · rw [if_pos hf, if_neg fun h => hf h.2]

/-- What `bind` leaves, -/
theorem bind_eq (e : Endian) (f : BitVec 16) (fd : Option (Nat × Bytes))
    (b : Option Bytes) (s : Socket) :
    (s.bind e f fd b).2 =
      if (s.opened fd).sock ≠ none ∧ f.setWidth 32 = s.family then
        b.elim (s.opened fd) (boundTo e (s.opened fd))
      else s.opened fd := by
  refine (guarded_eq f fd s _).trans (if_congr Iff.rfl ?_ rfl)
  cases b with
  | none => rfl
  | some k => exact congrArg Prod.snd (getLocalAddress_eq rfl)

/-- what `connect` leaves, -/
theorem connect_eq (e : Endian) (f : BitVec 16) (fd : Option (Nat × Bytes))
    (names : Option (Bytes × Bytes)) (s : Socket) :
    (s.connect e f fd names).2 =
      if (s.opened fd).sock ≠ none ∧ f.setWidth 32 = s.family then
        names.elim (s.opened fd).close.2
          fun n => attached e (s.opened fd) n.1 n.2
      else s.opened fd := by
  refine (guarded_eq f fd s _).trans (if_congr Iff.rfl ?_ rfl)
  cases names with
  | none => rfl
  | some n =>
      obtain ⟨here, there⟩ := n
      dsimp only
      rw [getRemoteAddress_eq rfl, getLocalAddress_eq rfl]
      rfl

/-- and what `init` leaves. -/
theorem init_eq (e : Endian) (fd : Nat) (ok : Bool) (here there : Bytes)
    (s : Socket) : (s.init e fd ok here there).2 =
      if ok = true then
        attached e { s with sock := some fd, listening := false } here there
      else s := by
  unfold init
  split
  next =>
      dsimp only
      rw [getLocalAddress_eq rfl, getRemoteAddress_eq rfl]
      rfl
  next => rfl

/-- A closed socket is not connected. -/
theorem close_apart (s : Socket) : s.close.2.isConnected = false := by
  unfold close
  split
  next hc => exact hc.1
  next => rfl

/-- Opening a descriptor does not touch the addresses. -/
theorem Settled.opened (h : Settled s) (fd : Option (Nat × Bytes)) :
    Settled (s.opened fd) := by
  rcases opened_cases fd h.valid with heq | hc
  · rwa [heq]
  · exact .of_apart hc

/-- So the socket follows as before. -/
theorem Follows.opened (h : Follows e s) (fd : Option (Nat × Bytes)) :
    Follows e (s.opened fd) := by
  rcases opened_cases fd h.valid with heq | hc
  · rwa [heq]
  · exact .of_apart hc

/-- Binding keeps the new local address. -/
theorem Settled.boundTo (h : Settled s) : Settled (boundTo e s k) where
  valid := h.valid
  remote := h.remote
  here _ := ⟨nofun, nofun⟩

/-- A bound socket shows the address that the kernel has now if it is the
one that is kept. -/
theorem boundTo_follows_iff (h : Settled s) (hf : Follows e s) :
    Follows e (boundTo e s k)
      ↔ (s.isConnected = true → Agrees s.family s.localAddress k) := by
  have hlocal : ((boundTo e s k).getLocalAddress e).1
      = known e s s.localAddress k := rfl
  constructor
  · intro hb hc
    have hhere := hb.here hc
    rw [hlocal] at hhere
    exact (known_eq_iff _).mp (Option.some.inj hhere).symm
  · intro hagrees
    refine ⟨hf.valid, fun hc => ?_, fun hc => ?_⟩
    · obtain ⟨a, ha⟩ := Option.ne_none_iff_exists'.mp (h.remote hc).2
      have hshown : ((boundTo e s k).getRemoteAddress e).1
          = (s.getRemoteAddress e).1 := by
        unfold getRemoteAddress boundTo
        simp only [ha]
      rw [hshown]
      exact hf.remote hc
    · rw [hlocal]
      exact congrArg some ((known_eq_iff _).mpr (hagrees hc)).symm

/-- So every call leaves a connected socket with both. -/
theorem Settled.step (h : Settled s) (i : Op) : Settled (s.step e i) := by
  cases i with
  | bind f fd b =>
      show Settled (s.bind e f fd b).2
      rw [bind_eq]
      split
      next =>
        cases b with
        | none => exact h.opened fd
        | some k => exact (h.opened fd).boundTo
      next => exact h.opened fd
  | connect f fd names =>
      show Settled (s.connect e f fd names).2
      rw [connect_eq]
      split
      next hopen =>
        cases names with
        | none => exact .of_apart (close_apart _)
        | some n => exact attached_settled hopen.1
      next => exact h.opened fd
  | close => exact .of_apart (close_apart s)
  | init fd ok here there =>
      show Settled (s.init e fd ok here there).2
      rw [init_eq]
      split
      next => exact attached_settled nofun
      next => exact h

/-- A step goes wrong exactly if it is stale. -/
theorem follows_step (h : Settled s) (hf : Follows e s) (i : Op) :
    Follows e (s.step e i) ↔ ¬ Stale s i := by
  cases i with
  | bind f fd b =>
      show Follows e (s.bind e f fd b).2 ↔ _
      rw [bind_eq]
      obtain ⟨hfamily, hlocal, -, hconn⟩ := s.opened_eq fd
      split
      next hopen =>
        cases b with
        | none =>
            exact iff_of_true (hf.opened fd) fun ⟨_, _, k, hk, _⟩ => nomatch hk
        | some k =>
            show Follows e (boundTo e (s.opened fd) k) ↔ _
            rw [boundTo_follows_iff (h.opened fd) (hf.opened fd), hfamily,
              hlocal, hconn]
            constructor
            · rintro hagrees ⟨hc, -, k', hk', hno⟩
              cases hk'
              exact hno (hagrees hc)
            · intro hno hc
              by_contra hdiffers
              exact hno ⟨hc, hopen.2, k, rfl, hdiffers⟩
      next hopen =>
        refine iff_of_true (hf.opened fd) fun ⟨hc, hfam, _⟩ => hopen ⟨?_, hfam⟩
        exact (opened_sock fd s).mpr (.inl (h.valid hc))
  | connect f fd names =>
      show Follows e (s.connect e f fd names).2 ↔ _
      rw [connect_eq]
      obtain ⟨hfamily, hlocal, hremote, -⟩ := s.opened_eq fd
      split
      next hopen =>
        cases names with
        | none =>
            exact iff_of_true (.of_apart (close_apart _))
              fun ⟨_, _, _, _, hn, _⟩ => nomatch hn
        | some n =>
            obtain ⟨here, there⟩ := n
            show Follows e (attached e (s.opened fd) here there) ↔ _
            rw [attached_follows_iff, hfamily, hlocal, hremote]
            constructor
            · rintro ⟨-, hagree⟩ ⟨-, -, _, _, hn, hno⟩
              cases hn
              exact hno hagree
            · intro hno
              refine ⟨hopen.1, ?_⟩
              by_contra hdiffer
              exact hno ⟨(opened_sock fd s).mp hopen.1, hopen.2, here, there,
                rfl,
                hdiffer⟩
      next hopen =>
        refine iff_of_true (hf.opened fd) fun ⟨hsock, hfam, _⟩ =>
          hopen ⟨?_, hfam⟩
        exact (opened_sock fd s).mpr hsock
  | close => exact iff_of_true (.of_apart (close_apart s)) id
  | init fd ok here there =>
      show Follows e (s.init e fd ok here there).2 ↔ _
      rw [init_eq]
      split
      next hok =>
        rw [attached_follows_iff]
        constructor
        · rintro ⟨-, hagree⟩ ⟨-, hno⟩
          exact hno hagree
        · intro hno
          refine ⟨nofun, ?_⟩
          by_contra hdiffer
          exact hno ⟨hok, hdiffer⟩
      next hok => exact iff_of_true hf fun hbad => hok hbad.1

/-- The runs in which a connected socket always shows the addresses of its
connection. -/
theorem follows_iff (e : Endian) (family : BitVec 32) (ops : List Op) :
    (∀ s, Visits (fun s i => some (s.step e i)) (new family) ops s →
        Follows e s)
      ↔ ∀ s i, Takes (fun s i => some (s.step e i)) (new family) ops s i →
        ¬ Stale s i := by
  have hrun : ops.foldlM (fun s i => some (s.step e i)) (new family)
      = some (ops.foldl (step e) (new family)) := List.foldlM_pure
  refine visits_inv_iff (fun h hstep => ?_) (fun h hf hok hstep => ?_)
    (fun h hf hbad hstep hafter => ?_) (Settled.of_apart rfl)
    (Follows.of_apart rfl) hrun
  · cases hstep
    exact h.step _
  · cases hstep
    exact (follows_step h hf _).mpr hok
  · cases hstep
    exact (follows_step h hf _).mp hafter hbad

/-- A second connection, and the address of the first one's other end. -/
theorem reconnect_keeps_peer :
    ¬ ∀ s, Visits (fun s i => some (s.step .little i))
    (new (AF_INET.setWidth 32))
    [.connect AF_INET (some (3, [2, 0] ++ List.replicate 14 0))
        (some ([2, 0, 156, 64, 10, 0, 0, 1] ++ List.replicate 8 0,
          [2, 0, 0, 80, 10, 0, 0, 2] ++ List.replicate 8 0)),
      .close,
      .connect AF_INET (some (3, [2, 0] ++ List.replicate 14 0))
        (some ([2, 0, 156, 65, 10, 0, 0, 1] ++ List.replicate 8 0,
          [2, 0, 0, 80, 10, 0, 0, 3] ++ List.replicate 8 0))] s →
    Follows .little s := by
  intro h
  have hlast := (h _ ⟨_, [], (List.append_nil _).symm, rfl⟩).remote rfl
  exact absurd hlast (by decide)

end TinyServer.Net.Socket
