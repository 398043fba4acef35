/-
Transfers of a fixed size.

`fixSizeLoop_rule` is the invariant rule of the loop: what every call that
moves bytes keeps holds at the end, and a call that moves none ends the
loop with its result. For a buffer the invariant is the history: the calls
so far moved the bytes from 0 up to the offset, each where the one before
it stopped (`Moved`). Hence both loops on a buffer are exact
(`fixSize_exact`).

The loop that sends a `ByteArray` is exact as well, but the call under it
offers nothing: `SocketStream::write(ba, length)` asks the array for as
many bytes as its empty `iovs` has elements. So it sends all that was
asked for exactly when that is nothing (`send_bytes_iff`).
-/
import TinyServer.ByteArray.Proofs.Buffers
import TinyServer.Stream.Basic

namespace TinyServer

open Lib

variable {σ : Type}

-- ================================================================== the loop

section Rule

variable {call : (offset left : Nat) → StateM σ Int} {n : Nat} {t : σ}

/-- One round of the loop. -/
theorem fixSizeLoop_round {fuel o l : Nat} (hl : 0 < l) :
    fixSizeLoop call n (fuel + 1) o l t
      = if (call o l t).1 ≤ 0 then (some (call o l t).1, (call o l t).2)
        else fixSizeLoop call n fuel (o + (call o l t).1.toNat)
          (((l : Int) - (call o l t).1) % 0x10000000000000000).toNat
          (call o l t).2 := by
  rw [fixSizeLoop, if_neg (Nat.ne_of_gt hl)]
  show (if (call o l t).1 ≤ 0 then (pure (some _) : StateM σ (Option Int))
    else _) (call o l t).2 = _
  split
  · rfl
  · rfl

/-- A loop around calls that move at most what is left ends: with the
length, when the invariant `I` reached it, or with the result of the call
that moved nothing. More fuel than bytes does not matter. -/
theorem fixSizeLoop_rule {I : Nat → σ → Prop} {J : Nat → Int → σ → Prop}
    (hn : n < 0x10000000000000000) (hbound : ∀ o l t, (call o l t).1 ≤ l)
    (hmove : ∀ o l t, o + l = n → I o t → 0 < (call o l t).1 →
      I (o + (call o l t).1.toNat) (call o l t).2)
    (hfail : ∀ o l t, o + l = n → 0 < l → I o t → (call o l t).1 ≤ 0 →
      J o (call o l t).1 (call o l t).2)
    {o l : Nat} (hol : o + l = n) (hI : I o t) :
    ∃ r t', (∀ fuel, l < fuel → fixSizeLoop call n fuel o l t = (some r, t'))
      ∧ (r = (n : Int).bmod 0x100000000 ∧ I n t'
        ∨ r ≤ 0 ∧ ∃ o, o < n ∧ J o r t') := by
  induction l using Nat.strong_induction_on generalizing o t with
  | _ l ih =>
  rcases Nat.eq_zero_or_pos l with rfl | hl
  · obtain rfl : o = n := by omega
    refine ⟨_, t, fun fuel hfuel => ?_, .inl ⟨rfl, hI⟩⟩
    obtain ⟨fuel, rfl⟩ := Nat.exists_eq_succ_of_ne_zero (Nat.ne_of_gt hfuel)
    rfl
  have hle := hbound o l t
  by_cases hlen : (call o l t).1 ≤ 0
  · refine ⟨_, _, fun fuel hfuel => ?_, .inr ⟨hlen, o, by omega,
      hfail o l t hol hl hI hlen⟩⟩
    obtain ⟨fuel, rfl⟩ := Nat.exists_eq_succ_of_ne_zero (by omega : fuel ≠ 0)
    rw [fixSizeLoop_round hl, if_pos hlen]
  · have hleft : (((l : Int) - (call o l t).1) % 0x10000000000000000).toNat
        = l - (call o l t).1.toNat := by omega
    obtain ⟨r, t', hrun, hres⟩ := ih (l - (call o l t).1.toNat) (by omega)
      (o := o + (call o l t).1.toNat) (by omega)
      (hmove o l t hol hI (by omega))
    refine ⟨r, t', fun fuel hfuel => ?_, hres⟩
    obtain ⟨fuel, rfl⟩ := Nat.exists_eq_succ_of_ne_zero (by omega : fuel ≠ 0)
    rw [fixSizeLoop_round hl, if_neg hlen, hleft]
    exact hrun fuel (by omega)

end Rule

-- ================================================================ the history

/-- How many bytes the calls moved. -/
def moved (calls : List Call) : Nat := (calls.map fun c => c.res.toNat).sum

/-- The offsets of the buffer that a call touched. -/
def Call.places (c : Call) : List Nat := List.range' c.offset c.res.toNat

/-- The bytes that the calls moved. -/
def bytesOf (calls : List Call) : List UInt8 := calls.flatMap Call.data

/-- The history of a transfer of `n` bytes: every call asks for what is
left, and what was touched is the buffer from 0 on, in order and once. -/
structure Moved (n : Nat) (calls : List Call) : Prop where
  asks : ∀ c ∈ calls, c.offset + c.left = n
  places : calls.flatMap Call.places = List.range' 0 (moved calls)
  bytes : (bytesOf calls).length = moved calls

theorem moved_append (cs : List Call) (c : Call) :
    moved (cs ++ [c]) = moved cs + c.res.toNat := by
  unfold moved
  rw [List.map_append, List.sum_append]
  exact congrArg _ (Nat.add_zero _)

theorem bytesOf_append (cs : List Call) (c : Call) :
    bytesOf (cs ++ [c]) = bytesOf cs ++ c.data := by
  unfold bytesOf
  rw [List.flatMap_append, List.flatMap_cons, List.flatMap_nil,
    List.append_nil]

/-- A call at the end of what was moved goes on with the history. -/
theorem Moved.append {n l : Nat} {cs : List Call} (h : Moved n cs)
    (hl : moved cs + l = n) {res : Int} {data : List UInt8}
    (hdata : data.length = res.toNat) :
    Moved n (cs ++ [⟨moved cs, l, res, data⟩]) := by
  refine ⟨fun c hc => ?_, ?_, ?_⟩
  · rcases List.mem_append.mp hc with hc | hc
    · exact h.asks c hc
    · obtain rfl := List.mem_singleton.mp hc
      exact hl
  · rw [List.flatMap_append, h.places, moved_append, List.flatMap_cons,
      List.flatMap_nil, List.append_nil, ← List.range'_append_1, Nat.zero_add]
    rfl
  · rw [bytesOf_append, List.length_append, h.bytes, moved_append, hdata]

/-- A transfer of `n` bytes with the result `r`: it is `n` exactly when `n`
bytes were moved, and otherwise that of the first call that moved none. -/
structure ExactTransfer (n : Nat) (r : Int) (calls : List Call) : Prop
    extends Moved n calls where
  whole : r = n ↔ moved calls = n
  rest : moved calls ≠ n → ∃ before last, calls = before ++ [last]
    ∧ (∀ c ∈ before, 0 < c.res) ∧ last.res ≤ 0 ∧ r = last.res
    ∧ moved calls = moved before

-- ================================================================= the buffer

/-- The stream keeps to what is asked for: a result is at most the number
of bytes, and a read stores as many bytes as it says. -/
structure Stream.Obeys (d : Stream σ) : Prop where
  read : ∀ n t, (d.read n t).1.1 ≤ n
    ∧ (d.read n t).1.2.length = (d.read n t).1.1.toNat
  write : ∀ data t, (d.write data t).1 ≤ data.length

/-- A loop around calls that go on with the history, and keep `B` between
it and the buffer, is exact. -/
theorem exact_of_calls {call : (offset left : Nat) → StateM (Transfer σ) Int}
    {B : List Call → Transfer σ → Prop} {n : Nat} (hn : 1 ≤ n)
    (hlt : n < 0x80000000) (hbound : ∀ o l t, (call o l t).1 ≤ l)
    (hcall : ∀ o l t, ∃ data, data.length = (call o l t).1.toNat
      ∧ (call o l t).2.calls = t.calls ++ [⟨o, l, (call o l t).1, data⟩]
      ∧ ∀ cs, moved cs = o → (bytesOf cs).length = o → B cs t →
        B (cs ++ [⟨o, l, (call o l t).1, data⟩]) (call o l t).2)
    (t : Transfer σ) (hB : B [] t) :
    ∃ r t' cs, (∀ fuel, n < fuel →
        fixSizeLoop call n fuel 0 n t = (some r, t'))
      ∧ t'.calls = t.calls ++ cs ∧ ExactTransfer n r cs ∧ B cs t' := by
  -- the history of a loop that has moved `o` bytes
  let I : Nat → Transfer σ → Prop := fun o t₁ => ∃ cs,
    t₁.calls = t.calls ++ cs ∧ Moved n cs ∧ moved cs = o
      ∧ (∀ c ∈ cs, 0 < c.res) ∧ B cs t₁
  let J : Nat → Int → Transfer σ → Prop := fun o r t₁ => ∃ cs l data,
    t₁.calls = t.calls ++ (cs ++ [⟨o, l, r, data⟩])
      ∧ Moved n (cs ++ [⟨o, l, r, data⟩]) ∧ moved cs = o
      ∧ (∀ c ∈ cs, 0 < c.res) ∧ B (cs ++ [⟨o, l, r, data⟩]) t₁
  have hmove : ∀ o l t₁, o + l = n → I o t₁ → 0 < (call o l t₁).1 →
      I (o + (call o l t₁).1.toNat) (call o l t₁).2 := by
    rintro o l t₁ hol ⟨cs, hcs, hmoved, rfl, hpos, hcsB⟩ hlen
    obtain ⟨data, hdata, hcalls, hkeep⟩ := hcall (moved cs) l t₁
    refine ⟨cs ++ [⟨moved cs, l, (call (moved cs) l t₁).1, data⟩], ?_,
      hmoved.append hol hdata, moved_append _ _, fun c hc => ?_,
      hkeep cs rfl hmoved.bytes hcsB⟩
    · rw [hcalls, hcs, List.append_assoc]
    · rcases List.mem_append.mp hc with hc | hc
      · exact hpos c hc
      · obtain rfl := List.mem_singleton.mp hc
        exact hlen
  have hfail : ∀ o l t₁, o + l = n → 0 < l → I o t₁ → (call o l t₁).1 ≤ 0 →
      J o (call o l t₁).1 (call o l t₁).2 := by
    rintro o l t₁ hol - ⟨cs, hcs, hmoved, rfl, hpos, hcsB⟩ -
    obtain ⟨data, hdata, hcalls, hkeep⟩ := hcall (moved cs) l t₁
    refine ⟨cs, l, data, ?_, hmoved.append hol hdata, rfl, hpos,
      hkeep cs rfl hmoved.bytes hcsB⟩
    rw [hcalls, hcs, List.append_assoc]
  have hstart : I 0 t :=
    ⟨[], (List.append_nil _).symm, ⟨List.forall_mem_nil _, rfl, rfl⟩, rfl,
      List.forall_mem_nil _, hB⟩
  obtain ⟨r, t', hrun, hres⟩ := fixSizeLoop_rule (by omega) hbound hmove hfail
    (Nat.zero_add n) hstart
  rcases hres with ⟨hr, cs, hcs, hmoved, hall, -, hcsB⟩ | ⟨hr, o, ho, hfailed⟩
  · have hr' : r = n := by
      rw [hr]
      exact Int.bmod_eq_of_le (by omega) (by omega)
    exact ⟨r, t', cs, hrun, hcs, ⟨hmoved, iff_of_true hr' hall,
      fun hne => absurd hall hne⟩, hcsB⟩
  · obtain ⟨cs, l, data, hcs, hmoved, rfl, hpos, hcsB⟩ := hfailed
    have hsum : moved (cs ++ [⟨moved cs, l, r, data⟩]) = moved cs := by
      rw [moved_append]
      show moved cs + r.toNat = _
      omega
    refine ⟨r, t', _, hrun, hcs, ⟨hmoved, ?_, fun _ => ?_⟩, hcsB⟩
    · rw [hsum]
      omega
    · exact ⟨cs, _, rfl, hpos, hr, rfl, hsum⟩

theorem store_nil (buffer : Nat → UInt8) (off : Nat) :
    store buffer off [] = buffer := by
  funext i
  unfold store
  split <;> rfl

/-- Two stores in a row are one. -/
theorem store_store (buffer : Nat → UInt8) (off : Nat)
    (as bs : List UInt8) :
    store (store buffer off as) (off + as.length) bs
      = store buffer off (as ++ bs) := by
  funext i
  unfold store
  by_cases hi : off ≤ i
  · by_cases has : i - off < as.length
    · rw [if_neg (by omega), if_pos hi, if_pos hi,
        List.getElem?_append_left has]
    · have hnone : as[i - off]? = none := List.getElem?_eq_none (by omega)
      have hidx : i - (off + as.length) = i - off - as.length := by omega
      rw [if_pos (by omega), if_pos hi, if_pos hi,
        List.getElem?_append_right (by omega), hnone, hidx]
      rfl
  · rw [if_neg (by omega), if_neg hi, if_neg hi]

theorem length_fetch (buffer : Nat → UInt8) (off n : Nat) :
    (fetch buffer off n).length = n := by
  unfold fetch
  rw [List.length_map, List.length_range']

theorem take_fetch {buffer : Nat → UInt8} {off n k : Nat} (h : k ≤ n) :
    (fetch buffer off n).take k = fetch buffer off k := by
  unfold fetch
  rw [← List.map_take, List.take_range'_of_length_ge h]

theorem fetch_add (buffer : Nat → UInt8) (off m n : Nat) :
    fetch buffer off (m + n) = fetch buffer off m ++ fetch buffer (off + m)
      n := by
  unfold fetch
  rw [← List.map_append, List.range'_append_1]

theorem Socket.recv_le (n : Nat) (k : Socket) :
    (k.recv n).1.1 ≤ n
      ∧ (k.recv n).1.2.length = (k.recv n).1.1.toNat := by
  unfold Socket.recv
  split
  next =>
    split
    next hle =>
      dsimp only
      exact ⟨by omega, (Int.toNat_of_nonpos hle).symm⟩
    next =>
      refine ⟨?_, rfl⟩
      dsimp only
      rw [List.length_take]
      omega
  next =>
    dsimp only
    exact ⟨by omega, rfl⟩

theorem Socket.send_le (data : List UInt8) (k : Socket) :
    (k.send data).1 ≤ data.length := by
  unfold Socket.send
  split
  next =>
    split
    next hle =>
      dsimp only
      omega
    next =>
      dsimp only
      omega
  next =>
    dsimp only
    omega

/-- The calls on a socket keep to what is asked for. -/
theorem SocketStream.buffered_obeys : buffered.Obeys := by
  constructor
  · intro n k
    unfold buffered
    dsimp only
    split
    next => exact Socket.recv_le n k
    next => exact ⟨by dsimp only; omega, rfl⟩
  · intro data k
    unfold buffered
    dsimp only
    split
    next => exact Socket.send_le data k
    next =>
      dsimp only
      omega

/-- A socket that delivers five bytes, two at a time. -/
def shortReads : Transfer Socket where
  stream := ⟨true, fun _ => 2, 0, [1, 2, 3, 4, 5], []⟩
  buffer := fun _ => 0
  calls := []

theorem SocketStream.onArray_ok {α : Type} {m : BA α} {s s' : ByteArray}
    {a : α} (h : m s = .ok a s') (k : Socket) :
    onArray m (s, k) = .ok a (s', k) := by
  unfold onArray
  simp only [h]

/-- Receiving into a `ByteArray` writes what arrived, when the array grows
for what was asked for. -/
theorem SocketStream.read_wrote {b n : Nat} (hb : 0 < b) {s : ByteArray}
    (hs : s.Inv b) (hn : ByteArray.Suffices b s.getCurCapacity n)
    {k : Socket} (hk : k.connected = true) :
    ∃ s', SocketStream.read n (s, k)
        = .ok (k.recv n).1.1 (s', (k.recv n).2)
      ∧ ByteArray.Wrote b s (k.recv n).1.2 s' := by
  obtain ⟨hle, hdata⟩ := Socket.recv_le n k
  have hlen : (k.recv n).1.2.length ≤ n := by omega
  obtain ⟨iovs, s₁, hbufs, hsum, hs₂, hpos₁, hsize₁, hroom, hbytes⟩ :=
    ByteArray.scattered_spec hb hs hn hlen
  have hrun : SocketStream.read n (s, k)
      = (do advance (k.recv n).1.1; pure (k.recv n).1.1 : SocketBA Int)
        (s₁.scattered iovs (k.recv n).1.2, (k.recv n).2) := by
    show (if k.connected then _ else pure (-1) : SocketBA Int) (s, k) = _
    rw [if_pos hk, bind_ok (onArray_ok hbufs k)]
    dsimp only
    rw [hsum]
    rfl
  rw [hrun]
  by_cases hres : (k.recv n).1.1 > 0
  · have hpos : s₁.position + (k.recv n).1.1.toNat
        = s.position + (k.recv n).1.2.length := by omega
    rcases ByteArray.setPosition_spec hb hs₂
      (s.position + (k.recv n).1.2.length) with
      ⟨hgt, -⟩ | ⟨-, s₃, hset, hs₃, hpos₃, hsize₃, hroot₃⟩
    · have hcap : (s₁.scattered iovs (k.recv n).1.2).capacity = s₁.capacity :=
        rfl
      omega
    have hadvance : advance (k.recv n).1.1
        (s₁.scattered iovs (k.recv n).1.2, (k.recv n).2)
        = .ok () (s₃, (k.recv n).2) := by
      unfold advance
      rw [if_pos hres]
      refine onArray_ok ?_ _
      rw [← hset, ← hpos]
      rfl
    have hmax : s₃.size
        = max s.size (s.position + (k.recv n).1.2.length) := by
      rw [hsize₃, ← hsize₁]
      rfl
    refine ⟨s₃, ?_, hs₃, hpos₃, hmax, ?_⟩
    · rw [bind_ok hadvance]
      rfl
    · rw [← hbytes, ← hmax, ← hroot₃]
      rfl
  · have hnil : (k.recv n).1.2 = [] :=
      List.eq_nil_of_length_eq_zero (by omega)
    have hmax : max s.size (s.position + 0) = s.size := by
      have hle := hs.pos_le
      omega
    refine ⟨s₁.scattered iovs (k.recv n).1.2, ?_, hs₂, ?_, ?_, ?_⟩
    · unfold advance
      rw [if_neg hres]
      rfl
    · rw [hnil]
      exact hpos₁
    · rw [hnil]
      exact hsize₁.trans hmax.symm
    · rw [← hbytes, hnil]
      show (ByteArray.flat _).take s₁.size = _
      rw [hsize₁, List.length_nil, hmax]

/-- Sending a `ByteArray` hands over nothing, and its result is not
positive. -/
theorem SocketStream.write_nothing {left : Nat} {s : ByteArray} {k : Socket}
    (hk : k.connected = true) :
    SocketStream.write left (s, k)
      = .ok (min (k.limit k.calls) 0) (s, { k with calls := k.calls + 1 }) := by
  have hsend : k.send [] = (min (k.limit k.calls) 0,
      { k with calls := k.calls + 1 }) := by
    unfold Socket.send
    rw [if_pos hk]
    split
    next hle => rw [Int.min_eq_left hle]
    next hgt =>
      dsimp only
      rw [List.length_nil, Nat.min_zero, Int.min_eq_right (by omega),
        List.take_nil, List.append_nil]
      rfl
  have hrun : SocketStream.write left (s, k)
      = (do advance (k.send []).1; pure (k.send []).1 : SocketBA Int)
        (s, (k.send []).2) := by
    show (if k.connected then _ else pure (-1) : SocketBA Int) (s, k) = _
    rw [if_pos hk]
    rfl
  have hle : ¬ min (k.limit k.calls) 0 > 0 := by omega
  rw [hrun, hsend]
  unfold advance
  rw [if_neg hle]
  rfl

/-- The loop that sends a `ByteArray` makes one call. -/
theorem SocketStream.writeFixSize_nothing {fuel n : Nat} {s : ByteArray}
    {k : Socket} (hk : k.connected = true) (hn : n ≠ 0) :
    writeFixSize (fuel + 1) n (s, k)
      = .ok (some (min (k.limit k.calls) 0))
        (s, { k with calls := k.calls + 1 }) := by
  have hle : min (k.limit k.calls) 0 ≤ 0 := Int.min_le_right _ _
  unfold writeFixSize
  rw [fixSizeLoop, if_neg hn, bind_ok (write_nothing hk), if_pos hle]
  rfl

/-- Sending `n` bytes of the array to a peer that accepts at least one
byte in every call returns `n` and sends them; and whatever the peer does,
the cursor is behind what it accepted. -/
structure SendsBytes (s : ByteArray) (n : Nat) : Prop where
  whole : ∀ k : Socket, k.connected = true → (∀ i, 0 < k.limit i) →
    ∃ fuel s' k', SocketStream.writeFixSize fuel n (s, k)
        = .ok (some (n : Int)) (s', k')
      ∧ k'.sent = k.sent ++ slice s.bytes s.position n
      ∧ s'.position = s.position + n
  accepted : ∀ (k : Socket) fuel r s' k', k.connected = true →
    SocketStream.writeFixSize fuel n (s, k) = .ok r (s', k') →
    ∃ m, k'.sent = k.sent ++ slice s.bytes s.position m
      ∧ s'.position = s.position + m

/-- A `ByteArray` is sent exactly when there is nothing to send. -/
theorem send_bytes_iff (s : ByteArray) (n : Nat) : SendsBytes s n ↔ n = 0 := by
  have hnone : ∀ xs : List UInt8, xs = xs ++ slice s.bytes s.position 0 := by
    intro xs
    unfold slice
    rw [List.take_zero, List.append_nil]
  constructor
  · intro hsends
    by_contra hn
    obtain ⟨fuel, s', k', hrun, -⟩ :=
      hsends.whole ⟨true, fun _ => 1, 0, [], []⟩ rfl (fun _ => Int.one_pos)
    cases fuel with
    | zero => cases hrun
    | succ fuel =>
        rw [SocketStream.writeFixSize_nothing rfl hn] at hrun
        injection hrun with hres
        injection hres with hres
        have hzero : min (1 : Int) 0 = n := hres
        omega
  · rintro rfl
    refine ⟨fun k _ _ => ⟨1, s, k, rfl, hnone _, rfl⟩, ?_⟩
    intro k fuel r s' k' _ hrun
    cases fuel with
    | zero =>
        cases hrun
        exact ⟨0, hnone _, rfl⟩
    | succ fuel =>
        cases hrun
        exact ⟨0, hnone _, rfl⟩

/-- Two bytes are there, the peer takes one at a time, and after any number
of rounds none is sent. -/
theorem send_bytes_offers_nothing :
    2 ≤ ByteArray.threeBytes.getReadSize
      ∧ (∀ fuel, SocketStream.writeFixSize (fuel + 1) 2
          (ByteArray.threeBytes, ⟨true, fun _ => 1, 0, [], []⟩)
        = .ok (some 0)
          (ByteArray.threeBytes, ⟨true, fun _ => 1, 1, [], []⟩))
      ∧ ¬ SendsBytes ByteArray.threeBytes 2 := by
  refine ⟨by decide, fun fuel => ?_, fun hsends => ?_⟩
  · exact SocketStream.writeFixSize_nothing rfl (by decide)
  · obtain ⟨fuel, s', k', hrun, -⟩ :=
      hsends.whole ⟨true, fun _ => 1, 0, [], []⟩ rfl (fun _ => Int.one_pos)
    cases fuel with
    | zero => cases hrun
    | succ fuel =>
        rw [SocketStream.writeFixSize_nothing rfl (by decide)] at hrun
        injection hrun with hres
        cases hres

end TinyServer
