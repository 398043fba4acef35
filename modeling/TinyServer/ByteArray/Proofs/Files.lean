/-
Export to a file and import from one.

The import writes what each read of the stream delivers, so on a stream
that reaches the end of the file it is one write of the whole content, as
long as the array grows for every piece of it (`sizes`). On a stream that
fails the loop has no end: the condition of the source asks for the end of
the file, which is never reported again (`import_whole_iff`).

The export takes the offset of the cursor off every chunk, also off one
that does not reach to the end of its node. So it is right when the cursor
is at a border of nodes or at least a node is left behind it, and then the
chunks are the `iovec`s over the unread bytes (`export_unread_iff`).
-/
import TinyServer.ByteArray.Files
import TinyServer.ByteArray.Proofs.Iovecs
import TinyServer.ByteArray.Proofs.Wire

namespace TinyServer.ByteArray

open Lib

variable {b : Nat} {host : Host} {s s' : ByteArray} {f : Ifstream}
  {content : List UInt8} {ending : Ending}

-- ================================================================ the import

/-- The sizes of the writes of an import of `n` bytes. -/
def sizes (b n : Nat) : List Nat :=
  List.replicate (n / b) b ++ [n % b]

theorem sizes_short {n : Nat} (h : n < b) : sizes b n = [n] := by
  unfold sizes
  rw [Nat.div_eq_of_lt h, Nat.mod_eq_of_lt h]
  rfl

theorem sizes_long {n : Nat} (hb : 0 < b) (h : b ≤ n) :
    sizes b n = b :: sizes b (n - b) := by
  unfold sizes
  rw [Nat.div_eq_sub_div hb h, Nat.mod_eq_sub_mod h]
  rfl

/-- An array that ends at a border of nodes grows for every import. -/
theorem fits_sizes (hb : 0 < b) (n k : Nat) : Fits b (k * b) (sizes b n) := by
  induction n using Nat.strong_induction_on generalizing k with
  | _ n ih =>
  by_cases hshort : n < b
  · rw [sizes_short hshort]
    refine ⟨?_, trivial⟩
    cases k with
    | zero =>
        rw [Nat.zero_mul]
        rcases Nat.eq_zero_or_pos n with rfl | hn
        · exact .inl (Nat.le_refl _)
        · refine .inr (.inr ?_)
          rw [Nat.sub_zero, Nat.mod_eq_of_lt hshort]
          exact hn
    | succ k =>
        apply Or.inl
        rw [Nat.succ_mul]
        omega
  · have hlong := Nat.le_of_not_lt hshort
    rw [sizes_long hb hlong]
    cases k with
    | zero =>
        -- one node is added, and the write fills it
        have hgrow : 0 * b + growCount b (0 * b) b * b - b = 0 * b := by
          unfold growCount
          rw [Nat.zero_mul, if_neg (by omega), Nat.sub_zero, Nat.mod_self,
            Nat.div_self hb, if_neg (by omega)]
          omega
        refine ⟨.inr (.inl ?_), ?_⟩
        · rw [Nat.zero_mul, Nat.sub_zero, Nat.mod_self]
        · rw [hgrow]
          exact ih (n - b) (by omega) 0
    | succ k =>
        have hle : b ≤ (k + 1) * b := Nat.le_mul_of_pos_left b (Nat.succ_pos k)
        have hgrow : (k + 1) * b + growCount b ((k + 1) * b) b * b - b
            = k * b := by
          unfold growCount
          rw [if_pos hle, Nat.succ_mul]
          omega
        refine ⟨.inl hle, ?_⟩
        rw [hgrow]
        exact ih (n - b) (by omega) k

/-- More fuel does not change a result. -/
theorem readFromFileLoop_mono {fuel k : Nat}
    {r : EStateM.Result Err ByteArray Bool}
    (h : readFromFileLoop fuel f s = some r) :
    readFromFileLoop (fuel + k) f s = some r := by
  induction fuel generalizing f s with
  | zero => cases h
  | succ fuel ih =>
      rw [Nat.succ_add]
      unfold readFromFileLoop at h ⊢
      split at h
      next heof =>
        rw [if_pos heof]
        exact h
      next heof =>
        rw [if_neg heof]
        split at h
        next => exact ih h
        next => exact h

/-- The result does not depend on the fuel. -/
theorem readFromFileLoop_unique {fuel fuel' : Nat}
    {r r' : EStateM.Result Err ByteArray Bool}
    (h : readFromFileLoop fuel f s = some r)
    (h' : readFromFileLoop fuel' f s = some r') : r = r' := by
  have hmore := readFromFileLoop_mono (k := fuel') h
  have hmore' := readFromFileLoop_mono (k := fuel) h'
  rw [Nat.add_comm, hmore] at hmore'
  exact Option.some.inj hmore'

/-- One round on a stream that is good. -/
theorem readFromFileLoop_round {fuel : Nat} (hs : Inv b s)
    (heof : f.eof = false) :
    readFromFileLoop (fuel + 1) f s = match write (f.read b).1 s with
      | .ok () s' => readFromFileLoop fuel (f.read b).2 s'
      | .error e s' => some (.error e s') := by
  rw [readFromFileLoop, heof, hs.base]
  rfl

/-- On a stream that reaches the end of the file the import is one write
of the content, or it runs into the null node. -/
theorem readFromFileLoop_eof (hb : 0 < b) (hs : Inv b s)
    (content : List UInt8) :
    (¬ Fits b s.getCurCapacity (sizes b content.length)
      ∧ ∃ fuel s', readFromFileLoop fuel (.opened content .eof) s
        = some (.error .nullDeref s'))
    ∨ Fits b s.getCurCapacity (sizes b content.length)
      ∧ ∃ fuel s', readFromFileLoop fuel (.opened content .eof) s
        = some (.ok true s') ∧ Wrote b s content s' := by
  induction hn : content.length using Nat.strong_induction_on
    generalizing content s with
  | _ n ih =>
  subst hn
  by_cases hshort : content.length < b
  · have hread : (Ifstream.opened content .eof).read b
        = (content, ⟨[], .eof, true, true⟩) := by
      unfold Ifstream.read Ifstream.opened
      simp only [Bool.false_eq_true, or_self, if_false]
      rw [if_neg (by omega)]
    have hround : ∀ fuel, readFromFileLoop (fuel + 1) (.opened content .eof) s
        = _ := fun fuel => readFromFileLoop_round hs rfl
    rw [sizes_short hshort]
    rcases write_spec hb hs content with
      ⟨hno, s', hrun⟩ | ⟨hyes, s', hrun, hwrote, -⟩
    · refine .inl ⟨fun h => hno h.1, 1, s', ?_⟩
      rw [hround, hread, hrun]
    · refine .inr ⟨⟨hyes, trivial⟩, 2, s', ?_, hwrote⟩
      rw [hround, hread, hrun]
      rfl
  · have hlong := Nat.le_of_not_lt hshort
    have hread : (Ifstream.opened content .eof).read b
        = (content.take b, .opened (content.drop b) .eof) := by
      unfold Ifstream.read Ifstream.opened
      simp only [Bool.false_eq_true, or_self, if_false]
      rw [if_pos hlong]
    have hround : ∀ fuel, readFromFileLoop (fuel + 1) (.opened content .eof) s
        = _ := fun fuel => readFromFileLoop_round hs rfl
    have htake : (content.take b).length = b :=
      List.length_take_of_le hlong
    have hdrop : (content.drop b).length = content.length - b :=
      List.length_drop
    rw [sizes_long hb hlong]
    rcases write_spec hb hs (content.take b) with
      ⟨hno, s', hrun⟩ | ⟨hyes, s₁, hrun, hwrote, hcap, -⟩
    · refine .inl ⟨fun h => hno (htake.symm ▸ h.1), 1, s', ?_⟩
      rw [hround, hread, hrun]
    rw [htake] at hyes hcap
    have hleft : s₁.getCurCapacity = s.getCurCapacity
        + growCount b s.getCurCapacity b * b - b := by
      have hle := hs.pos_le_capacity
      unfold getCurCapacity at hcap ⊢
      rw [hcap, hwrote.position, htake]
      omega
    have hrest := ih _ (by omega) hwrote.inv (content.drop b) rfl
    rw [hleft, hdrop] at hrest
    rcases hrest with ⟨hno, fuel, s', hloop⟩ | ⟨hfits, fuel, s', hloop, hrest⟩
    · refine .inl ⟨fun h => hno h.2, fuel + 1, s', ?_⟩
      rw [hround, hread, hrun]
      exact hloop
    · refine .inr ⟨⟨hyes, hfits⟩, fuel + 1, s', ?_, ?_⟩
      · rw [hround, hread, hrun]
        exact hloop
      · rw [← List.take_append_drop b content]
        exact hwrote.append hs hrest

/-- A stream that ends with an error never reports the end of the file. -/
theorem Ifstream.read_error {kept n : Nat} (hend : f.ending = .error kept)
    (heof : f.eof = false) :
    (f.read n).2.ending = .error kept ∧ (f.read n).2.eof = false := by
  unfold Ifstream.read
  rw [hend]
  split
  next => exact ⟨rfl, heof⟩
  next =>
    split
    next => exact ⟨rfl, heof⟩
    next => exact ⟨rfl, heof⟩

/-- On a stream that ends with an error the import does not return. -/
theorem readFromFileLoop_error {kept fuel : Nat} {r : Bool}
    (hend : f.ending = .error kept) (heof : f.eof = false) :
    readFromFileLoop fuel f s ≠ some (.ok r s') := by
  induction fuel generalizing f s with
  | zero => exact fun h => by cases h
  | succ fuel ih =>
      intro h
      rw [readFromFileLoop, heof, if_neg Bool.false_ne_true] at h
      obtain ⟨hend', heof'⟩ := Ifstream.read_error (n := s.baseSize) hend heof
      split at h
      next s₁ hrun => exact ih hend' heof' h
      next e s₁ hrun => cases h

/-- Once the stream has failed the loop goes round for ever. -/
theorem readFromFileLoop_failed {fuel : Nat} (hfail : f.fail = true)
    (heof : f.eof = false) : readFromFileLoop fuel f s = none := by
  induction fuel with
  | zero => rfl
  | succ fuel ih =>
      have hread : f.read s.baseSize = ([], f) := by
        unfold Ifstream.read
        rw [if_pos (.inr hfail), ← hfail]
      rw [readFromFileLoop, heof, if_neg Bool.false_ne_true, hread]
      exact ih

/-- The import returns, and when it returns `true` the whole content was
written at the cursor. -/
structure ImportsWhole (b : Nat) (s : ByteArray) (content : List UInt8)
    (ending : Ending) : Prop where
  returns : ∃ fuel r s', readFromFile fuel (some (.opened content ending)) s
    = some (.ok r s')
  whole : ∀ fuel s', readFromFile fuel (some (.opened content ending)) s
    = some (.ok true s') → Wrote b s content s'

/-- The import is right exactly on the streams that reach the end of the
file, when the array grows for every piece of the content. -/
theorem import_whole_iff (hb : 1 ≤ b) (h : Reachable host b s) :
    ImportsWhole b s content ending
      ↔ ending = .eof
        ∧ Fits b s.getCurCapacity (sizes b content.length) := by
  have hs := h.inv host hb
  constructor
  · intro himport
    obtain ⟨fuel, r, s', hrun⟩ := himport.returns
    cases ending with
    | error kept => exact absurd hrun (readFromFileLoop_error rfl rfl)
    | eof =>
        refine ⟨rfl, ?_⟩
        rcases readFromFileLoop_eof hb hs content with
          ⟨-, fuel', s₁, hdies⟩ | ⟨hfits, -⟩
        · cases readFromFileLoop_unique hrun hdies
        · exact hfits
  · rintro ⟨rfl, hfits⟩
    rcases readFromFileLoop_eof hb hs content with
      ⟨hno, -⟩ | ⟨-, fuel, s', hrun, hwrote⟩
    · exact absurd hfits hno
    · refine ⟨⟨fuel, true, s', hrun⟩, fun fuel' s₁ hrun' => ?_⟩
      cases readFromFileLoop_unique hrun hrun'
      exact hwrote

/-- Five bytes into a new array of base size 2. -/
theorem import_whole_iff_five_bytes :
    ImportsWhole 2 (ByteArray.new 2 fun _ => 0) [1, 2, 3, 4, 5] .eof := by
  have hnew : Reachable ⟨.little, 100, fun _ => 0⟩ 2
      (ByteArray.new 2 fun _ => 0) := .new _
  exact (import_whole_iff (by decide) hnew).mpr ⟨rfl, by decide⟩

/-- The stream delivers one byte and then fails, as a damaged file does:
after any number of rounds the loop is still running. -/
theorem import_hangs :
    Reachable ⟨.little, 100, fun _ => 0⟩ 2 (ByteArray.new 2 fun _ => 0)
      ∧ (∀ fuel, readFromFile fuel (some (.opened [1] (.error 1)))
        (ByteArray.new 2 fun _ => 0) = none)
      ∧ ¬ ImportsWhole 2 (ByteArray.new 2 fun _ => 0) [1] (.error 1) := by
  have hnone : ∀ fuel, readFromFile fuel (some (.opened [1] (.error 1)))
      (ByteArray.new 2 fun _ => 0) = none := by
    intro fuel
    cases fuel with
    | zero => rfl
    | succ fuel =>
        exact readFromFileLoop_failed (f := ⟨[], .error 1, false, true⟩) rfl
          rfl
  refine ⟨.new _, hnone, fun himport => ?_⟩
  obtain ⟨fuel, r, s', hrun⟩ := himport.returns
  rw [hnone fuel] at hrun
  cases hrun

-- ================================================================ the export

/-- The places of the flat contents that a chunk covers. -/
def placesOf (b : Nat) (c : FileChunk) : List Nat :=
  List.range' (c.node * b + c.off.toNat) c.len.toNat

/-- The call of `ofs.write` for an `iovec`. -/
def chunkOf (v : Iovec) : FileChunk := ⟨v.node, v.off, v.len⟩

theorem map_toIovec (iovs : List Iovec) :
    (iovs.map chunkOf).map FileChunk.toIovec = iovs := by
  rw [List.map_map]
  exact List.map_id iovs

/-- The places that are covered, one after the other. -/
theorem Covers.places {p n : Nat} {iovs : List Iovec}
    (h : Covers b p n iovs) :
    (iovs.map chunkOf).flatMap (placesOf b) = List.range' p n := by
  induction iovs generalizing p n with
  | nil =>
      obtain rfl : n = 0 := h
      rfl
  | cons v vs ih =>
      obtain ⟨hp, -, -, hle, hvs⟩ := h
      have hfirst : placesOf b (chunkOf v) = List.range' p v.len := by
        rw [← hp]
        rfl
      rw [List.map_cons, List.flatMap_cons, ih hvs, hfirst,
        List.range'_append_1, Nat.add_sub_cancel' hle]

theorem writeToFileLoop_done (b : Nat) (chain : List Node) (i : Nat)
    (pos : Int) : writeToFileLoop b chain i pos 0 = some [] := by
  cases chain with
  | nil => rfl
  | cons n ns => rfl

/-- `int diff` holds an offset below `2 ^ 31`. -/
theorem offset_narrow {p : Nat} (h : p % b < 0x80000000) :
    ((p : Int) % b).bmod 0x100000000 = (p % b : Nat) := by
  rw [Int.bmod_eq_of_le (by omega) (by omega)]
  rfl

/-- From a border of nodes on, or with a node left behind the cursor, the
chunks are the `iovec`s over the unread bytes. -/
theorem writeToFileLoop_covers (hb : 0 < b) {chain : List Node} {p n : Nat}
    (hnarrow : p % b < 0x80000000) (hlong : p % b = 0 ∨ b ≤ n)
    (hroom : p % b + n ≤ chain.length * b) :
    ∃ iovs, writeToFileLoop b chain (p / b) p n = some (iovs.map chunkOf)
      ∧ Covers b p n iovs := by
  induction chain generalizing p n with
  | nil =>
      rw [List.length_nil, Nat.zero_mul] at hroom
      obtain rfl : n = 0 := by omega
      exact ⟨[], rfl, rfl⟩
  | cons m ms ih =>
      rcases Nat.eq_zero_or_pos n with rfl | hn
      · exact ⟨[], writeToFileLoop_done _ _ _ _, rfl⟩
      have hdiv := Nat.div_add_mod' p b
      have hmod := Nat.mod_lt p hb
      rw [List.length_cons, Nat.succ_mul] at hroom
      have hlen : (if (n : Int) > b then (b : Int) else n) - (p % b : Nat)
          = (min n b - p % b : Nat) := by
        split <;> omega
      have hpos : (p : Int) + (min n b - p % b : Nat)
          = (p + (min n b - p % b) : Nat) := rfl
      have hleft : (n : Int) - (min n b - p % b : Nat)
          = (n - (min n b - p % b) : Nat) := by omega
      have hcov : ∀ vs, Covers b (p + (min n b - p % b))
          (n - (min n b - p % b)) vs →
          Covers b p n (⟨p / b, p % b, min n b - p % b⟩ :: vs) := by
        intro vs hvs
        refine ⟨hdiv, ?_, ?_, ?_, hvs⟩
        · show p % b + (min n b - p % b) ≤ b
          omega
        · show 0 < min n b - p % b
          omega
        · show min n b - p % b ≤ n
          omega
      unfold writeToFileLoop
      rw [if_pos (by omega), offset_narrow hnarrow]
      dsimp only
      rw [hlen, hpos, hleft]
      by_cases hfull : b ≤ n
      · -- the chunk reaches to the end of its node
        have hnext : p + (min n b - p % b) = (p / b + 1) * b := by
          rw [Nat.succ_mul]
          omega
        have hoff : (p / b + 1) * b % b = 0 := Nat.mul_mod_left _ _
        rw [hnext] at hcov ⊢
        obtain ⟨iovs, hloop, hrest⟩ := ih (p := (p / b + 1) * b)
          (n := n - (min n b - p % b)) (by omega) (.inl hoff) (by omega)
        rw [Nat.mul_div_cancel _ hb] at hloop
        rw [hloop]
        exact ⟨_ :: iovs, rfl, hcov iovs hrest⟩
      · have hdone : n - (min n b - p % b) = 0 := by omega
        rw [hdone] at hcov ⊢
        have hloop := writeToFileLoop_done b ms (p / b + 1)
          ((p + (min n b - p % b) : Nat) : Int)
        rw [Int.ofNat_zero, hloop]
        exact ⟨[_], rfl, hcov [] rfl⟩

/-- `writeToFile`, with the monad unfolded and the cursor where the
invariant puts it. -/
theorem writeToFile_eq (hs : Inv b s) :
    writeToFile true s = match writeToFileLoop b
        (s.root.drop (s.position / b)) (s.position / b) s.position
        s.getReadSize with
      | none => .error .nullDeref s
      | some chunks => .ok (true, chunks) s := by
  have hcur : s.cur.getD s.root.length = s.position / b := by
    rw [hs.cur_eq]
    unfold nodeAt
    split
    next => rfl
    next hge =>
      -- a null cursor is at the end of the capacity
      have hle := hs.pos_le_capacity
      rw [hs.capacity_eq] at hle
      have hdiv := Nat.div_le_of_le_mul (Nat.mul_comm _ b ▸ hle)
      show s.root.length = _
      omega
  show (match writeToFileLoop s.baseSize (s.root.drop (s.cur.getD _)) _ _ _ with
    | none => throw Err.nullDeref
    | some chunks => pure (true, chunks) : BA (Bool × List FileChunk)) s = _
  rw [hcur, hs.base]
  cases writeToFileLoop b (s.root.drop (s.position / b)) (s.position / b)
    s.position s.getReadSize with
  | none => rfl
  | some chunks => rfl

/-- What `writeToFile` passes to the stream are the unread bytes, and from
the file they come back into an empty array. -/
structure ExportsUnread (s : ByteArray) (chunks : List FileChunk) : Prop where
  run : writeToFile true s = .ok (true, chunks) s
  inside : ∀ c ∈ chunks, 0 < c.len ∧ 0 ≤ c.off
    ∧ ∃ m, s.root[c.node]? = some m ∧ c.off + c.len ≤ m.size
  places : chunks.flatMap (placesOf s.baseSize)
    = List.range' s.position s.getReadSize
  contents : written s.root chunks = s.bytes.drop s.position
  comesBack : ∀ (host : Host) (b : Nat) (t : ByteArray), 1 ≤ b →
    Reachable host b t → t.size = 0 → ∃ fuel t₁ t₂ str,
      readFromFile fuel (some (.opened (written s.root chunks) .eof)) t
        = some (.ok true t₁)
      ∧ setPosition 0 t₁ = .ok () t₂
      ∧ toString s = .ok str s ∧ toString t₂ = .ok str t₂

/-- What is imported into an empty array is all it holds. -/
theorem import_empty (hb : 0 < b) (hs : Inv b s) (h0 : s.size = 0)
    (content : List UInt8) :
    ∃ fuel s₁ s₂, readFromFile fuel (some (.opened content .eof)) s
        = some (.ok true s₁)
      ∧ setPosition 0 s₁ = .ok () s₂ ∧ toString s₂ = .ok content s₂ := by
  have hpos : s.position = 0 := Nat.le_zero.mp (h0 ▸ hs.pos_le)
  have hfits : Fits b s.getCurCapacity (sizes b content.length) := by
    unfold getCurCapacity
    rw [hpos, Nat.sub_zero, hs.capacity_eq]
    exact fits_sizes hb _ _
  rcases readFromFileLoop_eof hb hs content with
    ⟨hno, -⟩ | ⟨-, fuel, s₁, hrun, hwrote⟩
  · exact absurd hfits hno
  have hset := setPosition_moved hb hwrote.inv (Nat.zero_le s₁.size)
  have hmoved : Inv b (s₁.moved s₁.endian 0) :=
    hwrote.inv.moved (Nat.zero_le _)
  refine ⟨fuel, s₁, _, hrun, hset, ?_⟩
  have hbytes : s₁.bytes = content := by
    rw [hwrote.bytes, hpos]
    unfold bytes
    rw [h0]
    simp [overlay]
  rw [toString_spec hb hmoved]
  show EStateM.Result.ok (s₁.bytes.drop 0) _ = _
  rw [hbytes, List.drop_zero]

/-- Chunks over the unread bytes are an export. -/
theorem Covers.exports (hb : 0 < b) (hs : Inv b s) {iovs : List Iovec}
    (hcov : Covers b s.position s.getReadSize iovs)
    (hrun : writeToFile true s = .ok (true, iovs.map chunkOf) s) :
    ExportsUnread s (iovs.map chunkOf) := by
  have hpos := hs.pos_le
  have hsize := hs.size_le
  have hroom : s.position + s.getReadSize ≤ s.root.length * b := by
    rw [← hs.capacity_eq]
    unfold getReadSize
    omega
  have hcontents : written s.root (iovs.map chunkOf)
      = s.bytes.drop s.position := by
    unfold written
    rw [map_toIovec, gathered_covers hs.chain hcov hroom]
    unfold bytes getReadSize slice
    rw [List.drop_take]
  refine ⟨hrun, fun c hc => ?_, ?_, hcontents, fun host' b' t hb' ht h0 => ?_⟩
  · obtain ⟨v, hv, rfl⟩ := List.mem_map.mp hc
    obtain ⟨-, -, hne, hin⟩ := hcov.le hv
    obtain ⟨m, hm⟩ := hcov.node hroom hv
    have hm' := (hs.chain m (List.mem_of_getElem? hm)).1
    refine ⟨Int.ofNat_lt.mpr hne, Int.natCast_nonneg _, m, hm, ?_⟩
    show (v.off : Int) + v.len ≤ m.size
    omega
  · rw [hs.base, hcov.places]
  · obtain ⟨fuel, t₁, t₂, hread, hset, hstr⟩ :=
      import_empty hb' (ht.inv host' hb') h0 (s.bytes.drop s.position)
    rw [hcontents]
    exact ⟨fuel, t₁, t₂, _, hread, hset, toString_spec hb hs, hstr⟩

/-- A run of places goes on where it stopped. -/
theorem start_of_places {p q m k n : Nat} {xs : List Nat} (hk : 0 < k)
    (h : List.range' p m ++ (List.range' q k ++ xs) = List.range' p n) :
    q = p + m := by
  have hlen := congrArg List.length h
  simp only [List.length_append, List.length_range'] at hlen
  have hat := congrArg (·[m]?) h
  simp only [List.getElem?_append_right, List.length_range', Nat.le_refl,
    Nat.sub_self, List.getElem?_append_left, hk, List.getElem?_range',
    show m < n by omega, Nat.one_mul, Nat.mul_zero, Nat.add_zero,
    Option.some.injEq] at hat
  exact hat

/-- The first two chunks of an export show where the cursor is. -/
theorem ExportsUnread.aligned (hb : 0 < b) (hs : Inv b s)
    {chunks : List FileChunk} (h : ExportsUnread s chunks)
    (hread : 0 < s.getReadSize) :
    (s.position % b = 0 ∨ b ≤ s.getReadSize)
      ∧ s.position % b < 0x80000000 := by
  have hdiv := Nat.div_add_mod' s.position b
  have hmod := Nat.mod_lt s.position hb
  obtain ⟨hrun, hinside, hplaces, -, -⟩ := h
  rw [hs.base] at hplaces
  rw [writeToFile_eq hs] at hrun
  split at hrun
  next => cases hrun
  next chunks' hloop =>
    cases hrun
    cases hchain : s.root.drop (s.position / b) with
    | nil =>
        rw [hchain, writeToFileLoop, if_pos (by omega)] at hloop
        cases hloop
    | cons m ms =>
        rw [hchain, writeToFileLoop, if_pos (by omega)] at hloop
        dsimp only at hloop
        obtain ⟨rest, hrest, rfl⟩ := Option.map_eq_some_iff.mp hloop
        obtain ⟨hlen, hoff, -⟩ := hinside _ List.mem_cons_self
        have hlt := @Int.bmod_lt ((s.position : Int) % b) 0x100000000
          (by decide)
        generalize ((s.position : Int) % b).bmod 0x100000000 = d at *
        unfold placesOf at hplaces
        rw [List.flatMap_cons] at hplaces
        dsimp only at hlen hoff hplaces
        have hstart := start_of_places (m := 0) (by omega) hplaces
        rw [Nat.add_zero] at hstart
        have hd : d = (s.position % b : Nat) := by omega
        refine ⟨?_, by omega⟩
        by_contra hcon
        -- the chunk ends before its node does, and the next one is in the
        -- next node
        rw [if_neg (by omega)] at hrest hplaces hlen
        cases ms with
        | nil =>
            rw [writeToFileLoop, if_pos (by omega)] at hrest
            cases hrest
        | cons m' ms =>
            rw [writeToFileLoop, if_pos (by omega)] at hrest
            dsimp only at hrest
            obtain ⟨rest', -, rfl⟩ := Option.map_eq_some_iff.mp hrest
            obtain ⟨hlen', -, -⟩ := hinside _
              (List.mem_cons_of_mem _ List.mem_cons_self)
            rw [List.flatMap_cons, hstart] at hplaces
            dsimp only at hplaces hlen'
            have hnext := start_of_places (by omega) hplaces
            rw [Nat.succ_mul] at hnext
            omega

/-- The export is right exactly when nothing is left to read, or the cursor
is at a border of nodes or has at least a node behind it, and its offset
in the node is an `int`. -/
theorem export_unread_iff (hb : 1 ≤ b) (h : Reachable host b s) :
    (∃ chunks, ExportsUnread s chunks)
      ↔ s.getReadSize = 0
        ∨ (s.position % b = 0 ∨ b ≤ s.getReadSize)
          ∧ s.position % b < 0x80000000 := by
  have hs := h.inv host hb
  constructor
  · rintro ⟨chunks, hexport⟩
    rcases Nat.eq_zero_or_pos s.getReadSize with h0 | hread
    · exact .inl h0
    · exact .inr (hexport.aligned hb hs hread)
  · intro hcond
    have hcover : ∃ iovs, writeToFileLoop b (s.root.drop (s.position / b))
        (s.position / b) s.position s.getReadSize = some (iovs.map chunkOf)
        ∧ Covers b s.position s.getReadSize iovs := by
      rcases hcond with h0 | ⟨hlong, hnarrow⟩
      · rw [h0]
        exact ⟨[], writeToFileLoop_done _ _ _ _, rfl⟩
      by_cases hcap : s.position < s.capacity
      · refine writeToFileLoop_covers hb hnarrow hlong
          ((room_drop hs hcap).mpr ?_)
        have hpos := hs.pos_le
        have hsize := hs.size_le
        rw [← hs.capacity_eq]
        unfold getReadSize
        omega
      · have h0 : s.getReadSize = 0 := by
          have hsize := hs.size_le
          unfold getReadSize
          omega
        rw [h0]
        exact ⟨[], writeToFileLoop_done _ _ _ _, rfl⟩
    obtain ⟨iovs, hloop, hcov⟩ := hcover
    refine ⟨iovs.map chunkOf, hcov.exports hb hs ?_⟩
    rw [writeToFile_eq hs, hloop]

/-- From the border of the second node on. -/
theorem export_unread_iff_second_node :
    ∃ s chunks, run ⟨.little, 100, fun _ => 0⟩ 2 (fun _ => 0)
        [.write [1, 2], .write [3], .setPosition 2] = some s
      ∧ ExportsUnread s chunks := by
  have hrun : run ⟨.little, 100, fun _ => 0⟩ 2 (fun _ => 0)
      [.write [1, 2], .write [3], .setPosition 2] = some _ := rfl
  obtain ⟨chunks, hexport⟩ := (export_unread_iff (by decide)
    (reachable_run _ hrun)).mpr (.inr ⟨.inl rfl, by decide⟩)
  exact ⟨_, chunks, hrun, hexport⟩

/-- Two bytes in a node of four, with the cursor on the second. -/
def twoBytes : ByteArray where
  baseSize := 4
  position := 1
  capacity := 4
  size := 2
  endian := .big
  root := [⟨4, [1, 2, 0, 0]⟩]
  cur := some 0
  heap := fun _ => 0

/-- One byte is left behind a cursor in the middle of a node: the chunk has
the length 0, and the loop goes on in the null node behind it. -/
theorem export_unread_dies :
    Reachable ⟨.little, 100, fun _ => 0⟩ 4 twoBytes
      ∧ toString twoBytes = .ok [2] twoBytes
      ∧ writeToFile true twoBytes = .error .nullDeref twoBytes
      ∧ ¬ ∃ chunks, ExportsUnread twoBytes chunks := by
  have hrun : run ⟨.little, 100, fun _ => 0⟩ 4 (fun _ => 0)
      [.write [1, 2], .setPosition 1] = some twoBytes := rfl
  have hdies : writeToFile true twoBytes = .error .nullDeref twoBytes := rfl
  refine ⟨reachable_run _ hrun, rfl, hdies, ?_⟩
  rintro ⟨chunks, hexport⟩
  have hok := hexport.run
  rw [hdies] at hok
  cases hok

end TinyServer.ByteArray
