/-
Reading from a stream of segments: the bytes come in order and none of
them twice, whatever the segments are.
-/
import TinyServer.Http.Stream

namespace TinyServer.Http.Conn

variable {c c' : Conn} {n left fuel : Nat} {bs b : Bytes}

/-- No segment is empty: a read that does not fail brings a byte. -/
def Live (c : Conn) : Prop := ∀ seg ∈ c.segs, seg ≠ []

instance (c : Conn) : Decidable c.Live :=
  inferInstanceAs (Decidable (∀ seg ∈ c.segs, seg ≠ []))

/-- The segments after their first `n` bytes. -/
def skip : Nat → List Bytes → List Bytes
  | _, [] => []
  | n, seg :: rest =>
      if n < seg.length then seg.drop n :: rest
      else skip (n - seg.length) rest

/-- Nothing taken, nothing is gone. -/
theorem skip_zero {segs : List Bytes} (h : ∀ seg ∈ segs, seg ≠ []) :
    skip 0 segs = segs := by
  cases segs with
  | nil => rfl
  | cons seg rest =>
      have hpos := List.length_pos_iff.mpr (h seg List.mem_cons_self)
      rw [skip, if_pos hpos, List.drop_zero]

/-- Taking in two steps is taking at once. -/
theorem skip_add (segs : List Bytes) :
    ∀ (m n : Nat), skip (m + n) segs = skip n (skip m segs) := by
  induction segs with
  | nil => exact fun _ _ => rfl
  | cons seg rest ih =>
      intro m n
      by_cases hm : m < seg.length
      · rw [skip, skip, if_pos hm, skip, List.length_drop, List.drop_drop]
        by_cases hn : m + n < seg.length
        · rw [if_pos hn, if_pos (by omega)]
        · rw [if_neg hn, if_neg (by omega),
            show m + n - seg.length = n - (seg.length - m) by omega]
      · rw [skip, if_neg (by omega), skip, if_neg hm, ← ih,
          show m + n - seg.length = m - seg.length + n by omega]

/-- What is left has no empty segment. -/
theorem live_skip (segs : List Bytes) (h : ∀ seg ∈ segs, seg ≠ []) :
    ∀ n, ∀ seg ∈ skip n segs, seg ≠ [] := by
  induction segs with
  | nil => exact fun _ => h
  | cons s rest ih =>
      intro n seg hseg
      rw [skip] at hseg
      split at hseg
      next hn =>
          rcases List.mem_cons.mp hseg with rfl | hseg
          · rw [← List.length_pos_iff, List.length_drop]
            omega
          · exact h seg (List.mem_cons_of_mem _ hseg)
      next =>
          exact ih (fun t ht => h t (List.mem_cons_of_mem _ ht)) _ seg hseg

/-- What a call left of a stream after it took `bs` from it. -/
structure Took (c : Conn) (bs : Bytes) (c' : Conn) : Prop where
  unread : bs ++ c'.unread = c.unread
  waits : c'.waits = c.waits
  segs : c.Live → c'.segs = skip bs.length c.segs

namespace Took

/-- Taking nothing. -/
theorem refl (c : Conn) : Took c [] c :=
  ⟨rfl, rfl, fun hc => (skip_zero hc).symm⟩

/-- A connection stays one with no empty segment. -/
theorem live (h : Took c bs c') (hc : c.Live) : c'.Live := by
  rw [Live, h.segs hc]
  exact live_skip c.segs hc bs.length

/-- One after the other. -/
theorem trans {c₁ : Conn} {bs₁ : Bytes} (h : Took c bs c')
    (h' : Took c' bs₁ c₁) : Took c (bs ++ bs₁) c₁ :=
  ⟨by rw [List.append_assoc, h'.unread, h.unread], h'.waits.trans h.waits,
    fun hc => by rw [h'.segs (h.live hc), h.segs hc, ← skip_add,
      List.length_append]⟩

end Took

/-- A read takes a whole segment when there is room for it. -/
theorem read_cons {seg : Bytes} {rest : List Bytes} {waits : Bool}
    (h : seg.length ≤ n) :
    read ⟨seg :: rest, waits⟩ n = .ok (seg, ⟨rest, waits⟩) := by
  rw [read]
  dsimp only
  rw [if_pos h, List.take_of_length_le h]

/-- A read takes what it returns, and no more than was asked for. -/
theorem read_took (h : c.read n = .ok (bs, c')) :
    Took c bs c' ∧ bs.length ≤ n := by
  obtain ⟨segs, waits⟩ := c
  cases segs with
  | nil =>
      rw [read] at h
      dsimp only at h
      split at h
      next => cases h
      next =>
          cases h
          exact ⟨Took.refl _, Nat.zero_le n⟩
  | cons seg rest =>
      by_cases hn : seg.length ≤ n
      · rw [read_cons hn] at h
        cases h
        refine ⟨⟨rfl, rfl, fun hc => ?_⟩, hn⟩
        rw [skip, if_neg (Nat.lt_irrefl _), Nat.sub_self]
        exact (skip_zero fun s hs => hc s (List.mem_cons_of_mem _ hs)).symm
      · cases h
        dsimp only
        rw [if_neg hn]
        refine ⟨⟨?_, rfl, fun _ => ?_⟩, List.length_take_le n seg⟩
        · rw [unread, unread, List.flatten_cons, ← List.append_assoc,
            List.take_append_drop, List.flatten_cons]
        · rw [skip, List.length_take, if_pos (by omega),
            show min n seg.length = n by omega]

/-- While there are bytes a read brings one. -/
theorem read_ok (hc : c.Live) (hn : 0 < n) (hu : c.unread ≠ []) :
    ∃ bs c', c.read n = .ok (bs, c') ∧ bs ≠ [] := by
  obtain ⟨segs, waits⟩ := c
  cases segs with
  | nil => exact absurd rfl hu
  | cons seg rest =>
      refine ⟨_, _, rfl, ?_⟩
      have hseg := List.length_pos_iff.mpr (hc seg List.mem_cons_self)
      rw [← List.length_pos_iff, List.length_take]
      omega

/-- A successful `readFixSize` brings the next bytes. -/
theorem readFixSize_took :
    ∀ {fuel : Nat} {c : Conn} {left : Nat} {b : Bytes},
      c.readFixSize fuel left = .ok (some b, c') →
      Took c b c' ∧ b.length = left := by
  intro fuel
  induction fuel with
  | zero =>
      intro c left b h
      cases h
  | succ fuel ih =>
      intro c left b h
      rw [readFixSize] at h
      split at h
      next hleft =>
          cases h
          exact ⟨Took.refl _, hleft.symm⟩
      next hleft =>
          cases hread : c.read left with
          | error e =>
              rw [hread] at h
              cases h
          | ok out =>
              obtain ⟨bs, c₁⟩ := out
              obtain ⟨htook, hlen⟩ := read_took hread
              rw [hread] at h
              change (if bs = [] then _ else _) = _ at h
              split at h
              next => cases h
              next hbs =>
                  cases hrest : c₁.readFixSize fuel (left - bs.length) with
                  | error e =>
                      rw [hrest] at h
                      cases h
                  | ok out =>
                      obtain ⟨_ | b₁, c₂⟩ := out
                      all_goals
                        rw [hrest] at h
                        cases h
                      obtain ⟨htook₁, hlen₁⟩ := ih hrest
                      refine ⟨htook.trans htook₁, ?_⟩
                      rw [List.length_append]
                      omega

/-- `readFixSize` succeeds when the bytes are there. -/
theorem readFixSize_ok :
    ∀ {fuel : Nat} {c : Conn} {left : Nat}, c.Live → left < fuel →
      left ≤ c.unread.length →
      ∃ b c', c.readFixSize fuel left = .ok (some b, c') := by
  intro fuel
  induction fuel with
  | zero =>
      intro c left _ hfuel
      exact absurd hfuel (Nat.not_lt_zero left)
  | succ fuel ih =>
      intro c left hc hfuel hle
      rw [readFixSize]
      by_cases hleft : left = 0
      · exact ⟨[], c, if_pos hleft⟩
      · have hu : c.unread ≠ [] := by
          rw [← List.length_pos_iff]
          omega
        obtain ⟨bs, c₁, hread, hbs⟩ := read_ok hc (Nat.pos_of_ne_zero hleft) hu
        obtain ⟨htook, hlen⟩ := read_took hread
        have hpos := List.length_pos_iff.mpr hbs
        have hunread := congrArg List.length htook.unread
        rw [List.length_append] at hunread
        obtain ⟨b, c₂, hrest⟩ : ∃ b c₂,
            c₁.readFixSize fuel (left - bs.length) = .ok (some b, c₂) :=
          ih (htook.live hc) (by omega) (by omega)
        refine ⟨bs ++ b, c₂, ?_⟩
        rw [if_neg hleft, hread]
        change (if bs = [] then _ else _) = _
        rw [if_neg hbs, hrest]
        rfl

end TinyServer.Http.Conn
