/-
What a row of calls leaves in a slot.

A call may leave the slot alone, clear it or set it (`effect`). The value
in the slot after the calls is that of the last call which is not of the
first kind: `SetAt` names the place of that call in the row. A state that
goes with the calls one by one has that value in the slot (`look_iff`).
-/
import Mathlib.Data.List.Induction

namespace Lib

variable {C V S : Type} {effect : C → Option (Option V)}

/-- The call at `i` set the slot to `v`, and no later call touched it. -/
def SetAt (effect : C → Option (Option V)) (cs : List C) (i : Nat) (v : V) :
    Prop :=
  (∃ c, cs[i]? = some c ∧ effect c = some (some v))
    ∧ ∀ j c, i < j → cs[j]? = some c → effect c = none

/-- The last call that touched the slot set it to `v`. -/
def LastSet (effect : C → Option (Option V)) (cs : List C) (v : V) : Prop :=
  ∃ i, SetAt effect cs i v

variable {cs : List C} {c : C} {i j : Nat} {v w : V}

theorem SetAt.lt (h : SetAt effect cs i v) : i < cs.length := by
  obtain ⟨⟨c, hc, -⟩, -⟩ := h
  exact (List.getElem?_eq_some_iff.mp hc).1

/-- One slot is set at one place. -/
theorem SetAt.unique (hi : SetAt effect cs i v) (hj : SetAt effect cs j w) :
    i = j ∧ v = w := by
  obtain ⟨⟨c, hc, hv⟩, hafter⟩ := hi
  obtain ⟨⟨d, hd, hw⟩, hafter'⟩ := hj
  rcases Nat.lt_trichotomy i j with hlt | rfl | hgt
  · rw [hafter j d hlt hd] at hw
    cases hw
  · cases hc.symm.trans hd
    rw [hv] at hw
    cases hw
    exact ⟨rfl, rfl⟩
  · rw [hafter' i c hgt hc] at hv
    cases hv

/-- One more call. -/
theorem setAt_concat : SetAt effect (cs ++ [c]) i v
    ↔ (i = cs.length ∧ effect c = some (some v))
      ∨ (SetAt effect cs i v ∧ effect c = none) := by
  constructor
  · rintro ⟨⟨d, hd, hv⟩, hafter⟩
    have hi : i < (cs ++ [c]).length := (List.getElem?_eq_some_iff.mp hd).1
    rw [List.length_append, List.length_singleton] at hi
    rcases Nat.lt_or_eq_of_le (Nat.le_of_lt_succ hi) with hlt | rfl
    · rw [List.getElem?_append_left hlt] at hd
      refine Or.inr ⟨⟨⟨d, hd, hv⟩, fun j e hij he => ?_⟩, ?_⟩
      · refine hafter j e hij ?_
        rw [List.getElem?_append_left (List.getElem?_eq_some_iff.mp he).1]
        exact he
      · exact hafter cs.length c hlt List.getElem?_concat_length
    · rw [List.getElem?_concat_length] at hd
      cases hd
      exact Or.inl ⟨rfl, hv⟩
  · rintro (⟨rfl, hv⟩ | ⟨⟨⟨d, hd, hv⟩, hafter⟩, hnone⟩)
    · refine ⟨⟨c, List.getElem?_concat_length, hv⟩, fun j e hij he => ?_⟩
      have hj := (List.getElem?_eq_some_iff.mp he).1
      rw [List.length_append, List.length_singleton] at hj
      omega
    · have hi : i < cs.length := (List.getElem?_eq_some_iff.mp hd).1
      refine ⟨⟨d, ?_, hv⟩, fun j e hij he => ?_⟩
      · rw [List.getElem?_append_left hi]
        exact hd
      · rcases Nat.lt_or_ge j cs.length with hlt | hge
        · rw [List.getElem?_append_left hlt] at he
          exact hafter j e hij he
        · have hj := (List.getElem?_eq_some_iff.mp he).1
          rw [List.length_append, List.length_singleton] at hj
          obtain rfl : j = cs.length := by omega
          rw [List.getElem?_concat_length] at he
          cases he
          exact hnone

theorem lastSet_concat : LastSet effect (cs ++ [c]) v
    ↔ effect c = some (some v) ∨ (LastSet effect cs v ∧ effect c = none) := by
  constructor
  · rintro ⟨i, hi⟩
    rcases setAt_concat.mp hi with ⟨-, hv⟩ | ⟨hi, hnone⟩
    · exact Or.inl hv
    · exact Or.inr ⟨⟨i, hi⟩, hnone⟩
  · rintro (hv | ⟨⟨i, hi⟩, hnone⟩)
    · exact ⟨cs.length, setAt_concat.mpr (Or.inl ⟨rfl, hv⟩)⟩
    · exact ⟨i, setAt_concat.mpr (Or.inr ⟨hi, hnone⟩)⟩

/-- Where no call clears the slot, one that sets it leaves a value. -/
theorem lastSet_of_mem (hset : ∀ c ∈ cs, effect c ≠ some none) (hc : c ∈ cs)
    (hv : effect c = some (some v)) : ∃ w, LastSet effect cs w := by
  induction cs using List.reverseRecOn with
  | nil => exact absurd hc List.not_mem_nil
  | append_singleton cs d ih =>
      simp only [lastSet_concat]
      cases hd : effect d with
      | none =>
          rcases List.mem_append.mp hc with hc | hc
          · obtain ⟨w, hw⟩ :=
              ih (fun c hc => hset c (List.mem_append_left _ hc)) hc
            exact ⟨w, Or.inr ⟨hw, rfl⟩⟩
          · rw [List.mem_singleton.mp hc, hd] at hv
            cases hv
      | some o =>
          cases o with
          | none =>
              exact absurd hd
                (hset d (List.mem_append_right _ List.mem_cons_self))
          | some w => exact ⟨w, Or.inl rfl⟩

-- ==================================================================== a state

variable {step : S → C → S} {s : S} (look : S → Option V)

/-- What a state that goes with the calls has in the slot: what was set
last, or, untouched, what was there before. -/
theorem look_iff (hstep : ∀ s, ∀ c ∈ cs,
      look (step s c) = (effect c).getD (look s)) :
    look (cs.foldl step s) = some v ↔ LastSet effect cs v
      ∨ ((∀ c ∈ cs, effect c = none) ∧ look s = some v) := by
  induction cs using List.reverseRecOn with
  | nil =>
      constructor
      · exact fun h => Or.inr ⟨fun c hc => absurd hc List.not_mem_nil, h⟩
      · rintro (⟨i, hi⟩ | ⟨-, h⟩)
        · exact absurd hi.lt (Nat.not_lt_zero i)
        · exact h
  | append_singleton cs c ih =>
      have hmem : c ∈ cs ++ [c] := List.mem_append_right _ List.mem_cons_self
      have ih := ih fun s d hd => hstep s d (List.mem_append_left _ hd)
      rw [List.foldl_append, List.foldl_cons, List.foldl_nil, hstep _ c hmem,
        lastSet_concat]
      cases hc : effect c with
      | none =>
          rw [Option.getD_none, ih]
          have hall : (∀ d ∈ cs ++ [c], effect d = none)
              ↔ ∀ d ∈ cs, effect d = none := by
            constructor
            · exact fun h d hd => h d (List.mem_append_left _ hd)
            · intro h d hd
              rcases List.mem_append.mp hd with hd | hd
              · exact h d hd
              · rw [List.mem_singleton.mp hd]
                exact hc
          rw [hall]
          constructor
          · rintro (h | h)
            · exact Or.inl (Or.inr ⟨h, rfl⟩)
            · exact Or.inr h
          · rintro ((h | ⟨h, -⟩) | h)
            · cases h
            · exact Or.inl h
            · exact Or.inr h
      | some o =>
          rw [Option.getD_some]
          constructor
          · rintro rfl
            exact Or.inl (Or.inl rfl)
          · rintro ((h | ⟨-, h⟩) | ⟨h, -⟩)
            · exact Option.some.inj h
            · cases h
            · rw [h c hmem] at hc
              cases hc

/-- The slot of a state that starts with it empty. -/
theorem look_iff_lastSet (hstart : look s = none) (hstep : ∀ s, ∀ c ∈ cs,
      look (step s c) = (effect c).getD (look s)) :
    look (cs.foldl step s) = some v ↔ LastSet effect cs v := by
  rw [look_iff look hstep, hstart]
  constructor
  · rintro (h | ⟨-, h⟩)
    · exact h
    · cases h
  · exact Or.inl

end Lib
