/-
Which spellings of a name find a registered variable.

`Lookup` with a default value lower-cases the name; the names in the map
and of the variables are in lower case for that reason (`Lowered`), and
two of them that are equal up to case are equal. `Lookup` without a
default value and `LookupBase` take the name as it is spelled.
-/
import TinyServer.Config.Registry

namespace TinyServer

open Http (Bytes toLower ascii)

/-- A small letter is small. -/
theorem toLower_toLower (b : UInt8) : toLower (toLower b) = toLower b := by
  unfold toLower
  by_cases hb : 65 ≤ b ∧ b ≤ 90
  · have hnot : ¬ (65 ≤ b + 32 ∧ b + 32 ≤ 90) := by
      simp only [UInt8.le_iff_toNat_le, UInt8.toNat_add] at hb ⊢
      simp at hb ⊢
      omega
    rw [if_pos hb, if_neg hnot]
  · rw [if_neg hb, if_neg hb]

/-- So is a name of small letters. -/
theorem map_toLower_twice (name : Bytes) :
    (name.map toLower).map toLower = name.map toLower := by
  rw [List.map_map]
  apply List.map_congr_left
  intro b _
  exact toLower_toLower b

namespace ConfigDatas

variable {Ty : Type} {s : ConfigDatas Ty} {type : Ty} {n : Bytes}
  {v : ConfigVarRef Ty}

-- =============================================================== the invariant

/-- The names in the map are in lower case, and the variables have them. -/
def Lowered (s : ConfigDatas Ty) : Prop :=
  ∀ k v, s.datas k = some v → k.map toLower = k ∧ v.name = k

/-- No two variables have names that are equal up to case. -/
def NamesDistinct (s : ConfigDatas Ty) : Prop :=
  ∀ k k' v v', s.datas k = some v → s.datas k' = some v' →
    v.name.map toLower = v'.name.map toLower → k = k' ∧ v = v'

/-- There is nothing in a new registry. -/
theorem lowered_empty : (empty : ConfigDatas Ty).Lowered := by
  intro k v h
  cases h

/-- With keys in small letters no two variables differ in case only. -/
theorem Lowered.namesDistinct (h : s.Lowered) : s.NamesDistinct := by
  intro k k' v v' hv hv' heq
  obtain ⟨hk, hname⟩ := h k v hv
  obtain ⟨hk', hname'⟩ := h k' v' hv'
  rw [hname, hname', hk, hk'] at heq
  subst heq
  rw [hv] at hv'
  exact ⟨rfl, Option.some.inj hv'⟩

variable [DecidableEq Ty]

/-- The cast goes through for the variable's own type. -/
theorem pointerCast_eq {u : ConfigVarRef Ty} :
    pointerCast type v = some u ↔ v = u ∧ v.type = type := by
  unfold pointerCast
  split
  next htype => simp [htype]
  next htype => simp [htype]

/-- What `Lookup` with a default value can do. -/
theorem lookupDefault_cases (s : ConfigDatas Ty) (type : Ty) (n : Bytes) :
    (s.lookupDefault type n).2 = s
      ∨ s.datas (n.map toLower) = none
        ∧ (s.lookupDefault type n).2
          = (s.register type (n.map toLower)).2 := by
  unfold lookupDefault
  simp only
  split
  next => split <;> exact .inl rfl
  next hnone =>
      split
      next => exact .inl rfl
      next => exact .inr ⟨hnone, rfl⟩

/-- A lookup stores under small letters. -/
theorem lookupDefault_lowered (h : s.Lowered) :
    (s.lookupDefault type n).2.Lowered := by
  rcases lookupDefault_cases s type n with heq | ⟨-, heq⟩
  · rw [heq]
    exact h
  · rw [heq]
    intro k v hk
    simp only [register] at hk
    split at hk
    next hname =>
        cases hk
        subst hname
        exact ⟨map_toLower_twice n, map_toLower_twice n⟩
    next => exact h k v hk

/-- A registered variable stays. -/
theorem lookupDefault_keeps {k : Bytes} (h : s.datas k = some v) :
    (s.lookupDefault type n).2.datas k = some v := by
  rcases lookupDefault_cases s type n with heq | ⟨hnone, heq⟩
  · rw [heq]
    exact h
  · have hne : k ≠ n.map toLower := by
      rintro rfl
      rw [hnone] at h
      cases h
    rw [heq]
    simp [register, hne, h]

/-- So every run of lookups does. -/
theorem run_lowered (h : s.Lowered) (calls : List (Ty × Bytes)) :
    (s.run calls).Lowered := by
  induction calls generalizing s with
  | nil => exact h
  | cons call calls ih => exact ih (lookupDefault_lowered h)

/-- What is registered stays. -/
theorem run_keeps {k : Bytes} (h : s.datas k = some v)
    (calls : List (Ty × Bytes)) : (s.run calls).datas k = some v := by
  induction calls generalizing s with
  | nil => exact h
  | cons call calls ih => exact ih (lookupDefault_keeps h)

-- ================================================================= the lookups

/-- A variable that `Lookup` gives is registered under the name in lower
case and has the type. -/
theorem lookupDefault_var (h : (s.lookupDefault type n).1 = .var v) :
    (s.lookupDefault type n).2.datas (n.map toLower) = some v
      ∧ v.type = type := by
  unfold lookupDefault at h ⊢
  simp only at h ⊢
  split at h
  next u hu =>
      split at h
      next temp htemp =>
          cases h
          obtain ⟨rfl, htype⟩ := pointerCast_eq.mp htemp
          exact ⟨hu, htype⟩
      next => cases h
  next hnone =>
      split at h
      next => cases h
      next hvalid =>
          cases h
          simp [hvalid, register]

/-- A registered variable is found by `Lookup` with a default value. -/
theorem lookupDefault_registered (h : s.datas (n.map toLower) = some v)
    (htype : v.type = type) : (s.lookupDefault type n).1 = .var v := by
  unfold lookupDefault
  simp [h, pointerCast, htype]

/-- The three lookups of the spelling `n` give the variable `v`. -/
def FoundBy (s : ConfigDatas Ty) (type : Ty) (n : Bytes)
    (v : ConfigVarRef Ty) : Prop :=
  s.lookup type n = some v ∧ s.lookupBase n = some v
    ∧ (s.lookupDefault type n).1 = .var v

/-- A spelling finds the variable exactly if it is in lower case. -/
theorem foundBy_iff {spelled : Bytes} (h : s.Lowered)
    (hv : s.datas (n.map toLower) = some v) (htype : v.type = type)
    (hcase : spelled.map toLower = n.map toLower) :
    s.FoundBy type spelled v ↔ spelled.map toLower = spelled := by
  constructor
  · rintro ⟨-, hbase, -⟩
    exact (h spelled v hbase).1
  · intro hlower
    have hsome : s.datas spelled = some v := by
      rw [← hlower, hcase]
      exact hv
    refine ⟨?_, hsome, ?_⟩
    · unfold lookup
      rw [hsome]
      exact pointerCast_eq.mpr ⟨rfl, htype⟩
    · apply lookupDefault_registered _ htype
      rw [hlower]
      exact hsome

/-- After `Lookup` has registered or found a variable, and any further
calls: a spelling of the name is found by all three lookups exactly if it
is in lower case. No two names are equal up to case in any state. -/
theorem found_consistently_iff {before after : List (Ty × Bytes)}
    {spelled : Bytes}
    (hv : ((empty.run before).lookupDefault type n).1 = .var v)
    (hcase : spelled.map toLower = n.map toLower) :
    ((((empty.run before).lookupDefault type n).2.run after).FoundBy type
          spelled v
        ∧ (((empty.run before).lookupDefault type n).2.run
          after).NamesDistinct)
      ↔ spelled.map toLower = spelled := by
  obtain ⟨hsome, htype⟩ := lookupDefault_var hv
  have hlow : (((empty.run before).lookupDefault type n).2.run
      after).Lowered :=
    run_lowered (lookupDefault_lowered (run_lowered lowered_empty before))
      after
  rw [and_iff_left hlow.namesDistinct]
  exact foundBy_iff hlow (run_keeps hsome after) htype hcase

theorem found_consistently_iff_port :
    ((((empty : ConfigDatas Nat).run []).lookupDefault 0
        (ascii "System.Port")).2.run
        [(1, ascii "a.b"), (0, ascii "system.PORT")]).FoundBy 0
          (ascii "system.port") ⟨0, ascii "system.port", 0⟩ := by
  have hv : ((empty.run ([] : List (Nat × Bytes))).lookupDefault 0
      (ascii "System.Port")).1 = .var ⟨0, ascii "system.port", 0⟩ := by decide
  have hcase : (ascii "system.port").map toLower
      = (ascii "System.Port").map toLower := by decide
  exact ((found_consistently_iff hv hcase).mpr (by decide)).1

/-- The variable registered as `A` is not found as `A`. -/
theorem upper_case_not_found :
    ¬ ∀ (calls : List (Nat × Bytes)) (type : Nat) (n : Bytes)
      (v : ConfigVarRef Nat),
      ((empty.run calls).lookupDefault type n).1 = .var v →
      ((empty.run calls).lookupDefault type n).2.FoundBy type n v := by
  intro hall
  obtain ⟨-, hbase, -⟩ := hall [] 0 (ascii "A") ⟨0, ascii "a", 0⟩ (by decide)
  exact absurd hbase (by decide)

end ConfigDatas

end TinyServer
