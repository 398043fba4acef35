/-
Sections under a lock are atomic.

Threads share data, and a lock stands between them that several may hold
together or one alone. A thread that holds it alone may change the data,
one that shares it may look at them, and the others do neither
(`Guarded`). `SmallStep` is a step of one thread; in `WholeStep` a whole
section passes in one step. Where nobody holds the lock, a run of the
first has come to where a run of the second comes, with the sections in
the order in which they were left (`runs_atomic`).
-/
import Mathlib.Logic.Function.Basic
import Mathlib.Data.List.Basic

namespace Lib

variable {τ D L : Type}

inductive Hold
  | shared
  | alone
  deriving DecidableEq

inductive SectionMove (D L : Type)
  | enter (l : L)
  | work (d : D) (l : L)
  | leave (l : L)

/-- How the lock is held at a place, and what comes next there. -/
structure SectionCode (D L : Type) where
  held : L → Option Hold
  next : L → D → Option (SectionMove D L)

/-- Data are looked at and changed under the lock only. -/
structure Guarded (c : SectionCode D L) : Prop where
  enter : ∀ {l d l'}, c.next l d = some (.enter l') →
    c.held l = none ∧ c.held l' ≠ none
  leave : ∀ {l d l'}, c.next l d = some (.leave l') →
    c.held l ≠ none ∧ c.held l' = none
  work : ∀ {l d d' l'}, c.next l d = some (.work d' l') →
    c.held l' = c.held l ∧ (c.held l ≠ some .alone → d' = d)
  blind : ∀ {l d l'}, c.held l = none → c.next l d = some (.work d l') →
    ∀ e, c.next l e = some (.work e l')

structure SectionState (τ D L : Type) where
  data : D
  loc : τ → L

/-- The lock lets the thread `t` go to `l`. -/
def Admits (c : SectionCode D L) (s : SectionState τ D L) (t : τ) (l : L) :
    Prop :=
  ∀ u, u ≠ t → c.held (s.loc u) ≠ some .alone
    ∧ (c.held l = some .alone → c.held (s.loc u) = none)

inductive SmallStep [DecidableEq τ] (c : SectionCode D L)
    (s : SectionState τ D L)
    (t : τ) : SectionState τ D L → Prop
  | enter {l : L} : c.next (s.loc t) s.data = some (.enter l) → Admits c s t l →
      SmallStep c s t ⟨s.data, Function.update s.loc t l⟩
  | work {d : D} {l : L} : c.next (s.loc t) s.data = some (.work d l) →
      SmallStep c s t ⟨d, Function.update s.loc t l⟩
  | leave {l : L} : c.next (s.loc t) s.data = some (.leave l) →
      SmallStep c s t ⟨s.data, Function.update s.loc t l⟩

/-- From `l₀` with the data `d₀` a section has come to a place. -/
inductive InSection (c : SectionCode D L) (l₀ : L) (d₀ : D) : L → D → Prop
  | enter {l : L} : c.next l₀ d₀ = some (.enter l) → InSection c l₀ d₀ l d₀
  | work {l l' : L} {d d' : D} : InSection c l₀ d₀ l d →
      c.next l d = some (.work d' l') → InSection c l₀ d₀ l' d'

inductive WholeStep [DecidableEq τ] (c : SectionCode D L)
    (s : SectionState τ D L)
    (t : τ) : SectionState τ D L → Prop
  | work {d : D} {l : L} : c.held (s.loc t) = none →
      c.next (s.loc t) s.data = some (.work d l) →
      WholeStep c s t ⟨d, Function.update s.loc t l⟩
  | pass {d : D} {l l' : L} : InSection c (s.loc t) s.data l d →
      c.next l d = some (.leave l') →
      WholeStep c s t ⟨d, Function.update s.loc t l'⟩

/-- A run, with the threads that take the steps. -/
inductive RunsBy {σ : Type} (R : σ → τ → σ → Prop) : σ → List τ → σ → Prop
  | nil {s : σ} : RunsBy R s [] s
  | snoc {s u v : σ} {ts : List τ} {t : τ} : RunsBy R s ts u → R u t v →
      RunsBy R s (ts ++ [t]) v

/-- `g` lags behind `f` by what the threads have done in their sections. -/
structure Lags (c : SectionCode D L) (f g : SectionState τ D L) : Prop where
  out : ∀ t, c.held (f.loc t) = none → g.loc t = f.loc t
  inside : ∀ t, c.held (f.loc t) ≠ none →
    InSection c (g.loc t) g.data (f.loc t) f.data
  data : (∀ t, c.held (f.loc t) ≠ some .alone) → g.data = f.data
  sole : ∀ t u, c.held (f.loc t) = some .alone → u ≠ t →
    c.held (f.loc u) = none

variable {c : SectionCode D L} {f f' g s : SectionState τ D L} {t : τ}

theorem InSection.enters {l₀ l : L} {d₀ d : D} (h : InSection c l₀ d₀ l d) :
    ∃ l', c.next l₀ d₀ = some (.enter l') := by
  induction h with
  | enter hnext => exact ⟨_, hnext⟩
  | work _ _ ih => exact ih

theorem lags_self (h : ∀ t, c.held (s.loc t) = none) : Lags c s s where
  out _ _ := rfl
  inside t ht := absurd (h t) ht
  data _ := rfl
  sole t _ ht _ := by
    rw [h t] at ht
    cases ht

/-- Where nobody holds the lock nothing lags. -/
theorem Lags.eq (h : Lags c f g) (hf : ∀ t, c.held (f.loc t) = none) :
    g = f := by
  have hloc : g.loc = f.loc := funext fun t => h.out t (hf t)
  have hdata : g.data = f.data := h.data fun t => by
    rw [hf t]
    nofun
  cases f
  cases g
  cases hloc
  cases hdata
  rfl

variable [DecidableEq τ]

theorem Lags.enter (h : Lags c f g) (hc : Guarded c) {l : L}
    (hnext : c.next (f.loc t) f.data = some (.enter l))
    (hadm : Admits c f t l) :
    Lags c ⟨f.data, Function.update f.loc t l⟩ g := by
  obtain ⟨hout, hin⟩ := hc.enter hnext
  have hnone : ∀ u, c.held (f.loc u) ≠ some .alone := by
    intro u
    by_cases hu : u = t
    · rw [hu, hout]
      nofun
    · exact (hadm u hu).1
  refine ⟨fun u hu => ?_, fun u hu => ?_, fun _ => h.data hnone,
    fun u v hu hv => ?_⟩
  · dsimp only at hu ⊢
    by_cases hut : u = t
    · subst hut
      rw [Function.update_self] at hu
      exact absurd hu hin
    · rw [Function.update_of_ne hut] at hu ⊢
      exact h.out u hu
  · by_cases hut : u = t
    · subst hut
      dsimp only
      rw [Function.update_self, ← h.data hnone]
      refine .enter ?_
      rw [h.out u hout, h.data hnone]
      exact hnext
    · dsimp only at hu ⊢
      rw [Function.update_of_ne hut] at hu ⊢
      exact h.inside u hu
  · dsimp only at hu ⊢
    by_cases hut : u = t
    · subst hut
      rw [Function.update_self] at hu
      rw [Function.update_of_ne hv]
      exact (hadm v hv).2 hu
    · rw [Function.update_of_ne hut] at hu
      exact absurd hu (hadm u hut).1

/-- Where the lock is held as before, it is so for all threads. -/
theorem held_update {l : L} (h : c.held l = c.held (f.loc t)) (u : τ) :
    c.held (Function.update f.loc t l u) = c.held (f.loc u) := by
  by_cases hut : u = t
  · rw [hut, Function.update_self, h]
  · rw [Function.update_of_ne hut]

/-- A step in a section is not seen yet. -/
theorem Lags.within (h : Lags c f g) (hc : Guarded c) {d : D} {l : L}
    (hin : c.held (f.loc t) ≠ none)
    (hnext : c.next (f.loc t) f.data = some (.work d l)) :
    Lags c ⟨d, Function.update f.loc t l⟩ g := by
  obtain ⟨hheld, hlook⟩ := hc.work hnext
  have hsame := held_update hheld
  refine ⟨fun u hu => ?_, fun u hu => ?_, fun hall => ?_, fun u v hu hv => ?_⟩
  · dsimp only at hu ⊢
    rw [hsame] at hu
    have hut : u ≠ t := fun hut => hin (hut ▸ hu)
    rw [Function.update_of_ne hut]
    exact h.out u hu
  · dsimp only at hu ⊢
    rw [hsame] at hu
    by_cases hut : u = t
    · subst hut
      rw [Function.update_self]
      exact .work (h.inside u hu) hnext
    · rw [Function.update_of_ne hut]
      -- two in their sections share the lock, and the data stay
      have hshared : c.held (f.loc t) ≠ some .alone :=
        fun halone => hu (h.sole t u halone hut)
      rw [hlook hshared]
      exact h.inside u hu
  · dsimp only at hall ⊢
    have hall' : ∀ u, c.held (f.loc u) ≠ some .alone :=
      fun u => hsame u ▸ hall u
    rw [hlook (hall' t)]
    exact h.data hall'
  · dsimp only at hu ⊢
    rw [hsame] at hu ⊢
    exact h.sole u v hu hv

/-- A step outside is taken by both. -/
theorem Lags.outside (h : Lags c f g) (hc : Guarded c) {d : D} {l : L}
    (hout : c.held (f.loc t) = none)
    (hnext : c.next (f.loc t) f.data = some (.work d l)) :
    ∃ g', WholeStep c g t g' ∧ Lags c ⟨d, Function.update f.loc t l⟩ g' := by
  obtain ⟨hheld, hlook⟩ := hc.work hnext
  cases hlook (by rw [hout]; nofun)
  have hg : c.next (g.loc t) g.data = some (.work g.data l) := by
    rw [h.out t hout]
    exact hc.blind hout hnext g.data
  refine ⟨_, .work (by rw [h.out t hout]; exact hout) hg, ?_⟩
  have hsame := held_update hheld
  refine ⟨fun u hu => ?_, fun u hu => ?_, fun hall => ?_, fun u v hu hv => ?_⟩
  · dsimp only at hu ⊢
    rw [hsame] at hu
    by_cases hut : u = t
    · rw [hut, Function.update_self, Function.update_self]
    · rw [Function.update_of_ne hut, Function.update_of_ne hut]
      exact h.out u hu
  · dsimp only at hu ⊢
    rw [hsame] at hu
    have hut : u ≠ t := fun hut => hu (hut ▸ hout)
    rw [Function.update_of_ne hut, Function.update_of_ne hut]
    exact h.inside u hu
  · exact h.data fun u => hsame u ▸ hall u
  · dsimp only at hu ⊢
    rw [hsame] at hu ⊢
    exact h.sole u v hu hv

/-- With its end the whole section passes. -/
theorem Lags.leave (h : Lags c f g) (hc : Guarded c) {l : L}
    (hnext : c.next (f.loc t) f.data = some (.leave l)) :
    ∃ g', WholeStep c g t g'
      ∧ Lags c ⟨f.data, Function.update f.loc t l⟩ g' := by
  obtain ⟨hin, hheld⟩ := hc.leave hnext
  refine ⟨_, .pass (h.inside t hin) hnext, ?_⟩
  -- another one inside shares the lock, so the data are as they were
  have hdata : ∀ u, u ≠ t → c.held (f.loc u) ≠ none → g.data = f.data := by
    intro u hut hu
    refine h.data fun v hv => ?_
    by_cases hvt : v = t
    · exact hu (h.sole t u (hvt ▸ hv) hut)
    · exact hin (h.sole v t hv fun htv => hvt htv.symm)
  refine ⟨fun u hu => ?_, fun u hu => ?_, fun _ => rfl, fun u v hu hv => ?_⟩
  · dsimp only at hu ⊢
    by_cases hut : u = t
    · rw [hut, Function.update_self, Function.update_self]
    · rw [Function.update_of_ne hut] at hu
      rw [Function.update_of_ne hut, Function.update_of_ne hut]
      exact h.out u hu
  · dsimp only at hu ⊢
    have hut : u ≠ t := by
      intro hut
      rw [hut, Function.update_self] at hu
      exact hu hheld
    rw [Function.update_of_ne hut] at hu
    rw [Function.update_of_ne hut, Function.update_of_ne hut, ← hdata u hut hu]
    have hins := h.inside u hu
    rw [← hdata u hut hu] at hins
    exact hins
  · dsimp only at hu ⊢
    by_cases hut : u = t
    · rw [hut, Function.update_self, hheld] at hu
      cases hu
    · rw [Function.update_of_ne hut] at hu
      by_cases hvt : v = t
      · rw [hvt, Function.update_self]
        exact hheld
      · rw [Function.update_of_ne hvt]
        exact h.sole u v hu hv

theorem Lags.step (h : Lags c f g) (hc : Guarded c) (hs : SmallStep c f t f') :
    Lags c f' g ∨ ∃ g', WholeStep c g t g' ∧ Lags c f' g' := by
  cases hs with
  | enter hnext hadm => exact .inl (h.enter hc hnext hadm)
  | work hnext =>
      by_cases hin : c.held (f.loc t) = none
      · exact .inr (h.outside hc hin hnext)
      · exact .inl (h.within hc hin hnext)
  | leave hnext => exact .inr (h.leave hc hnext)

/-- A run in small steps is one in which whole sections pass. -/
theorem runs_lag (hc : Guarded c) (h₀ : ∀ t, c.held (s.loc t) = none)
    {ts : List τ} (hrun : RunsBy (SmallStep c) s ts f) :
    ∃ us g, us.Sublist ts ∧ RunsBy (WholeStep c) s us g ∧ Lags c f g := by
  induction hrun with
  | nil => exact ⟨[], s, List.Sublist.refl _, .nil, lags_self h₀⟩
  | snoc _ hstep ih =>
      obtain ⟨us, g, hsub, hg, hlag⟩ := ih
      rcases hlag.step hc hstep with hlag | ⟨g', hcoarse, hlag⟩
      · exact ⟨us, g, hsub.trans (List.sublist_append_left _ _), hg, hlag⟩
      · exact ⟨_, g', hsub.append (List.Sublist.refl _), .snoc hg hcoarse, hlag⟩

/-- Where nobody holds the lock the sections have passed one at a time. -/
theorem runs_atomic (hc : Guarded c) (h₀ : ∀ t, c.held (s.loc t) = none)
    {ts : List τ} (hrun : RunsBy (SmallStep c) s ts f)
    (hf : ∀ t, c.held (f.loc t) = none) :
    ∃ us, us.Sublist ts ∧ RunsBy (WholeStep c) s us f := by
  obtain ⟨us, g, hsub, hg, hlag⟩ := runs_lag hc h₀ hrun
  rw [hlag.eq hf] at hg
  exact ⟨us, hsub, hg⟩

end Lib
