/-
Two runs side by side.

`Alike R` relates two computations that may fail: they fail with the same
error, or succeed with results in `R`. For the drivers of two machines
that move alike except before the bytes of `Q`: as long as the first
comes before no such byte (`meets`), both stop alike (`drive_alike`);
and where the first has no transition on such a byte and the second has
one, the second goes further (`drive_part`).
-/
import TinyServer.Lib.Machine

namespace Lib

variable {α ε σ τ μ ν : Type}

/-- Both fail alike, or both succeed with related results. -/
def Alike (R : σ → τ → Prop) : Except ε σ → Except ε τ → Prop
  | .ok x, .ok y => R x y
  | .error e, .error f => e = f
  | _, _ => False

theorem Alike.imp {R S : σ → τ → Prop} {a : Except ε σ} {b : Except ε τ}
    (h : Alike R a b) (hRS : ∀ x y, R x y → S x y) : Alike S a b := by
  cases a <;> cases b
  case ok.ok => exact hRS _ _ h
  all_goals exact h

theorem Alike.bind {R : σ → τ → Prop} {S : μ → ν → Prop} {a : Except ε σ}
    {b : Except ε τ} {f : σ → Except ε μ} {g : τ → Except ε ν}
    (h : Alike R a b) (hfg : ∀ x y, R x y → Alike S (f x) (g y)) :
    Alike S (a >>= f) (b >>= g) := by
  cases a with
  | error e =>
      cases b with
      | error f => exact h
      | ok y => exact absurd h id
  | ok x =>
      cases b with
      | error f => exact absurd h id
      | ok y => exact hfg x y h

/-- Computations that are alike and have the same results are equal. -/
theorem Alike.eq {a b : Except ε σ} (h : Alike (· = ·) a b) : a = b := by
  cases a <;> cases b
  case ok.ok => exact congrArg Except.ok h
  case error.error => exact congrArg Except.error h
  all_goals exact absurd h id

-- =================================================================== drivers

variable {next next' : Nat → UInt8 → Option (List α × Nat)}
  {last : α → Bool} {perform : Nat → α → σ → Except ε σ}
  {Q : Nat → UInt8 → Bool} {R : Nat → σ → σ → Prop}

/-- The driver comes, in some state, before a byte with `Q`. -/
def meets (Q : Nat → UInt8 → Bool) (next : Nat → UInt8 → Option (List α × Nat))
    (last : α → Bool) (perform : Nat → α → σ → Except ε σ) (p : Nat)
    (bs : List UInt8) (cs : Nat) (x : σ) : Bool :=
  match bs with
  | [] => false
  | b :: bs =>
      Q cs b ||
        match next cs b with
        | none => false
        | some (acts, t) =>
            match acts.foldlM (fun x a => perform p a x) x with
            | .error _ => false
            | .ok x =>
                !acts.any last && meets Q next last perform (p + 1) bs t x

/-- No byte with `Q` is met from states that the machine does not leave
and that have none. -/
theorem meets_eq_false {P : Nat → Prop}
    (hQ : ∀ {cs : Nat} {b : UInt8}, P cs → Q cs b = false)
    (hnext : ∀ {cs : Nat} {b : UInt8} {acts : List α} {t : Nat},
      next cs b = some (acts, t) → P cs → P t) (bs : List UInt8) :
    ∀ {p cs : Nat} {x : σ}, P cs →
      meets Q next last perform p bs cs x = false := by
  induction bs with
  | nil => exact fun _ => rfl
  | cons b bs ih =>
      intro p cs x hcs
      rw [meets, hQ hcs, Bool.false_or]
      split
      next => rfl
      next hjump =>
        split
        next => rfl
        next => rw [ih (hnext hjump hcs), Bool.and_false]

theorem meets_never (bs : List UInt8) {p cs : Nat} {x : σ} :
    meets (fun _ _ => false) next last perform p bs cs x = false :=
  meets_eq_false (P := fun _ => True) (fun _ => rfl) (fun _ h => h) bs trivial

/-- The drivers stopped at the same place, with related registers. -/
structure StopsAlike (R : Nat → σ → σ → Prop) (s s' : Stop σ) : Prop where
  halt : s.halt = s'.halt
  pos : s.pos = s'.pos
  cs : s.cs = s'.cs
  regs : R s.cs s.regs s'.regs

/-- What the two machines keep. -/
structure Twin (Q : Nat → UInt8 → Bool)
    (next next' : Nat → UInt8 → Option (List α × Nat))
    (perform : Nat → α → σ → Except ε σ) (R : Nat → σ → σ → Prop) :
    Prop where
  same : ∀ cs b, Q cs b = false → next cs b = next' cs b
  zero : ∀ {cs x y}, R cs x y → R 0 x y
  step : ∀ {cs b acts t p x y}, next cs b = some (acts, t) → R cs x y →
    Alike (R t) (acts.foldlM (fun x a => perform p a x) x)
      (acts.foldlM (fun x a => perform p a x) y)

/-- The second driver has not gone back. -/
theorem drive_pos {s : Stop σ} (bs : List UInt8) : ∀ {p cs : Nat} {x : σ},
    drive next last perform p bs cs x = .ok s → p ≤ s.pos := by
  induction bs with
  | nil =>
      intro p cs x h
      cases h
      exact Nat.le_refl p
  | cons b bs ih =>
      intro p cs x h
      rw [drive] at h
      split at h
      next =>
        cases h
        exact Nat.le_refl p
      next =>
        split at h
        next => cases h
        next =>
          split at h
          next =>
            cases h
            exact Nat.le_succ p
          next => exact Nat.le_of_succ_le (ih h)

theorem drive_alike (h : Twin Q next next' perform R) (bs : List UInt8) :
    ∀ {p cs : Nat} {x y : σ}, R cs x y →
      meets Q next last perform p bs cs x = false →
      Alike (StopsAlike R) (drive next last perform p bs cs x)
        (drive next' last perform p bs cs y) := by
  induction bs with
  | nil => exact fun hR _ => ⟨rfl, rfl, rfl, hR⟩
  | cons b bs ih =>
      intro p cs x y hR hmeets
      rw [meets, Bool.or_eq_false_iff] at hmeets
      obtain ⟨hQ, hmeets⟩ := hmeets
      rw [drive, drive, ← h.same cs b hQ]
      cases hnext : next cs b with
      | none => exact ⟨rfl, rfl, rfl, h.zero hR⟩
      | some jump =>
          obtain ⟨acts, t⟩ := jump
          rw [hnext] at hmeets
          have hacts := h.step (p := p) hnext hR
          dsimp only at hmeets ⊢
          cases hx : acts.foldlM (fun x a => perform p a x) x with
          | error e =>
              cases hy : acts.foldlM (fun x a => perform p a x) y with
              | error f =>
                  rw [hx, hy] at hacts
                  exact hacts
              | ok y =>
                  rw [hx, hy] at hacts
                  exact absurd hacts id
          | ok x =>
              rw [hx] at hacts hmeets
              cases hy : acts.foldlM (fun x a => perform p a x) y with
              | error f =>
                  rw [hy] at hacts
                  exact absurd hacts id
              | ok y =>
                  rw [hy] at hacts
                  dsimp only at hmeets ⊢
                  split
                  next => exact ⟨rfl, rfl, rfl, hacts⟩
                  next hlast =>
                    rw [Bool.eq_false_iff.mpr hlast] at hmeets
                    exact ih hacts hmeets

/-- Where the first driver has no transition on a byte of `Q`, it stops
there, and the second goes further or fails. -/
theorem drive_part (h : Twin Q next next' perform R)
    (hpart : ∀ cs b, Q cs b = true → next cs b = none ∧ next' cs b ≠ none)
    (bs : List UInt8) : ∀ {p cs : Nat} {x y : σ}, R cs x y →
      meets Q next last perform p bs cs x = true →
      ∃ s, drive next last perform p bs cs x = .ok s ∧ s.cs = 0
        ∧ ∀ s', drive next' last perform p bs cs y = .ok s' →
          s.pos < s'.pos := by
  induction bs with
  | nil =>
      intro p cs x y _ hmeets
      cases hmeets
  | cons b bs ih =>
      intro p cs x y hR hmeets
      rw [meets, Bool.or_eq_true] at hmeets
      cases hQ : Q cs b with
      | true =>
          obtain ⟨hnone, hsome⟩ := hpart cs b hQ
          refine ⟨⟨.failed, p, 0, x⟩, ?_, rfl, fun s' hs' => ?_⟩
          · rw [drive, hnone]
          · rw [drive] at hs'
            split at hs'
            next hnext => exact absurd hnext hsome
            next =>
              split at hs'
              next => cases hs'
              next =>
                split at hs'
                next =>
                  cases hs'
                  exact Nat.lt_succ_self p
                next => exact drive_pos bs hs'
      | false =>
          rcases hmeets with hmeets | hmeets
          · exact absurd (hQ.symm.trans hmeets) Bool.false_ne_true
          · rw [drive, drive, ← h.same cs b hQ]
            cases hnext : next cs b with
            | none =>
                rw [hnext] at hmeets
                cases hmeets
            | some jump =>
                obtain ⟨acts, t⟩ := jump
                rw [hnext] at hmeets
                have hacts := h.step (p := p) hnext hR
                dsimp only at hmeets ⊢
                cases hx : acts.foldlM (fun x a => perform p a x) x with
                | error e =>
                    rw [hx] at hmeets
                    cases hmeets
                | ok x =>
                    rw [hx] at hacts hmeets
                    cases hy : acts.foldlM (fun x a => perform p a x) y with
                    | error f =>
                        rw [hy] at hacts
                        exact absurd hacts id
                    | ok y =>
                        rw [hy] at hacts
                        dsimp only at hmeets ⊢
                        rw [Bool.and_eq_true, Bool.not_eq_true'] at hmeets
                        rw [hmeets.1]
                        exact ih hacts hmeets.2

end Lib
