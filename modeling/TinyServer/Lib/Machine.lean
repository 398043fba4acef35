/-
Table-driven machines over byte ranges, and their drivers.

# Tables

A row is a list of ranges with a label each, a table a list of rows
indexed by state. A finite check over the entries of a table
(`tableAll`, decidable) holds of everything a lookup returns
(`tableAll_lookup`).

# Drivers

`drive` feeds bytes to a machine whose transitions carry actions, and
performs the actions at their positions. It stops at a byte without a
transition and after a transition whose actions say so. `sweep` does the
same with actions that cannot fail. Interpretations of one machine make
the same moves: `drive_sweep` lifts a relation between an interpretation
that may fail and one that may not, kept by every transition, to whole
runs, and `sweep_rel` one between two that may not. `sweep_append` cuts a
run in two, so a relation established buffer by buffer is one about the
whole text.
-/
import Mathlib.Data.List.Basic

namespace Lib

-- =================================================================== tables

/-- The bytes from `lo` to `hi`. -/
structure Range (L : Type) where
  lo : Nat
  hi : Nat
  label : L
  deriving DecidableEq, Repr

variable {L : Type}

/-- The label of the first range that has `b`. -/
def rowLookup (row : List (Range L)) (b : Nat) : Option L :=
  (row.find? fun r => decide (r.lo ≤ b) && decide (b ≤ r.hi)).map
    Range.label

def tableLookup (rows : List (List (Range L))) (s b : Nat) : Option L :=
  rows[s]?.bind fun row => rowLookup row b

/-- Check the entries of all rows, the first of which is row `i`. -/
def tableAll (P : Nat → Range L → Bool) (i : Nat) :
    List (List (Range L)) → Bool
  | [] => true
  | row :: rows => row.all (P i) && tableAll P (i + 1) rows

theorem tableAll_row {P : Nat → Range L → Bool}
    {rows : List (List (Range L))} :
    ∀ {i s : Nat} {row : List (Range L)}, tableAll P i rows = true →
      rows[s]? = some row → row.all (P (i + s)) = true := by
  induction rows with
  | nil =>
      intro i s row _ hrow
      cases hrow
  | cons row₀ rows ih =>
      intro i s row h hrow
      rw [tableAll, Bool.and_eq_true] at h
      cases s with
      | zero =>
          cases hrow
          exact h.1
      | succ s =>
          have := ih h.2 hrow
          rwa [Nat.add_right_comm, Nat.add_assoc] at this

/-- A table is checked in two parts, the first of `n` rows. -/
theorem tableAll_split {P : Nat → Range L → Bool}
    {rows : List (List (Range L))} :
    ∀ {i : Nat} (n : Nat), tableAll P i (rows.take n) = true →
      tableAll P (i + n) (rows.drop n) = true → tableAll P i rows = true := by
  induction rows with
  | nil =>
      intro i n _ _
      rfl
  | cons row rows ih =>
      intro i n htake hdrop
      cases n with
      | zero => exact hdrop
      | succ n =>
          rw [List.take_succ_cons, tableAll, Bool.and_eq_true] at htake
          rw [List.drop_succ_cons, Nat.add_comm n, ← Nat.add_assoc] at hdrop
          rw [tableAll, Bool.and_eq_true]
          exact ⟨htake.1, ih n htake.2 hdrop⟩

theorem rowLookup_mem {row : List (Range L)} {n : Nat} {l : L}
    (h : rowLookup row n = some l) :
    ∃ r ∈ row, r.lo ≤ n ∧ n ≤ r.hi ∧ r.label = l := by
  obtain ⟨r, hfind, hr⟩ := Option.map_eq_some_iff.mp h
  have hin := List.find?_some hfind
  rw [Bool.and_eq_true, decide_eq_true_eq, decide_eq_true_eq] at hin
  exact ⟨r, List.mem_of_find?_eq_some hfind, hin.1, hin.2, hr⟩

/-- A checked property holds of what a lookup returns. -/
theorem tableAll_lookup {P : Nat → Range L → Bool}
    {rows : List (List (Range L))} {s b : Nat} {l : L}
    (h : tableAll P 0 rows = true) (hl : tableLookup rows s b = some l) :
    ∃ r, P s r = true ∧ r.label = l ∧ r.lo ≤ b ∧ b ≤ r.hi := by
  obtain ⟨row, hrow, hlook⟩ := Option.bind_eq_some_iff.mp hl
  obtain ⟨r, hr, hlo, hhi, hlabel⟩ := rowLookup_mem hlook
  have hall := tableAll_row h hrow
  rw [Nat.zero_add] at hall
  exact ⟨r, List.all_eq_true.mp hall r hr, hlabel, hlo, hhi⟩

-- =================================================================== drivers

/-- Why a driver stopped: the bytes ran out, an action said so, or there
was no transition. -/
inductive Halt
  | running
  | finished
  | failed
  deriving DecidableEq, Repr

/-- Where a driver stopped: the position, the state and the registers. -/
structure Stop (σ : Type) where
  halt : Halt
  pos : Nat
  cs : Nat
  regs : σ

variable {α σ τ ε : Type}

/-- Feed bytes to the machine `next`, performing the actions of each
transition at the position of its byte. -/
def drive (next : Nat → UInt8 → Option (List α × Nat)) (last : α → Bool)
    (perform : Nat → α → σ → Except ε σ) (p : Nat) (bs : List UInt8)
    (cs : Nat) (x : σ) : Except ε (Stop σ) :=
  match bs with
  | [] => .ok ⟨.running, p, cs, x⟩
  | b :: bs =>
      match next cs b with
      | none => .ok ⟨.failed, p, 0, x⟩
      | some (acts, t) =>
          match acts.foldlM (fun x a => perform p a x) x with
          | .error e => .error e
          | .ok x =>
              if acts.any last then .ok ⟨.finished, p + 1, t, x⟩
              else drive next last perform (p + 1) bs t x

/-- The driver of an interpretation that cannot fail. -/
def sweep (next : Nat → UInt8 → Option (List α × Nat)) (last : α → Bool)
    (perform : Nat → α → τ → τ) (p : Nat) (bs : List UInt8) (cs : Nat)
    (y : τ) : Stop τ :=
  match bs with
  | [] => ⟨.running, p, cs, y⟩
  | b :: bs =>
      match next cs b with
      | none => ⟨.failed, p, 0, y⟩
      | some (acts, t) =>
          if acts.any last then
            ⟨.finished, p + 1, t, acts.foldl (fun y a => perform p a y) y⟩
          else sweep next last perform (p + 1) bs t
            (acts.foldl (fun y a => perform p a y) y)

section

variable {next : Nat → UInt8 → Option (List α × Nat)} {last : α → Bool}
  {perform : Nat → α → τ → τ}

/-- A run over `xs ++ ys` stops within `xs`, or goes on over `ys` from
where it was. -/
theorem sweep_append {ys : List UInt8} (xs : List UInt8) :
    ∀ {p cs : Nat} {y : τ} {s : Stop τ},
      sweep next last perform p xs cs y = s →
      sweep next last perform p (xs ++ ys) cs y
        = if s.halt = .running
            then sweep next last perform s.pos ys s.cs s.regs else s := by
  induction xs with
  | nil =>
      intro p cs y s h
      cases h
      rfl
  | cons b xs ih =>
      intro p cs y s h
      rw [sweep] at h
      rw [List.cons_append, sweep]
      split at h
      next =>
          cases h
          rfl
      next acts t hnext =>
          split at h
          next hlast =>
              cases h
              rw [if_pos hlast, if_neg (by exact Halt.noConfusion)]
          next hlast =>
              rw [if_neg hlast]
              exact ih h

/-- The position a run reaches, in terms of the bytes it was fed. -/
theorem sweep_pos {s : Stop τ} (bs : List UInt8) :
    ∀ {p cs : Nat} {y : τ}, sweep next last perform p bs cs y = s →
      (s.halt = .running → s.pos = p + bs.length)
        ∧ (s.halt = .finished → p < s.pos)
        ∧ p ≤ s.pos ∧ s.pos ≤ p + bs.length := by
  induction bs with
  | nil =>
      intro p cs y h
      rw [sweep] at h
      cases h
      simp
  | cons b bs ih =>
      intro p cs y h
      rw [sweep] at h
      rw [List.length_cons]
      split at h
      next =>
          cases h
          simp
      next acts t hnext =>
          split at h
          next =>
              cases h
              simp
          next =>
              obtain ⟨h1, h2, h3, h4⟩ := ih h
              refine ⟨fun hr => ?_, fun hf => ?_, by omega, by omega⟩
              · rw [h1 hr]
                omega
              · have := h2 hf
                omega

/-- A finished run has looked at no byte past the position it reached. -/
theorem sweep_congr {s : Stop τ} (xs : List UInt8) :
    ∀ {ys : List UInt8} {p cs : Nat} {y : τ},
      sweep next last perform p xs cs y = s → s.halt = .finished →
      ys.take (s.pos - p) = xs.take (s.pos - p) →
      sweep next last perform p ys cs y = s := by
  induction xs with
  | nil =>
      intro ys p cs y h hf
      cases h
      cases hf
  | cons b xs ih =>
      intro ys p cs y h hf htake
      obtain ⟨n, hn⟩ : ∃ n, s.pos - p = n + 1 := by
        have := (sweep_pos _ h).2.1 hf
        exact ⟨s.pos - p - 1, by omega⟩
      cases ys with
      | nil =>
          rw [hn] at htake
          cases htake
      | cons b' ys =>
          rw [hn, List.take_succ_cons, List.take_succ_cons] at htake
          obtain ⟨rfl, htake⟩ := List.cons.inj htake
          rw [sweep] at h ⊢
          split at h
          next =>
              cases h
              cases hf
          next acts t hnext =>
              split at h
              next hlast =>
                  rw [if_pos hlast]
                  exact h
              next hlast =>
                  rw [if_neg hlast]
                  refine ih h hf ?_
                  rwa [show s.pos - (p + 1) = n by omega]

/-- A run that fails leaves the machine in state zero. -/
theorem sweep_failed {s : Stop τ} (bs : List UInt8) :
    ∀ {p cs : Nat} {y : τ}, sweep next last perform p bs cs y = s →
      s.halt = .failed → s.cs = 0 := by
  induction bs with
  | nil =>
      intro p cs y h hf
      cases h
      cases hf
  | cons b bs ih =>
      intro p cs y h hf
      rw [sweep] at h
      split at h
      next =>
          cases h
          rfl
      next =>
          split at h
          next =>
              cases h
              cases hf
          next => exact ih h hf

/-- What every transition keeps holds where a run stops. -/
theorem sweep_inv {I : Nat → Nat → τ → Prop}
    (hstep : ∀ {cs : Nat} {b : UInt8} {acts : List α} {t p : Nat} {y : τ},
      next cs b = some (acts, t) → I p cs y →
      I (p + 1) t (acts.foldl (fun y a => perform p a y) y))
    {s : Stop τ} (bs : List UInt8) :
    ∀ {p cs : Nat} {y : τ}, I p cs y →
      sweep next last perform p bs cs y = s → s.halt ≠ .failed →
      I s.pos s.cs s.regs := by
  induction bs with
  | nil =>
      intro p cs y hI h _
      cases h
      exact hI
  | cons b bs ih =>
      intro p cs y hI h hf
      rw [sweep] at h
      split at h
      next =>
          cases h
          exact absurd rfl hf
      next acts t hnext =>
          split at h
          next =>
              cases h
              exact hstep hnext hI
          next => exact ih (hstep hnext hI) h hf

/-- What every transition keeps held, in some state and at some position
of the run, of the registers where a run stops, also where it fails. -/
theorem sweep_reached {I : Nat → Nat → τ → Prop}
    (hstep : ∀ {cs : Nat} {b : UInt8} {acts : List α} {t p : Nat} {y : τ},
      next cs b = some (acts, t) → I p cs y →
      I (p + 1) t (acts.foldl (fun y a => perform p a y) y))
    (bs : List UInt8) :
    ∀ {p cs : Nat} {y : τ}, I p cs y →
      ∃ q t, q ≤ p + bs.length
        ∧ I q t (sweep next last perform p bs cs y).regs := by
  induction bs with
  | nil => exact fun {p cs y} hI => ⟨p, cs, Nat.le_refl _, hI⟩
  | cons b bs ih =>
      intro p cs y hI
      rw [sweep, List.length_cons]
      split
      next => exact ⟨p, cs, by omega, hI⟩
      next acts t hnext =>
          split
          next => exact ⟨p + 1, t, by omega, hstep hnext hI⟩
          next =>
              obtain ⟨q, u, hq, hI'⟩ := ih (hstep hnext hI)
              exact ⟨q, u, by omega, hI'⟩

/-- Bytes on which the machine stays in a state without an action. -/
theorem sweep_loop {bs : List UInt8} {cs : Nat} (ds : List UInt8)
    (hloop : ∀ b ∈ ds, next cs b = some ([], cs)) :
    ∀ {p : Nat} {y : τ}, sweep next last perform p (ds ++ bs) cs y
      = sweep next last perform (p + ds.length) bs cs y := by
  induction ds with
  | nil => exact rfl
  | cons b ds ih =>
      intro p y
      rw [List.cons_append, sweep, hloop b List.mem_cons_self]
      simp only [List.any_nil, Bool.false_eq_true, if_false, List.foldl_nil]
      rw [ih (fun c hc => hloop c (List.mem_cons_of_mem _ hc)),
        List.length_cons, Nat.add_assoc, Nat.add_comm 1]

/-- What the actions at the positions of the bytes keep holds of the
registers where a run stops, also where it fails. -/
theorem sweep_within {F : τ → Prop} {lo hi : Nat}
    (hF : ∀ {p : Nat} {a : α} {y : τ}, lo ≤ p → p < hi → F y →
      F (perform p a y)) (bs : List UInt8) :
    ∀ {p cs : Nat} {y : τ}, lo ≤ p → p + bs.length ≤ hi → F y →
      F (sweep next last perform p bs cs y).regs := by
  induction bs with
  | nil => exact fun _ _ hy => hy
  | cons b bs ih =>
      intro p cs y hlo hhi hy
      rw [List.length_cons] at hhi
      have hacts : ∀ acts : List α,
          F (acts.foldl (fun y a => perform p a y) y) := fun acts =>
        List.foldlRecOn (motive := F) acts _ hy fun _ hy _ _ =>
          hF hlo (by omega) hy
      rw [sweep]
      split
      next => exact hy
      next acts t hnext =>
          split
          next => exact hacts acts
          next => exact ih (by omega) (by omega) (hacts acts)

/-- What every action keeps holds of the registers where a run stops,
also where it fails. -/
theorem sweep_keeps {F : τ → Prop}
    (hF : ∀ {p : Nat} {a : α} {y : τ}, F y → F (perform p a y))
    (bs : List UInt8) {p cs : Nat} {y : τ} (hy : F y) :
    F (sweep next last perform p bs cs y).regs :=
  sweep_within (F := F) (fun _ _ => hF) bs (Nat.le_refl _) (Nat.le_refl _)
    hy

/-- What every action other than a last one keeps holds of the registers
of a run that goes through its bytes. -/
theorem sweep_running {F : τ → Prop}
    (hF : ∀ {p : Nat} {a : α} {y : τ}, last a = false → F y →
      F (perform p a y)) (bs : List UInt8) :
    ∀ {p cs : Nat} {y : τ}, F y →
      (sweep next last perform p bs cs y).halt = .running →
      F (sweep next last perform p bs cs y).regs := by
  have hacts : ∀ (p : Nat) (acts : List α) {y : τ},
      acts.any last = false → F y →
      F (acts.foldl (fun y a => perform p a y) y) := by
    intro p acts
    induction acts with
    | nil => exact fun _ hy => hy
    | cons a acts ih =>
        intro y hany hy
        rw [List.any_cons, Bool.or_eq_false_iff] at hany
        exact ih hany.2 (hF hany.1 hy)
  induction bs with
  | nil => exact fun hy _ => hy
  | cons b bs ih =>
      intro p cs y hy hrun
      rw [sweep] at hrun ⊢
      split
      next hnext =>
          rw [hnext] at hrun
          cases hrun
      next acts t hnext =>
          rw [hnext] at hrun
          split
          next hlast =>
              simp only [hlast, if_true] at hrun
              cases hrun
          next hlast =>
              simp only [hlast, Bool.false_eq_true, if_false] at hrun
              exact ih (hacts p acts (Bool.eq_false_iff.mpr hlast) hy) hrun

/-- Where exactly the last transitions lead to a state in `Q`, a run is
finished exactly in such a state. -/
theorem sweep_last {Q : Nat → Prop}
    (hQ : ∀ {cs : Nat} {b : UInt8} {acts : List α} {t : Nat},
      next cs b = some (acts, t) → (acts.any last = true ↔ Q t))
    {s : Stop τ} (bs : List UInt8) :
    ∀ {p cs : Nat} {y : τ}, ¬ Q cs →
      sweep next last perform p bs cs y = s →
      (s.halt = .running → ¬ Q s.cs) ∧ (s.halt = .finished → Q s.cs) := by
  induction bs with
  | nil =>
      intro p cs y hcs h
      cases h
      exact ⟨fun _ => hcs, Halt.noConfusion⟩
  | cons b bs ih =>
      intro p cs y hcs h
      rw [sweep] at h
      split at h
      next =>
          cases h
          exact ⟨Halt.noConfusion, Halt.noConfusion⟩
      next acts t hnext =>
          split at h
          next hlast =>
              cases h
              exact ⟨Halt.noConfusion, fun _ => (hQ hnext).mp hlast⟩
          next hlast => exact ih (fun hq => hlast ((hQ hnext).mpr hq)) h

end

-- ================================================================ simulation

/-- Two sweeps whose interpretations are related by `R`, whatever the
positions, make the same moves. -/
theorem sweep_rel {next : Nat → UInt8 → Option (List α × Nat)}
    {last : α → Bool} {f : Nat → α → σ → σ} {g : Nat → α → τ → τ}
    {R : σ → τ → Prop}
    (hR : ∀ {p q : Nat} {a : α} {x : σ} {y : τ}, R x y →
      R (f p a x) (g q a y)) (bs : List UInt8) :
    ∀ {p q cs : Nat} {x : σ} {y : τ} {s : Stop σ} {z : Stop τ}, R x y →
      sweep next last f p bs cs x = s → sweep next last g q bs cs y = z →
      s.halt = z.halt ∧ s.cs = z.cs ∧ s.pos + q = z.pos + p
        ∧ R s.regs z.regs := by
  induction bs with
  | nil =>
      intro p q cs x y s z h hs hz
      cases hs
      cases hz
      exact ⟨rfl, rfl, Nat.add_comm p q, h⟩
  | cons b bs ih =>
      intro p q cs x y s z h hs hz
      rw [sweep] at hs hz
      split at hs
      next hnext =>
          rw [hnext] at hz
          cases hs
          cases hz
          exact ⟨rfl, rfl, Nat.add_comm p q, h⟩
      next acts t hnext =>
          rw [hnext] at hz
          have h' : R (acts.foldl (fun x a => f p a x) x)
              (acts.foldl (fun y a => g q a y) y) :=
            List.foldl_rel h fun _ _ _ _ => hR
          split at hs
          next hlast =>
              simp only [hlast, if_true] at hz
              cases hs
              cases hz
              exact ⟨rfl, rfl, by simp only; omega, h'⟩
          next hlast =>
              simp only [hlast, Bool.false_eq_true, if_false] at hz
              obtain ⟨h1, h2, h3, h4⟩ := ih h' hs hz
              exact ⟨h1, h2, by omega, h4⟩

/-- A run that may stop at a last action against one that may not: from
where the first stops, the second has what is left to do. -/
theorem sweep_resume {next : Nat → UInt8 → Option (List α × Nat)}
    {last : α → Bool} {f : Nat → α → σ → σ} {g : Nat → α → τ → τ}
    {R : σ → τ → Prop}
    (hR : ∀ {p q : Nat} {a : α} {x : σ} {y : τ}, R x y →
      R (f p a x) (g q a y)) (bs : List UInt8) :
    ∀ {p q cs : Nat} {x : σ} {y : τ} {s : Stop σ}, R x y →
      sweep next last f p bs cs x = s → s.halt ≠ .failed →
      ∃ y', R s.regs y' ∧ ∀ ys,
        sweep next (fun _ => false) g q (bs ++ ys) cs y
          = sweep next (fun _ => false) g (q + (s.pos - p))
            (bs.drop (s.pos - p) ++ ys) s.cs y' := by
  induction bs with
  | nil =>
      intro p q cs x y s h hs _
      rw [sweep] at hs
      cases hs
      refine ⟨y, h, fun ys => ?_⟩
      rw [Nat.sub_self, Nat.add_zero, List.drop_nil]
  | cons b bs ih =>
      intro p q cs x y s h hs hhalt
      rw [sweep] at hs
      cases hnext : next cs b with
      | none =>
          rw [hnext] at hs
          cases hs
          exact absurd rfl hhalt
      | some jump =>
          obtain ⟨acts, t⟩ := jump
          rw [hnext] at hs
          have h' : R (acts.foldl (fun x a => f p a x) x)
              (acts.foldl (fun y a => g q a y) y) :=
            List.foldl_rel h fun _ _ _ _ => hR
          have hmove : ∀ ys, sweep next (fun _ => false) g q (b :: bs ++ ys)
              cs y = sweep next (fun _ => false) g (q + 1) (bs ++ ys) t
                (acts.foldl (fun y a => g q a y) y) := by
            intro ys
            rw [List.cons_append, sweep, hnext]
            exact if_neg (by simp)
          by_cases hlast : acts.any last = true
          · simp only [hlast, if_true] at hs
            cases hs
            refine ⟨_, h', fun ys => (hmove ys).trans ?_⟩
            rw [Nat.add_sub_cancel_left, List.drop_succ_cons, List.drop_zero]
          · simp only [hlast, Bool.false_eq_true, if_false] at hs
            obtain ⟨y', hy', hrest⟩ := ih (q := q + 1) h' hs hhalt
            refine ⟨y', hy', fun ys => ((hmove ys).trans (hrest ys)).trans ?_⟩
            have hle := (sweep_pos bs hs).2.2.1
            rw [show s.pos - p = s.pos - (p + 1) + 1 by omega,
              List.drop_succ_cons,
              show q + 1 + (s.pos - (p + 1)) = q + (s.pos - (p + 1) + 1) by
                omega]

/-- What every move keeps (`I`) holds where the driver stops, before the
byte without a transition where there is one; after a move that ends it
what that one establishes (`J`) holds. -/
theorem drive_keeps {next : Nat → UInt8 → Option (List α × Nat)}
    {last : α → Bool} {f : Nat → α → σ → Except ε σ}
    {I J : Nat → Nat → σ → Prop} {s : Stop σ}
    (hgo : ∀ {cs : Nat} {b : UInt8} {acts : List α} {t p : Nat} {x x' : σ},
      next cs b = some (acts, t) → acts.any last = false → I cs p x →
      acts.foldlM (fun x a => f p a x) x = .ok x' → I t (p + 1) x')
    (hend : ∀ {cs : Nat} {b : UInt8} {acts : List α} {t p : Nat} {x x' : σ},
      next cs b = some (acts, t) → acts.any last = true → I cs p x →
      acts.foldlM (fun x a => f p a x) x = .ok x' → J t (p + 1) x')
    (bs : List UInt8) :
    ∀ {p cs : Nat} {x : σ}, I cs p x →
      drive next last f p bs cs x = .ok s →
      s.pos ≤ p + bs.length ∧ (s.halt = .finished → J s.cs s.pos s.regs)
        ∧ (s.halt = .running → I s.cs s.pos s.regs)
        ∧ (s.halt = .failed → s.cs = 0 ∧ ∃ cs, I cs s.pos s.regs) := by
  induction bs with
  | nil =>
      intro p cs x hx hs
      cases hs
      exact ⟨Nat.le_refl _, fun h => (by cases h), fun _ => hx,
        fun h => by cases h⟩
  | cons b bs ih =>
      intro p cs x hx hs
      rw [drive] at hs
      rw [List.length_cons]
      split at hs
      next =>
          cases hs
          exact ⟨Nat.le_add_right _ _, fun h => (by cases h),
            fun h => (by cases h), fun _ => ⟨rfl, cs, hx⟩⟩
      next acts t hnext =>
          split at hs
          next => cases hs
          next x' hx' =>
              split at hs
              next hlast =>
                  cases hs
                  refine ⟨?_, fun _ => hend hnext hlast hx hx',
                    fun h => (by cases h), fun h => by cases h⟩
                  show p + 1 ≤ p + (bs.length + 1)
                  omega
              next hlast =>
                  have hgoes := hgo hnext (Bool.eq_false_iff.mpr hlast) hx hx'
                  obtain ⟨hle, hrest⟩ := ih hgoes hs
                  exact ⟨by omega, hrest⟩

/-- A driver of `buf` and a sweep `o` positions further on whose
interpretations are related by `R`. While the driver does not fail they
make the same moves and stay related, up to the byte without a transition
where there is one; when it fails, what its failure says of the sweep's
registers (`F`, which every action keeps) holds where the sweep stops. -/
theorem drive_sweep {next : Nat → UInt8 → Option (List α × Nat)}
    {last : α → Bool} {f : Nat → α → σ → Except ε σ}
    {g : Nat → α → τ → τ} {R : Nat → Nat → σ → τ → Prop} {F : τ → Prop}
    {o : Nat} {buf : List UInt8}
    (hstep : ∀ {cs : Nat} {b : UInt8} {acts : List α} {t p : Nat} {x x' : σ}
      {y : τ}, next cs b = some (acts, t) → buf[p]? = some b → R cs p x y →
      acts.foldlM (fun x a => f p a x) x = .ok x' →
      R t (p + 1) x' (acts.foldl (fun y a => g (o + p) a y) y))
    (hfail : ∀ {cs : Nat} {b : UInt8} {acts : List α} {t p : Nat} {x : σ}
      {y : τ} {e : ε}, next cs b = some (acts, t) → buf[p]? = some b →
      R cs p x y → acts.foldlM (fun x a => f p a x) x = .error e →
      F (acts.foldl (fun y a => g (o + p) a y) y))
    (hF : ∀ {p : Nat} {a : α} {y : τ}, F y → F (g p a y))
    (bs : List UInt8) :
    ∀ {p cs : Nat} {x : σ} {y : τ} {z : Stop τ}, R cs p x y →
      buf.drop p = bs → sweep next last g (o + p) bs cs y = z →
      (∀ {s : Stop σ}, drive next last f p bs cs x = .ok s →
        z.halt = s.halt ∧ z.pos = o + s.pos ∧ z.cs = s.cs
          ∧ (s.halt ≠ .failed → R s.cs s.pos s.regs z.regs)
          ∧ ∃ cs p, R cs p s.regs z.regs)
        ∧ ∀ {e : ε}, drive next last f p bs cs x = .error e → F z.regs := by
  induction bs with
  | nil =>
      intro p cs x y z hR hbs hz
      cases hz
      refine ⟨fun h => ?_, fun h => by cases h⟩
      cases h
      exact ⟨rfl, rfl, rfl, fun _ => hR, _, _, hR⟩
  | cons b bs ih =>
      intro p cs x y z hR hbs hz
      have hb : buf[p]? = some b := by
        rw [← List.head?_drop, hbs]
        rfl
      have hbs' : buf.drop (p + 1) = bs := by
        rw [← List.drop_drop, hbs]
        rfl
      rw [sweep] at hz
      rw [drive]
      split at hz
      next hnext =>
          cases hz
          refine ⟨fun h => ?_, fun h => by cases h⟩
          cases h
          exact ⟨rfl, rfl, rfl, fun hne => absurd rfl hne, _, _, hR⟩
      next acts t hnext =>
          cases hx : acts.foldlM (fun x a => f p a x) x with
          | error e =>
              refine ⟨fun h => (by cases h), fun _ => ?_⟩
              have hy := hfail hnext hb hR hx
              split at hz
              next =>
                  cases hz
                  exact hy
              next =>
                  rw [← hz]
                  exact sweep_keeps (F := F) hF bs hy
          | ok x' =>
              have hR' := hstep hnext hb hR hx
              split at hz
              next hlast =>
                  cases hz
                  simp only [hlast, if_true]
                  refine ⟨fun h => ?_, fun h => by cases h⟩
                  cases h
                  exact ⟨rfl, rfl, rfl, fun _ => hR', _, _, hR'⟩
              next hlast =>
                  simp only [hlast, Bool.false_eq_true, if_false]
                  exact ih hR' hbs' hz

end Lib
