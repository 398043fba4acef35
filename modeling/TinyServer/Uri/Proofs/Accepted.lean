/-
What `Uri::Create` accepts is read by `run`.

The driver of the machine has offsets, `run` has the bytes themselves:
`Sees` relates the two, and every action keeps it.
-/
import TinyServer.Uri.Proofs.Follow

namespace TinyServer

open Lib
open Http (Bytes)

namespace Uri

/-- The registers at offset `p` of `s`, with `rest` still to be read. -/
structure Sees (s : Bytes) (p : Nat) (rest : Bytes) (x : Regs) (y : Reading) :
    Prop where
  rest_eq : s.drop p = rest
  none_iff : x.mark = none ↔ y.since = none
  since : ∀ m t, x.mark = some m → y.since = some t →
    m + t.length = p ∧ s.drop m = t ++ rest
  uri_eq : x.uri = y.uri

namespace Sees

variable {s rest : Bytes} {p : Nat} {x x' : Regs} {y : Reading}

/-- A null `mark` stays null, and one that is not is replaced. -/
theorem of_uri (h : Sees s p rest x y) {u v : Uri} (huv : u = v) :
    Sees s p rest ⟨none, u⟩ ⟨none, v⟩ :=
  ⟨h.rest_eq, iff_of_true rfl rfl, fun _ _ hm => (nomatch hm), huv⟩

theorem text_eq (h : Sees s p rest x y) {v : Bytes}
    (ht : text s x.mark p = .ok v) : y.since = some v := by
  obtain ⟨mark, u⟩ := x
  cases mark with
  | none => nomatch ht
  | some m =>
      cases hy : y.since with
      | none => nomatch h.none_iff.mpr hy
      | some t =>
          obtain ⟨hlen, hdrop⟩ := h.since m t rfl hy
          cases ht
          unfold slice
          rw [hdrop, ← hlen, Nat.add_sub_cancel_left, List.take_left]

/-- An action that saves a text and clears `mark`. -/
theorem save (h : Sees s p rest x y) {f : Bytes → Uri → Uri}
    (hx : (do pure ⟨none, f (← text s x.mark p) x.uri⟩) = Except.ok x') :
    ∃ y', (y.since.map fun t => (⟨none, f t y.uri⟩ : Reading)) = some y'
      ∧ Sees s p rest x' y' := by
  cases ht : text s x.mark p with
  | error e =>
      rw [ht] at hx
      nomatch hx
  | ok v =>
      rw [ht] at hx
      cases hx
      rw [h.text_eq ht]
      exact ⟨_, rfl, h.of_uri (congrArg (f v) h.uri_eq)⟩

/-- The actions do the same. -/
theorem act (h : Sees s p rest x y) {a : UriAction}
    (hx : perform s p a x = .ok x') :
    ∃ y', y.act rest a = some y' ∧ Sees s p rest x' y' := by
  cases a with
  | mark =>
      cases hx
      refine ⟨_, rfl, h.rest_eq, iff_of_false (fun hm => (nomatch hm))
        (fun hy => (nomatch hy)), fun m t hm ht => ?_, h.uri_eq⟩
      cases hm
      cases ht
      exact ⟨rfl, h.rest_eq⟩
  | saveScheme => exact h.save (f := fun t u => { u with scheme := t }) hx
  | savePath => exact h.save (f := fun t u => { u with path := t }) hx
  | saveQuery => exact h.save (f := fun t u => { u with query := t }) hx
  | saveFragment => exact h.save (f := fun t u => { u with fragment := t }) hx
  | savePort =>
      obtain ⟨mark, u⟩ := x
      cases mark with
      | none => nomatch hx
      | some m =>
          cases hy : y.since with
          | none => nomatch h.none_iff.mpr hy
          | some t =>
              obtain ⟨hlen, hdrop⟩ := h.since m t rfl hy
              have hnil : t = [] ↔ p = m := by
                rw [← List.length_eq_zero_iff]
                omega
              dsimp only [perform] at hx
              dsimp only [Reading.act]
              rw [hy]
              refine ⟨_, rfl, ?_⟩
              dsimp only
              split at hx
              next hne =>
                cases hx
                rw [if_neg (fun ht => hne (hnil.mp ht)), hdrop]
                exact h.of_uri (congrArg (fun u : Uri =>
                  { u with port := atoiPort (t ++ rest) }) h.uri_eq)
              next heq =>
                cases hx
                rw [if_pos (hnil.mpr (Decidable.not_not.mp heq))]
                exact h.of_uri h.uri_eq
  | saveUserinfo =>
      dsimp only [perform] at hx
      split at hx
      next hsome =>
        obtain ⟨y', hy', hsees⟩ :=
          h.save (f := fun t u => { u with userinfo := t }) hx
        cases hy : y.since with
        | none =>
            rw [h.none_iff.mpr hy] at hsome
            nomatch hsome
        | some t =>
            rw [hy] at hy'
            cases hy'
            dsimp only [Reading.act]
            rw [hy]
            exact ⟨_, rfl, hsees⟩
      next hnone =>
        cases hx
        dsimp only [Reading.act]
        rw [h.none_iff.mp (Option.not_isSome_iff_eq_none.mp hnone)]
        exact ⟨_, rfl, h.of_uri h.uri_eq⟩
  | saveHost =>
      obtain ⟨mark, u⟩ := x
      obtain ⟨since, v⟩ := y
      refine ⟨_, rfl, ?_⟩
      cases mark with
      | none =>
          cases hx
          cases h.none_iff.mp rfl
          exact ⟨h.rest_eq, h.none_iff, h.since, h.uri_eq⟩
      | some m =>
          cases hx
          have ht : since = some (slice s m (p - m)) := h.text_eq rfl
          subst ht
          refine ⟨h.rest_eq, h.none_iff, h.since, ?_⟩
          exact congrArg (fun u : Uri => { u with host := slice s m (p - m) })
            h.uri_eq

theorem acts (h : Sees s p rest x y) {acts : List UriAction}
    (hx : performAll s p acts x = .ok x') :
    ∃ y', acts.foldlM (Reading.act rest) y = some y'
      ∧ Sees s p rest x' y' := by
  induction acts generalizing x y with
  | nil =>
      cases hx
      exact ⟨y, rfl, h⟩
  | cons a acts ih =>
      unfold performAll at hx
      rw [List.foldlM_cons] at hx
      cases ha : perform s p a x with
      | error e =>
          rw [ha] at hx
          nomatch hx
      | ok x₁ =>
          rw [ha] at hx
          obtain ⟨y₁, hy₁, h₁⟩ := h.act ha
          obtain ⟨y', hy', h'⟩ := ih h₁ hx
          refine ⟨y', ?_, h'⟩
          rw [List.foldlM_cons, hy₁]
          exact hy'

/-- On to the next byte. -/
theorem push {b : UInt8} {bs : Bytes} (h : Sees s p (b :: bs) x y) :
    Sees s (p + 1) bs x (y.push b) := by
  refine ⟨?_, ?_, fun m t hm ht => ?_, h.uri_eq⟩
  · rw [← List.drop_drop, h.rest_eq]
    rfl
  · rw [h.none_iff]
    exact (Option.map_eq_none_iff).symm
  · obtain ⟨t₀, ht₀, rfl⟩ := Option.map_eq_some_iff.mp ht
    obtain ⟨hlen, hdrop⟩ := h.since m t₀ hm ht₀
    rw [List.length_append, List.length_singleton, hdrop, List.append_assoc]
    exact ⟨by omega, rfl⟩

end Sees

/-- The driver and `run` from the same place on. -/
theorem drive_run {s bs : Bytes} {p cs : Nat} {x x' : Regs} {y : Reading}
    {ph : Phase} {stop : Stop Regs} (h : Sees s p bs x y)
    (hph : phaseOf cs = some ph)
    (hdrive : drive UriTable.transition (fun _ => false) (perform s) p bs cs x
      = .ok stop) (hhalt : stop.halt ≠ .failed)
    (heof : performAll s stop.pos (UriTable.eofActions stop.cs) stop.regs
      = .ok x') (hfinal : UriTable.firstFinal ≤ stop.cs) :
    run ph y bs = some x'.uri := by
  induction bs generalizing p cs x y ph with
  | nil =>
      cases hdrive
      obtain ⟨y', hy', h'⟩ := h.acts heof
      unfold run
      rw [eofActions_close hph hfinal]
      dsimp only [Option.bind_eq_bind, Option.bind_some]
      rw [hy', h'.uri_eq]
      rfl
  | cons b bs ih =>
      unfold drive at hdrive
      split at hdrive
      next =>
        cases hdrive
        exact absurd rfl hhalt
      next acts t hnext =>
        obtain ⟨ph', hph', hstep⟩ := transition_step hnext hph
        cases hacts : acts.foldlM (fun x a => perform s p a x) x with
        | error e =>
            rw [hacts] at hdrive
            nomatch hdrive
        | ok x₁ =>
            obtain ⟨y₁, hy₁, h₁⟩ := h.acts hacts
            have hlast : (acts.any fun _ => false) = false := by simp
            rw [hacts] at hdrive
            dsimp only at hdrive
            rw [if_neg (by rw [hlast]; exact Bool.false_ne_true)] at hdrive
            unfold run
            rw [hstep]
            dsimp only [Option.bind_eq_bind, Option.bind_some]
            rw [hy₁]
            exact ih h₁.push hph' hdrive

/-- What `Uri::Create` accepts is read along the phases. -/
theorem create_run {s : Bytes} {u : Uri} (h : create s = .ok (some u)) :
    run .start ⟨none, .new⟩ s = some u := by
  unfold create at h
  cases hdrive : drive UriTable.transition (fun _ => false) (perform s) 0 s
      UriTable.start ⟨none, .new⟩ with
  | error e =>
      rw [hdrive] at h
      nomatch h
  | ok stop =>
      rw [hdrive] at h
      dsimp only [bind, Except.bind] at h
      split at h
      next => nomatch h
      next hhalt =>
        cases heof : performAll s stop.pos (UriTable.eofActions stop.cs)
            stop.regs with
        | error e =>
            rw [heof] at h
            nomatch h
        | ok x =>
            rw [heof] at h
            dsimp only at h
            split at h
            next hfinal =>
              cases h
              have hsees : Sees s 0 s ⟨none, .new⟩ ⟨none, .new⟩ :=
                ⟨rfl, iff_of_true rfl rfl, fun _ _ hm => (nomatch hm), rfl⟩
              exact drive_run hsees (by decide) hdrive hhalt heof hfinal
            next => nomatch h

end Uri

end TinyServer
