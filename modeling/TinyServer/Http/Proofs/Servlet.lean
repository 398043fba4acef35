/-
Which servlet a path gets.

`m_globs` holds the patterns that are registered, in the order in which
they were registered last (`globs_placed`); as a pattern is registered at
one place at most, `delGlobServlet` removes the only pair there is. So the
first pattern that matches is the one registered the longest ago.
-/
import TinyServer.Http.Servlet

namespace TinyServer.Http.ServletDispatch

open Lib

variable {O C : Type} {cs : List (DispatchCall O C)} {p : Bytes}
  {slt : ServletRef O C}

-- ================================================================ exact paths

theorem lookup_insert (m : AList fun _ : Bytes => ServletRef O C)
    (uri : Bytes) (slt : ServletRef O C) :
    (m.insert uri slt).lookup p
      = (if uri = p then some (some slt) else none).getD (m.lookup p) := by
  split
  next h => exact h ▸ AList.lookup_insert m
  next h => exact AList.lookup_insert_ne (Ne.symm h)

theorem lookup_erase (m : AList fun _ : Bytes => ServletRef O C)
    (uri : Bytes) :
    (m.erase uri).lookup p
      = (if uri = p then some none else none).getD (m.lookup p) := by
  split
  next h => exact h ▸ AList.lookup_erase uri m
  next h => exact AList.lookup_erase_ne (Ne.symm h)

theorem lookup_call (d : ServletDispatch O C) (c : DispatchCall O C) :
    (d.call c).datas.lookup p = (c.exactly p).getD (d.datas.lookup p) := by
  cases c with
  | addServlet uri slt => exact lookup_insert d.datas uri slt
  | addServletFunction uri cb =>
      exact lookup_insert d.datas uri (some (.function cb))
  | delServlet uri => exact lookup_erase d.datas uri
  | _ => rfl

theorem lookup_calls :
    (calls cs).datas.lookup p = some slt
      ↔ LastSet (DispatchCall.exactly p) cs slt := by
  exact look_iff_lastSet (fun d : ServletDispatch O C => d.datas.lookup p)
    (AList.lookup_empty p) fun d c _ => lookup_call d c

theorem default_call (d : ServletDispatch O C) (c : DispatchCall O C) :
    some (d.call c).default = c.default.getD (some d.default) := by
  cases c <;> rfl

theorem default_calls : (calls cs).default = slt
    ↔ LastSet DispatchCall.default cs slt
      ∨ (∀ c ∈ cs, c.default = none) ∧ slt = some .notFount := by
  have h : some (calls cs).default = some slt
      ↔ LastSet DispatchCall.default cs slt
        ∨ (∀ c ∈ cs, c.default = none)
          ∧ some (new : ServletDispatch O C).default = some slt :=
    look_iff (fun d : ServletDispatch O C => some d.default)
      fun d c _ => default_call d c
  rw [Option.some.injEq, Option.some.injEq] at h
  rw [h, eq_comm (a := slt)]
  rfl

-- =================================================================== patterns

/-- What a call does to the patterns: nothing, or it erases the pattern
and adds it at the end with the new servlet. -/
theorem globs_call (d : ServletDispatch O C) (c : DispatchCall O C) :
    ((∀ g, c.glob g = none) ∧ (d.call c).globs = d.globs)
      ∨ ∃ uri slt, (∀ g, c.glob g = if uri = g then some slt else none)
        ∧ (d.call c).globs
          = eraseGlob d.globs uri ++ (slt.map fun s => (uri, s)).toList := by
  cases c with
  | addGlobServlet uri slt =>
      exact Or.inr ⟨uri, some slt, fun g => rfl, rfl⟩
  | addGlobServletFunction uri cb =>
      exact Or.inr ⟨uri, some (some (.function cb)), fun g => rfl, rfl⟩
  | delGlobServlet uri =>
      exact Or.inr ⟨uri, none, fun g => rfl, (List.append_nil _).symm⟩
  | _ => exact Or.inl ⟨fun g => rfl, rfl⟩

/-- A call registers one servlet. -/
theorem glob_unique {c : DispatchCall O C} {g g' : Bytes}
    {s t : ServletRef O C} (hs : c.glob g = some (some s))
    (ht : c.glob g' = some (some t)) : s = t := by
  obtain ⟨hc, -⟩ | ⟨uri, slt, hc, -⟩ := globs_call new c
  · rw [hc g] at hs
    cases hs
  · rw [hc, Option.ite_none_right_eq_some, Option.some.injEq] at hs ht
    exact Option.some.inj (hs.2.symm.trans ht.2)

/-- Where one element at most has the property, the loop takes out all
that have it. -/
theorem eraseP_eq_filter {α : Type} {P : α → Bool} {l : List α}
    (h : l.Pairwise fun a b => ¬ (P a = true ∧ P b = true)) :
    l.eraseP P = l.filter fun a => !P a := by
  induction h with
  | nil => rfl
  | @cons a l hhead _ ih =>
      by_cases ha : P a = true
      · have hrest : l.filter (fun b => !P b) = l := by
          apply List.filter_eq_self.mpr
          intro b hb
          simpa [ha] using hhead b hb
        rw [List.eraseP_cons_of_pos ha, List.filter_cons_of_neg (by simpa),
          hrest]
      · rw [List.eraseP_cons_of_neg ha,
          List.filter_cons_of_pos (by simpa using ha), ih]

/-- The pairs `l` with the places of their registrations: in order, and
those that the calls left. -/
structure Placed (cs : List (DispatchCall O C))
    (l : List (Nat × Bytes × ServletRef O C)) : Prop where
  ordered : l.Pairwise fun a b => a.1 < b.1
  mem_iff : ∀ i g s, (i, g, s) ∈ l ↔ SetAt (DispatchCall.glob g) cs i s

namespace Placed

variable {l : List (Nat × Bytes × ServletRef O C)}

/-- No pattern is there twice. -/
theorem distinct (h : Placed cs l) :
    l.Pairwise fun a b => a.2.1 ≠ b.2.1 := by
  refine h.ordered.imp_of_mem ?_
  rintro ⟨i, g, s⟩ ⟨j, g', s'⟩ ha hb hlt (heq : g = g')
  subst heq
  have hi := (h.mem_iff i g s).mp ha
  have hj := (h.mem_iff j g s').mp hb
  exact absurd (hi.unique hj).1 (Nat.ne_of_lt hlt)

theorem eraseGlob_eq (h : Placed cs l) (uri : Bytes) :
    eraseGlob (l.map Prod.snd) uri
      = (l.filter fun x => !decide (x.2.1 = uri)).map Prod.snd := by
  unfold eraseGlob
  rw [List.eraseP_map]
  congr 1
  refine eraseP_eq_filter (h.distinct.imp fun {a b} hne => ?_)
  rintro ⟨ha, hb⟩
  exact hne ((of_decide_eq_true ha).trans (of_decide_eq_true hb).symm)

/-- A call that does not touch the patterns. -/
theorem keep (h : Placed cs l) {c : DispatchCall O C}
    (hc : ∀ g, c.glob g = none) : Placed (cs ++ [c]) l := by
  refine ⟨h.ordered, fun i g s => ?_⟩
  rw [h.mem_iff, setAt_concat, hc g]
  constructor
  · exact fun hi => Or.inr ⟨hi, rfl⟩
  · rintro (⟨-, hv⟩ | ⟨hi, -⟩)
    · cases hv
    · exact hi

/-- A call that erases a pattern and may add it again. -/
theorem move (h : Placed cs l) {c : DispatchCall O C} {uri : Bytes}
    {slt : Option (ServletRef O C)}
    (hc : ∀ g, c.glob g = if uri = g then some slt else none) :
    Placed (cs ++ [c]) ((l.filter fun x => !decide (x.2.1 = uri))
      ++ (slt.map fun s => (cs.length, uri, s)).toList) := by
  refine ⟨?_, fun i g s => ?_⟩
  · refine List.pairwise_append.mpr ⟨h.ordered.filter _, ?_, ?_⟩
    · cases slt with
      | none => exact List.Pairwise.nil
      | some s => exact List.pairwise_singleton _ _
    · rintro ⟨i, g, s⟩ ha b hb
      have hi := (h.mem_iff i g s).mp (List.mem_of_mem_filter ha)
      cases slt with
      | none => cases hb
      | some s' =>
          rw [List.mem_singleton.mp hb]
          exact hi.lt
  · rw [setAt_concat, hc g, List.mem_append, List.mem_filter, h.mem_iff]
    by_cases hg : uri = g
    · subst hg
      cases slt <;> simp [Prod.ext_iff, eq_comm]
    · have hg' : g ≠ uri := Ne.symm hg
      cases slt <;> simp [hg, hg']

end Placed

/-- `m_globs` after the calls. -/
theorem globs_placed (cs : List (DispatchCall O C)) :
    ∃ l, l.map Prod.snd = (calls cs).globs ∧ Placed cs l := by
  induction cs using List.reverseRecOn with
  | nil =>
      refine ⟨[], rfl, List.Pairwise.nil, fun i g s => ?_⟩
      exact iff_of_false List.not_mem_nil fun h =>
        absurd h.lt (Nat.not_lt_zero i)
  | append_singleton cs c ih =>
      obtain ⟨l, hl, hplaced⟩ := ih
      have hcalls : calls (cs ++ [c]) = (calls cs).call c := by
        unfold calls
        rw [List.foldl_append]
        rfl
      rw [hcalls]
      rcases globs_call (calls cs) c with
        ⟨hc, hglobs⟩ | ⟨uri, slt, hc, hglobs⟩
      · exact ⟨l, hl.trans hglobs.symm, hplaced.keep hc⟩
      · refine ⟨_, ?_, hplaced.move hc⟩
        rw [hglobs, ← hl, hplaced.eraseGlob_eq, List.map_append]
        cases slt <;> rfl

-- =================================================================== dispatch

variable {fnmatch : Bytes → Bytes → Nat → Int}

/-- One servlet at most is in charge. -/
theorem inCharge_unique {s t : ServletRef O C}
    (hs : InCharge fnmatch cs p s) (ht : InCharge fnmatch cs p t) : s = t := by
  obtain ⟨i, g, hi, hmatch, hfirst⟩ := hs
  obtain ⟨j, g', hj, hmatch', hfirst'⟩ := ht
  rcases Nat.lt_trichotomy i j with hlt | rfl | hgt
  · exact absurd hmatch (hfirst' i g s hlt hi)
  · -- both were registered by the same call
    obtain ⟨⟨c, hc, hglob⟩, -⟩ := hi
    obtain ⟨⟨d, hd, hglob'⟩, -⟩ := hj
    cases hc.symm.trans hd
    exact glob_unique hglob hglob'
  · exact absurd hmatch' (hfirst j g' t hgt hj)

/-- What the loop of `getMatchedServlet` finds. -/
theorem find_globs {glob : Bytes × ServletRef O C}
    (h : ((calls cs).globs.find? fun glob =>
      fnmatch (cStr glob.1) (cStr p) 0 = 0) = some glob) :
    InCharge fnmatch cs p glob.2 := by
  obtain ⟨l, hl, hplaced⟩ := globs_placed cs
  rw [← hl, List.find?_map] at h
  obtain ⟨⟨i, g, s⟩, hfind, rfl⟩ := Option.map_eq_some_iff.mp h
  obtain ⟨hmatch, before, after, happend, hbefore⟩ :=
    List.find?_eq_some_iff_append.mp hfind
  have hmem : (i, g, s) ∈ l := by
    rw [happend]
    exact List.mem_append_right _ List.mem_cons_self
  refine ⟨i, g, (hplaced.mem_iff i g s).mp hmem, of_decide_eq_true hmatch, ?_⟩
  intro j g' s' hlt hj
  have hmem' := (hplaced.mem_iff j g' s').mpr hj
  have hordered := hplaced.ordered
  rw [happend] at hmem' hordered
  obtain ⟨-, hafter, -⟩ := List.pairwise_append.mp hordered
  rcases List.mem_append.mp hmem' with hmem' | hmem'
  · simpa using hbefore _ hmem'
  · rcases List.mem_cons.mp hmem' with heq | hmem'
    · cases heq
      exact absurd hlt (Nat.lt_irrefl _)
    · have := (List.pairwise_cons.mp hafter).1 _ hmem'
      exact absurd hlt (Nat.lt_asymm this)

/-- Where it finds nothing, no pattern matches. -/
theorem find_globs_none
    (h : ((calls cs).globs.find? fun glob =>
      fnmatch (cStr glob.1) (cStr p) 0 = 0) = none) :
    ∀ i g s, SetAt (DispatchCall.glob g) cs i s →
      fnmatch (cStr g) (cStr p) 0 ≠ 0 := by
  intro i g s hi
  obtain ⟨l, hl, hplaced⟩ := globs_placed cs
  have hmem : (g, s) ∈ (calls cs).globs := by
    rw [← hl]
    exact List.mem_map_of_mem ((hplaced.mem_iff i g s).mpr hi)
  simpa using List.find?_eq_none.mp h _ hmem

/-- After any calls, no pattern is in `m_globs` twice, and
`getMatchedServlet` returns the servlet registered last under exactly the
path, else that of the pattern registered the longest ago of those that
match, else the default. -/
theorem dispatch_matched (fnmatch : Bytes → Bytes → Nat → Int)
    (cs : List (DispatchCall O C)) (p : Bytes) :
    ((calls cs).globs.map Prod.fst).Nodup
      ∧ ∀ slt, (calls cs).getMatchedServlet fnmatch p = slt
        ↔ Dispatched fnmatch cs p slt := by
  refine ⟨?_, fun slt => ?_⟩
  · obtain ⟨l, hl, hplaced⟩ := globs_placed cs
    rw [← hl, List.map_map]
    exact List.pairwise_map.mpr hplaced.distinct
  · unfold getMatchedServlet Dispatched
    cases hexact : (calls cs).datas.lookup p with
    | some s =>
        have hlast := lookup_calls.mp hexact
        constructor
        · rintro rfl
          exact Or.inl hlast
        · rintro (h | ⟨h, -⟩)
          · exact Option.some.inj (hexact.symm.trans (lookup_calls.mpr h))
          · exact absurd hlast (h s)
    | none =>
        have hno : ∀ s, ¬ LastSet (DispatchCall.exactly p) cs s := by
          intro s h
          rw [lookup_calls.mpr h] at hexact
          cases hexact
        cases hfind : (calls cs).globs.find? fun glob =>
            fnmatch (cStr glob.1) (cStr p) 0 = 0 with
        | some glob =>
            have hcharge := find_globs hfind
            constructor
            · rintro rfl
              exact Or.inr ⟨hno, Or.inl hcharge⟩
            · rintro (h | ⟨-, h | ⟨h, -⟩⟩)
              · exact absurd h (hno slt)
              · exact inCharge_unique hcharge h
              · obtain ⟨i, g, hi, hmatch, -⟩ := hcharge
                exact absurd hmatch (h i g _ hi)
        | none =>
            have hnone := find_globs_none hfind
            constructor
            · exact fun h => Or.inr ⟨hno, Or.inr ⟨hnone, default_calls.mp h⟩⟩
            · rintro (h | ⟨-, ⟨i, g, hi, hmatch, -⟩ | ⟨-, h⟩⟩)
              · exact absurd h (hno slt)
              · exact absurd hmatch (hnone i g slt hi)
              · exact default_calls.mpr h

-- ============================================================ single lookups

/-- `getServlet` returns what is registered under the path, and null also
where a null pointer is. -/
theorem getServlet_calls {s : Servlet O C} :
    (calls cs).getServlet p = some s
      ↔ LastSet (DispatchCall.exactly p) cs (some s) := by
  rw [← lookup_calls]
  unfold getServlet
  split
  next h => simp [h]
  next h => simp [h]

/-- `getGlobServlet` likewise for a pattern. -/
theorem getGlobServlet_calls {s : Servlet O C} :
    (calls cs).getGlobServlet p = some s
      ↔ LastSet (DispatchCall.glob p) cs (some s) := by
  obtain ⟨l, hl, hplaced⟩ := globs_placed cs
  unfold getGlobServlet
  split
  next glob hfind =>
    rw [← hl, List.find?_map] at hfind
    obtain ⟨⟨i, g, t⟩, hfound, rfl⟩ := Option.map_eq_some_iff.mp hfind
    have hi := (hplaced.mem_iff i g t).mp (List.mem_of_find?_eq_some hfound)
    have hfirst := List.find?_some hfound
    obtain rfl : g = p := of_decide_eq_true hfirst
    constructor
    · exact fun h => ⟨i, h ▸ hi⟩
    · rintro ⟨j, hj⟩
      exact (hi.unique hj).2
  next hfind =>
    refine iff_of_false (fun h => nomatch h) ?_
    rintro ⟨i, hi⟩
    have hmem : (p, some s) ∈ (calls cs).globs := by
      rw [← hl]
      exact List.mem_map_of_mem ((hplaced.mem_iff i p _).mpr hi)
    simpa using List.find?_eq_none.mp hfind _ hmem

end TinyServer.Http.ServletDispatch
