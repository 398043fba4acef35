/-
Every step of a thread is one of the coroutines.

One lemma for each thing that code can do to the invariant (`resume`,
`goto`, `hold`, `restart`, `finish`, `yield`; `leave` is in `Switch.lean`),
one for the moves (`Sound.move`) and one for the steps (`Sound.step`). A
run of the thread is then a run of the coroutines, whatever other threads
do to the shared data meanwhile.
-/
import TinyServer.Fiber.Proofs.Switch

namespace TinyServer

open Lib

variable {P S : Type} {code : FiberCode P S} {root : Option Nat}
  {role : P → FiberRole} {s : FiberThread P S} {a b f n : Nat} {p p' : P}
  {pl : Place P} {c : Option Nat} {st st' : FiberState}

-- ============================================================== the coroutines

namespace FiberSystem

variable {t : FiberSystem P S} {rest : List Nat} {k : Nat}

theorem step_at (hc : t.co.chain = f :: rest)
    (hp : t.co.point f = some (.at p)) :
    t.step code = t.move f (code.next p t.shared t.view) := by
  simp only [step, hc, hp]

theorem step_start (hc : t.co.chain = f :: rest)
    (hp : t.co.point f = some .start) (hk : t.cb f = some k) :
    t.step code = (t.co.goto (.at (code.start k))).map fun co =>
      { t with co := co } := by
  simp only [step, hc, hp, hk]

theorem step_empty (hc : t.co.chain = f :: rest)
    (hp : t.co.point f = some .start) (hk : t.cb f = none) :
    t.step code = t.finish f false := by
  simp only [step, hc, hp, hk]

end FiberSystem

-- =================================================================== the steps

namespace Sound

variable (h : Sound code root role s)
include h

/-- A fiber outside the chain gets control. -/
theorem resume (hf0 : f ≠ 0) (hfn : f < s.nextFiber)
    (ha : s.cpu.stack = below s.mainFiber f) (hdead : (s.state f).dead = false)
    (hfits : Fits code root role s.cpu.stack (s.state s.cpu.stack)
      (s.cb s.cpu.stack) pl)
    (hp : pl.point = some (.at p)) :
    let s₁ : FiberThread P S := s.setState f .exec
    Sound code root role ((s₁.setThis f).swapcontext s.cpu.stack f pl)
      ∧ (s.system.co.resume f (.at p)).map (fun co =>
          { s.system with co := co, state := s₁.state })
        = some ((s₁.setThis f).swapcontext s.cpu.stack f pl).system := by
  intro s₁
  have hl : Layout root s₁ :=
    ⟨h.current, h.thread, h.main, h.main_lt, h.stack_lt, h.owner⟩
  have hne : f ≠ s.cpu.stack := ha ▸ (below_ne hf0).symm
  have hstate : ∀ g, s.state g = .exec → s₁.state g = .exec := by
    intro g hg
    show Function.update s.state f .exec g = _
    by_cases hgf : g = f
    · rw [hgf, Function.update_self]
    · rw [Function.update_of_ne hgf, hg]
  have hfits' : ∀ g < s.nextFiber, Fits code root role g (s₁.state g) (s.cb g)
      (Function.update s.place s.cpu.stack pl g) := by
    refine fits_state (fits_place h.fits hfits) ?_
    rw [Function.update_of_ne hne]
    exact (h.fits f hfn).alive hdead rfl
  have hmain : f ≠ 0 → s₁.state (mainOf root) = .exec := by
    intro _
    by_cases hfm : f = mainOf root
    · rw [← hfm]
      exact Function.update_self ..
    · refine hstate _ ?_
      have hstack : s.cpu.stack = mainOf root := by
        rw [ha, h.main, below, if_neg hfm]
      exact hstack ▸ h.running
  obtain ⟨hsound, hsys⟩ := hl.switch hfn hne hfits' (hstate 0 h.zero)
    (Function.update_self ..) hmain
  refine ⟨hsound, ?_⟩
  obtain ⟨rest, hrest⟩ := chainOf_head s.mainFiber s.cpu.stack
  have hout : f ∉ s.system.co.chain := by
    show f ∉ chainOf s.mainFiber s.cpu.stack
    rw [ha]
    exact not_mem_chainOf hf0
  have hpoint : s.system.co.point f ≠ none :=
    (h.fits f hfn).point_ne hdead
  rw [Coroutines.resume_eq hrest hout hpoint, Option.map_some]
  refine congrArg some (Eq.trans ?_ hsys.symm)
  have hchain : chainOf s₁.mainFiber f = f :: s.system.co.chain := by
    show chainOf s.mainFiber f = _
    rw [chainOf_below hf0, ← ha]
    rfl
  rw [hchain, hp]
  rfl

/-- Work between the switches, on other shared data. -/
theorem goto (x : S) (hfits : Fits code root role s.cpu.stack
      (s.state s.cpu.stack) (s.cb s.cpu.stack) pl)
    (hp : pl.point = some (.at p)) :
    Sound code root role ({ s with shared := x }.goto pl)
      ∧ (s.system.co.goto (.at p)).map (fun co =>
          { s.system with co := co, shared := x })
        = some ({ s with shared := x }.goto pl).system := by
  have hplace : ({ s with shared := x }.goto pl).place
      = Function.update s.place s.cpu.stack pl := FiberThread.place_goto s pl
  refine ⟨⟨⟨h.current, h.thread, h.main, h.main_lt, h.stack_lt, h.owner⟩, ?_,
    h.zero, h.running, h.under⟩, ?_⟩
  · rw [hplace]
    exact fits_place h.fits hfits
  · obtain ⟨rest, hrest⟩ := chainOf_head s.mainFiber s.cpu.stack
    rw [Coroutines.goto_eq hrest, Option.map_some]
    unfold FiberThread.system
    rw [hplace, point_update, hp]
    rfl

/-- The code that is in control goes on. -/
theorem goto_next (hpl : s.cpu.place = pl) (hp : pl.point = some (.at p))
    (hp' : role p' = role p) :
    Sound code root role (s.goto (pl.goto p'))
      ∧ (s.system.co.goto (.at p')).map (fun co => { s.system with co := co })
        = some (s.goto (pl.goto p')).system :=
  h.goto s.shared ((hpl ▸ h.stack_fits).goto hp hp') (goto_point hp p')

/-- A fiber that has yielded is on hold. -/
theorem hold (hfn : f < s.nextFiber) (hf0 : f ≠ 0) (hfm : f ≠ mainOf root)
    (hfs : f ≠ s.cpu.stack) (hdead : (s.state f).dead = false) :
    Sound code root role (s.setState f .hold) where
  toLayout := ⟨h.current, h.thread, h.main, h.main_lt, h.stack_lt, h.owner⟩
  fits := fits_state h.fits ((h.fits f hfn).alive hdead rfl)
  zero := (Function.update_of_ne hf0.symm ..).trans h.zero
  running := (Function.update_of_ne hfs.symm ..).trans h.running
  under hs := (Function.update_of_ne hfm.symm ..).trans (h.under hs)

/-- A fiber out of control, new or not, is at the start of `MainFunc`. -/
theorem restart (hf : roleOf root f = .task) (hfs : f ≠ s.cpu.stack)
    (hc : ∀ k, c = some k → role (code.start k) = .task)
    (hle : s.nextFiber ≤ n) (hold : ∀ g < n, g = f ∨ g < s.nextFiber) :
    let s₁ : FiberThread P S := { s with
      state := Function.update s.state f .init
      cb := Function.update s.cb f c
      context := Function.update s.context f ⟨f, .entry false⟩
      nextFiber := n }
    Sound code root role s₁
      ∧ s.system.co.place f .start = some s₁.system.co := by
  intro s₁
  obtain ⟨hfm, hf0⟩ := roleOf_task.mp hf
  have hplace : s₁.place = Function.update s.place f (.entry false) :=
    FiberThread.place_context hfs ⟨f, .entry false⟩
  refine ⟨⟨⟨h.current, h.thread, h.main, Nat.lt_of_lt_of_le h.main_lt hle,
    Nat.lt_of_lt_of_le h.stack_lt hle, ?_⟩, ?_, ?_, ?_, ?_⟩, ?_⟩
  · intro g hg hgs
    show (Function.update s.context f _ g).stack = g
    by_cases hgf : g = f
    · rw [hgf, Function.update_self]
    · rw [Function.update_of_ne hgf]
      exact h.owner g ((hold g hg).resolve_left hgf) hgs
  · intro g hg
    rw [hplace]
    by_cases hgf : g = f
    · subst hgf
      show Fits code root role g (Function.update s.state g _ g)
        (Function.update s.cb g c g) _
      rw [Function.update_self, Function.update_self, Function.update_self]
      refine ⟨hf0, (decide_eq_false hfm).symm, rfl, fun k hk => ?_⟩
      rw [hf]
      exact hc k hk
    · show Fits code root role g (Function.update s.state f _ g)
        (Function.update s.cb f c g) _
      rw [Function.update_of_ne hgf, Function.update_of_ne hgf,
        Function.update_of_ne hgf]
      exact h.fits g ((hold g hg).resolve_left hgf)
  · exact (Function.update_of_ne hf0.symm ..).trans h.zero
  · exact (Function.update_of_ne hfs.symm ..).trans h.running
  · exact fun hs => (Function.update_of_ne hfm.symm ..).trans (h.under hs)
  · have hout : f ∉ s.system.co.chain := by
      intro hmem
      rcases mem_chainOf hmem with hmem | hmem | hmem
      · exact hfs hmem
      · exact hfm (hmem.trans h.main)
      · exact hf0 hmem
    rw [Coroutines.place_eq hout]
    unfold FiberThread.system
    rw [hplace, point_update]
    rfl

/-- The callback has returned or thrown. -/
theorem finish (ha : s.cpu.stack ≠ 0) {useCall : Bool}
    (hcall : useCall = decide (s.cpu.stack = mainOf root)) (returned : Bool) :
    Sound code root role (s.finish useCall s.cpu.stack returned)
      ∧ s.system.finish s.cpu.stack returned
        = some (s.finish useCall s.cpu.stack returned).system := by
  have hback : below s.mainFiber s.cpu.stack
      = if useCall then s.threadFiber else s.mainFiber := by
    rw [hcall, h.main, h.thread, below]
    by_cases hm : s.cpu.stack = mainOf root
    · rw [if_pos hm, if_pos (decide_eq_true hm)]
    · rw [if_neg hm, if_neg (by rwa [decide_eq_true_eq])]
  have hpast : ∀ (st : FiberState) (c : Option Nat), st.dead = true →
      Fits code root role s.cpu.stack st c .past := fun _ _ hst => ⟨ha, hst⟩
  cases returned with
  | true =>
      obtain ⟨hsound, hsys⟩ := h.leave ha (hpast .term none rfl) rfl
      rw [hback] at hsound hsys
      cases useCall <;> exact ⟨hsound, hsys⟩
  | false =>
      obtain ⟨hsound, hsys⟩ := h.leave ha (hpast .except _ rfl)
        (s.setState_eq s.cpu.stack .except)
      rw [hback] at hsound hsys
      cases useCall <;> exact ⟨hsound, hsys⟩

/-- A task yields, with its state as it is or another one. -/
theorem yield (st : FiberState) (hr : roleOf root s.cpu.stack = .task)
    (hst : st.dead = false)
    (hfits : Fits code root role s.cpu.stack (s.state s.cpu.stack)
      (s.cb s.cpu.stack) pl)
    (hp : pl.point = some (.at p)) :
    Sound code root role ((s.setState s.cpu.stack st).swapOut s.cpu.stack pl)
      ∧ (s.system.co.leave (some (.at p))).map (fun co =>
          { s.system with
            co := co, state := Function.update s.state s.cpu.stack st })
        = some ((s.setState s.cpu.stack st).swapOut s.cpu.stack pl).system := by
  obtain ⟨hm, h0⟩ := roleOf_task.mp hr
  have hback : below s.mainFiber s.cpu.stack = s.mainFiber := by
    rw [h.main, below, if_neg hm]
  have hdead : (s.state s.cpu.stack).dead = false := by
    rw [h.running]
    rfl
  have hleave :=
    h.leave h0 (hfits.alive hdead hst) (s.setState_eq s.cpu.stack st)
  rw [hback, hp] at hleave
  exact hleave

/-- A move of the code that is in control. -/
theorem move (hpl : s.cpu.place = pl) (hp : pl.point = some (.at p))
    {m : FiberMove P S} (hm : m.Allowed code root role (role p) s.view) :
    (∃ s', s.move pl m = .ok s' ∧ Sound code root role s'
        ∧ s.system.move s.cpu.stack m = some s'.system)
      ∨ (s.move pl m = .error .ended ∧ s.cpu.stack = 0) := by
  have hfits : Fits code root role s.cpu.stack (s.state s.cpu.stack)
      (s.cb s.cpu.stack) pl := hpl ▸ h.stack_fits
  have hrole : role p = roleOf root s.cpu.stack := hfits.role_eq hp
  cases m with
  | work x p' =>
      obtain ⟨hs, hsys⟩ := h.goto x (hfits.goto hp hm) (goto_point hp p')
      exact .inl ⟨_, rfl, hs, hsys⟩
  | yieldToReady p' =>
      obtain ⟨hr, hp'⟩ := hm
      obtain ⟨hs, hsys⟩ := h.yield .ready (hrole ▸ hr) rfl
        (hfits.goto hp hp') (goto_point hp p')
      refine .inl ⟨_, rfl, ?_⟩
      unfold FiberThread.yieldToReady
      rw [h.current]
      exact ⟨hs, hsys⟩
  | yieldToHold p' =>
      obtain ⟨hr, hp'⟩ := hm
      obtain ⟨hs, hsys⟩ := h.yield .exec (hrole ▸ hr) rfl
        (hfits.goto hp hp') (goto_point hp p')
      have hstate : Function.update s.state s.cpu.stack .exec = s.state := by
        rw [← h.running, Function.update_eq_self]
      have hsame : s.setState s.cpu.stack .exec = s := by
        rw [FiberThread.setState, hstate]
      rw [hsame] at hs hsys
      rw [hstate] at hsys
      refine .inl ⟨s.swapOut s.cpu.stack (pl.goto p'), ?_, hs, hsys⟩
      show s.yieldToHold _ = _
      rw [FiberThread.yieldToHold, h.current, if_pos h.running]
  | swapIn f p' =>
      obtain ⟨hr, hp', st, hv, hexec, hdead⟩ := hm
      obtain ⟨hlt, rfl⟩ := FiberThread.view_eq hv
      have hstack : s.cpu.stack = mainOf root := roleOf_run (hrole ▸ hr)
      have hf0 : f ≠ 0 := fun hf => hexec (hf ▸ h.zero)
      have hfm : f ≠ mainOf root := fun hf =>
        hexec (hf ▸ hstack ▸ h.running)
      have hbelow : s.cpu.stack = below s.mainFiber f := by
        rw [h.main, below, if_neg hfm, hstack]
      obtain ⟨hs, hsys⟩ := h.resume hf0 hlt hbelow hdead (hfits.goto hp hp')
        (goto_point hp p')
      refine .inl ⟨_, ?_, hs, hsys⟩
      show s.swapIn f _ = _
      unfold FiberThread.swapIn
      rw [if_neg hexec, h.main, ← hstack]
      rfl
  | call f p' =>
      obtain ⟨hr, hp', hf, st, hv, hdead⟩ := hm
      obtain ⟨hlt, rfl⟩ := FiberThread.view_eq hv
      obtain ⟨hstack, hmain⟩ := roleOf_thread (hrole ▸ hr)
      have hf0 : f ≠ 0 := hf ▸ hmain
      have hbelow : s.cpu.stack = below s.mainFiber f := by
        rw [h.main, below, if_pos hf, hstack]
      obtain ⟨hs, hsys⟩ := h.resume hf0 hlt hbelow hdead (hfits.goto hp hp')
        (goto_point hp p')
      refine .inl ⟨_, ?_, hs, hsys⟩
      show Except.ok (s.call f _) = _
      unfold FiberThread.call
      rw [h.thread, hstack]
      rfl
  | setState f st p' =>
      obtain ⟨hr, hp', rfl, hf0, hfm, old, hv, hdead⟩ := hm
      obtain ⟨hlt, rfl⟩ := FiberThread.view_eq hv
      have hstack : s.cpu.stack = mainOf root := roleOf_run (hrole ▸ hr)
      have hfs : f ≠ s.cpu.stack := hstack ▸ hfm
      have hhold := h.hold hlt hf0 hfm hfs hdead
      obtain ⟨hs, hsys⟩ := hhold.goto_next hpl hp hp'
      exact .inl ⟨_, rfl, hs, hsys⟩
  | reset f cb p' =>
      obtain ⟨hr, hp', ⟨st, hv, hst⟩, hcb⟩ := hm
      obtain ⟨hlt, rfl⟩ := FiberThread.view_eq hv
      have hstack : s.cpu.stack = mainOf root := roleOf_run (hrole ▸ hr)
      have hexec : s.state f ≠ .exec := by
        intro hf
        rw [hf] at hst
        exact hst.elim nofun nofun
      have hf0 : f ≠ 0 := fun hf => hexec (hf ▸ h.zero)
      have hfs : f ≠ s.cpu.stack := fun hf => hexec (hf ▸ h.running)
      obtain ⟨hs, hsys⟩ := h.restart (c := cb) (n := s.nextFiber)
        (roleOf_task.mpr ⟨hstack ▸ hfs, hf0⟩) hfs hcb (Nat.le_refl _)
        fun g hg => .inr hg
      obtain ⟨hs', hsys'⟩ := hs.goto_next hpl hp hp'
      refine .inl ⟨_, ?_, hs', ?_⟩
      · show (s.reset f cb >>= fun s => pure (s.goto _)) = _
        unfold FiberThread.reset
        rw [h.thread, if_neg hf0, if_pos hst]
        rfl
      · show ((s.system.co.place f .start).bind fun co =>
          co.goto (.at p')).map _ = _
        rw [hsys, Option.bind_some]
        exact hsys'
  | new cb useCall p' =>
      obtain ⟨rfl, hcb, hp'⟩ := hm
      have hfs : s.nextFiber ≠ s.cpu.stack := Nat.ne_of_gt h.stack_lt
      have hrole' : roleOf root s.nextFiber = .task := roleOf_task.mpr
        ⟨Nat.ne_of_gt h.main_lt, Nat.ne_of_gt (Nat.zero_lt_of_lt h.stack_lt)⟩
      obtain ⟨hs, hsys⟩ := h.restart (c := some cb) (n := s.nextFiber + 1)
        hrole' hfs (fun k hk => Option.some.inj hk ▸ hcb) (Nat.le_succ _)
        fun g hg => (Nat.lt_succ_iff_lt_or_eq.mp hg).symm
      obtain ⟨hs', hsys'⟩ := hs.goto_next hpl hp (hp' s.nextFiber)
      refine .inl ⟨_, rfl, hs', ?_⟩
      show ((s.system.co.place s.nextFiber .start).bind fun co =>
        co.goto (.at (p' s.nextFiber))).map _ = _
      rw [hsys, Option.bind_some]
      exact hsys'
  | returns =>
      cases pl <;> cases hp
      · exact .inr ⟨rfl, hfits.1⟩
      · obtain ⟨h0, hcall, -, rfl, -⟩ := hfits
        exact .inl ⟨_, rfl, h.finish h0 hcall true⟩
  | throws =>
      cases pl <;> cases hp
      · exact .inr ⟨rfl, hfits.1⟩
      · obtain ⟨h0, hcall, -, rfl, -⟩ := hfits
        exact .inl ⟨_, rfl, h.finish h0 hcall false⟩

/-- A step of the thread is one of the coroutines, unless the code of the
thread itself is done. No assertion fails. -/
theorem step (hd : Disciplined code root role) :
    (∃ s', s.step code = .ok s' ∧ Sound code root role s'
        ∧ s.system.step code = some s'.system)
      ∨ (s.step code = .error .ended ∧ s.cpu.stack = 0) := by
  have hfits := h.stack_fits
  obtain ⟨rest, hrest⟩ := chainOf_head s.mainFiber s.cpu.stack
  have hpoint : s.system.co.point s.cpu.stack = s.cpu.place.point :=
    congrArg Place.point s.place_stack
  unfold FiberThread.step
  cases hpl : s.cpu.place with
  | thread p =>
      rw [hpl] at hpoint
      rw [FiberSystem.step_at hrest hpoint]
      exact h.move hpl rfl (hd.moves p s.shared s.view)
  | callback useCall cur p =>
      rw [hpl] at hpoint
      rw [FiberSystem.step_at hrest hpoint]
      exact h.move hpl rfl (hd.moves p s.shared s.view)
  | entry useCall =>
      rw [hpl] at hfits hpoint
      obtain ⟨h0, hcall, hdead, hcb⟩ := hfits
      dsimp only
      rw [h.current]
      cases hk : s.cb s.cpu.stack with
      | none =>
          rw [FiberSystem.step_empty hrest hpoint hk]
          exact .inl ⟨_, rfl, h.finish h0 hcall false⟩
      | some k =>
          have hnext : Fits code root role s.cpu.stack (s.state s.cpu.stack)
              (s.cb s.cpu.stack)
              (.callback useCall s.cpu.stack (code.start k)) :=
            ⟨h0, hcall, hdead, rfl, hcb k hk⟩
          obtain ⟨hs, hsys⟩ := h.goto s.shared hnext rfl
          rw [FiberSystem.step_start hrest hpoint hk]
          exact .inl ⟨_, rfl, hs, hsys⟩
  | past =>
      rw [hpl, h.running] at hfits
      exact absurd hfits.2 Bool.false_ne_true

end Sound

-- ======================================================== the scheduler's view

namespace FiberSystem

variable {t t' : FiberSystem P S} {rest : List Nat} {m : FiberMove P S}

/-- A fiber leaves the processor as `Fiber.leave` says, and the others are
as before. -/
theorem fiber_leave {y : Behaviour} (hm : m.behaviour = some y)
    (hchain : t.co.chain = f :: rest) (hp : t.co.point f = some (.at p))
    (hexec : t.state f = .exec) (ht : t.move f m = some t') :
    (t.fiber f).leave y = some (t'.fiber f)
      ∧ ∀ g, g ≠ f → t'.fiber g = t.fiber g := by
  have hgoes : (t.fiber f).finished = false := by
    rw [fiber, hp]
    rfl
  cases m <;> cases hm
  all_goals
    obtain ⟨co, hco, rfl⟩ := Option.map_eq_some_iff.mp ht
    have hpoint := Coroutines.point_leave hchain hco
    unfold Fiber.leave
    rw [hgoes, if_neg Bool.false_ne_true]
    unfold fiber
    dsimp only
    rw [hpoint]
    refine ⟨by simp [hexec, hp], fun g hg => ?_⟩
    simp [Function.update_of_ne hg]

/-- A fiber that is resumed changes as `Fiber.swapIn` says, and the others
are as before. -/
theorem fiber_swapIn {g : Nat} (hchain : t.co.chain = f :: rest)
    (hp : t.co.point f = some (.at p)) (hexec : t.state g ≠ .exec)
    (ht : t.move f (.swapIn g p') = some t') :
    (t.fiber g).swapIn = some (t'.fiber g)
      ∧ ∀ k, k ≠ g → t'.fiber k = t.fiber k := by
  obtain ⟨co, hco, rfl⟩ := Option.map_eq_some_iff.mp ht
  obtain ⟨hpoint, hgf⟩ := Coroutines.point_resume hchain hco
  have hkept : ∀ k, (co.point k).isNone = (t.co.point k).isNone := by
    intro k
    rw [hpoint]
    by_cases hk : k = f
    · rw [hk, Function.update_self, hp]
      rfl
    · rw [Function.update_of_ne hk]
  unfold Fiber.swapIn fiber
  dsimp only
  rw [if_neg hexec, hkept]
  refine ⟨by simp, fun k hk => ?_⟩
  simp [Function.update_of_ne hk, hkept]

end FiberSystem

-- ================================================================== whole runs

/-- A thread makes a step, or others have changed the shared data. -/
def FiberThread.act (code : FiberCode P S) (s : FiberThread P S) :
    Option S → Except FiberFault (FiberThread P S)
  | some x => .ok { s with shared := x }
  | none => s.step code

def FiberSystem.act (code : FiberCode P S) (s : FiberSystem P S) :
    Option S → Option (FiberSystem P S)
  | some x => some { s with shared := x }
  | none => s.step code

theorem system_init (root : Option Nat) (p : P) (x : S) :
    (FiberThread.init root p x).system = FiberSystem.init root p x := by
  have hplace : (FiberThread.init none p x).place
      = Function.update (fun _ => .past) 0 (.thread p) := by
    funext f
    unfold FiberThread.place FiberThread.init
    dsimp only
    by_cases hf : f = 0
    · rw [if_pos hf, hf, Function.update_self]
    · rw [if_neg hf, Function.update_of_ne hf]
  cases root with
  | none =>
      unfold FiberThread.system
      rw [hplace, point_update]
      rfl
  | some c =>
      have hroot : (FiberThread.init (some c) p x).place
          = Function.update (Function.update (fun _ => .past) 0 (.thread p)) 1
            (.entry true) := by
        rw [← hplace]
        exact FiberThread.place_context (s := FiberThread.init none p x)
          Nat.one_ne_zero ⟨1, .entry true⟩
      unfold FiberThread.system
      rw [hroot, point_update, point_update]
      rfl

theorem sound_init (hd : Disciplined code root role) {p : P}
    (hp : role p = roleOf root 0) (x : S) :
    Sound code root role (FiberThread.init root p x) := by
  cases root with
  | none =>
      refine ⟨⟨rfl, rfl, rfl, Nat.one_pos, Nat.one_pos, ?_⟩, ?_, rfl, rfl, ?_⟩
      · exact fun f _ _ => rfl
      · intro f hf
        cases Nat.lt_one_iff.mp hf
        exact ⟨rfl, hp⟩
      · exact fun h => absurd rfl h
  | some c =>
      refine ⟨⟨rfl, rfl, rfl, Nat.one_lt_two, Nat.two_pos, ?_⟩, ?_, rfl, rfl,
        ?_⟩
      · intro f hf hf0
        cases f with
        | zero => exact absurd rfl hf0
        | succ f =>
            cases Nat.lt_one_iff.mp (Nat.lt_of_succ_lt_succ hf)
            rfl
      · intro f hf
        cases f with
        | zero => exact ⟨rfl, hp⟩
        | succ f =>
            cases Nat.lt_one_iff.mp (Nat.lt_of_succ_lt_succ hf)
            refine ⟨Nat.one_ne_zero, rfl, rfl, fun k hk => ?_⟩
            cases hk
            exact hd.root c rfl
      · exact fun h => absurd rfl h

theorem act_sound (h : Sound code root role s) (hd : Disciplined code root role)
    (i : Option S) :
    (∃ s', s.act code i = .ok s' ∧ Sound code root role s'
        ∧ s.system.act code i = some s'.system)
      ∨ s.act code i = .error .ended := by
  cases i with
  | none => exact (h.step hd).imp_right And.left
  | some x =>
      exact .inl ⟨_, rfl, ⟨⟨h.current, h.thread, h.main, h.main_lt, h.stack_lt,
        h.owner⟩, h.fits, h.zero, h.running, h.under⟩, rfl⟩

theorem run_sound (hd : Disciplined code root role) (acts : List (Option S)) :
    ∀ {s : FiberThread P S}, Sound code root role s →
      (∃ s', acts.foldlM (FiberThread.act code) s = .ok s'
          ∧ Sound code root role s'
          ∧ acts.foldlM (FiberSystem.act code) s.system = some s'.system)
        ∨ acts.foldlM (FiberThread.act code) s = .error .ended := by
  induction acts with
  | nil => exact fun h => .inl ⟨_, rfl, h, rfl⟩
  | cons i acts ih =>
      intro s h
      rw [List.foldlM_cons, List.foldlM_cons]
      rcases act_sound h hd i with ⟨t, ht, hs, hsys⟩ | hended
      · rw [ht, hsys]
        exact ih hs
      · rw [hended]
        exact .inr rfl

/-- Whatever the code does that keeps to the discipline, and whatever other
threads do to the shared data, no assertion fails, `t_fiber` is the fiber
in execution, and the run of the thread, up to the end of its own code, is
one of the system of coroutines. -/
theorem fibers_are_coroutines (hd : Disciplined code root role) {p : P}
    (hp : role p = roleOf root 0) (x : S) (acts : List (Option S)) :
    (∃ s, acts.foldlM (FiberThread.act code) (FiberThread.init root p x) = .ok s
        ∧ s.current = s.cpu.stack
        ∧ acts.foldlM (FiberSystem.act code) (FiberSystem.init root p x)
          = some s.system)
      ∨ acts.foldlM (FiberThread.act code) (FiberThread.init root p x)
        = .error .ended := by
  rw [← system_init]
  rcases run_sound hd acts (sound_init hd hp x) with
    ⟨s, hrun, hs, hsys⟩ | hended
  · exact .inl ⟨s, hrun, hs.current, hsys⟩
  · exact .inr hended

/-- The fibers that the model of the scheduler works with are these: in
every run, a step that leaves the processor does to the fiber what
`Fiber.leave` says, one that resumes a fiber what `Fiber.swapIn` says, and
neither changes the state or the callback of another fiber, or whether it
has ended. -/
theorem fibers_seen_by_scheduler (hd : Disciplined code root role) {p : P}
    (hp : role p = roleOf root 0) {x : S} {acts : List (Option S)}
    {s s' : FiberThread P S}
    (hrun : acts.foldlM (FiberThread.act code) (FiberThread.init root p x)
      = .ok s)
    (hstep : s.step code = .ok s') {q : P}
    (hq : s.cpu.place.point = some (.at q)) :
    (∀ y, (code.next q s.shared s.view).behaviour = some y →
        (s.system.fiber s.current).leave y = some (s'.system.fiber s.current)
          ∧ ∀ g, g ≠ s.current → s'.system.fiber g = s.system.fiber g)
      ∧ ∀ g q', code.next q s.shared s.view = .swapIn g q' →
        (s.system.fiber g).swapIn = some (s'.system.fiber g)
          ∧ ∀ k, k ≠ g → s'.system.fiber k = s.system.fiber k := by
  have h : Sound code root role s := by
    rcases run_sound hd acts (sound_init hd hp x) with ⟨t, ht, hs, -⟩ | hended
    · cases hrun.symm.trans ht
      exact hs
    · cases hrun.symm.trans hended
  obtain ⟨rest, hchain⟩ := chainOf_head s.mainFiber s.cpu.stack
  have hpoint : s.system.co.point s.cpu.stack = some (.at q) :=
    (congrArg Place.point s.place_stack).trans hq
  have hmove : s.system.move s.cpu.stack (code.next q s.shared s.view)
      = some s'.system := by
    rcases h.step hd with ⟨t, ht, -, hsys⟩ | ⟨hended, -⟩
    · cases hstep.symm.trans ht
      rw [FiberSystem.step_at hchain hpoint] at hsys
      exact hsys
    · cases hstep.symm.trans hended
  rw [h.current]
  refine ⟨fun y hy => FiberSystem.fiber_leave hy hchain hpoint h.running hmove,
    ?_⟩
  intro g q' hm
  have hallowed := hd.moves q s.shared s.view
  rw [hm] at hallowed hmove
  obtain ⟨-, -, st, hv, hexec, -⟩ := hallowed
  obtain ⟨-, rfl⟩ := FiberThread.view_eq hv
  exact FiberSystem.fiber_swapIn hchain hpoint hexec hmove

-- ==================================================================== a case

/-- Places in a loop like that of `Scheduler::run`, for one fiber, and in a
task that yields once. -/
inductive LoopPlace
  | make
  | look (f : Nat)
  | settle (f : Nat)
  | task
  | rest

def LoopPlace.whose : LoopPlace → FiberRole
  | .make | .look _ | .settle _ => .run
  | .task | .rest => .task

/-- The loop resumes the fiber until it is dead. -/
def loopCode : FiberCode LoopPlace Unit where
  start _ := .task
  next p _ view :=
    match p with
    | .make => .new 0 false .look
    | .look f =>
        match view f with
        | some st =>
            if st ≠ .exec ∧ st.dead = false then .swapIn f (.settle f)
            else .returns
        | none => .returns
    | .settle f =>
        match view f with
        | some st =>
            if f ≠ 0 ∧ st.dead = false then .setState f .hold (.look f)
            else .returns
        | none => .returns
    | .task => .yieldToHold .rest
    | .rest => .returns

theorem loopCode_disciplined : Disciplined loopCode none LoopPlace.whose where
  root _ hc := nomatch hc
  moves p x view := by
    cases p with
    | make => exact ⟨rfl, rfl, fun _ => rfl⟩
    | look f =>
        unfold loopCode
        dsimp only
        cases hv : view f with
        | none => trivial
        | some st =>
            dsimp only
            split
            next hst => exact ⟨rfl, rfl, st, hv, hst⟩
            next => trivial
    | settle f =>
        unfold loopCode
        dsimp only
        cases hv : view f with
        | none => trivial
        | some st =>
            dsimp only
            split
            next hst => exact ⟨rfl, rfl, rfl, hst.1, hst.1, st, hv, hst.2⟩
            next => trivial
    | task => exact ⟨rfl, rfl⟩
    | rest => trivial

/-- The task is made, resumed, put on hold and resumed to its end. -/
theorem fibers_are_coroutines_loop :
    ∃ s, (List.replicate 7 none).foldlM (FiberThread.act loopCode)
        (FiberThread.init none .make ()) = .ok s
      ∧ s.current = s.cpu.stack
      ∧ (List.replicate 7 none).foldlM (FiberSystem.act loopCode)
          (FiberSystem.init none .make ()) = some s.system := by
  rcases fibers_are_coroutines loopCode_disciplined (p := .make) rfl ()
    (List.replicate 7 none) with h | h
  · exact h
  · have hok : ((List.replicate 7 none).foldlM (FiberThread.act loopCode)
        (FiberThread.init none .make ())).toBool = true := by
      decide
    rw [h] at hok
    cases hok

private theorem ok_of_toOption {ε α : Type} {x : Except ε α} {y : α}
    (h : x.toOption = some y) : x = .ok y := by
  cases x with
  | error e => cases h
  | ok z => rw [Option.some.inj h]

/-- The task yields: its fiber leaves as `YieldToHold` has it. -/
theorem fibers_seen_by_scheduler_loop :
    ∃ s s' : FiberThread LoopPlace Unit,
      s.step loopCode = .ok s' ∧ s.current = 1
      ∧ (s.system.fiber 1).leave .yieldHold = some (s'.system.fiber 1)
      ∧ s'.system.fiber 0 = s.system.fiber 0 := by
  have hobs : (((List.replicate 3 none).foldlM (FiberThread.act loopCode)
      (FiberThread.init none .make ())).toOption.map fun s =>
        (s.current, s.cpu.place.point, (s.step loopCode).toOption.isSome))
          = some (1, some (.at .task), true) := by
    rfl
  obtain ⟨s, hs, hv⟩ := Option.map_eq_some_iff.mp hobs
  simp only [Prod.mk.injEq] at hv
  obtain ⟨hcurrent, hpoint, hsome⟩ := hv
  obtain ⟨s', hs'⟩ := Option.isSome_iff_exists.mp hsome
  have hall := (fibers_seen_by_scheduler loopCode_disciplined (p := .make) rfl
    (ok_of_toOption hs) (ok_of_toOption hs') hpoint).1 .yieldHold rfl
  rw [hcurrent] at hall
  exact ⟨s, s', ok_of_toOption hs', hcurrent, hall.1, hall.2 0 Nat.zero_ne_one⟩

end TinyServer
