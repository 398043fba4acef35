/-
What `HttpConnectionPool` knows of its connections: every connection that
was created is in one place, and `m_total` counts those not deleted.

`PoolStep` says once what each step does. The invariant `Accounted` is a
count: over `m_conns`, the references, the calls in progress and the
deleted ones, every connection created so far occurs once.
-/
import TinyServer.Lib.Run
import TinyServer.Pool.Basic

namespace TinyServer

namespace HttpConnectionPool

variable {s s' : HttpConnectionPool} {a : PoolAct} {c d i : Nat} {pc : PoolPc}

-- =============================================================== what steps do

/-- The steps, with what they find. -/
inductive PoolStep (s : HttpConnectionPool) :
    PoolAct → HttpConnectionPool → Prop
  | tick {now : Nat} (h : s.clock ≤ now) :
      PoolStep s (.tick now) { s with clock := now }
  | enter :
      PoolStep s .getConnection (s.call (.entered s.clock))
  | take {i ms : Nat} {f : Nat → Bool} {invalid rest : List Nat}
      {ptr : Option Nat} (hi : s.calls[i]? = some (.entered ms))
      (hpop : popFront s.heap ms f s.conns = (invalid, ptr, rest)) :
      PoolStep s (.take i f)
        ((s.setCall i (.taken invalid ptr)).setConns rest)
  | missed {i : Nat} {invalid : List Nat}
      (hi : s.calls[i]? = some (.taken invalid none)) :
      PoolStep s (.dispose i) ((s.setCall i .connecting).deleteAll invalid)
  | reused {i c : Nat} {invalid : List Nat}
      (hi : s.calls[i]? = some (.taken invalid (some c))) :
      PoolStep s (.dispose i)
        (((s.setCall i .done).deleteAll invalid).handOut c)
  | failed {i : Nat} {dial : Dial} (hi : s.calls[i]? = some .connecting)
      (hd : dial ≠ .connected) :
      PoolStep s (.connect i dial) (s.setCall i .done)
  | connected {i : Nat} (hi : s.calls[i]? = some .connecting) :
      PoolStep s (.connect i .connected)
        ((s.setCall i .done).create.handOut s.created)
  | dropped {c : Nat} {b : Bool} (hc : c ∈ s.held)
      (hx : s.expired (s.heap c).used b = true) :
      PoolStep s (.releasePtr c b) ((s.unhold c b false).deleteAll [c])
  | returned {c : Nat} {b : Bool} (hc : c ∈ s.held)
      (hx : s.expired (s.heap c).used b = false) :
      PoolStep s (.releasePtr c b) ((s.unhold c b true).call (.releasing c))
  | pushed {i c : Nat} (hi : s.calls[i]? = some (.releasing c)) :
      PoolStep s (.pushBack i)
        ((s.setCall i .done).setConns (s.conns ++ [c]))

/-- The cases of a step are all there are. -/
theorem step_inv (h : s.step a = some s') : PoolStep s a s' := by
  cases a with
  | tick now =>
      simp only [step] at h
      split at h
      next hle =>
          cases h
          exact .tick hle
      next => cases h
  | getConnection =>
      cases h
      exact .enter
  | take i f =>
      simp only [step] at h
      split at h
      next hi =>
          cases h
          exact .take hi rfl
      next => cases h
  | dispose i =>
      simp only [step] at h
      split at h
      next hi =>
          cases h
          exact .missed hi
      next hi =>
          cases h
          exact .reused hi
      next => cases h
  | connect i dial =>
      simp only [step] at h
      split at h
      next hi =>
          split at h
          next hd =>
              subst hd
              cases h
              exact .connected hi
          next hd =>
              cases h
              exact .failed hi hd
      next => cases h
  | releasePtr c b =>
      simp only [step] at h
      split at h
      next hc =>
          cases h
          unfold HttpConnectionPool.releasePtr
          split
          next hx => exact .dropped hc hx
          next hx => exact .returned hc (Bool.eq_false_iff.mpr hx)
      next => cases h
  | pushBack i =>
      simp only [step] at h
      split at h
      next hi =>
          cases h
          exact .pushed hi
      next => cases h

/-- What the loop over `m_conns` takes out, and what it leaves. -/
theorem popFront_count {heap : Nat → PoolConn} {ms : Nat} {f : Nat → Bool}
    (conns : List Nat) :
    ∀ {invalid rest : List Nat} {ptr : Option Nat},
      popFront heap ms f conns = (invalid, ptr, rest) →
      (invalid ++ ptr.toList).count c + rest.count c = conns.count c := by
  induction conns with
  | nil =>
      intro invalid rest ptr h
      cases h
      rfl
  | cons b conns ih =>
      intro invalid rest ptr h
      obtain ⟨invalid', ptr', rest', hpop⟩ : ∃ invalid' ptr' rest',
          popFront heap ms f conns = (invalid', ptr', rest') := ⟨_, _, _, rfl⟩
      have hrec := ih hpop
      simp only [popFront, hpop] at h
      split at h
      next =>
          cases h
          rw [List.cons_append, List.count_cons, List.count_cons]
          omega
      next =>
          split at h
          next =>
              cases h
              rw [List.cons_append, List.count_cons, List.count_cons]
              omega
          next =>
              cases h
              simp only [List.nil_append, Option.toList_some, List.count_cons,
                List.count_nil]
              omega

-- ================================================================= the places

/-- How often a connection occurs in `m_conns`, among the references, in
the hands of the calls and among the deleted ones. -/
def places (s : HttpConnectionPool) (c : Nat) : Nat :=
  s.conns.count c + s.held.count c + s.inHand.count c + s.deleted.count c

/-- What a call has in hand after it has moved on. -/
theorem inHand_setCall (hi : s.calls[i]? = some pc) (pc' : PoolPc) (c : Nat) :
    (s.setCall i pc').inHand.count c + pc.objects.count c
      = s.inHand.count c + pc'.objects.count c := by
  obtain ⟨hlt, hget⟩ := List.getElem?_eq_some_iff.mp hi
  obtain ⟨pre, post, hcalls, -, hset⟩ :
      ∃ pre post, s.calls = pre ++ s.calls[i] :: post ∧ pre.length = i ∧
        s.calls.set i pc' = pre ++ pc' :: post := List.exists_of_set hlt
  rw [hget] at hcalls
  unfold inHand setCall
  rw [hset, hcalls]
  simp only [List.flatMap_append, List.flatMap_cons, List.count_append]
  omega

/-- A thread that goes on lets go of what it had. -/
theorem places_setCall (hi : s.calls[i]? = some pc) (pc' : PoolPc) (c : Nat) :
    (s.setCall i pc').places c + pc.objects.count c
      = s.places c + pc'.objects.count c := by
  have hcount := inHand_setCall hi pc' c
  show s.conns.count c + s.held.count c + _ + s.deleted.count c + _ = _
  unfold places
  omega

/-- What is deleted has one place more. -/
theorem places_deleteAll (s : HttpConnectionPool) (cs : List Nat) (c : Nat) :
    (s.deleteAll cs).places c = s.places c + cs.count c := by
  show _ + _ + _ + (s.deleted ++ cs).count c = _
  rw [List.count_append, ← Nat.add_assoc]
  rfl

/-- And so has what is handed out. -/
theorem places_handOut (s : HttpConnectionPool) (b c : Nat) :
    (s.handOut b).places c = s.places c + [b].count c := by
  show s.conns.count c + (s.held ++ [b]).count c + s.inHand.count c
    + s.deleted.count c = _
  unfold places
  rw [List.count_append]
  omega

/-- A call that begins has nothing in hand, or what it was called with. -/
theorem places_call (s : HttpConnectionPool) (pc : PoolPc) (c : Nat) :
    (s.call pc).places c = s.places c + pc.objects.count c := by
  show s.conns.count c + s.held.count c
    + ((s.calls ++ [pc]).flatMap PoolPc.objects).count c
    + s.deleted.count c = _
  rw [List.flatMap_append, List.count_append, List.flatMap_singleton]
  unfold places inHand
  omega

/-- The list changes by what comes and goes. -/
theorem places_conns (s : HttpConnectionPool) (conns : List Nat) (c : Nat) :
    (s.setConns conns).places c + s.conns.count c
      = s.places c + conns.count c := by
  show conns.count c + s.held.count c + s.inHand.count c
    + s.deleted.count c + _ = _
  unfold places
  omega

/-- A reference that goes leaves its connection in one place less. -/
theorem places_unhold (hd : d ∈ s.held) (b kept : Bool) (c : Nat) :
    (s.unhold d b kept).places c + [d].count c = s.places c := by
  have hpos := List.count_pos_iff.mpr hd
  show s.conns.count c + (s.held.erase d).count c + s.inHand.count c
    + s.deleted.count c + _ = _
  unfold places
  rw [List.count_erase, List.count_cons, List.count_nil]
  by_cases hdc : d = c
  · subst hdc
    simp only [BEq.rfl, if_true]
    omega
  · simp only [beq_iff_eq, hdc, if_false, Nat.sub_zero]
    omega

-- ============================================================== the invariant

/-- Every connection created so far is in one place, once. -/
def Placed (s : HttpConnectionPool) : Prop :=
  ∀ c, s.places c = if c < s.created then 1 else 0

/-- A new pool has no connections. -/
theorem placed_new (maxSize maxAliveTime maxRequest now : Nat) :
    (new maxSize maxAliveTime maxRequest now).Placed :=
  fun c => (if_neg (Nat.not_lt_zero c)).symm

/-- A step keeps every connection in one place. -/
theorem Placed.step (h : s.Placed) (hs : PoolStep s a s') : s'.Placed := by
  intro c
  have hc := h c
  cases hs with
  | tick _ => exact hc
  | enter => exact (places_call s _ c).trans hc
  | take hi hpop =>
      rename_i i ms f invalid rest ptr
      have hpc := places_setCall hi (.taken invalid ptr) c
      have hconns := places_conns (s.setCall i (.taken invalid ptr)) rest c
      have hcount : (invalid ++ ptr.toList).count c + rest.count c
          = s.conns.count c := popFront_count _ hpop
      simp only [PoolPc.objects, List.count_nil] at hpc
      change _ + s.conns.count c = _ at hconns
      show _ = if c < s.created then 1 else 0
      omega
  | missed hi =>
      have hpc := places_setCall hi .connecting c
      simp only [PoolPc.objects, Option.toList_none, List.append_nil,
        List.count_nil] at hpc
      rw [places_deleteAll]
      show _ = if c < s.created then 1 else 0
      omega
  | reused hi =>
      have hpc := places_setCall hi .done c
      simp only [PoolPc.objects, Option.toList_some, List.count_append,
        List.count_nil] at hpc
      rw [places_handOut, places_deleteAll]
      show _ = if c < s.created then 1 else 0
      omega
  | failed hi _ =>
      have hpc := places_setCall hi .done c
      exact hpc.trans hc
  | connected hi =>
      have hpc := places_setCall hi .done c
      simp only [PoolPc.objects, List.count_nil] at hpc
      rw [places_handOut, List.count_cons, List.count_nil]
      change (setCall s _ _).places c = s.places c at hpc
      show (setCall s _ _).places c + _ = if c < s.created + 1 then 1 else 0
      rw [hpc, hc]
      simp only [beq_iff_eq]
      split <;> split <;> split <;> omega
  | dropped hheld _ =>
      rw [places_deleteAll]
      exact (places_unhold hheld _ _ c).trans hc
  | returned hheld _ =>
      rw [places_call]
      exact (places_unhold hheld _ _ c).trans hc
  | pushed hi =>
      rename_i i b
      have hpc := places_setCall hi .done c
      have hconns := places_conns (s.setCall i .done) (s.conns ++ [b]) c
      simp only [PoolPc.objects, List.count_nil] at hpc
      change _ + s.conns.count c = _ at hconns
      rw [List.count_append] at hconns
      show _ = if c < s.created then 1 else 0
      omega

/-- Nothing is deleted twice. -/
theorem Placed.deleted_nodup (h : s.Placed) : s.deleted.Nodup := by
  rw [List.nodup_iff_count]
  intro c
  have hc := h c
  unfold places at hc
  split at hc <;> omega

/-- And nothing that was not made. -/
theorem Placed.deleted_lt (h : s.Placed) (hc : c ∈ s.deleted) :
    c < s.created := by
  have hcount := List.count_pos_iff.mpr hc
  have hc := h c
  unfold places at hc
  split at hc
  next hlt => exact hlt
  next => omega

/-- The live connections were made and not deleted. -/
theorem mem_live : c ∈ s.live ↔ c < s.created ∧ c ∉ s.deleted := by
  unfold live
  rw [List.mem_filter, List.mem_range, decide_eq_true_eq]

/-- The connections that are not deleted, and those that are. -/
theorem Placed.length_live (h : s.Placed) :
    s.live.length + s.deleted.length = s.created := by
  have hperm : ((List.range s.created).filter (· ∈ s.deleted)).Perm
      s.deleted := by
    refine (List.perm_ext_iff_of_nodup (List.nodup_range.filter _)
      h.deleted_nodup).mpr fun c => ?_
    rw [List.mem_filter, List.mem_range, decide_eq_true_eq]
    exact ⟨fun hc => hc.2, fun hc => ⟨h.deleted_lt hc, hc⟩⟩
  have hsplit := List.length_eq_length_filter_add (l := List.range s.created)
    (fun c => decide (c ∉ s.deleted))
  simp only [decide_not, Bool.not_not] at hsplit
  unfold live
  simp only [decide_not]
  rw [← hperm.length_eq, ← hsplit, List.length_range]

/-- Every connection is in one place, and `m_total` counts those that are
not deleted. -/
structure Accounted (s : HttpConnectionPool) : Prop where
  placed : s.Placed
  total : s.total = UInt32.ofNat s.live.length

/-- In a new pool the count is 0. -/
theorem accounted_new (maxSize maxAliveTime maxRequest now : Nat) :
    (new maxSize maxAliveTime maxRequest now).Accounted :=
  ⟨placed_new maxSize maxAliveTime maxRequest now, rfl⟩

/-- `m_total` after `cs` were deleted and `n` were created. -/
private theorem Accounted.total_step (h : s.Accounted) (h' : s'.Placed)
    {cs : List Nat} {n : Nat} (hcreated : s'.created = s.created + n)
    (hdeleted : s'.deleted = s.deleted ++ cs)
    (htotal : s'.total + UInt32.ofNat cs.length = s.total + UInt32.ofNat n) :
    s'.Accounted := by
  refine ⟨h', ?_⟩
  have hlive := h.placed.length_live
  have hlive' := h'.length_live
  rw [hcreated, hdeleted, List.length_append] at hlive'
  have hcount : s'.live.length + cs.length = s.live.length + n := by omega
  rw [← UInt32.add_left_inj (UInt32.ofNat cs.length), htotal, h.total,
    ← UInt32.ofNat_add, ← UInt32.ofNat_add, hcount]

/-- A step keeps the account. -/
theorem Accounted.step (h : s.Accounted) (hs : s.step a = some s') :
    s'.Accounted := by
  have hstep := step_inv hs
  have hplaced := h.placed.step hstep
  cases hstep with
  | missed hi =>
      refine h.total_step hplaced (Nat.add_zero s.created).symm rfl ?_
      show s.total - _ + _ = s.total + 0
      rw [UInt32.sub_add_cancel, UInt32.add_zero]
  | reused hi =>
      refine h.total_step hplaced (Nat.add_zero s.created).symm rfl ?_
      show s.total - _ + _ = s.total + 0
      rw [UInt32.sub_add_cancel, UInt32.add_zero]
  | connected hi =>
      refine h.total_step hplaced rfl (List.append_nil _).symm ?_
      show s.total + 1 + 0 = s.total + 1
      rw [UInt32.add_zero]
  | dropped hheld _ =>
      refine h.total_step hplaced (Nat.add_zero s.created).symm rfl ?_
      show s.total - _ + _ = s.total + 0
      rw [UInt32.sub_add_cancel, UInt32.add_zero]
  | _ => exact ⟨hplaced, h.total⟩

-- ================================================================= accounting

/-- In every state that any interleaving of calls reaches, `m_total` is
the number of connections created and not yet deleted; each of these is
once in `m_conns`, or held by one reference, or in the hands of one call
in progress, and only one of these; when no call is in progress, in
`m_conns` or held; and no connection was deleted twice. -/
theorem connections_accounted {maxSize maxAliveTime maxRequest now : Nat}
    {acts : List PoolAct}
    (hrun : acts.foldlM HttpConnectionPool.step
      (new maxSize maxAliveTime maxRequest now) = some s) :
    s.total = UInt32.ofNat s.live.length
      ∧ (∀ c ∈ s.live,
          s.conns.count c + s.held.count c + s.inHand.count c = 1)
      ∧ (s.inHand = [] → ∀ c ∈ s.live,
          (s.conns.count c = 1 ∧ c ∉ s.held)
            ∨ (s.held.count c = 1 ∧ c ∉ s.conns))
      ∧ (∀ c, c ∈ s.conns ∨ c ∈ s.held ∨ c ∈ s.inHand → c ∈ s.live)
      ∧ s.deleted.Nodup := by
  have h : s.Accounted :=
    Lib.run_inv Accounted.step acts
      (accounted_new maxSize maxAliveTime maxRequest now) hrun
  have honce : ∀ c ∈ s.live,
      s.conns.count c + s.held.count c + s.inHand.count c = 1 := by
    intro c hc
    obtain ⟨hlt, hno⟩ := mem_live.mp hc
    have hplace := h.placed c
    rw [if_pos hlt, places, List.count_eq_zero.mpr hno] at hplace
    exact hplace
  refine ⟨h.total, honce, ?_, ?_, h.placed.deleted_nodup⟩
  · intro hidle c hc
    have hone := honce c hc
    rw [hidle, List.count_nil, Nat.add_zero] at hone
    rcases Nat.eq_zero_or_pos (s.conns.count c) with hzero | hpos
    · exact .inr ⟨by omega, List.count_eq_zero.mp hzero⟩
    · exact .inl ⟨by omega, List.count_eq_zero.mp (by omega)⟩
  · intro c hc
    have hplace := h.placed c
    have hpos : 0 < s.conns.count c + s.held.count c + s.inHand.count c := by
      rcases hc with hc | hc | hc
      all_goals
        have hpos := List.count_pos_iff.mpr hc
        omega
    unfold places at hplace
    split at hplace
    next hlt => exact mem_live.mpr ⟨hlt, List.count_eq_zero.mp (by omega)⟩
    next => omega

/-- Two connections; the one is found dead when it is to be reused, and
the other one is released again. -/
def deadConnRun : List PoolAct :=
  [.getConnection, .take 0 fun _ => true, .dispose 0, .connect 0 .connected,
    .getConnection, .take 1 fun _ => true, .dispose 1, .connect 1 .connected,
    .tick 50000, .releasePtr 0 true, .pushBack 2, .releasePtr 1 true,
    .pushBack 3, .getConnection, .take 4 fun c => c = 1, .dispose 4,
    .releasePtr 1 true, .pushBack 5]

theorem connections_accounted_dead_conn :
    ∃ s, deadConnRun.foldlM HttpConnectionPool.step (new 10 3000 5 1) = some s
      ∧ s.created = 2 ∧ s.deleted = [0]
      ∧ s.total = UInt32.ofNat s.live.length := by
  have hobs : (deadConnRun.foldlM HttpConnectionPool.step
      (new 10 3000 5 1)).map (fun s => (s.created, s.deleted))
      = some (2, [0]) := by
    decide
  obtain ⟨s, hs, hv⟩ := Option.map_eq_some_iff.mp hobs
  obtain ⟨hcreated, hdeleted⟩ := Prod.mk.injEq .. ▸ hv
  exact ⟨s, hs, hcreated, hdeleted, (connections_accounted hs).1⟩

end HttpConnectionPool

end TinyServer
