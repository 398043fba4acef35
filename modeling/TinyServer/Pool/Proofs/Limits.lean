/-
The limits of `HttpConnectionPool`: how often a connection is handed out,
and how many there are.

`ReleasePtr` compares `m_request` with `m_maxRequest` after it has counted
the use that ends, and keeps a connection that has reached the limit; the
next `getConnection` hands it out once more. `m_maxSize` is not compared
with anything.
-/
import TinyServer.Pool.Proofs.Accounting

namespace TinyServer

namespace HttpConnectionPool

variable {s s' : HttpConnectionPool} {a : PoolAct} {c i : Nat}

-- ================================================================== the tally

@[simp] theorem setConn_heap_self (k : PoolConn) :
    (s.setConn c k).heap c = k :=
  if_pos rfl

/-- The other connections stay. -/
theorem setConn_heap_ne {d : Nat} (h : d ≠ c) (k : PoolConn) :
    (s.setConn c k).heap d = s.heap d :=
  if_neg h

/-- A connection was handed out once for every release, and once more
while it is held. -/
def Tallied (s : HttpConnectionPool) : Prop :=
  ∀ c < s.created, (s.heap c).handed = (s.heap c).request + s.held.count c

/-- A connection in hand is neither held nor deleted. -/
theorem Placed.of_inHand (h : s.Placed) (hc : c ∈ s.inHand) :
    c < s.created ∧ s.held.count c = 0 ∧ c ∉ s.deleted := by
  have hpos := List.count_pos_iff.mpr hc
  have hplace := h c
  unfold places at hplace
  split at hplace
  next hlt =>
      exact ⟨hlt, by omega, List.count_eq_zero.mp (by omega)⟩
  next => omega

/-- The connection that `getConnection` has taken. -/
theorem ptr_inHand {invalid : List Nat}
    (hi : s.calls[i]? = some (.taken invalid (some c))) : c ∈ s.inHand := by
  refine List.mem_flatMap.mpr ⟨_, List.mem_of_getElem? hi, ?_⟩
  exact List.mem_append_right _ (List.mem_singleton.mpr rfl)

/-- Handing out a connection holds it. -/
theorem Tallied.handOut (h : s.Tallied) (c : Nat) : (s.handOut c).Tallied := by
  intro d hd
  have hd := h d hd
  show (HttpConnectionPool.heap (setConn s c _) d).handed
    = (HttpConnectionPool.heap (setConn s c _) d).request
      + (s.held ++ [c]).count d
  rw [List.count_append, List.count_cons, List.count_nil]
  by_cases hdc : d = c
  · subst hdc
    rw [setConn_heap_self]
    simp only [BEq.rfl, if_true]
    omega
  · rw [setConn_heap_ne hdc]
    simp only [beq_iff_eq, Ne.symm hdc, if_false]
    omega

/-- Giving it back is its release. -/
theorem Tallied.unhold (h : s.Tallied) (hc : c ∈ s.held) (b kept : Bool) :
    (s.unhold c b kept).Tallied := by
  intro d hd
  have hd := h d hd
  have hpos := List.count_pos_iff.mpr hc
  show (HttpConnectionPool.heap (setConn s c _) d).handed
    = (HttpConnectionPool.heap (setConn s c _) d).request
      + (s.held.erase c).count d
  rw [List.count_erase]
  by_cases hdc : d = c
  · subst hdc
    rw [setConn_heap_self]
    simp only [PoolConn.used, BEq.rfl, if_true]
    omega
  · rw [setConn_heap_ne hdc]
    simp only [beq_iff_eq, Ne.symm hdc, if_false, Nat.sub_zero]
    exact hd

/-- A new connection has neither. -/
theorem Tallied.create (h : s.Tallied) (hp : s.Placed) : s.create.Tallied := by
  intro d hd
  show (HttpConnectionPool.heap (setConn s s.created _) d).handed
    = (HttpConnectionPool.heap (setConn s s.created _) d).request
      + s.held.count d
  by_cases hdc : d = s.created
  · subst hdc
    have hplace := hp s.created
    rw [if_neg (Nat.lt_irrefl _), places] at hplace
    rw [setConn_heap_self]
    simp only [PoolConn.new]
    omega
  · rw [setConn_heap_ne hdc]
    exact h d (Nat.lt_of_le_of_ne (Nat.le_of_lt_succ hd) hdc)

/-- Every step keeps the count. -/
theorem Tallied.step (hp : s.Placed) (h : s.Tallied) (hs : PoolStep s a s') :
    s'.Tallied := by
  cases hs with
  | reused hi => exact Tallied.handOut (s := (setCall s _ _).deleteAll _) h _
  | connected hi =>
      have hcreate : s.create.Tallied := h.create hp
      exact Tallied.handOut (s := (setCall s _ _).create) hcreate _
  | dropped hheld hx =>
      rename_i c b
      exact h.unhold hheld b false
  | returned hheld hx =>
      rename_i c b
      exact h.unhold hheld b true
  | _ => exact h

/-- What is known of every state. -/
structure Tracked (s : HttpConnectionPool) : Prop where
  placed : s.Placed
  tallied : s.Tallied

/-- A new pool has no connections. -/
theorem tracked_new (maxSize maxAliveTime maxRequest now : Nat) :
    (new maxSize maxAliveTime maxRequest now).Tracked :=
  ⟨placed_new maxSize maxAliveTime maxRequest now,
    fun c hc => absurd hc (Nat.not_lt_zero c)⟩

/-- Every step keeps the books. -/
theorem Tracked.step (h : s.Tracked) (hs : s.step a = some s') :
    s'.Tracked :=
  ⟨h.placed.step (step_inv hs), h.tallied.step h.placed (step_inv hs)⟩

-- ============================================================== usage and size

/-- No connection was handed out more than `m_maxRequest` times, and there
are at most `m_maxSize`. -/
structure WithinLimits (s : HttpConnectionPool) : Prop where
  requests : ∀ c < s.created, (s.heap c).handed ≤ s.maxRequest
  size : s.live.length ≤ s.maxSize

/-- `getConnection` is about to hand out a connection that was released
`m_maxRequest` times, or to make one where none may be used or where
there are `m_maxSize` already. -/
def exceeds (s : HttpConnectionPool) : PoolAct → Bool
  | .dispose i =>
      match s.calls[i]? with
      | some (.taken _ (some c)) => s.maxRequest ≤ (s.heap c).request
      | _ => false
  | .connect i dial => s.calls[i]? = some .connecting && dial = .connected
      && (s.maxRequest = 0 || s.maxSize ≤ s.live.length)
  | _ => false

/-- The number of connections after a step. -/
private theorem live_step (h : s.Placed) (h' : s'.Placed) {n k : Nat}
    (hcreated : s'.created = s.created + n)
    (hdeleted : s'.deleted.length = s.deleted.length + k) :
    s'.live.length + k = s.live.length + n := by
  have hlive := h.length_live
  have hlive' := h'.length_live
  omega

/-- A connection is handed out once more. -/
private theorem handOut_handed (t : HttpConnectionPool) (c d : Nat) :
    ((t.handOut c).heap d).handed
      = (t.heap d).handed + if d = c then 1 else 0 := by
  show (HttpConnectionPool.heap (setConn t c _) d).handed = _
  by_cases hdc : d = c
  · subst hdc
    rw [setConn_heap_self, if_pos rfl]
  · rw [setConn_heap_ne hdc, if_neg hdc]
    rfl

/-- Giving back is not handing out. -/
private theorem unhold_handed (b kept : Bool) (c d : Nat) :
    ((s.unhold c b kept).heap d).handed = (s.heap d).handed := by
  show (HttpConnectionPool.heap (setConn s c _) d).handed = _
  by_cases hdc : d = c
  · subst hdc
    rw [setConn_heap_self]
    rfl
  · rw [setConn_heap_ne hdc]

/-- A step that hands out nothing keeps the limits. -/
private theorem WithinLimits.same (h : s.WithinLimits) (hp : s.Placed)
    (hp' : s'.Placed) (hcreated : s'.created = s.created)
    (hdeleted : s.deleted.length ≤ s'.deleted.length)
    (hhanded : ∀ d, (s'.heap d).handed = (s.heap d).handed)
    (hrequest : s'.maxRequest = s.maxRequest)
    (hmax : s'.maxSize = s.maxSize) : s'.WithinLimits := by
  have hlive := hp.length_live
  have hlive' := hp'.length_live
  have hsize := h.size
  refine ⟨fun d hd => ?_, by omega⟩
  rw [hhanded, hrequest]
  exact h.requests d (hcreated ▸ hd)

/-- A step that exceeds nothing keeps the limits. -/
theorem WithinLimits.step (hq : s.Tracked) (h : s.WithinLimits)
    (hok : ¬ s.exceeds a = true) (hs : s.step a = some s') :
    s'.WithinLimits := by
  have hp := hq.placed
  have hp' := (hq.step hs).placed
  have hsize := h.size
  have hstep := step_inv hs
  cases hstep with
  | reused hi =>
      rename_i i c invalid
      obtain ⟨hlt, hout, -⟩ := hp.of_inHand (ptr_inHand hi)
      have htally := hq.tallied c hlt
      have hreq : (s.heap c).request < s.maxRequest := by
        simpa [exceeds, hi] using hok
      have hlive : _ + invalid.length = s.live.length + 0 :=
        live_step hp hp' rfl List.length_append
      refine ⟨fun d hd => ?_, ?_⟩
      · have hd : (s.heap d).handed ≤ s.maxRequest := h.requests d hd
        rw [handOut_handed]
        show (s.heap d).handed + _ ≤ s.maxRequest
        split
        next heq =>
            subst heq
            omega
        next => exact hd
      · show _ ≤ s.maxSize
        omega
  | connected hi =>
      rename_i i
      have hroom : s.maxRequest ≠ 0 ∧ s.live.length < s.maxSize := by
        simpa [exceeds, hi] using hok
      have hlive : _ + 0 = s.live.length + 1 := live_step hp hp' rfl rfl
      refine ⟨fun d hd => ?_, ?_⟩
      · rw [handOut_handed]
        show (HttpConnectionPool.heap (setConn s s.created _) d).handed + _
          ≤ s.maxRequest
        by_cases hdc : d = s.created
        · subst hdc
          rw [setConn_heap_self, if_pos rfl]
          exact Nat.pos_of_ne_zero hroom.1
        · rw [setConn_heap_ne hdc, if_neg hdc]
          exact h.requests d (Nat.lt_of_le_of_ne (Nat.le_of_lt_succ hd) hdc)
      · show _ ≤ s.maxSize
        omega
  | missed hi =>
      refine h.same hp hp' rfl ?_ (fun _ => rfl) rfl rfl
      rw [deleteAll, List.length_append]
      exact Nat.le_add_right _ _
  | dropped hheld hx =>
      rename_i c b
      refine h.same hp hp' rfl ?_ (unhold_handed b false c) rfl rfl
      rw [deleteAll, List.length_append]
      exact Nat.le_add_right _ _
  | returned hheld hx =>
      rename_i c b
      exact h.same hp hp' rfl (Nat.le_refl _) (unhold_handed b true c) rfl rfl
  | _ => exact h.same hp hp' rfl (Nat.le_refl _) (fun _ => rfl) rfl rfl

/-- A call that exceeds a limit breaks it at once. -/
theorem exceeds_breaks (hq : s.Tracked) (hbad : s.exceeds a = true)
    (hs : s.step a = some s') : ¬ s'.WithinLimits := by
  intro h'
  have hp := hq.placed
  have hp' := (hq.step hs).placed
  have hstep := step_inv hs
  cases hstep with
  | missed hi => simp [exceeds, hi] at hbad
  | reused hi =>
      rename_i i c invalid
      have hreq : s.maxRequest ≤ (s.heap c).request := by
        simpa [exceeds, hi] using hbad
      obtain ⟨hlt, hout, -⟩ := hp.of_inHand (ptr_inHand hi)
      have htally := hq.tallied c hlt
      have hc := h'.requests c hlt
      rw [handOut_handed, if_pos rfl] at hc
      change (s.heap c).handed + 1 ≤ s.maxRequest at hc
      omega
  | failed hi hd => simp [exceeds, hd] at hbad
  | connected hi =>
      have hfull : s.maxRequest = 0 ∨ s.maxSize ≤ s.live.length := by
        simpa [exceeds, hi] using hbad
      rcases hfull with hzero | hfull
      · have hc := h'.requests s.created (Nat.lt_succ_self _)
        rw [handOut_handed, if_pos rfl] at hc
        change _ + 1 ≤ s.maxRequest at hc
        omega
      · have hlive : _ + 0 = s.live.length + 1 := live_step hp hp' rfl rfl
        have hsize := h'.size
        change _ ≤ s.maxSize at hsize
        omega
  | _ => cases hbad

/-- In all states of a run the connections stay within the limits exactly
when no call of the run exceeds one. -/
theorem usage_limits_iff {maxSize maxAliveTime maxRequest now : Nat}
    {acts : List PoolAct} {t : HttpConnectionPool}
    (hrun : acts.foldlM HttpConnectionPool.step
      (new maxSize maxAliveTime maxRequest now) = some t) :
    (∀ s, Lib.Visits HttpConnectionPool.step
        (new maxSize maxAliveTime maxRequest now) acts s → s.WithinLimits)
      ↔ ∀ s a, Lib.Takes HttpConnectionPool.step
          (new maxSize maxAliveTime maxRequest now) acts s a →
        ¬ s.exceeds a = true :=
  Lib.visits_inv_iff Tracked.step WithinLimits.step
    (fun hq _ hbad hs => exceeds_breaks hq hbad hs)
    (tracked_new maxSize maxAliveTime maxRequest now)
    ⟨fun c hc => absurd hc (Nat.not_lt_zero c), Nat.zero_le _⟩ hrun

/-- One connection, used twice, in a pool for one connection of two
uses. -/
def twoUsesRun : List PoolAct :=
  [.getConnection, .take 0 fun _ => true, .dispose 0, .connect 0 .connected,
    .tick 50000, .releasePtr 0 true, .pushBack 1, .getConnection,
    .take 2 fun _ => true, .dispose 2]

theorem usage_limits_iff_two_uses :
    (twoUsesRun.foldlM HttpConnectionPool.step (new 1 3000 2 1)).isSome = true
      ∧ ∀ s, Lib.Visits HttpConnectionPool.step (new 1 3000 2 1) twoUsesRun s →
        s.WithinLimits := by
  have hsome : (twoUsesRun.foldlM HttpConnectionPool.step
      (new 1 3000 2 1)).isSome = true := by decide
  obtain ⟨t, ht⟩ := Option.isSome_iff_exists.mp hsome
  refine ⟨hsome, (usage_limits_iff ht).mpr fun s a h => ?_⟩
  have hchecks : Lib.checks HttpConnectionPool.step (fun s a => !s.exceeds a)
      (new 1 3000 2 1) twoUsesRun = true := by decide
  simpa using Lib.takes_of_checks (fun s a => !s.exceeds a) hchecks h

/-- A pool for one connection of one use: after its use the connection is
handed out again, and then there are two connections. -/
theorem limits_exceeded :
    (∃ s, Lib.Visits HttpConnectionPool.step (new 1 3000 1 1) twoUsesRun s
        ∧ 0 < s.created ∧ s.maxRequest < (s.heap 0).handed)
      ∧ ∃ acts s, Lib.Visits HttpConnectionPool.step (new 1 3000 1 1) acts s
        ∧ s.maxSize < s.live.length := by
  have huses : (twoUsesRun.foldlM HttpConnectionPool.step
      (new 1 3000 1 1)).map (fun s => (s.created, s.maxRequest,
        (s.heap 0).handed)) = some (1, 1, 2) := by decide
  obtain ⟨s, hs, hv⟩ := Option.map_eq_some_iff.mp huses
  simp only [Prod.mk.injEq] at hv
  obtain ⟨hcreated, hmax, hhanded⟩ := hv
  refine ⟨⟨s, Lib.visits_last hs, by omega, by omega⟩, ?_⟩
  have hsize : ([.getConnection, .take 0 fun _ => true, .dispose 0,
      .connect 0 .connected, .getConnection, .take 1 fun _ => true,
      .dispose 1, .connect 1 .connected].foldlM HttpConnectionPool.step
        (new 1 3000 1 1)).map (fun s => (s.maxSize, s.live.length))
      = some (1, 2) := by decide
  obtain ⟨t, ht, hw⟩ := Option.map_eq_some_iff.mp hsize
  simp only [Prod.mk.injEq] at hw
  exact ⟨_, t, Lib.visits_last ht, by omega⟩

end HttpConnectionPool

end TinyServer
