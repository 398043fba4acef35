/-
The age limit of `HttpConnectionPool`.

`m_createTime` is 0 for every connection, and the age test of `ReleasePtr`
deletes what has not reached the limit: with `m_createTime` 0 a connection
is kept when the clock is past `m_maxAliveTime`, whatever its age. So a
young connection is deleted only where the clock has not got that far,
and an old one never for its age.
-/
import TinyServer.Pool.Proofs.Limits

namespace TinyServer

/-- The connection of an event. -/
def PoolEvent.conn : PoolEvent → Nat
  | .handedOut c => c
  | .released c _ _ _ _ => c

namespace HttpConnectionPool

variable {s s' : HttpConnectionPool} {a : PoolAct} {c now : Nat} {e : PoolEvent}

/-- The time since the creation of a connection. -/
def age (s : HttpConnectionPool) (c now : Nat) : Nat := now - (s.heap c).made

/-- A connection that was released while connected, within its request
limit and before its time was up was kept. -/
def KeepsYoung (s : HttpConnectionPool) : PoolEvent → Prop
  | .released c now connected request kept =>
      connected = true → request ≤ s.maxRequest →
        s.age c now < s.maxAliveTime → kept = true
  | .handedOut _ => True

/-- The event is the release of a connection whose time was up. -/
def Outdated (s : HttpConnectionPool) : PoolEvent → Prop
  | .released c now _ _ _ => s.maxAliveTime < s.age c now
  | .handedOut _ => False

/-- What the log says of the age limit: young connections were kept, and
outdated ones not handed out after their release. -/
structure AgeRespected (s : HttpConnectionPool) : Prop where
  kept : ∀ e ∈ s.log, s.KeepsYoung e
  notReused : s.log.Pairwise fun e e' =>
    s.Outdated e → e' ≠ .handedOut e.conn

/-- A connection is released, connected and within its request limit,
when its time is up, or when it is not but the clock has not got past
`m_maxAliveTime`. -/
def misjudges (s : HttpConnectionPool) : PoolAct → Bool
  | .releasePtr c connected => connected && (s.heap c).request < s.maxRequest
      && (s.maxAliveTime < s.age c s.clock
        || (s.age c s.clock < s.maxAliveTime && s.clock ≤ s.maxAliveTime))
  | _ => false

-- ============================================================== the invariant

/-- What a run that misjudges no connection keeps: `m_createTime` is 0,
and a connection that was outdated at its release is deleted. -/
structure AgeInv (s : HttpConnectionPool) : Prop where
  placed : s.Placed
  createTime : ∀ c, (s.heap c).createTime = 0
  known : ∀ e ∈ s.log, e.conn < s.created
  deleted : ∀ e ∈ s.log, s.Outdated e → e.conn ∈ s.deleted
  respected : s.AgeRespected

/-- The times of creation and the limits do not change. -/
structure SameAges (s s' : HttpConnectionPool) : Prop where
  made : ∀ c < s.created, (s'.heap c).made = (s.heap c).made
  maxRequest : s'.maxRequest = s.maxRequest
  maxAliveTime : s'.maxAliveTime = s.maxAliveTime

theorem SameAges.age (h : SameAges s s') (hc : c < s.created) (now : Nat) :
    s'.age c now = s.age c now := by
  unfold HttpConnectionPool.age
  rw [h.made c hc]

theorem SameAges.keepsYoung (h : SameAges s s') (hc : e.conn < s.created) :
    s'.KeepsYoung e ↔ s.KeepsYoung e := by
  cases e with
  | handedOut c => exact Iff.rfl
  | released c now b r k =>
      have hage : s'.age c now = s.age c now := h.age hc now
      simp only [KeepsYoung, hage, h.maxRequest, h.maxAliveTime]

theorem SameAges.outdated (h : SameAges s s') (hc : e.conn < s.created) :
    s'.Outdated e ↔ s.Outdated e := by
  cases e with
  | handedOut c => exact Iff.rfl
  | released c now b r k =>
      have hage : s'.age c now = s.age c now := h.age hc now
      simp only [Outdated, hage, h.maxAliveTime]

/-- A step that adds the events `es` to the log, at most one. -/
theorem AgeInv.log_step (h : s.AgeInv) (hsame : SameAges s s')
    (hp' : s'.Placed) (hcreate : ∀ c, (s'.heap c).createTime = 0)
    {es : List PoolEvent} (hlog : s'.log = s.log ++ es)
    (hes : es.Pairwise fun e e' => s'.Outdated e → e' ≠ .handedOut e.conn)
    (hle : s.created ≤ s'.created) (hdel : s.deleted ⊆ s'.deleted)
    (hnew : ∀ e ∈ es, e.conn < s'.created ∧ s'.KeepsYoung e
      ∧ (s'.Outdated e → e.conn ∈ s'.deleted)
      ∧ ∀ c, e = .handedOut c → c ∉ s.deleted) : s'.AgeInv := by
  refine ⟨hp', hcreate, ?_, ?_, ⟨?_, ?_⟩⟩
  · intro e he
    rw [hlog] at he
    rcases List.mem_append.mp he with he | he
    · exact Nat.lt_of_lt_of_le (h.known e he) hle
    · exact (hnew e he).1
  · intro e he hout
    rw [hlog] at he
    rcases List.mem_append.mp he with he | he
    · exact hdel (h.deleted e he ((hsame.outdated (h.known e he)).mp hout))
    · exact (hnew e he).2.2.1 hout
  · intro e he
    rw [hlog] at he
    rcases List.mem_append.mp he with he | he
    · exact (hsame.keepsYoung (h.known e he)).mpr (h.respected.kept e he)
    · exact (hnew e he).2.1
  · rw [hlog, List.pairwise_append]
    refine ⟨?_, hes, ?_⟩
    · refine h.respected.notReused.imp_of_mem fun {e e'} he _ hrest hout => ?_
      exact hrest ((hsame.outdated (h.known e he)).mp hout)
    · intro e he e' he' hout heq
      have hout := (hsame.outdated (h.known e he)).mp hout
      exact (hnew e' he').2.2.2 _ heq (h.deleted e he hout)

theorem Placed.of_held (h : s.Placed) (hc : c ∈ s.held) : c < s.created := by
  have hpos := List.count_pos_iff.mpr hc
  have hplace := h c
  unfold places at hplace
  split at hplace
  next hlt => exact hlt
  next => omega

/-- A step that logs nothing. -/
private theorem AgeInv.quiet_step (h : s.AgeInv) (hp' : s'.Placed)
    (hheap : s'.heap = s.heap) (hmax : s'.maxRequest = s.maxRequest)
    (halive : s'.maxAliveTime = s.maxAliveTime) (hlog : s'.log = s.log)
    (hcreated : s'.created = s.created) (hdel : s.deleted ⊆ s'.deleted) :
    s'.AgeInv := by
  refine h.log_step ⟨fun c _ => by rw [hheap], hmax, halive⟩ hp'
    (fun c => by rw [hheap]; exact h.createTime c)
    (hlog.trans (List.append_nil _).symm) List.Pairwise.nil
    (Nat.le_of_eq hcreated.symm) hdel ?_
  exact fun e he => absurd he List.not_mem_nil

/-- A step that hands out the connection `c` of the state `t`. -/
private theorem AgeInv.handOut_step {t : HttpConnectionPool} (h : s.AgeInv)
    (hp' : (t.handOut c).Placed) (hsame : SameAges s t)
    (hcreate : ∀ c, (t.heap c).createTime = 0) (hlog : t.log = s.log)
    (hle : s.created ≤ t.created) (hdel : s.deleted ⊆ t.deleted)
    (hc : c < t.created) (hno : c ∉ s.deleted) : (t.handOut c).AgeInv := by
  have hheap : ∀ d, ((t.handOut c).heap d).made = (t.heap d).made
      ∧ ((t.handOut c).heap d).createTime = (t.heap d).createTime := by
    intro d
    show (HttpConnectionPool.heap (setConn t c _) d).made = _
      ∧ (HttpConnectionPool.heap (setConn t c _) d).createTime = _
    by_cases hdc : d = c
    · subst hdc
      rw [setConn_heap_self]
      exact ⟨rfl, rfl⟩
    · rw [setConn_heap_ne hdc]
      exact ⟨rfl, rfl⟩
  refine h.log_step ⟨fun d hd => (hheap d).1.trans (hsame.made d hd),
    hsame.maxRequest, hsame.maxAliveTime⟩ hp'
    (fun d => (hheap d).2.trans (hcreate d))
    (congrArg (· ++ _) hlog) (List.pairwise_singleton _ _) hle hdel ?_
  intro e he
  obtain rfl := List.mem_singleton.mp he
  refine ⟨hc, trivial, fun hout => hout.elim, fun d hd => ?_⟩
  cases hd
  exact hno

/-- A release that is not misjudged. -/
private theorem AgeInv.unhold_step {t : HttpConnectionPool} {b kept : Bool}
    (h : s.AgeInv) (hc : c < s.created) (hp' : t.Placed)
    (hheap : t.heap = (s.unhold c b kept).heap)
    (hlog : t.log = (s.unhold c b kept).log)
    (hcreated : t.created = s.created)
    (hmax : t.maxRequest = s.maxRequest)
    (halive : t.maxAliveTime = s.maxAliveTime) (hdel : s.deleted ⊆ t.deleted)
    (hyoung : b = true → (s.heap c).request < s.maxRequest →
      s.age c s.clock < s.maxAliveTime → kept = true)
    (hold : s.maxAliveTime < s.age c s.clock → c ∈ t.deleted) :
    t.AgeInv := by
  have hsame : ∀ d, (t.heap d).made = (s.heap d).made
      ∧ (t.heap d).createTime = (s.heap d).createTime := by
    intro d
    rw [hheap]
    show (HttpConnectionPool.heap (setConn s c _) d).made = _
      ∧ (HttpConnectionPool.heap (setConn s c _) d).createTime = _
    by_cases hdc : d = c
    · subst hdc
      rw [setConn_heap_self]
      exact ⟨rfl, rfl⟩
    · rw [setConn_heap_ne hdc]
      exact ⟨rfl, rfl⟩
  have hages : SameAges s t := ⟨fun d _ => (hsame d).1, hmax, halive⟩
  refine h.log_step hages hp'
    (fun d => (hsame d).2.trans (h.createTime d)) hlog
    (List.pairwise_singleton _ _) (Nat.le_of_eq hcreated.symm) hdel ?_
  intro e he
  obtain rfl := List.mem_singleton.mp he
  have hconn : (PoolEvent.released c s.clock b (s.heap c).used.request
      kept).conn < s.created := hc
  refine ⟨hcreated.symm ▸ hc, ?_, ?_, fun d hd => by cases hd⟩
  · exact (hages.keepsYoung hconn).mpr hyoung
  · exact fun hout => hold ((hages.outdated hconn).mp hout)

theorem misjudges_releasePtr {b : Bool} :
    s.misjudges (.releasePtr c b) = true ↔
      b = true ∧ (s.heap c).request < s.maxRequest
        ∧ (s.maxAliveTime < s.age c s.clock
          ∨ s.age c s.clock < s.maxAliveTime ∧ s.clock ≤ s.maxAliveTime) := by
  unfold misjudges
  simp only [Bool.and_eq_true, Bool.or_eq_true, decide_eq_true_eq, and_assoc]

/-- As long as `m_createTime` is 0, the pool compares the clock itself
with `m_maxAliveTime`. -/
theorem AgeInv.expired_used (h : s.AgeInv) {b : Bool} :
    s.expired (s.heap c).used b = true ↔
      b = false ∨ s.clock ≤ s.maxAliveTime
        ∨ s.maxRequest ≤ (s.heap c).request := by
  unfold expired PoolConn.used
  simp only [h.createTime c, Bool.or_eq_true, Bool.not_eq_true',
    decide_eq_true_eq, Nat.zero_add, or_assoc, ge_iff_le, gt_iff_lt,
    Nat.lt_succ_iff]

theorem AgeInv.step (h : s.AgeInv) (hok : s.misjudges a = false)
    (hs : s.step a = some s') : s'.AgeInv := by
  have hp := h.placed
  have hstep := step_inv hs
  have hp' := hp.step hstep
  cases hstep with
  | missed hi =>
      exact h.quiet_step hp' rfl rfl rfl rfl rfl (List.subset_append_left _ _)
  | reused hi =>
      obtain ⟨hlt, -, hno⟩ := hp.of_inHand (ptr_inHand hi)
      exact h.handOut_step hp' ⟨fun _ _ => rfl, rfl, rfl⟩ h.createTime rfl
        (Nat.le_refl _) (List.subset_append_left _ _) hlt hno
  | connected hi =>
      refine h.handOut_step hp' ⟨fun d hd => ?_, rfl, rfl⟩ (fun d => ?_) rfl
        (Nat.le_succ _) (List.Subset.refl _) (Nat.lt_succ_self _)
        fun hdel => Nat.lt_irrefl _ (hp.deleted_lt hdel)
      · show (HttpConnectionPool.heap (setConn s s.created _) d).made = _
        rw [setConn_heap_ne (Nat.ne_of_lt hd)]
      · show (HttpConnectionPool.heap (setConn s s.created _) d).createTime = _
        by_cases hdc : d = s.created
        · subst hdc
          rw [setConn_heap_self]
          rfl
        · rw [setConn_heap_ne hdc]
          exact h.createTime d
  | dropped hheld hx =>
      rename_i c b
      refine h.unhold_step (hp.of_held hheld) hp' rfl rfl rfl rfl rfl
        (List.subset_append_left _ _) (fun hb hreq hage => ?_) fun _ =>
          List.mem_append_right _ (List.mem_singleton.mpr rfl)
      have hlate : s.maxAliveTime < s.clock := by
        by_contra hsoon
        rw [misjudges_releasePtr.mpr
          ⟨hb, hreq, .inr ⟨hage, Nat.le_of_not_lt hsoon⟩⟩] at hok
        cases hok
      rcases h.expired_used.mp hx with hx | hx | hx
      · exact absurd hb (by rw [hx]; exact Bool.false_ne_true)
      · omega
      · omega
  | returned hheld hx =>
      rename_i c b
      refine h.unhold_step (hp.of_held hheld) hp' rfl rfl rfl rfl rfl
        (List.Subset.refl _) (fun _ _ _ => rfl) fun hage => ?_
      have hfresh := mt h.expired_used.mpr (ne_true_of_eq_false hx)
      obtain ⟨hb, hfresh⟩ := not_or.mp hfresh
      obtain ⟨-, hreq⟩ := not_or.mp hfresh
      rw [misjudges_releasePtr.mpr
        ⟨eq_true_of_ne_false hb, Nat.lt_of_not_le hreq, .inl hage⟩] at hok
      cases hok
  | _ => exact h.quiet_step hp' rfl rfl rfl rfl rfl (List.Subset.refl _)

theorem ageInv_new (maxSize maxAliveTime maxRequest now : Nat) :
    (new maxSize maxAliveTime maxRequest now).AgeInv :=
  ⟨placed_new maxSize maxAliveTime maxRequest now, fun _ => rfl,
    fun _ he => absurd he List.not_mem_nil,
    fun _ he => absurd he List.not_mem_nil,
    ⟨fun _ he => absurd he List.not_mem_nil, List.Pairwise.nil⟩⟩

/-- A run that misjudges no connection respects the age limit in all its
states. -/
theorem age_limit_respected {maxSize maxAliveTime maxRequest now : Nat}
    {acts : List PoolAct}
    (hok : ∀ s a, Lib.Takes HttpConnectionPool.step
      (new maxSize maxAliveTime maxRequest now) acts s a →
      s.misjudges a = false)
    (hs : Lib.Visits HttpConnectionPool.step
      (new maxSize maxAliveTime maxRequest now) acts s) : s.AgeRespected :=
  (Lib.visits_inv AgeInv.step
    (ageInv_new maxSize maxAliveTime maxRequest now) hok hs).respected

/-- A connection is released at the age of 1000 and used again. -/
def youngRun : List PoolAct :=
  [.getConnection, .take 0 fun _ => true, .dispose 0, .connect 0 .connected,
    .tick 51000, .releasePtr 0 true, .pushBack 1, .getConnection,
    .take 2 fun _ => true, .dispose 2]

theorem age_limit_respected_young :
    ∃ s, youngRun.foldlM HttpConnectionPool.step (new 10 3000 5 50000) = some s
      ∧ s.log = [.handedOut 0, .released 0 51000 true 1 true, .handedOut 0]
      ∧ s.AgeRespected := by
  have hobs : (youngRun.foldlM HttpConnectionPool.step
      (new 10 3000 5 50000)).map HttpConnectionPool.log
      = some [.handedOut 0, .released 0 51000 true 1 true, .handedOut 0] := by
    decide
  obtain ⟨s, hs, hlog⟩ := Option.map_eq_some_iff.mp hobs
  have hchecks : Lib.checks HttpConnectionPool.step
      (fun s a => !s.misjudges a) (new 10 3000 5 50000) youngRun = true := by
    decide
  refine ⟨s, hs, hlog, age_limit_respected (fun s a h => ?_)
    (Lib.visits_last hs)⟩
  simpa using Lib.takes_of_checks (fun s a => !s.misjudges a) hchecks h

/-- A connection is released at the age of 10000 and used again. -/
def oldRun : List PoolAct :=
  [.getConnection, .take 0 fun _ => true, .dispose 0, .connect 0 .connected,
    .tick 60000, .releasePtr 0 true, .pushBack 1, .getConnection,
    .take 2 fun _ => true, .dispose 2]

/-- The age limit is 3000. -/
theorem old_connection_reused :
    ∃ s, oldRun.foldlM HttpConnectionPool.step (new 10 3000 5 50000) = some s
      ∧ ¬ s.AgeRespected := by
  have hobs : (oldRun.foldlM HttpConnectionPool.step
      (new 10 3000 5 50000)).map
        (fun s => (s.log, s.maxAliveTime, (s.heap 0).made))
      = some ([.handedOut 0, .released 0 60000 true 1 true, .handedOut 0],
        3000, 50000) := by
    decide
  obtain ⟨s, hs, hv⟩ := Option.map_eq_some_iff.mp hobs
  simp only [Prod.mk.injEq] at hv
  obtain ⟨hlog, halive, hmade⟩ := hv
  refine ⟨s, hs, fun h => ?_⟩
  have hpairs := h.notReused
  rw [hlog] at hpairs
  have hrest := (List.pairwise_cons.mp hpairs).2
  refine (List.pairwise_cons.mp hrest).1 _ List.mem_cons_self ?_ rfl
  show s.maxAliveTime < 60000 - (s.heap 0).made
  omega

end HttpConnectionPool

end TinyServer
