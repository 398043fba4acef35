/-
When a modification time in `s_file2modifytime` means that the file was
loaded.

# What goes wrong

The time is written before the load. When the load throws, the file is
not looked at again until it is modified. When the file is modified
between `lstat` and `LoadFile`, the time of the one content stands for
the load of the other. And a file without an entry whose time is 0 counts
as loaded.

# What is enough

A run is `Careful` where none of this happens, and where no file gets a
new content with the time that is recorded for it, unless its load is
still to come. Then a time that is recorded is that of a load, or a load
of it is in progress (`Honest`).

# Trying again

In every run a time is recorded of a file whose load threw (`Recorded`),
and the file is tried again exactly when `lstat` gives another one.
-/
import TinyServer.Config.ConfDir
import TinyServer.Lib.Run

namespace TinyServer

open Lib
open Http (Bytes ascii)

namespace ConfDirs

-- ============================================================== the vocabulary

/-- Thread `t` is before the load of `item`, which had the time `m`. -/
def Loading (s : ConfDirs) (t : Nat) (item : Bytes) (m : UInt64) : Prop :=
  ∃ files, s.calls t = some ⟨files, .loading item m⟩

/-- The content that the file had at the time `m` was loaded. -/
def Loaded (s : ConfDirs) (item : Bytes) (m : UInt64) : Prop :=
  ∃ content, s.had item m = some content
    ∧ (item, m, content) ∈ s.applied

/-- A time that is recorded for a file that is not being loaded is the
time of a load. -/
def Marked (s : ConfDirs) : Prop :=
  ∀ item m, s.file2modifytime item = some m →
    (∀ t, ¬ s.Loading t item m) → s.Loaded item m

/-- The section under `s_mutex` does not pass over a file whose last load
threw. -/
def Retried (s : ConfDirs) : Prop :=
  ∀ item m content, s.failed item = true →
    s.fs.find item = some (.reg m content) →
    (s.file2modifytime item).getD 0 ≠ m

/-- A file gets no new content under the recorded time, unless its load
is to come; a file without an entry has another time than 0; and a load
finds the file as `lstat` saw it, and goes through. -/
def Careful (s : ConfDirs) : ConfAct → Prop
  | .modify fs => ∀ item m content, fs.find item = some (.reg m content) →
      s.had item m ≠ some content → s.file2modifytime item = some m →
      ∃ t, s.Loading t item m
  | .check t => ∀ files item, s.calls t = some ⟨files, .statted item 0⟩ →
      s.file2modifytime item ≠ none
  | .load t ok => ∀ item m, s.Loading t item m →
      ok = true ∧ ∃ content, s.fs.find item = some (.reg m content)
  | _ => True

/-- What holds in every state of a careful run. -/
structure Honest (s : ConfDirs) : Prop where
  /-- A time is recorded of a load, or for one. -/
  marked : ∀ item m, s.file2modifytime item = some m →
    (∃ t, s.Loading t item m) ∨ s.Loaded item m
  current : ∀ item m content, s.fs.find item = some (.reg m content) →
    s.had item m = some content
  succeeded : ∀ item, s.failed item = false

variable {s s' : ConfDirs} {t : Nat}

/-- In an honest state nothing is marked or passed over wrongly. -/
theorem Honest.marked_retried (h : s.Honest) : s.Marked ∧ s.Retried := by
  refine ⟨fun item m hm hno => ?_, fun item m content hfail => ?_⟩
  · rcases h.marked item m hm with ⟨t, ht⟩ | hloaded
    · exact absurd ht (hno t)
    · exact hloaded
  · rw [h.succeeded item] at hfail
    cases hfail

/-- What a file has is what it had last. -/
theorem look_current {fs : FsNode} {had : Bytes → UInt64 → Option Bytes}
    {item content : Bytes} {m : UInt64}
    (h : fs.find item = some (.reg m content)) :
    look fs had item m = some content := by
  unfold look
  rw [h]
  exact if_pos rfl

/-- What a file had last with a time it has now or had before. -/
theorem look_cases (fs : FsNode) (had : Bytes → UInt64 → Option Bytes)
    (item : Bytes) (m : UInt64) :
    look fs had item m = had item m
      ∨ ∃ content, fs.find item = some (.reg m content)
        ∧ look fs had item m = some content := by
  cases hfind : fs.find item with
  | none =>
      refine .inl ?_
      unfold look
      rw [hfind]
  | some node =>
      cases node with
      | reg m' content =>
          by_cases hm : m' = m
          · subst hm
            exact .inr ⟨content, rfl, look_current hfind⟩
          · refine .inl ?_
            unfold look
            rw [hfind]
            exact if_neg hm
      | _ =>
          refine .inl ?_
          unfold look
          rw [hfind]

/-- At the start nothing is recorded. -/
theorem honest_init (fs : FsNode) : (init fs).Honest where
  marked := fun _ _ h => by cases h
  current := by
    intro item m content h
    show look fs (fun _ _ => none) item m = some content
    exact look_current h
  succeeded := fun _ => rfl

-- =================================================================== the steps

/-- A thread goes on that is not before a load. -/
theorem Honest.setCall (h : s.Honest) {c : Option ConfCall}
    (hplace : ∀ item m, ¬ s.Loading t item m) : (s.setCall t c).Honest := by
  refine ⟨fun item m hm => ?_, h.current, h.succeeded⟩
  rcases h.marked item m hm with ⟨u, files, hu⟩ | hloaded
  · have hut : u ≠ t := by
      rintro rfl
      exact hplace item m ⟨files, hu⟩
    exact .inl ⟨u, files, (if_neg hut).trans hu⟩
  · exact .inr hloaded

/-- Files are modified. -/
theorem Honest.modify (h : s.Honest) {fs : FsNode}
    (hok : s.Careful (.modify fs)) :
    ({ s with fs := fs, had := look fs s.had } : ConfDirs).Honest := by
  refine ⟨fun item m hm => ?_, fun item m content => look_current,
    h.succeeded⟩
  rcases h.marked item m hm with hloading | ⟨content, hhad, hmem⟩
  · exact .inl hloading
  · rcases look_cases fs s.had item m with heq | ⟨content', hfind, heq⟩
    · exact .inr ⟨content, heq.trans hhad, hmem⟩
    · by_cases hsame : content' = content
      · subst hsame
        exact .inr ⟨content', heq, hmem⟩
      · refine .inl (hok item m content' hfind ?_ hm)
        rw [hhad]
        exact fun hc => hsame (Option.some.inj hc).symm

/-- The section under `s_mutex`. -/
theorem Honest.check (h : s.Honest) {files : List Bytes} {item : Bytes}
    {m : UInt64} (hcall : s.calls t = some ⟨files, .statted item m⟩)
    (hzero : m = 0 → s.file2modifytime item ≠ none)
    (hs : s.step (.check t) = some s') : s'.Honest := by
  have hplace : ∀ i n, ¬ s.Loading t i n := by
    rintro i n ⟨f, hf⟩
    rw [hcall] at hf
    cases hf
  simp only [step, hcall] at hs
  split at hs
  next hold =>
      cases hs
      -- the time was recorded before
      have hsame : s.setTime item ((s.file2modifytime item).getD 0) = s := by
        have hsome : s.file2modifytime item = some m := by
          cases hrec : s.file2modifytime item with
          | none =>
              rw [hrec] at hold
              exact absurd hrec (hzero hold.symm)
          | some m' =>
              rw [hrec] at hold
              exact congrArg some hold
        unfold setTime
        congr
        funext i
        by_cases hi : i = item
        · rw [if_pos hi, hold, hi, hsome]
        · exact if_neg hi
      rw [hsame]
      exact h.setCall hplace
  next =>
      cases hs
      refine ⟨fun i n hn => ?_, h.current, h.succeeded⟩
      by_cases hi : i = item
      · subst hi
        have hnm : n = m := by
          simp only [ConfDirs.setCall, setTime, if_true] at hn
          exact (Option.some.inj hn).symm
        subst hnm
        exact .inl ⟨t, files, if_pos rfl⟩
      · have hn' : s.file2modifytime i = some n := by
          simp only [ConfDirs.setCall, setTime, hi, if_false] at hn
          exact hn
        rcases h.marked i n hn' with ⟨u, f, hu⟩ | hloaded
        · have hut : u ≠ t := by
            rintro rfl
            exact hplace i n ⟨f, hu⟩
          exact .inl ⟨u, f, (if_neg hut).trans hu⟩
        · exact .inr hloaded

/-- A load that goes through. -/
theorem Honest.load (h : s.Honest) {files : List Bytes} {item content : Bytes}
    {m : UInt64} (hcall : s.calls t = some ⟨files, .loading item m⟩)
    (hfind : s.fs.find item = some (.reg m content))
    (hs : s.step (.load t true) = some s') : s'.Honest := by
  simp only [step, hcall, loadItem, hfind, if_true, Option.some.injEq] at hs
  subst hs
  refine ⟨fun i n hn => ?_, h.current, fun i => ?_⟩
  · rcases h.marked i n hn with ⟨u, f, hu⟩ | ⟨c, hhad, hmem⟩
    · by_cases hut : u = t
      · subst hut
        rw [hcall] at hu
        cases hu
        refine .inr ⟨content, h.current _ _ _ hfind, ?_⟩
        exact List.mem_append_right _ (List.mem_singleton.mpr rfl)
      · exact .inl ⟨u, f, (if_neg hut).trans hu⟩
    · exact .inr ⟨c, hhad, List.mem_append_left _ hmem⟩
  · by_cases hi : i = item
    · exact if_pos hi
    · exact (if_neg hi).trans (h.succeeded i)

/-- A careful step keeps the invariant. -/
theorem step_honest {a : ConfAct} (h : s.Honest) (hok : s.Careful a)
    (hs : s.step a = some s') : s'.Honest := by
  cases a with
  | modify fs =>
      cases hs
      exact h.modify hok
  | call t path =>
      simp only [step] at hs
      split at hs
      next => cases hs
      next hcall =>
          cases hs
          refine h.setCall ?_
          rintro i n ⟨f, hf⟩
          rw [hcall] at hf
          cases hf
  | stat t garbage =>
      simp only [step] at hs
      split at hs
      next item files hcall =>
          cases hs
          refine h.setCall ?_
          rintro i n ⟨f, hf⟩
          rw [hcall] at hf
          cases hf
      next => cases hs
  | check t =>
      have hs' := hs
      simp only [step] at hs'
      split at hs'
      next files item m hcall =>
          refine h.check hcall ?_ hs
          rintro rfl
          exact hok files item hcall
      next => cases hs'
  | load t ok =>
      have hs' := hs
      simp only [step] at hs'
      split at hs'
      next files item m hcall =>
          obtain ⟨rfl, content, hfind⟩ := hok item m ⟨files, hcall⟩
          exact h.load hcall hfind hs
      next => cases hs'
  | finish t =>
      simp only [step] at hs
      split at hs
      next hcall =>
          cases hs
          refine h.setCall ?_
          rintro i n ⟨f, hf⟩
          rw [hcall] at hf
          cases hf
      next => cases hs

-- =============================================================== trying again

/-- A time is recorded of a file that is being loaded or whose last load
threw. -/
def Recorded (s : ConfDirs) : Prop :=
  ∀ item, (∃ t m, s.Loading t item m) ∨ s.failed item = true →
    s.file2modifytime item ≠ none

/-- A thread goes on to a place that is not before a load. -/
theorem Recorded.setCall (h : s.Recorded) {c : Option ConfCall}
    (hplace : ∀ files item m, c ≠ some ⟨files, .loading item m⟩) :
    (s.setCall t c).Recorded := by
  rintro item (⟨u, m, files, hu⟩ | hfail)
  · have hut : u ≠ t := by
      rintro rfl
      exact hplace files item m ((if_pos rfl).symm.trans hu)
    exact h item (.inl ⟨u, m, files, (if_neg hut).symm.trans hu⟩)
  · exact h item (.inr hfail)

/-- Recording a time takes none away. -/
theorem Recorded.setTime (h : s.Recorded) (item : Bytes) (m : UInt64) :
    (s.setTime item m).Recorded := by
  intro i hi
  by_cases heq : i = item
  · have htime : (s.setTime item m).file2modifytime i = some m := if_pos heq
    rw [htime]
    exact Option.some_ne_none m
  · have htime : (s.setTime item m).file2modifytime i = s.file2modifytime i :=
      if_neg heq
    rw [htime]
    exact h i hi

/-- A load fails of the file it is for only. -/
theorem loadItem_frame (s : ConfDirs) (item : Bytes) (ok : Bool) :
    (s.loadItem item ok).calls = s.calls
      ∧ (s.loadItem item ok).file2modifytime = s.file2modifytime
      ∧ ∀ i, i ≠ item → (s.loadItem item ok).failed i = s.failed i := by
  unfold loadItem
  split
  next =>
      split
      next => exact ⟨rfl, rfl, fun _ hi => if_neg hi⟩
      next => exact ⟨rfl, rfl, fun _ hi => if_neg hi⟩
  next => exact ⟨rfl, rfl, fun _ hi => if_neg hi⟩
  next => exact ⟨rfl, rfl, fun _ hi => if_neg hi⟩

/-- The section under `s_mutex` records the time that `lstat` gave, and
goes on to the load exactly if another one was recorded. -/
theorem check_step {files : List Bytes} {item : Bytes} {m : UInt64}
    (hcall : s.calls t = some ⟨files, .statted item m⟩)
    (hs : s.step (.check t) = some s') :
    s'.file2modifytime item = some m
      ∧ (s'.Loading t item m ↔ (s.file2modifytime item).getD 0 ≠ m) := by
  simp only [step, hcall] at hs
  split at hs
  next hold =>
      cases hs
      refine ⟨?_, iff_of_false ?_ (not_not_intro hold)⟩
      · exact (if_pos rfl).trans (congrArg some hold)
      · rintro ⟨files', hload⟩
        cases (if_pos rfl).symm.trans hload
  next hne =>
      cases hs
      refine ⟨if_pos rfl, iff_of_true ⟨files, if_pos rfl⟩ hne⟩

/-- Every step keeps it. -/
theorem step_recorded {a : ConfAct} (h : s.Recorded)
    (hs : s.step a = some s') : s'.Recorded := by
  cases a with
  | modify fs =>
      cases hs
      exact h
  | call t path =>
      simp only [step] at hs
      split at hs
      next => cases hs
      next =>
          cases hs
          exact h.setCall fun _ _ _ hc => by cases hc
  | stat t garbage =>
      simp only [step] at hs
      split at hs
      next =>
          cases hs
          exact h.setCall fun _ _ _ hc => by cases hc
      next => cases hs
  | check t =>
      simp only [step] at hs
      split at hs
      next files item m hcall =>
          split at hs
          next =>
              cases hs
              exact (h.setTime item _).setCall fun _ _ _ hc => by cases hc
          next =>
              cases hs
              -- the time is recorded just before the load
              intro i hi
              by_cases heq : i = item
              · subst heq
                exact fun hnone => by cases (if_pos rfl).symm.trans hnone
              · refine ((h.setTime item _).setTime item m) i ?_
                rcases hi with ⟨u, n, f, hu⟩ | hfail
                · have hut : u ≠ t := by
                    rintro rfl
                    cases (if_pos rfl).symm.trans hu
                    exact heq rfl
                  exact .inl ⟨u, n, f, (if_neg hut).symm.trans hu⟩
                · exact .inr hfail
      next => cases hs
  | load t ok =>
      simp only [step] at hs
      split at hs
      next files item m hcall =>
          cases hs
          obtain ⟨hcalls, htimes, hfailed⟩ := loadItem_frame s item ok
          refine Recorded.setCall ?_ fun _ _ _ hc => by cases hc
          intro i hi
          rw [htimes]
          by_cases heq : i = item
          · subst heq
            exact h i (.inl ⟨t, m, files, hcall⟩)
          · refine h i (hi.imp ?_ fun hfail => (hfailed i heq).symm.trans hfail)
            rintro ⟨u, n, f, hu⟩
            rw [hcalls] at hu
            exact ⟨u, n, f, hu⟩
      next => cases hs
  | finish t =>
      simp only [step] at hs
      split at hs
      next =>
          cases hs
          exact h.setCall fun _ _ _ hc => by cases hc
      next => cases hs

/-- In every run, a file whose last load threw is tried again exactly
when its `st_mtime` differs from the recorded one. -/
theorem failed_loaded_again_iff {fs : FsNode} {acts : List ConfAct}
    {files : List Bytes} {item : Bytes} {m : UInt64}
    (h : Visits step (init fs) acts s) (hfail : s.failed item = true)
    (hcall : s.calls t = some ⟨files, .statted item m⟩)
    (hs : s.step (.check t) = some s') :
    ∃ r, s.file2modifytime item = some r
      ∧ (s'.Loading t item m ↔ m ≠ r) := by
  have hrecorded : s.Recorded := by
    refine run_inv_visits step_recorded ?_ h
    rintro item (⟨u, n, f, hu⟩ | hfail)
    · cases hu
    · cases hfail
  obtain ⟨r, hr⟩ := Option.ne_none_iff_exists'.mp
    (hrecorded item (.inr hfail))
  refine ⟨r, hr, (check_step hcall hs).2.trans ?_⟩
  rw [hr]
  exact ne_comm

-- ==================================================================== the runs

/-- In a careful run a file is marked as loaded only when it was, and no
file whose loading failed is passed over. Of a file whose loading failed,
in any run, `failed_loaded_again_iff` says when it is tried again. -/
theorem marked_when_loaded {fs : FsNode} {acts : List ConfAct}
    (hok : ∀ s a, Takes step (init fs) acts s a → s.Careful a)
    (h : Visits step (init fs) acts s) : s.Marked ∧ s.Retried :=
  (visits_inv step_honest (honest_init fs) hok h).marked_retried

/-- A file in the root directory. -/
def oneFile (m : UInt64) (content : Bytes) : FsNode :=
  .dir 1 [(ascii "a.yml", .reg m content)]

/-- A file is loaded, modified, and loaded again by the next call. -/
def loadTwice : List ConfAct :=
  [.call 0 [], .stat 0 0, .check 0, .load 0 true, .finish 0,
    .modify (oneFile 9 (ascii "n: 2")),
    .call 0 [], .stat 0 0, .check 0, .load 0 true, .finish 0]

theorem marked_when_loaded_twice :
    ∃ s, loadTwice.foldlM step (init (oneFile 5 (ascii "n: 1"))) = some s
      ∧ s.file2modifytime (ascii "/a.yml") = some 9
      ∧ s.applied.length = 2 ∧ s.Marked ∧ s.Retried := by
  have hok : ∀ s a, Takes step (init (oneFile 5 (ascii "n: 1"))) loadTwice
      s a → s.Careful a := by
    refine forall_takes_cons trivial fun t ht => ?_
    cases ht
    refine forall_takes_cons trivial fun t ht => ?_
    cases ht
    refine forall_takes_cons ?_ fun t ht => ?_
    · intro files item h
      cases h
    cases ht
    refine forall_takes_cons ?_ fun t ht => ?_
    · rintro item m ⟨files, h⟩
      cases h
      exact ⟨rfl, _, rfl⟩
    cases ht
    refine forall_takes_cons trivial fun t ht => ?_
    cases ht
    refine forall_takes_cons ?_ fun t ht => ?_
    · -- the new time is not the one that is recorded
      intro item m content hfind _ hrec
      by_cases hitem : item = ascii "/a.yml"
      · subst hitem
        cases hfind
        cases hrec
      · have hnone : (if item = ascii "/a.yml" then some 5 else
            if item = ascii "/a.yml" then some 0 else none)
            = some m := hrec
        rw [if_neg hitem, if_neg hitem] at hnone
        cases hnone
    cases ht
    refine forall_takes_cons trivial fun t ht => ?_
    cases ht
    refine forall_takes_cons trivial fun t ht => ?_
    cases ht
    refine forall_takes_cons ?_ fun t ht => ?_
    · intro files item h
      cases h
    cases ht
    refine forall_takes_cons ?_ fun t ht => ?_
    · rintro item m ⟨files, h⟩
      cases h
      exact ⟨rfl, _, rfl⟩
    cases ht
    exact forall_takes_cons trivial fun _ _ => forall_takes_nil
  obtain ⟨s, hs⟩ := Option.isSome_iff_exists.mp
    (show (loadTwice.foldlM step
      (init (oneFile 5 (ascii "n: 1")))).isSome = true by decide)
  have htime := congrArg (Option.map fun s =>
    s.file2modifytime (ascii "/a.yml")) hs
  have happlied := congrArg (Option.map fun s => s.applied.length) hs
  exact ⟨s, hs, (Option.some.inj htime).symm, (Option.some.inj happlied).symm,
    marked_when_loaded hok (visits_last hs)⟩

/-- A call for a file that does not parse. -/
def loadThrows : List ConfAct :=
  [.call 0 [], .stat 0 0, .check 0, .load 0 false, .finish 0]

/-- The file is marked as loaded, and the next call passes it over. -/
theorem marked_before_load :
    (¬ ∀ (fs : FsNode) (acts : List ConfAct) (s : ConfDirs),
        Visits step (init fs) acts s → s.Marked)
      ∧ ¬ ∀ (fs : FsNode) (acts : List ConfAct) (s : ConfDirs),
        Visits step (init fs) acts s → s.Retried := by
  obtain ⟨s, hs⟩ := Option.isSome_iff_exists.mp
    (show (loadThrows.foldlM step
      (init (oneFile 5 (ascii "n: [")))).isSome = true by decide)
  have htime : s.file2modifytime (ascii "/a.yml") = some 5 :=
    (Option.some.inj (congrArg (Option.map fun s =>
      s.file2modifytime (ascii "/a.yml")) hs)).symm
  have happlied : s.applied = [] :=
    (Option.some.inj (congrArg (Option.map fun s => s.applied) hs)).symm
  have hfailed : s.failed (ascii "/a.yml") = true :=
    (Option.some.inj (congrArg (Option.map fun s =>
      s.failed (ascii "/a.yml")) hs)).symm
  have hfs : s.fs = oneFile 5 (ascii "n: [") :=
    (Option.some.inj (congrArg (Option.map fun s => s.fs) hs)).symm
  have hcalls : ∀ t, s.calls t = none := by
    intro t
    refine (congrFun (Option.some.inj
      (congrArg (Option.map fun s => s.calls) hs)) t).symm.trans ?_
    by_cases ht : t = 0
    · exact if_pos ht
    · -- five steps of thread 0
      iterate 5 refine (if_neg ht).trans ?_
      rfl
  constructor
  · intro hall
    have hmarked := hall _ loadThrows s (visits_last hs) _ _ htime
    obtain ⟨content, -, hmem⟩ := hmarked fun t ⟨files, ht⟩ => by
      rw [hcalls t] at ht
      cases ht
    rw [happlied] at hmem
    cases hmem
  · intro hall
    refine hall _ loadThrows s (visits_last hs) (ascii "/a.yml") 5
      (ascii "n: [") hfailed ?_ ?_
    · rw [hfs]
      rfl
    · rw [htime]
      rfl

end ConfDirs

end TinyServer
