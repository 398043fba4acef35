/-
What a file appender keeps.

`FileLog::log` reopens the file, which empties it, whenever the second is
another than that of the last event. So the file has the texts of the
events of the last second (`Kept`), and everything before is lost. Nothing
is lost only as long as the earlier events have no text.
-/
import Mathlib.Data.List.Induction
import TinyServer.Log.File

namespace TinyServer

open Http (Bytes ascii)

namespace FileLog

-- ======================================================================= texts

/-- Leaving elements out does not change the text exactly when they have
none. -/
theorem flatMap_filter_iff {α β : Type} (p : α → Bool) (f : α → List β)
    (xs : List α) :
    (xs.filter p).flatMap f = xs.flatMap f
      ↔ ∀ x ∈ xs, p x = false → f x = [] := by
  have hle : ∀ xs : List α,
      ((xs.filter p).flatMap f).length ≤ (xs.flatMap f).length := by
    intro xs
    induction xs with
    | nil => exact Nat.le_refl _
    | cons x xs ih =>
        rw [List.flatMap_cons, List.length_append]
        cases hp : p x with
        | true =>
            rw [List.filter_cons_of_pos hp, List.flatMap_cons,
              List.length_append]
            omega
        | false =>
            rw [List.filter_cons_of_neg (by simp [hp])]
            omega
  induction xs with
  | nil => exact ⟨fun _ x hx => (nomatch hx), fun _ => rfl⟩
  | cons x xs ih =>
      refine Iff.trans ?_ List.forall_mem_cons.symm
      refine Iff.trans ?_ (and_congr_right fun _ => ih)
      rw [List.flatMap_cons]
      cases hp : p x with
      | true =>
          rw [List.filter_cons_of_pos hp, List.flatMap_cons,
            List.append_cancel_left_eq]
          exact ⟨fun h => ⟨fun h => (nomatch h), h⟩, fun h => h.2⟩
      | false =>
          rw [List.filter_cons_of_neg (by simp [hp])]
          constructor
          · intro h
            have hlen := congrArg List.length h
            rw [List.length_append] at hlen
            have hnil : f x = [] := List.eq_nil_of_length_eq_zero (by
              have := hle xs
              omega)
            rw [hnil, List.nil_append] at h
            exact ⟨fun _ => hnil, h⟩
          · intro h
            rw [h.1 rfl, List.nil_append]
            exact h.2

-- =================================================================== one call

section

variable {strftime : Bytes → UInt32 → Bytes} {f : FileLog} {c : LogCall}
  {cs : List LogCall}

/-- The event passes the threshold. -/
def passes (level : LogLevel) (c : LogCall) : Bool :=
  level.value ≤ c.level.value

/-- The text of an event. -/
def text (strftime : Bytes → UInt32 → Bytes) (formatter : LogFormatter)
    (c : LogCall) : Bytes :=
  formatter.format strftime c.level c.event

/-- The file after the calls `cs`. -/
structure Kept (strftime : Bytes → UInt32 → Bytes) (level : LogLevel)
    (formatter : LogFormatter) (cs : List LogCall) (f : FileLog) : Prop where
  level_eq : f.level = level
  formatter_eq : f.formatter = formatter
  content : f.content = ((cs.filter (passes level)).filter
    (·.now = f.lastTime)).flatMap (text strftime formatter)
  last : ∀ c ∈ cs.filter (passes level), c.now ≤ f.lastTime
  seen : cs.filter (passes level) = []
    ∨ ∃ c ∈ cs.filter (passes level), c.now = f.lastTime

variable {level : LogLevel} {formatter : LogFormatter}

/-- A second that is not the last one has no events so far. -/
theorem Kept.none_at (h : Kept strftime level formatter cs f)
    (hle : ∀ d ∈ cs, d.now ≤ c.now) (hne : c.now ≠ f.lastTime) :
    (cs.filter (passes level)).filter (·.now = c.now) = [] := by
  refine List.filter_eq_nil_iff.mpr fun d hd heq => ?_
  have hdc : d.now = c.now := of_decide_eq_true heq
  have hdl := h.last d hd
  rcases h.seen with hnil | hseen
  · rw [hnil] at hd
    nomatch hd
  · obtain ⟨e, he, hel⟩ := hseen
    have hec := hle e (List.mem_of_mem_filter he)
    omega

/-- A call that passes: the second is the current one afterwards, and only
events of this second stay. -/
theorem log_passing (hp : passes f.level c = true) :
    f.log strftime c = ⟨f.level, f.formatter, c.now,
      (if c.now = f.lastTime then f.content else [])
        ++ text strftime f.formatter c⟩ := by
  unfold log
  rw [if_pos (of_decide_eq_true hp)]
  by_cases heq : c.now = f.lastTime
  · rw [if_neg (not_not_intro heq), if_pos heq, heq]
    rfl
  · rw [if_pos heq, if_neg heq]
    rfl

theorem log_not_passing (hp : passes f.level c = false) :
    f.log strftime c = f := by
  unfold log
  exact if_neg (of_decide_eq_false hp)

theorem Kept.log (h : Kept strftime level formatter cs f)
    (hle : ∀ d ∈ cs, d.now ≤ c.now) :
    Kept strftime level formatter (cs ++ [c]) (f.log strftime c) := by
  cases hp : passes level c with
  | true =>
      have hfilter : (cs ++ [c]).filter (passes level)
          = cs.filter (passes level) ++ [c] := by
        rw [List.filter_append, List.filter_cons_of_pos hp, List.filter_nil]
      have hkept : (if c.now = f.lastTime then f.content else [])
          = ((cs.filter (passes level)).filter (·.now = c.now)).flatMap
            (text strftime formatter) := by
        split
        next heq => rw [h.content, heq]
        next hne => rw [h.none_at hle hne, List.flatMap_nil]
      rw [log_passing (by rw [h.level_eq, hp])]
      refine ⟨h.level_eq, h.formatter_eq, ?_, fun d hd => ?_, .inr ⟨c, ?_, rfl⟩⟩
      · have hc : [c].filter (·.now = c.now) = [c] :=
          List.filter_cons_of_pos (decide_eq_true rfl)
        dsimp only
        rw [hfilter, hkept, h.formatter_eq, List.filter_append, hc,
          List.flatMap_append, List.flatMap_singleton]
      · rw [hfilter, List.mem_append, List.mem_singleton] at hd
        rcases hd with hd | rfl
        · exact hle d (List.mem_of_mem_filter hd)
        · exact Nat.le_refl _
      · rw [hfilter]
        exact List.mem_append_right _ (List.mem_singleton_self c)
  | false =>
      have hfilter : (cs ++ [c]).filter (passes level)
          = cs.filter (passes level) := by
        rw [List.filter_append, List.filter_cons_of_neg (by simp [hp]),
          List.filter_nil, List.append_nil]
      rw [log_not_passing (by rw [h.level_eq, hp])]
      refine ⟨h.level_eq, h.formatter_eq, ?_, ?_, ?_⟩
      · rw [hfilter]
        exact h.content
      · rw [hfilter]
        exact h.last
      · rw [hfilter]
        exact h.seen

-- =================================================================== all calls

theorem kept_run (strftime : Bytes → UInt32 → Bytes) (level : LogLevel)
    (formatter : LogFormatter) (old : Bytes)
    (htimes : cs.Pairwise (·.now ≤ ·.now)) :
    Kept strftime level formatter cs
      (cs.foldl (FileLog.log strftime) (.new level formatter old)) := by
  induction cs using List.reverseRecOn with
  | nil => exact ⟨rfl, rfl, rfl, fun c hc => (nomatch hc), .inl rfl⟩
  | append_singleton cs c ih =>
      obtain ⟨hcs, -, hle⟩ := List.pairwise_append.mp htimes
      rw [List.foldl_concat]
      exact (ih hcs).log fun d hd => hle d hd c (List.mem_singleton_self c)

/-- The file has the texts of all events that passed the threshold, in
order, exactly when no event with a text is followed by one in a later
second. -/
theorem file_complete_iff (strftime : Bytes → UInt32 → Bytes)
    (level : LogLevel) (formatter : LogFormatter) (old : Bytes)
    (cs : List LogCall) (htimes : cs.Pairwise (·.now ≤ ·.now)) :
    (cs.foldl (FileLog.log strftime) (.new level formatter old)).content
        = (cs.filter (passes level)).flatMap (text strftime formatter)
      ↔ ∀ c ∈ cs, ∀ d ∈ cs, passes level c = true → passes level d = true →
        c.now < d.now → text strftime formatter c = [] := by
  have h := kept_run strftime level formatter old htimes
  rw [h.content, flatMap_filter_iff]
  constructor
  · intro hempty c hc d hd hpc hpd hlt
    have hdl := h.last d (List.mem_filter.mpr ⟨hd, hpd⟩)
    exact hempty c (List.mem_filter.mpr ⟨hc, hpc⟩)
      (decide_eq_false (by omega))
  · intro hempty c hc hne
    have hcl := h.last c hc
    have hne := of_decide_eq_false hne
    obtain ⟨hcs, hpc⟩ := List.mem_filter.mp hc
    rcases h.seen with hnil | hseen
    · rw [hnil] at hc
      nomatch hc
    · obtain ⟨d, hd, hdl⟩ := hseen
      obtain ⟨hds, hpd⟩ := List.mem_filter.mp hd
      exact hempty c hcs d hds hpc hpd (by omega)

/-- A message at a time. -/
def messageAt (now : Nat) (content : String) : LogCall :=
  ⟨now, .info, ⟨ascii "root", ascii "main.cpp", 1, 0, 0, 1, ascii "main", 0,
    ascii content⟩⟩

/-- Two messages in one second. -/
theorem file_complete_iff_one_second :
    ([messageAt 7 "a", messageAt 7 "b"].foldl (FileLog.log fun _ _ => [])
      (.new .debug (.new (ascii "%m")) (ascii "x"))).content = ascii "ab" :=
  (file_complete_iff (fun _ _ => []) .debug (.new (ascii "%m")) (ascii "x")
    [messageAt 7 "a", messageAt 7 "b"] (by decide)).mpr (by decide)

/-- The message of the second before is gone. -/
theorem earlier_second_lost :
    ([messageAt 7 "a", messageAt 8 "b"].foldl (FileLog.log fun _ _ => [])
      (.new .debug (.new (ascii "%m")) [])).content
      ≠ ([messageAt 7 "a", messageAt 8 "b"].filter (passes .debug)).flatMap
        (text (fun _ _ => []) (.new (ascii "%m"))) := by
  decide

end

end FileLog

end TinyServer
