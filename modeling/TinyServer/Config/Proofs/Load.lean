/-
`LoadFromYaml` applies exactly the tree.

# The tree

`YamlTree.nodes` lists all nodes of a tree with the keys that lead to
them, parents before their members, and `dotted` joins keys by dots.
What `ListAllMember` collects is this list without the nodes that have a
name with a foreign character on the way (`listAllMember_eq`).

# The variables

A variable is changed by the nodes with its name only, each in turn
(`foldl_apply_datas`), and of these by the ones that convert only
(`foldl_fromString`). The name of the root is empty, and so are the names
of the members it has under empty keys; `LoadFromYaml` passes these over.
-/
import Mathlib.Data.List.Infix
import TinyServer.Config.Load

namespace TinyServer

open Http (Bytes toLower ascii)

-- ============================================================== the vocabulary

mutual

/-- All nodes in pre-order, each with the keys on the way to it. -/
def YamlTree.nodes (node : YamlTree) : List (List Bytes × YamlTree) :=
  ([], node) ::
    match node with
    | .map entries => YamlTree.entryNodes entries
    | _ => []

def YamlTree.entryNodes :
    List (YamlTree × YamlTree) → List (List Bytes × YamlTree)
  | [] => []
  | (first, second) :: entries =>
      second.nodes.map (fun item => (first.text :: item.1, item.2))
        ++ YamlTree.entryNodes entries

end

/-- A path in dots. Empty keys at its beginning leave no dot. -/
def dotted (path : List Bytes) : Bytes :=
  (ascii ".").intercalate (path.dropWhile (· = []))

/-- The paths of the nodes around a node use allowed characters only. -/
def enclosed (path : List Bytes) : Bool :=
  path.inits.dropLast.all fun p => (dotted p).all isMemberChar

/-- The nodes that are meant for the variable `k`. -/
def nodesFor (root : YamlTree) (k : Bytes) : List YamlTree :=
  (root.nodes.filter fun item =>
    (dotted item.1).map toLower = k && enclosed item.1).map Prod.snd

/-- The values that the nodes for `k` convert to. -/
def conversions {T : Type} (emit : YamlTree → Bytes)
    (fromStr : Bytes → Option T)
    (root : YamlTree) (k : Bytes) : List T :=
  (nodesFor root k).filterMap fun node =>
    fromStr (ConfigObjects.textOf emit node)

-- ======================================================================= paths

/-- The name of the node at `path` below the node named `pre`. -/
private def named (pre : Bytes) (path : List Bytes) : Bytes :=
  path.foldl memberName pre

theorem named_ne {pre : Bytes} (h : pre ≠ []) (path : List Bytes) :
    named pre path = (ascii ".").intercalate (pre :: path) := by
  induction path generalizing pre with
  | nil => exact List.intercalate_singleton.symm
  | cons key path ih =>
      have hne : memberName pre key ≠ [] := by
        simp [memberName, h]
      show named (memberName pre key) path = _
      rw [ih hne, List.intercalate_cons_cons, memberName, if_neg h]
      cases path with
      | nil => simp
      | cons key' path =>
          rw [List.intercalate_cons_cons, List.intercalate_cons_cons]
          simp

theorem named_nil (path : List Bytes) : named [] path = dotted path := by
  induction path with
  | nil => rfl
  | cons key path ih =>
      show named (memberName [] key) path = _
      rw [memberName, if_pos rfl]
      by_cases hkey : key = []
      · subst hkey
        rw [ih]
        rfl
      · rw [named_ne hkey]
        simp [dotted, hkey]

/-- All names on the way to the node at `path`, its own included, use
allowed characters only. -/
private def allowed (pre : Bytes) (path : List Bytes) : Bool :=
  path.inits.all fun p => (named pre p).all isMemberChar

theorem allowed_nil (pre : Bytes) :
    allowed pre [] = pre.all isMemberChar := by
  simp [allowed, named]

theorem allowed_cons (pre key : Bytes) (path : List Bytes) :
    allowed pre (key :: path)
      = (pre.all isMemberChar && allowed (memberName pre key) path) := by
  simp [allowed, named, List.all_map, Function.comp_def]

theorem any_not_member (pre : Bytes) :
    (pre.any fun b => !isMemberChar b) = !pre.all isMemberChar := by
  simp [List.all_eq_not_any_not]

theorem allowed_start {pre : Bytes} {path : List Bytes}
    (h : allowed pre path = true) : pre.all isMemberChar = true := by
  cases path with
  | nil => exact (allowed_nil pre).symm.trans h
  | cons key path =>
      rw [allowed_cons] at h
      exact (Bool.and_eq_true_iff.mp h).1

mutual

/-- `ListAllMember` collects the nodes with allowed names on the way. -/
theorem listAllMember_eq (pre : Bytes) (node : YamlTree) :
    listAllMember pre node
      = (node.nodes.filter fun item => allowed pre item.1).map
          fun item => (named pre item.1, item.2) := by
  unfold listAllMember
  rw [any_not_member]
  by_cases hpre : pre.all isMemberChar = true
  · have hroot : allowed pre [] = true := (allowed_nil pre).trans hpre
    cases node with
    | map entries =>
        rw [YamlTree.nodes, List.filter_cons, if_pos hroot]
        simp only [hpre, listEntries_eq pre hpre entries]
        rfl
    | _ =>
        simp only [YamlTree.nodes, hpre, hroot, List.filter_cons]
        rfl
  · have hnone : node.nodes.filter (fun item => allowed pre item.1) = [] := by
      apply List.filter_eq_nil_iff.mpr
      intro item _ h
      exact hpre (allowed_start h)
    rw [hnone]
    simp [hpre]

theorem listEntries_eq (pre : Bytes) (hpre : pre.all isMemberChar = true)
    (entries : List (YamlTree × YamlTree)) :
    listEntries pre entries
      = ((YamlTree.entryNodes entries).filter
          fun item => allowed pre item.1).map
            fun item => (named pre item.1, item.2) := by
  match entries with
  | [] => rfl
  | (first, second) :: entries =>
      have hmember := listAllMember_eq (memberName pre first.text) second
      have hrest := listEntries_eq pre hpre entries
      rw [listEntries, YamlTree.entryNodes, List.filter_append,
        List.map_append, hmember, hrest, List.filter_map, List.map_map]
      simp [Function.comp_def, allowed_cons, hpre, named]

end

/-- A name in lower case that is allowed is allowed in any case. -/
theorem all_isMemberChar {name k : Bytes} (h : name.map toLower = k)
    (hk : k.all isNameChar = true) : name.all isMemberChar = true := by
  subst h
  rw [List.all_map] at hk
  refine List.all_eq_true.mpr fun b hb => ?_
  have hlow : isNameChar (toLower b) = true := List.all_eq_true.mp hk b hb
  unfold toLower at hlow
  split at hlow
  next hupper => simp [isMemberChar, hupper]
  next => simp [isMemberChar, hlow]

/-- The prefixes of a path are the proper ones and the path. -/
theorem inits_eq_concat (path : List Bytes) :
    path.inits = path.inits.dropLast ++ [path] := by
  rcases List.eq_nil_or_concat path with rfl | ⟨front, key, rfl⟩
  · rfl
  · simp [List.inits_append]

/-- A node that has a valid name up to case has an allowed name. -/
theorem allowed_iff {path : List Bytes} {k : Bytes}
    (h : (dotted path).map toLower = k) (hk : k.all isNameChar = true) :
    allowed [] path = enclosed path := by
  have hself := all_isMemberChar h hk
  unfold allowed enclosed
  simp only [named_nil]
  rw [inits_eq_concat, List.all_append]
  simp [hself]

/-- What `ListAllMember` collects for a variable. -/
theorem filter_listAllMember {root : YamlTree} {k : Bytes}
    (hk : k.all isNameChar = true) :
    ((listAllMember [] root).filter fun item =>
        item.1.map toLower = k).map Prod.snd = nodesFor root k := by
  rw [listAllMember_eq, List.filter_map, List.map_map, List.filter_filter]
  unfold nodesFor
  have hsame : ∀ item ∈ root.nodes,
      (((fun item : Bytes × YamlTree => decide (item.1.map toLower = k)) ∘
          fun item : List Bytes × YamlTree => (named [] item.1, item.2)) item
        && allowed [] item.1)
      = (decide ((dotted item.1).map toLower = k) && enclosed item.1) := by
    intro item _
    simp only [Function.comp_apply, named_nil]
    by_cases h : (dotted item.1).map toLower = k
    · rw [allowed_iff h hk]
    · simp [h]
  rw [List.filter_congr hsame]
  rfl

-- =================================================================== variables

namespace ConfigRun

variable {T : Type} [DecidableEq T] {s : ConfigRun T}

/-- `setValue` is its two sections, one right after the other. -/
theorem setValue_sections {t : Nat} (ht : s.pending t = none) (value : T) :
    s.compare t value = s ∧ s.setValue value = s
      ∨ (s.compare t value).step (.assign t) = some (s.setValue value) := by
  unfold compare setValue
  split
  next => exact .inl ⟨rfl, rfl⟩
  next hne =>
      right
      simp only [step, setPending, if_true]
      refine congrArg some ?_
      congr
      funext u
      by_cases hu : u = t
      · rw [if_pos hu, hu, ht]
      · rw [if_neg hu, if_neg hu]

theorem setValue_eq (s : ConfigRun T) (value : T) :
    ∃ told, s.setValue value = { s with
      var := { s.var with val := value }
      invoked := s.invoked ++ told } := by
  unfold setValue
  split
  next heq =>
      refine ⟨[], ?_⟩
      rw [← heq, List.append_nil]
  next => exact ⟨_, rfl⟩

/-- After several values have been set the last one is there. -/
theorem foldl_setValue (values : List T) :
    ∀ s : ConfigRun T, ∃ told, (values = [] → told = [])
      ∧ values.foldl setValue s = { s with
        var := { s.var with val := values.getLast?.getD s.var.val }
        invoked := s.invoked ++ told } := by
  induction values with
  | nil => exact fun s => ⟨[], fun _ => rfl, by simp⟩
  | cons value values ih =>
      intro s
      obtain ⟨first, hfirst⟩ := setValue_eq s value
      obtain ⟨rest, -, hrest⟩ := ih (s.setValue value)
      refine ⟨first ++ rest, ?_, ?_⟩
      · intro h
        cases h
      · rw [List.foldl_cons, hrest, hfirst, List.getLast?_cons]
        simp

end ConfigRun

namespace ConfigObjects

variable {emit : YamlTree → Bytes}

/-- Of the texts for a variable only those that convert count. -/
theorem foldl_fromString (texts : List Bytes) (c : ConfigObject) :
    texts.foldl ConfigObject.fromString c = { c with
      run := (texts.filterMap c.fromStr).foldl ConfigRun.setValue c.run } := by
  induction texts generalizing c with
  | nil => rfl
  | cons text texts ih =>
      rw [List.foldl_cons, ih, ConfigObject.fromString]
      cases h : c.fromStr text with
      | none => simp [h]
      | some value => simp [h]

theorem apply_datas (s : ConfigObjects) (item : Bytes × YamlTree) {k : Bytes}
    (hk : k ≠ []) :
    (s.apply emit item).datas k
      = if item.1.map toLower = k then
          (s.datas k).map (·.fromString (textOf emit item.2))
        else s.datas k := by
  unfold apply
  split
  next hempty =>
      rw [hempty, if_neg]
      exact fun h => hk h.symm
  next =>
      simp only [modify, eq_comm]

/-- A variable is changed by the items with its name only. -/
theorem foldl_apply_datas (items : List (Bytes × YamlTree)) {k : Bytes}
    (hk : k ≠ []) (s : ConfigObjects) :
    (items.foldl (apply emit) s).datas k
      = (s.datas k).map fun c =>
          ((items.filter fun item => item.1.map toLower = k).map
            fun item => textOf emit item.2).foldl ConfigObject.fromString
              c := by
  induction items generalizing s with
  | nil => simp
  | cons item items ih =>
      rw [List.foldl_cons, ih, apply_datas s item hk]
      by_cases h : item.1.map toLower = k
      · simp [h, Function.comp_def]
      · simp [h]

/-- An item that does not convert changes nothing. -/
theorem apply_failing {s : ConfigObjects} {item : Bytes × YamlTree}
    {c : ConfigObject} (hc : s.datas (item.1.map toLower) = some c)
    (hfail : c.fromStr (textOf emit item.2) = none) :
    s.apply emit item = s := by
  unfold apply
  split
  next => rfl
  next =>
      obtain ⟨datas, names⟩ := s
      unfold modify
      congr
      funext n
      split
      next hn =>
          simp only at hc ⊢
          rw [hn, hc, Option.map_some, ConfigObject.fromString, hfail]
      next => rfl

/-- The variable without a name is never changed. -/
theorem foldl_apply_unnamed (items : List (Bytes × YamlTree))
    (s : ConfigObjects) :
    (items.foldl (apply emit) s).datas [] = s.datas [] := by
  induction items generalizing s with
  | nil => rfl
  | cons item items ih =>
      rw [List.foldl_cons, ih]
      unfold apply
      split
      next => rfl
      next hne =>
          refine if_neg fun h => hne ?_
          exact List.map_eq_nil_iff.mp h.symm

/-- After `LoadFromYaml` a variable with a name has the conversion of the
last node for it that converts; without such a node it is as it was. The
variable without a name stays as it was, and what does not convert changes
no variable. -/
theorem loadFromYaml_exact {s : ConfigObjects} {root : YamlTree} {k : Bytes}
    {c : ConfigObject} (hc : s.datas k = some c) :
    (k ≠ [] → ∃ told,
        (conversions emit c.fromStr root k = [] → told = [])
          ∧ (s.loadFromYaml emit root).datas k = some { c with
            run := { c.run with
              var := { c.run.var with
                val := (conversions emit c.fromStr root k).getLast?.getD
                  c.run.var.val }
              invoked := c.run.invoked ++ told } })
      ∧ (k = [] → (s.loadFromYaml emit root).datas k = some c)
      ∧ ∀ (t : ConfigObjects) (item : Bytes × YamlTree) (d : ConfigObject),
          t.datas (item.1.map toLower) = some d →
          d.fromStr (textOf emit item.2) = none → t.apply emit item = t := by
  refine ⟨fun hk => ?_, fun hk => ?_, fun t item d => apply_failing⟩
  · have hitems : (((listAllMember [] root).filter fun item =>
          item.1.map toLower = k).map fun item =>
            textOf emit item.2).filterMap c.fromStr
        = conversions emit c.fromStr root k := by
      unfold conversions
      rw [← filter_listAllMember (s.names k c hc), List.filterMap_map,
        List.filterMap_map]
      rfl
    obtain ⟨told, hnone, htold⟩ := ConfigRun.foldl_setValue
      (conversions emit c.fromStr root k) c.run
    refine ⟨told, hnone, ?_⟩
    rw [loadFromYaml, foldl_apply_datas _ hk, hc, Option.map_some,
      foldl_fromString, hitems, htold]
  · subst hk
    exact (foldl_apply_unnamed _ s).trans hc

end ConfigObjects

-- ============================================================ the registration

namespace ConfigDatas

variable {Ty : Type} [DecidableEq Ty]

/-- The names in the map have passed the test in `Lookup`. -/
theorem run_names (calls : List (Ty × Bytes)) {s : ConfigDatas Ty}
    (h : ∀ k v, s.datas k = some v → k.all isNameChar = true) (k : Bytes)
    (v : ConfigVarRef Ty) (hv : (s.run calls).datas k = some v) :
    k.all isNameChar = true := by
  induction calls generalizing s with
  | nil => exact h k v hv
  | cons call calls ih =>
      refine ih ?_ hv
      intro n u hu
      unfold lookupDefault at hu
      simp only at hu
      split at hu
      next => split at hu <;> exact h n u hu
      next =>
          split at hu
          next => exact h n u hu
          next hvalid =>
              simp only [register] at hu
              split at hu
              next hn =>
                  subst hn
                  simpa using hvalid
              next => exact h n u hu

end ConfigDatas

namespace ConfigObjects

/-- The variables that calls of `Lookup` have made. -/
def ofLookups {Ty : Type} [DecidableEq Ty] (calls : List (Ty × Bytes))
    (object : ConfigVarRef Ty → ConfigObject) : ConfigObjects where
  datas k := ((ConfigDatas.empty.run calls).datas k).map object
  names := by
    intro k c hc
    obtain ⟨v, hv, -⟩ := Option.map_eq_some_iff.mp hc
    exact ConfigDatas.run_names calls (fun _ _ h => by cases h) k v hv

/-- A decimal number. -/
def toNumber (text : Bytes) : Option Nat :=
  if text.all fun b => 48 ≤ b && b ≤ 57 then
    some (text.foldl (fun n b => 10 * n + (b.toNat - 48)) 0)
  else none

/-- A variable for numbers. -/
def number (run : ConfigRun Nat) : ConfigObject :=
  ⟨Nat, inferInstance, toNumber, run⟩

/-- Two nodes for the port, of which the second does not convert, and one
that has a foreign character on the way to it. -/
def portConf : YamlTree :=
  .map [(.scalar (ascii "System"), .map [
      (.scalar (ascii "Port"), .scalar (ascii "9900")),
      (.scalar (ascii "port"), .scalar (ascii "none"))]),
    (.scalar (ascii "system port"), .map [
      (.scalar (ascii "port"), .scalar (ascii "1"))])]

/-- The port, with one callback. -/
def portObjects : ConfigObjects :=
  ofLookups [((), ascii "system.port")] fun _ => number (.new 8080 [1])

theorem loadFromYaml_exact_port :
    ∃ told, (portObjects.loadFromYaml (fun _ => []) portConf).datas
        (ascii "system.port")
      = some (number ⟨⟨9900, [1]⟩, told, fun _ => none⟩) := by
  have hport : portObjects.datas (ascii "system.port")
      = some (number (.new 8080 [1])) := rfl
  have hlast : (conversions (fun _ => []) toNumber portConf
      (ascii "system.port")).getLast? = some 9900 := by decide
  obtain ⟨told, -, hload⟩ := (loadFromYaml_exact hport).1 (by decide)
  refine ⟨told, hload.trans ?_⟩
  show some (number ⟨⟨(conversions (fun _ => []) toNumber portConf
    (ascii "system.port")).getLast?.getD 8080, [1]⟩, told, _⟩) = _
  rw [hlast]
  rfl

/-- A variable without a name, and a node for it. -/
def unnamedObjects : ConfigObjects :=
  ofLookups [((), [])] fun _ => number (.new 0 [1])

def unnamedConf : YamlTree := .map [(.scalar [], .scalar (ascii "5"))]

theorem unnamed_not_loaded :
    ¬ ∀ (emit : YamlTree → Bytes) (s : ConfigObjects) (root : YamlTree)
      (k : Bytes) (c : ConfigObject), s.datas k = some c →
      ∃ told, (s.loadFromYaml emit root).datas k = some { c with
        run := { c.run with
          var := { c.run.var with
            val := (conversions emit c.fromStr root k).getLast?.getD
              c.run.var.val }
          invoked := c.run.invoked ++ told } } := by
  intro hall
  obtain ⟨told, hload⟩ := hall (fun _ => []) unnamedObjects unnamedConf []
    (number (.new 0 [1])) rfl
  have hlast : (conversions (fun _ => []) toNumber unnamedConf []).getLast?
      = some 5 := by decide
  have hsame : (unnamedObjects.loadFromYaml (fun _ => [])
      unnamedConf).datas [] = some (number (.new 0 [1])) := rfl
  have hval : some (number (.new 0 [1])) = some (number
      ⟨⟨(conversions (fun _ => []) toNumber unnamedConf []).getLast?.getD 0,
        [1]⟩, told, fun _ => none⟩) := hsame.symm.trans hload
  rw [hlast] at hval
  injection Option.some.inj hval with _ _ _ hrun
  have hzero : (0 : Nat) = 5 := congrArg (fun r => r.var.val) hrun
  cases hzero

end ConfigObjects

end TinyServer
