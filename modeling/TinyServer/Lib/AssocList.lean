/-
Maps as lists of pairs in the order of their keys.

The order is given by a comparison, which may take different keys for the
same; a value that is put under a key takes the place of the one under
the same key, and the key stays as it is spelled there. On lists in order
(`Sorted`) leaving out a key and putting commute (`without_put`,
`without_put_same`), and putting the pairs of such a list one after the
other makes the list again (`foldl_put`).
-/
import Mathlib.Data.List.Basic

namespace Lib.Assoc

open Std

variable {K V : Type} {cmp : K → K → Ordering} {key k : K} {val v : V}
  {m m' : List (K × V)}

/-- `m` with `val` under `key`. -/
def put (cmp : K → K → Ordering) (key : K) (val : V) :
    List (K × V) → List (K × V)
  | [] => [(key, val)]
  | (k, v) :: rest =>
      match cmp key k with
      | .lt => (key, val) :: (k, v) :: rest
      | .eq => (k, val) :: rest
      | .gt => (k, v) :: put cmp key val rest

/-- The value under `key`. -/
def get (cmp : K → K → Ordering) (m : List (K × V)) (key : K) : Option V :=
  (m.find? fun kv => cmp kv.1 key = .eq).map Prod.snd

/-- The pairs with other keys than `key`. -/
def without (cmp : K → K → Ordering) (key : K) (m : List (K × V)) :
    List (K × V) :=
  m.filter fun kv => cmp kv.1 key ≠ .eq

/-- The keys ascend. -/
def Sorted (cmp : K → K → Ordering) (m : List (K × V)) : Prop :=
  m.Pairwise fun a b => cmp a.1 b.1 = .lt

theorem without_of_ne {kv : K × V} (h : cmp kv.1 key ≠ .eq) :
    without cmp key (kv :: m) = kv :: without cmp key m :=
  List.filter_cons_of_pos (by simpa using h)

theorem without_of_eq {kv : K × V} (h : cmp kv.1 key = .eq) :
    without cmp key (kv :: m) = without cmp key m :=
  List.filter_cons_of_neg (by simpa using h)

theorem get_of_eq {kv : K × V} (h : cmp kv.1 key = .eq) :
    get cmp (kv :: m) key = some kv.2 := by
  unfold get
  rw [List.find?_cons_of_pos (by simpa using h)]
  rfl

theorem get_of_ne {kv : K × V} (h : cmp kv.1 key ≠ .eq) :
    get cmp (kv :: m) key = get cmp m key := by
  unfold get
  rw [List.find?_cons_of_neg (by simpa using h)]

theorem sorted_without (h : Sorted cmp m) : Sorted cmp (without cmp key m) :=
  List.Pairwise.filter _ h

/-- Keys and values after a `put` are those before and the new ones. -/
theorem forall_put {P : K → Prop} {Q : V → Prop}
    (h : ∀ kv ∈ m, P kv.1 ∧ Q kv.2) (hkey : P key) (hval : Q val) :
    ∀ kv ∈ put cmp key val m, P kv.1 ∧ Q kv.2 := by
  induction m with
  | nil => exact List.forall_mem_cons.mpr ⟨⟨hkey, hval⟩, h⟩
  | cons kv m ih =>
      obtain ⟨hkv, hm⟩ := List.forall_mem_cons.mp h
      unfold put
      split
      next => exact List.forall_mem_cons.mpr ⟨⟨hkey, hval⟩, h⟩
      next => exact List.forall_mem_cons.mpr ⟨⟨hkv.1, hval⟩, hm⟩
      next => exact List.forall_mem_cons.mpr ⟨hkv, ih hm⟩

/-- A key that is greater than all others comes last. -/
theorem put_last [OrientedCmp cmp] (h : ∀ kv ∈ m, cmp kv.1 key = .lt) :
    put cmp key val m = m ++ [(key, val)] := by
  induction m with
  | nil => rfl
  | cons kv m ih =>
      obtain ⟨hkv, hm⟩ := List.forall_mem_cons.mp h
      unfold put
      rw [OrientedCmp.gt_of_lt hkv]
      exact congrArg (kv :: ·) (ih hm)

/-- A key that is less than all others comes first. -/
theorem put_first (h : ∀ kv ∈ m, cmp key kv.1 = .lt) :
    put cmp key val m = (key, val) :: m := by
  cases m with
  | nil => rfl
  | cons kv m =>
      unfold put
      rw [(List.forall_mem_cons.mp h).1]

section

variable [TransCmp cmp]

theorem sorted_put (h : Sorted cmp m) : Sorted cmp (put cmp key val m) := by
  induction m with
  | nil => exact List.pairwise_singleton _ _
  | cons kv m ih =>
      obtain ⟨hkv, hm⟩ := List.pairwise_cons.mp h
      unfold put
      split
      next hlt =>
        refine List.pairwise_cons.mpr ⟨?_, h⟩
        exact List.forall_mem_cons.mpr
          ⟨hlt, fun kv' hkv' => TransCmp.lt_trans hlt (hkv kv' hkv')⟩
      next => exact List.pairwise_cons.mpr ⟨hkv, hm⟩
      next hgt =>
        refine List.pairwise_cons.mpr ⟨fun kv' hkv' => ?_, ih hm⟩
        exact (forall_put (P := fun k => cmp kv.1 k = .lt) (Q := fun _ => True)
          (fun kv' hkv' => ⟨hkv kv' hkv', trivial⟩) (OrientedCmp.lt_of_gt hgt)
          trivial kv' hkv').1

/-- The pairs of a sorted list, put one after the other. -/
theorem foldl_put (h : Sorted cmp (m' ++ m)) :
    m.foldl (fun m kv => put cmp kv.1 kv.2 m) m' = m' ++ m := by
  induction m generalizing m' with
  | nil => exact (List.append_nil m').symm
  | cons kv m ih =>
      have hlast : put cmp kv.1 kv.2 m' = m' ++ [kv] :=
        put_last fun kv' hkv' =>
          (List.pairwise_append.mp h).2.2 kv' hkv' kv List.mem_cons_self
      rw [List.foldl_cons, hlast, ih (by rw [List.append_assoc]; exact h),
        List.append_assoc]
      rfl

/-- Putting under the key that is left out makes no difference. -/
theorem without_put_same (hk : cmp k key = .eq) :
    without cmp key (put cmp k val m) = without cmp key m := by
  induction m with
  | nil => exact without_of_eq hk
  | cons kv m ih =>
      unfold put
      split
      next => exact without_of_eq hk
      next heq =>
        have hkv : cmp kv.1 key = .eq :=
          TransCmp.eq_trans (OrientedCmp.eq_symm heq) hk
        have hnew : cmp (kv.1, val).1 key = .eq := hkv
        rw [without_of_eq hkv, without_of_eq hnew]
      next =>
        by_cases hkv : cmp kv.1 key = .eq
        · rw [without_of_eq hkv, without_of_eq hkv, ih]
        · rw [without_of_ne hkv, without_of_ne hkv, ih]

/-- Leaving out a key and putting under another one. -/
theorem without_put (h : Sorted cmp m) (hk : cmp k key ≠ .eq) :
    without cmp key (put cmp k val m) = put cmp k val (without cmp key m) := by
  induction m with
  | nil => exact without_of_ne hk
  | cons kv m ih =>
      obtain ⟨hkv, hm⟩ := List.pairwise_cons.mp h
      cases hcmp : cmp k kv.1 with
      | lt =>
          have hput : put cmp k val (kv :: m) = (k, val) :: kv :: m := by
            unfold put
            rw [hcmp]
          rw [hput, without_of_ne hk]
          refine (put_first fun kv' hkv' => ?_).symm
          rcases List.mem_cons.mp (List.mem_of_mem_filter hkv') with rfl | hmem
          · exact hcmp
          · exact TransCmp.lt_trans hcmp (hkv kv' hmem)
      | eq =>
          have hne : cmp kv.1 key ≠ .eq := fun hkv =>
            hk (TransCmp.eq_trans hcmp hkv)
          have hput : ∀ m, put cmp k val (kv :: m) = (kv.1, val) :: m := by
            intro m
            unfold put
            rw [hcmp]
          have hnew : cmp (kv.1, val).1 key ≠ .eq := hne
          rw [hput, without_of_ne hne, hput, without_of_ne hnew]
      | gt =>
          have hput : ∀ m, put cmp k val (kv :: m) = kv :: put cmp k val m := by
            intro m
            rw [put, hcmp]
          rw [hput]
          by_cases hkey : cmp kv.1 key = .eq
          · rw [without_of_eq hkey, without_of_eq hkey, ih hm]
          · rw [without_of_ne hkey, without_of_ne hkey, ih hm, hput]

/-- What is found after a `put`. -/
theorem get_put : get cmp (put cmp k val m) key
    = if cmp k key = .eq then some val else get cmp m key := by
  induction m with
  | nil =>
      split
      next hk => exact get_of_eq hk
      next hk => exact get_of_ne hk
  | cons kv m ih =>
      unfold put
      split
      next =>
        split
        next hk => exact get_of_eq hk
        next hk => exact get_of_ne hk
      next heq =>
        have hkv : cmp kv.1 key = cmp k key :=
          (TransCmp.congr_left (OrientedCmp.eq_symm heq))
        split
        next hk => exact get_of_eq (hkv.trans hk)
        next hk =>
          have hold : cmp kv.1 key ≠ .eq := fun h => hk (hkv.symm.trans h)
          have hnew : cmp (kv.1, val).1 key ≠ .eq := hold
          rw [get_of_ne hnew, get_of_ne hold]
      next hgt =>
        by_cases hkv : cmp kv.1 key = .eq
        · have hk : cmp k key ≠ .eq := fun hk => by
            have heq := TransCmp.eq_trans hk (OrientedCmp.eq_symm hkv)
            rw [hgt] at heq
            nomatch heq
          rw [get_of_eq hkv, if_neg hk, get_of_eq hkv]
        · rw [get_of_ne hkv, ih, get_of_ne hkv]

/-- Other keys are found where one is left out. -/
theorem get_without (h : cmp k key ≠ .eq) :
    get cmp (without cmp key m) k = get cmp m k := by
  induction m with
  | nil => rfl
  | cons kv m ih =>
      by_cases hkv : cmp kv.1 key = .eq
      · have hne : cmp kv.1 k ≠ .eq := fun heq =>
          h (TransCmp.eq_trans (OrientedCmp.eq_symm heq) hkv)
        rw [without_of_eq hkv, get_of_ne hne, ih]
      · rw [without_of_ne hkv]
        by_cases hk : cmp kv.1 k = .eq
        · rw [get_of_eq hk, get_of_eq hk]
        · rw [get_of_ne hk, get_of_ne hk, ih]

/-- A key that is found is there once. -/
theorem filter_of_get (h : Sorted cmp m) (hget : get cmp m key = some v) :
    ∃ kv, (m.filter fun kv => cmp kv.1 key = .eq) = [kv] ∧ kv.2 = v := by
  induction m with
  | nil => cases hget
  | cons kv m ih =>
      obtain ⟨hkv, hm⟩ := List.pairwise_cons.mp h
      by_cases heq : cmp kv.1 key = .eq
      · have hrest : (m.filter fun kv => cmp kv.1 key = .eq) = [] := by
          apply List.filter_eq_nil_iff.mpr
          intro kv' hkv' heq'
          have hlt := hkv kv' hkv'
          rw [TransCmp.eq_trans heq
            (OrientedCmp.eq_symm (of_decide_eq_true heq'))] at hlt
          cases hlt
        refine ⟨kv, ?_, ?_⟩
        · rw [List.filter_cons_of_pos (by simpa using heq), hrest]
        · rw [get_of_eq heq] at hget
          exact Option.some.inj hget
      · rw [get_of_ne heq] at hget
        rw [List.filter_cons_of_neg (by simpa using heq)]
        exact ih hm hget

/-- A key that is left out is not found. -/
theorem get_without_same (h : cmp k key = .eq) :
    get cmp (without cmp key m) k = none := by
  unfold get without
  rw [Option.map_eq_none_iff, List.find?_eq_none]
  intro kv hkv heq
  have hne := (List.mem_filter.mp hkv).2
  rw [TransCmp.eq_trans (of_decide_eq_true heq) h] at hne
  exact absurd hne (by decide)

-- ============================================================ many pairs

theorem sorted_foldl_put (h : Sorted cmp m) :
    Sorted cmp (m'.foldl (fun m kv => put cmp kv.1 kv.2 m) m) := by
  induction m' generalizing m with
  | nil => exact h
  | cons kv m' ih => exact ih (sorted_put h)

variable (hl : ∀ kv ∈ m', cmp kv.1 key ≠ .eq)
include hl

theorem without_foldl_put (h : Sorted cmp m) :
    without cmp key (m'.foldl (fun m kv => put cmp kv.1 kv.2 m) m)
      = m'.foldl (fun m kv => put cmp kv.1 kv.2 m) (without cmp key m) := by
  induction m' generalizing m with
  | nil => rfl
  | cons kv m' ih =>
      obtain ⟨hkv, hl⟩ := List.forall_mem_cons.mp hl
      rw [List.foldl_cons, List.foldl_cons, ih hl (sorted_put h),
        without_put h hkv]

theorem get_foldl_put :
    get cmp (m'.foldl (fun m kv => put cmp kv.1 kv.2 m) m) key
      = get cmp m key := by
  induction m' generalizing m with
  | nil => rfl
  | cons kv m' ih =>
      obtain ⟨hkv, hl⟩ := List.forall_mem_cons.mp hl
      rw [List.foldl_cons, ih hl, get_put, if_neg hkv]

end

end Lib.Assoc
