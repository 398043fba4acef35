/-
What `Env::init` takes for a command line, and what it stores of it.

The items of the grammar are written one behind the other (`Item.args`). A
key waits in `now_key` for its value, and whatever is not a value stores it
without one (`initLoop_flush`); so the loop takes the arguments item by
item (`initLoop_items`), and no others (`items_of_initLoop`).
-/
import TinyServer.Env.Basic

namespace TinyServer.Env

open Http (Bytes)

/-- A key and its value, if it has one. -/
structure Item where
  key : Bytes
  value : Option Bytes

/-- The key is not empty, and the value does not start with `-`. -/
structure Item.Good (i : Item) : Prop where
  key : i.key ≠ []
  value : ∀ v, i.value = some v → v.head? ≠ some 45

/-- `-key`, and the value. -/
def Item.args (i : Item) : List Bytes := (45 :: i.key) :: i.value.toList

/-- The arguments are these items, one behind the other. -/
structure Spells (items : List Item) (args : List Bytes) : Prop where
  good : ∀ i ∈ items, i.Good
  eq : args = items.flatMap Item.args

/-- The items are stored. -/
structure Stores (items : List Item) (env env' : Env) : Prop where
  has : ∀ key, env'.has key = true
    ↔ (∃ i ∈ items, i.key = key) ∨ env.has key = true
  last : ∀ before i after, items = before ++ i :: after →
    (∀ j ∈ after, j.key ≠ i.key) → ∀ d, env'.get i.key d = i.value.getD []
  other : ∀ key, (∀ i ∈ items, i.key ≠ key) →
    ∀ d, env'.get key d = env.get key d

variable {args : List Bytes} {env : Env} {items : List Item} {key : Bytes}

-- =================================================================== accepting

/-- What is stored of items. -/
def store (items : List Item) (env : Env) : Env :=
  items.foldl (fun env i => env.add i.key (i.value.getD [])) env

/-- An argument with a dash is the next key. -/
theorem initLoop_key (hne : key ≠ []) (nowKey : Option Bytes)
    (args : List Bytes) (env : Env) :
    initLoop nowKey ((45 :: key) :: args) env
      = initLoop (some key) args (env.flush nowKey) := by
  have hlen : 1 < (45 :: key).length :=
    Nat.succ_lt_succ (List.length_pos_iff.mpr hne)
  conv => lhs; unfold initLoop
  rw [if_pos List.head?_cons, if_pos hlen]
  rfl

/-- One without a dash is the value of the key before it. -/
theorem initLoop_value {v : Bytes} (hv : v.head? ≠ some 45) (key : Bytes)
    (args : List Bytes) (env : Env) :
    initLoop (some key) (v :: args) env
      = initLoop none args (env.add key v) := by
  rw [initLoop, if_neg hv]

/-- Behind the items there is no value for a key. -/
theorem initLoop_flush (hgood : ∀ i ∈ items, i.Good) (key : Bytes) (env : Env) :
    initLoop (some key) (items.flatMap Item.args) env
      = initLoop none (items.flatMap Item.args) (env.add key []) := by
  cases items with
  | nil => rfl
  | cons i items =>
      have hkey := (hgood i List.mem_cons_self).key
      rw [List.flatMap_cons, Item.args, List.cons_append, initLoop_key hkey,
        initLoop_key hkey]
      rfl

/-- Items that are well formed are stored one by one. -/
theorem initLoop_items (hgood : ∀ i ∈ items, i.Good) (env : Env) :
    initLoop none (items.flatMap Item.args) env = (true, store items env) := by
  induction items generalizing env with
  | nil => rfl
  | cons i items ih =>
      obtain ⟨hi, hitems⟩ := List.forall_mem_cons.mp hgood
      have hrest :
          initLoop (some i.key) (i.value.toList ++ items.flatMap Item.args)
          env = initLoop none (items.flatMap Item.args)
            (env.add i.key (i.value.getD [])) := by
        cases hv : i.value with
        | none => exact initLoop_flush hitems i.key env
        | some v => exact initLoop_value (hi.value v hv) i.key _ env
      rw [List.flatMap_cons, Item.args, List.cons_append, initLoop_key hi.key]
      show initLoop (some i.key) _ env = _
      rw [hrest, ih hitems]
      rfl

/-- What the loop has read when it accepts: the value of the key that waits,
if there is one, and items. -/
def Accepts (nowKey : Option Bytes) (args : List Bytes) : Prop :=
  ∃ (v : Option Bytes) (items : List Item),
    (nowKey = none → v = none) ∧ (∀ b, v = some b → b.head? ≠ some 45)
      ∧ (∀ i ∈ items, i.Good) ∧ args = v.toList ++ items.flatMap Item.args

/-- And what is accepted consists of such items. -/
theorem items_of_initLoop {nowKey : Option Bytes}
    (h : (initLoop nowKey args env).1 = true) : Accepts nowKey args := by
  induction args generalizing nowKey env with
  | nil => exact ⟨none, [], fun _ => rfl, nofun, nofun, rfl⟩
  | cons arg rest ih =>
      unfold initLoop at h
      split at h
      next hkey =>
        split at h
        next hlen =>
          -- the next key, and its value
          obtain ⟨v, items, -, hv, hitems, hrest⟩ := ih h
          obtain ⟨key, rfl⟩ : ∃ key, arg = 45 :: key := by
            cases arg with
            | nil => cases hkey
            | cons b key => exact ⟨key, by rw [Option.some.inj hkey]⟩
          have hne : key ≠ [] := by
            rintro rfl
            exact absurd hlen (by decide)
          refine ⟨none, ⟨key, v⟩ :: items, fun _ => rfl, nofun, ?_, ?_⟩
          · exact List.forall_mem_cons.mpr ⟨⟨hne, hv⟩, hitems⟩
          · rw [hrest]
            rfl
        next => cases h
      next hvalue =>
        cases nowKey with
        | none => cases h
        | some key =>
            obtain ⟨v, items, hnone, -, hitems, hrest⟩ := ih h
            rw [hnone rfl] at hrest
            refine ⟨some arg, items, nofun, ?_, hitems, congrArg _ hrest⟩
            rintro b ⟨⟩
            exact hvalue

-- ===================================================================== storing

/-- The value that was added, -/
theorem add_self (key v : Bytes) (env : Env) :
    (env.add key v).args key = some v :=
  Function.update_self ..

/-- and those of the other keys. -/
theorem add_other {k : Bytes} (h : k ≠ key) (v : Bytes) (env : Env) :
    (env.add k v).args key = env.args key :=
  Function.update_of_ne (Ne.symm h) ..

/-- A key is there when an item has it, or when it was before. -/
theorem store_has (items : List Item) (env : Env) (key : Bytes) :
    (store items env).has key = true
      ↔ (∃ i ∈ items, i.key = key) ∨ env.has key = true := by
  induction items generalizing env with
  | nil => simp [store]
  | cons i items ih =>
      show (store items (env.add i.key _)).has key = true ↔ _
      have hadd : (env.add i.key (i.value.getD [])).has key = true
          ↔ i.key = key ∨ env.has key = true := by
        unfold has
        by_cases hkey : i.key = key
        · rw [hkey, add_self]
          exact iff_of_true rfl (.inl rfl)
        · rw [add_other hkey, or_iff_right hkey]
      rw [ih, hadd, List.exists_mem_cons_iff, or_left_comm, or_assoc]

/-- A key that no item has keeps its value. -/
theorem store_other (h : ∀ i ∈ items, i.key ≠ key) (env : Env) :
    (store items env).args key = env.args key := by
  induction items generalizing env with
  | nil => rfl
  | cons i items ih =>
      obtain ⟨hi, hitems⟩ := List.forall_mem_cons.mp h
      show (store items (env.add i.key _)).args key = _
      rw [ih hitems, add_other hi]

/-- What the items store, key by key. -/
theorem store_stores (items : List Item) {old : Env} (h : old.args = env.args) :
    Stores items old (store items env) where
  has key := by
    rw [store_has, has, has, h]
  last before i after hitems hafter d := by
    have hsplit : store items env
        = store after ((store before env).add i.key (i.value.getD [])) := by
      rw [hitems]
      exact List.foldl_append
    rw [get, hsplit, store_other hafter, add_self, Option.getD_some]
  other key hkey d := by rw [get, store_other hkey, get, h]

/-- `Env::init` accepts the sequences of items, and stores them. -/
theorem init_iff (path program : Bytes) (args : List Bytes) (env : Env) :
    ((init path program args env).1 = true ↔ ∃ items, Spells items args)
      ∧ ∀ items, Spells items args →
        Stores items env (init path program args env).2 := by
  have hitems : ∀ items, Spells items args → init path program args env
      = (true, store items { env with exe := path, cwd := directory path
        ++ [47],
                                      program := program }) := by
    intro items h
    rw [init, h.eq, initLoop_items h.good]
  refine ⟨⟨fun h => ?_, fun ⟨items, h⟩ => ?_⟩, fun items h => ?_⟩
  · obtain ⟨v, items, hnone, -, hgood, heq⟩ := items_of_initLoop h
    rw [hnone rfl] at heq
    exact ⟨items, hgood, heq⟩
  · rw [hitems items h]
  · rw [hitems items h]
    exact store_stores items rfl

end TinyServer.Env
