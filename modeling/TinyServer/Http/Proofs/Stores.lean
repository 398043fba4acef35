/-
The stores of a request as maps.

Each store holds under a key what was set last under a key that is the
same up to the case of letters (`find_calls`). The typed accessors of all
three stores look in the headers, so they are right for a key exactly
where the three stores hold the same under it.
-/
import TinyServer.Http.Proofs.Headers
import TinyServer.Http.Stores

namespace TinyServer.Http

open Lib

variable {k key val : Bytes} {s : Store} {c : StoreCall} {cs : List StoreCall}

-- ==================================================================== one map

theorem Headers.find_set (h : Headers) (hkey : 0 ∉ key) (hk : 0 ∉ k) :
    (h.set key val).find k
      = if key.map toLower = k.map toLower then some val else h.find k := by
  rw [Headers.find_eq_get, Headers.set_eq_put, Assoc.get_put,
    Headers.find_eq_get]
  simp only [strcasecmp_eq_iff hkey hk]

theorem Headers.find_erase (h : Headers) (hkey : 0 ∉ key) (hk : 0 ∉ k) :
    (h.erase key).find k
      = if key.map toLower = k.map toLower then none else h.find k := by
  have herase : h.erase key = Assoc.without strcasecmp key h := rfl
  rw [Headers.find_eq_get, herase, Headers.find_eq_get]
  split
  next heq =>
    apply Assoc.get_without_same
    exact (strcasecmp_eq_iff hk hkey).mpr heq.symm
  next hne =>
    apply Assoc.get_without
    exact fun heq => hne ((strcasecmp_eq_iff hk hkey).mp heq).symm

-- ================================================================ three maps

namespace StoredRequest

variable {q : StoredRequest}

/-- A call changes the map of its store. -/
theorem maps_call (q : StoredRequest) (c : StoreCall) (s : Store) :
    (q.call c).maps s
      = if c.store = s then
          match c.left with
          | some val => (q.maps s).set c.key val
          | none => (q.maps s).erase c.key
        else q.maps s := by
  cases c <;> cases s <;> rfl

theorem find_call (q : StoredRequest) (hc : 0 ∉ c.key) (hk : 0 ∉ k)
    (s : Store) : ((q.call c).maps s).find k
      = (c.under s k).getD ((q.maps s).find k) := by
  rw [maps_call]
  unfold StoreCall.under
  by_cases hs : c.store = s
  · rw [if_pos hs]
    cases hleft : c.left with
    | some val =>
        simp only [Headers.find_set _ hc hk, hs, true_and]
        split <;> rfl
    | none =>
        simp only [Headers.find_erase _ hc hk, hs, true_and]
        split <;> rfl
  · rw [if_neg hs, if_neg fun h => hs h.1]
    rfl

/-- What is in a store under `k` after the calls. -/
theorem find_calls (version : Nat) (close : Bool)
    (hcs : ∀ c ∈ cs, 0 ∉ c.key) (hk : 0 ∉ k) (s : Store) {v : Bytes} :
    ((calls version close cs).maps s).find k = some v
      ↔ LastSet (StoreCall.under s k) cs v := by
  refine look_iff_lastSet (fun q : StoredRequest => (q.maps s).find k) ?_
    fun q c hc => find_call q (hcs c hc) hk s
  cases s <;> rfl

/-- The untyped accessors look in their own store. -/
theorem get_eq (q : StoredRequest) (s : Store) (k dflt : Bytes) :
    q.get s k dflt = ((q.maps s).find k).getD dflt := by
  cases s <;>
    · unfold get maps
      simp only [getHeader, getParma, getCookie]
      split
      next h => rw [h]; rfl
      next h => rw [h]; rfl

/-- Without a condition: the untyped accessors return what was set last
in their store, or else the default. -/
theorem get_calls (version : Nat) (close : Bool)
    (hcs : ∀ c ∈ cs, 0 ∉ c.key) (hk : 0 ∉ k) (s : Store) (dflt : Bytes) :
    (∀ v, LastSet (StoreCall.under s k) cs v →
        (calls version close cs).get s k dflt = v)
      ∧ ((∀ v, ¬ LastSet (StoreCall.under s k) cs v) →
        (calls version close cs).get s k dflt = dflt) := by
  have hfind := fun v => find_calls (v := v) version close hcs hk s
  refine ⟨fun v hv => ?_, fun hnone => ?_⟩
  · rw [get_eq, (hfind v).mpr hv]
    rfl
  · have hno : ((calls version close cs).maps s).find k = none :=
      Option.eq_none_iff_forall_ne_some.mpr fun v hv =>
        hnone v ((hfind v).mp hv)
    rw [get_eq, hno]
    rfl

/-- Other stores are left alone. -/
theorem get_call_of_ne (q : StoredRequest) {c : StoreCall} {s : Store}
    (h : c.store ≠ s) (k dflt : Bytes) :
    (q.call c).get s k dflt = q.get s k dflt := by
  rw [get_eq, get_eq, maps_call, if_neg h]

variable {T : Type} {lexicalCast : Bytes → Option T} {dflt t : T} {v : Bytes}

/-- All typed accessors look in the headers. -/
theorem typed_eq (q : StoredRequest) (s : Store) :
    q.typed lexicalCast s k dflt = getAs lexicalCast q.headers k dflt := by
  cases s <;> rfl

theorem check_eq (q : StoredRequest) (s : Store) (val : T) :
    q.check lexicalCast s k val dflt
      = checkGetAs lexicalCast q.headers k val dflt := by
  cases s <;> rfl

/-- They are right for a store that holds the same as the headers. -/
theorem converts (q : StoredRequest) (s : Store) (val : T)
    {found : Bytes → Prop} (h : ∀ v, q.headers.find k = some v ↔ found v) :
    q.Converts s k found lexicalCast val dflt := by
  refine ⟨fun v t hv ht => ?_, fun v hv ht => ?_, fun hnone => ?_⟩
  · rw [typed_eq, check_eq]
    unfold getAs checkGetAs
    simp only [(h v).mpr hv, ht, and_self]
  · rw [typed_eq, check_eq]
    unfold getAs checkGetAs
    simp only [(h v).mpr hv, ht, and_self]
  · have hfind : q.headers.find k = none :=
      Option.eq_none_iff_forall_ne_some.mpr fun v hv => hnone v ((h v).mp hv)
    rw [typed_eq, check_eq]
    unfold getAs checkGetAs
    simp only [hfind, and_self]

/-- Only for such a store: a text converted to itself shows what was
found. -/
theorem find_of_converts {found : Bytes → Prop}
    (h : q.Converts s k found some [] []) (v : Bytes) :
    q.headers.find k = some v ↔ found v := by
  have hsame : ∀ {v w}, q.headers.find k = some v → found w → v = w := by
    intro v w hv hw
    have hcheck := (h.converted w w hw rfl).2
    rw [check_eq] at hcheck
    unfold checkGetAs at hcheck
    simp only [hv] at hcheck
    exact (Prod.mk.inj hcheck).1
  constructor
  · intro hv
    by_contra hno
    have hnone : ∀ w, ¬ found w := fun w hw => hno (hsame hv hw ▸ hw)
    have hcheck := (h.absent hnone).2
    rw [check_eq] at hcheck
    unfold checkGetAs at hcheck
    simp only [hv] at hcheck
    exact absurd (Prod.mk.inj hcheck).2 (by decide)
  · intro hv
    have hcheck := (h.converted v v hv rfl).2
    rw [check_eq] at hcheck
    unfold checkGetAs at hcheck
    split at hcheck
    next => exact absurd (Prod.mk.inj hcheck).2 (by decide)
    next w hw => rw [hw, hsame hw hv]

/-- For every sequence of calls with keys free of NUL: the accessors
return what was set last in their own store, the typed ones included,
exactly where the same value, or none, was set last under the key in all
three stores. -/
theorem stores_right_iff (version : Nat) (close : Bool)
    (cs : List StoreCall) (k : Bytes) (hcs : ∀ c ∈ cs, 0 ∉ c.key)
    (hk : 0 ∉ k) :
    (calls version close cs).StoresRight cs k ↔ ∀ s v,
      LastSet (StoreCall.under .headers k) cs v
        ↔ LastSet (StoreCall.under s k) cs v := by
  have hfind := fun s v => find_calls (v := v) version close hcs hk s
  constructor
  · intro h s v
    rw [← hfind .headers v]
    exact find_of_converts (h.typed s some [] []) v
  · intro hsame
    have hget := get_calls version close hcs hk
    exact ⟨fun s dflt => (hget s dflt).1, fun s dflt => (hget s dflt).2,
      fun c s dflt hne => get_call_of_ne _ hne k dflt,
      fun s T lexicalCast val dflt => converts _ s val fun v =>
        (hfind .headers v).trans (hsame s v)⟩

/-- The key `id` set to 7 in all three stores. -/
theorem stores_right_iff_same :
    let cs : List StoreCall := [.setHeader (ascii "id") (ascii "7"),
      .setParam (ascii "ID") (ascii "7"), .setCookie (ascii "Id") (ascii "7")]
    (calls 0x11 true cs).StoresRight cs (ascii "iD") ↔ ∀ s v,
      LastSet (StoreCall.under .headers (ascii "iD")) cs v
        ↔ LastSet (StoreCall.under s (ascii "iD")) cs v :=
  stores_right_iff 0x11 true _ _ (by decide) (by decide)

/-- A parameter that was set: `getParma` returns it, and the typed
accessors do not find it. -/
theorem param_not_found :
    let q := calls 0x11 true [.setParam (ascii "id") (ascii "7")]
    q.getParma (ascii "id") [] = ascii "7"
      ∧ q.getParamAs some (ascii "id") [] = []
      ∧ q.checkParamAs some (ascii "id") [] [] = ([], false)
      ∧ ¬ q.StoresRight [.setParam (ascii "id") (ascii "7")] (ascii "id") := by
  refine ⟨rfl, rfl, rfl, fun h => ?_⟩
  have hset : LastSet (StoreCall.under .params (ascii "id"))
      ([] ++ [.setParam (ascii "id") (ascii "7")]) (ascii "7") :=
    lastSet_concat.mpr (Or.inl rfl)
  have hc := ((h.typed .params some [] []).converted _ _ hset rfl).1
  exact absurd hc (by decide)

end StoredRequest

end TinyServer.Http
