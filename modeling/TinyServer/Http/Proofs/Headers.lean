/-
The headers of a request as a map.

`strcasecmp` compares the keys in lower case, so it is a total preorder,
and `Headers` is one of the maps of `Lib.Assoc`.
-/
import Mathlib.Data.List.TakeWhile
import TinyServer.Http.Basic
import TinyServer.Lib.AssocList

namespace TinyServer.Http

open Lib

/-- What `strcasecmp` compares. -/
def folded (s : Bytes) : Bytes := (cStr s).map toLower

/-- A comparison of two strings is one of their small letters. -/
theorem caseCompare_eq (a b : Bytes) :
    caseCompare a b = compare (a.map toLower) (b.map toLower) := by
  induction a generalizing b with
  | nil => cases b <;> rfl
  | cons x a ih =>
      cases b with
      | nil => rfl
      | cons y b =>
          unfold caseCompare
          rw [ih, List.map_cons, List.map_cons, List.compare_cons_cons]
          have hcmp : compare (toLower x) (toLower y)
              = if toLower x < toLower y then .lt
                else if toLower x = toLower y then .eq else .gt := rfl
          rw [hcmp]
          split
          next => rfl
          next hle =>
            split
            next hlt =>
              rw [if_neg fun heq => UInt8.lt_irrefl _ (heq ▸ hlt)]
              rfl
            next hge =>
              rw [if_pos (UInt8.le_antisymm (UInt8.not_lt.mp hge)
                (UInt8.not_lt.mp hle))]
              rfl

/-- `strcasecmp` compares what is before the first NUL, in small letters. -/
theorem strcasecmp_eq : strcasecmp = compareOn folded := by
  funext a b
  exact caseCompare_eq (cStr a) (cStr b)

instance : Std.TransCmp strcasecmp := by
  rw [strcasecmp_eq]
  infer_instance

variable {key k : Bytes}

/-- A name without a NUL is compared as a whole. -/
theorem cStr_eq_self (h : 0 ∉ k) : cStr k = k := by
  apply List.takeWhile_eq_self_iff.mpr
  intro b hb
  exact decide_eq_true fun h0 => h (h0 ▸ hb)

/-- Keys without NUL are the same where they are up to the case. -/
theorem strcasecmp_eq_iff (hkey : 0 ∉ key) (hk : 0 ∉ k) :
    strcasecmp key k = .eq ↔ key.map toLower = k.map toLower := by
  unfold strcasecmp
  rw [cStr_eq_self hkey, cStr_eq_self hk, caseCompare_eq,
    Std.LawfulEqCmp.compare_eq_iff_eq]

namespace Headers

/-- `setHeader` is the insertion of the sorted list. -/
theorem set_eq_put (key val : Bytes) (h : Headers) :
    h.set key val = Assoc.put strcasecmp key val h := by
  induction h with
  | nil => rfl
  | cons kv h ih =>
      unfold Headers.set Assoc.put
      cases strcasecmp key kv.1 with
      | lt => rfl
      | eq => rfl
      | gt => exact congrArg (kv :: ·) ih

/-- The lookup of a header is that of the sorted list. -/
theorem find_eq_get (h : Headers) (key : Bytes) :
    h.find key = Assoc.get strcasecmp h key := by
  rfl

/-- The headers apart from the two that `dump` makes anew. -/
def strip (h : Headers) : Headers :=
  Assoc.without strcasecmp (ascii "content-length")
    (Assoc.without strcasecmp (ascii "connection") h)

/-- The headers `m` and those of `h` that `dump` writes. -/
def addTo (h m : Headers) : Headers :=
  (Assoc.without strcasecmp (ascii "connection") h).foldl
    (fun m kv => Assoc.put strcasecmp kv.1 kv.2 m) m

/-- The headers that the lines of `dump` make: the connection, then the
others. -/
def relist (h : Headers) (connection : Bytes) : Headers :=
  h.addTo [(ascii "connection", connection)]

variable {h : Headers} {connection : Bytes}

/-- Without `connection` no spelling of it is left. -/
theorem other_key : ∀ kv ∈ Assoc.without strcasecmp (ascii "connection") h,
    strcasecmp kv.1 (ascii "connection") ≠ .eq := by
  intro kv hkv
  simpa using (List.mem_filter.mp hkv).2

/-- The other headers are those from before. -/
theorem without_relist (hs : Assoc.Sorted strcasecmp h) :
    Assoc.without strcasecmp (ascii "connection") (h.relist connection)
      = Assoc.without strcasecmp (ascii "connection") h := by
  have hself : strcasecmp (ascii "connection") (ascii "connection") = .eq :=
    Std.ReflCmp.compare_self
  unfold relist addTo
  rw [Assoc.without_foldl_put other_key (List.pairwise_singleton _ _),
    Assoc.without_of_eq hself]
  have hsorted : Assoc.Sorted strcasecmp
      ([] ++ Assoc.without strcasecmp (ascii "connection") h) :=
    Assoc.sorted_without hs
  exact Assoc.foldl_put hsorted

/-- The connection that `dump` lists is the one found. -/
theorem find_relist_connection :
    (h.relist connection).find (ascii "Connection") = some connection := by
  have hsame : strcasecmp (ascii "connection") (ascii "Connection") = .eq := by
    decide
  have hkey : ∀ kv ∈ Assoc.without strcasecmp (ascii "connection") h,
      strcasecmp kv.1 (ascii "Connection") ≠ .eq := fun kv hkv heq =>
    other_key kv hkv (Std.TransCmp.eq_trans heq (Std.OrientedCmp.eq_symm hsame))
  unfold relist addTo
  rw [find_eq_get, Assoc.get_foldl_put hkey]
  exact Assoc.get_of_eq hsame

/-- Every other header is found as before. -/
theorem find_relist (hs : Assoc.Sorted strcasecmp h) {key : Bytes}
    (hkey : strcasecmp key (ascii "connection") ≠ .eq) :
    (h.relist connection).find key = h.find key := by
  rw [find_eq_get, find_eq_get, ← Assoc.get_without hkey, without_relist hs,
    Assoc.get_without hkey]

/-- Listing the connection does not change what is stripped. -/
theorem strip_relist (hs : Assoc.Sorted strcasecmp h) :
    (h.relist connection).strip = h.strip := by
  unfold strip
  rw [without_relist hs]

/-- The list stays sorted. -/
theorem sorted_relist : Assoc.Sorted strcasecmp (h.relist connection) :=
  Assoc.sorted_foldl_put (List.pairwise_singleton _ _)

/-- A line for the length of the body is not counted. -/
theorem strip_put (hs : Assoc.Sorted strcasecmp h) (val : Bytes) :
    strip (Assoc.put strcasecmp (ascii "content-length") val h) = h.strip := by
  unfold strip
  rw [Assoc.without_put hs (by decide),
    Assoc.without_put_same (by decide)]

end Headers

end TinyServer.Http
