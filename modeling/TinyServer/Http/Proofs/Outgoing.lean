/-
The headers of outgoing requests.

Every item of the caller's map but those for the connection sets the
header under its name, so the header has the value of the last spelling
(`find_loop`). `has_host` only remembers whether some value for `Host` was
not empty (`hasHost_loop`): a later spelling with an empty value still
takes its place.
-/
import TinyServer.Http.Outgoing
import TinyServer.Http.Proofs.Headers
import TinyServer.Lib.LastSet

namespace TinyServer.Http

open Lib

namespace Outgoing

variable {o : Outgoing} {item : Bytes × Bytes} {items : List (Bytes × Bytes)}
  {name v : Bytes}

-- ==================================================================== the loop

/-- What an item does to the header under `name`. -/
def puts (name : Bytes) (item : Bytes × Bytes) : Option (Option Bytes) :=
  if Spells (ascii "connection") item then none
  else if Spells name item then some (some item.2)
  else none

theorem puts_eq_some_iff : puts name item = some (some v)
    ↔ ¬ Spells (ascii "connection") item ∧ Spells name item ∧ item.2 = v := by
  unfold puts
  rw [Option.ite_none_left_eq_some, Option.ite_none_right_eq_some,
    Option.some.injEq, Option.some.injEq]

theorem puts_ne_clear : puts name item ≠ some none := by
  unfold puts
  split
  next => simp
  next => split <;> simp

theorem find_add (o : Outgoing) (item : Bytes × Bytes) (name : Bytes) :
    (o.add item).req.headers.find name
      = (puts name item).getD (o.req.headers.find name) := by
  unfold add puts
  by_cases hc : strcasecmp item.1 (ascii "connection") = .eq
  · rw [if_pos hc, if_pos hc]
    split <;> rfl
  · rw [if_neg hc, if_neg hc]
    show (o.req.headers.set item.1 item.2).find name = _
    rw [Headers.find_eq_get, Headers.set_eq_put, Assoc.get_put]
    by_cases hname : strcasecmp item.1 name = .eq
    · rw [if_pos hname, if_pos hname]
      rfl
    · rw [if_neg hname, if_neg hname]
      rfl

theorem sorted_add (h : Assoc.Sorted strcasecmp o.req.headers) :
    Assoc.Sorted strcasecmp (o.add item).req.headers := by
  unfold add
  split
  next => split <;> exact h
  next =>
    show Assoc.Sorted strcasecmp (o.req.headers.set item.1 item.2)
    rw [Headers.set_eq_put]
    exact Assoc.sorted_put h

theorem sorted_loop (h : Assoc.Sorted strcasecmp o.req.headers) :
    Assoc.Sorted strcasecmp (items.foldl add o).req.headers :=
  List.foldlRecOn (motive := fun o : Outgoing =>
    Assoc.Sorted strcasecmp o.req.headers) items add h
    fun _ hb _ _ => sorted_add hb

/-- The header has the value of the last item with its name. -/
theorem find_loop (h : o.req.headers = []) :
    (items.foldl add o).req.headers.find name = some v
      ↔ LastSet (puts name) items v := by
  refine look_iff_lastSet (fun o : Outgoing => o.req.headers.find name) ?_
    fun o item _ => find_add o item name
  rw [h]
  rfl

/-- A name is not that of both headers. -/
theorem not_connection_of_host (h : Spells (ascii "host") item) :
    ¬ Spells (ascii "connection") item := by
  intro hc
  have heq := Std.TransCmp.eq_trans (Std.OrientedCmp.eq_symm hc) h
  revert heq
  decide

theorem hasHost_add (o : Outgoing) (item : Bytes × Bytes) :
    (o.add item).hasHost = true
      ↔ o.hasHost = true ∨ (Spells (ascii "host") item ∧ item.2 ≠ []) := by
  unfold add
  split
  next hc =>
    have hno : ¬ Spells (ascii "host") item := fun h =>
      not_connection_of_host h hc
    split <;> simp [hno]
  next =>
    by_cases hs : strcasecmp item.1 (ascii "host") = .eq
    · cases o.hasHost <;> simp [Spells, hs]
    · simp [Spells, hs]

theorem hasHost_loop : (items.foldl add o).hasHost = true
    ↔ o.hasHost = true
      ∨ ∃ item ∈ items, Spells (ascii "host") item ∧ item.2 ≠ [] := by
  induction items generalizing o with
  | nil => simp
  | cons item items ih =>
      rw [List.foldl_cons, ih, hasHost_add, List.exists_mem_cons_iff, or_assoc]

/-- The headers that the loop leaves under a name of the caller. -/
theorem find_loop_mem (h : o.req.headers = []) (hitem : item ∈ items)
    (hspells : Spells name item)
    (hc : ¬ Spells (ascii "connection") item) :
    ∃ item' ∈ items, Spells name item'
      ∧ (items.foldl add o).req.headers.find name = some item'.2 := by
  have hputs : puts name item = some (some item.2) :=
    puts_eq_some_iff.mpr ⟨hc, hspells, rfl⟩
  obtain ⟨v, hlast⟩ : ∃ v, LastSet (puts name) items v :=
    lastSet_of_mem (fun _ _ => puts_ne_clear) hitem hputs
  have hfind := (find_loop h).mpr hlast
  obtain ⟨i, ⟨item', hitem', heff⟩, -⟩ := hlast
  obtain ⟨-, hspells', rfl⟩ := puts_eq_some_iff.mp heff
  exact ⟨item', List.mem_of_getElem? hitem', hspells', hfind⟩

-- ================================================================= the request

variable {req : HttpRequest} {header : HeaderMap} {host body : Bytes}

/-- Names other than `Host` are as the loop left them. -/
theorem find_finish (hname : strcasecmp (ascii "Host") name ≠ .eq) :
    (finish req header host body).headers.find name
      = (header.entries.foldl add ⟨req, false⟩).req.headers.find name := by
  unfold finish
  dsimp only
  split
  next => rw [Headers.find_eq_get, Headers.set_eq_put, Assoc.get_put,
    if_neg hname, Headers.find_eq_get]
  next => rfl

/-- `Host` is the one the loop left, or, where no value was given that is
not empty, the one of the caller of `finish`. -/
theorem find_finish_host :
    (finish req header host body).headers.find (ascii "host")
      = if ∃ item ∈ header.entries, Spells (ascii "host") item ∧ item.2 ≠ []
        then (header.entries.foldl add ⟨req, false⟩).req.headers.find
          (ascii "host")
        else some host := by
  have hsame : strcasecmp (ascii "Host") (ascii "host") = .eq := by
    decide
  have hloop : (header.entries.foldl add ⟨req, false⟩).hasHost = true ↔ _ :=
    hasHost_loop
  unfold finish
  dsimp only
  split
  next hno =>
    rw [hno] at hloop
    rw [if_neg fun h => absurd (hloop.mpr (Or.inr h)) (by decide),
      Headers.find_eq_get, Headers.set_eq_put, Assoc.get_put, if_pos hsame]
  next hyes =>
    rcases hloop.mp (eq_true_of_ne_false hyes) with h | h
    · cases h
    · rw [if_pos h]

theorem sorted_finish (h : req.headers = []) :
    Assoc.Sorted strcasecmp (finish req header host body).headers := by
  have hloop : Assoc.Sorted strcasecmp
      (header.entries.foldl add ⟨req, false⟩).req.headers :=
    sorted_loop (by rw [h]; exact List.Pairwise.nil)
  unfold finish
  dsimp only
  split
  next =>
    rw [Headers.set_eq_put]
    exact Assoc.sorted_put hloop
  next => exact hloop

/-- The last spelling of `Host` is not empty exactly where the caller's
`Host` is kept. -/
theorem hostKept_iff (hlast : LastSet (puts (ascii "host")) header.entries v)
    (hsome : ∃ item ∈ header.entries,
      Spells (ascii "host") item ∧ item.2 ≠ []) :
    HostKept header ↔ v ≠ [] := by
  obtain ⟨i, ⟨item, hitem, heff⟩, hafter⟩ := hlast
  obtain ⟨-, hspells, rfl⟩ := puts_eq_some_iff.mp heff
  have hmem := List.mem_of_getElem? hitem
  -- the items with that name are not behind the last one
  have hbefore : ∀ item' ∈ header.entries, Spells (ascii "host") item' →
      item' = item ∨ Ord.compare item'.1 item.1 = .lt := by
    intro item' hmem' hspells'
    obtain ⟨j, hj, rfl⟩ := List.getElem_of_mem hmem'
    obtain ⟨hi, rfl⟩ := List.getElem?_eq_some_iff.mp hitem
    rcases Nat.lt_trichotomy i j with hlt | rfl | hgt
    · have hnone := hafter j _ hlt (List.getElem?_eq_getElem hj)
      rw [puts_eq_some_iff.mpr
        ⟨not_connection_of_host hspells', hspells', rfl⟩] at hnone
      cases hnone
    · exact Or.inl rfl
    · exact Or.inr (List.pairwise_iff_getElem.mp header.sorted j i hj hi hgt)
  constructor
  · rintro (hall | ⟨item', hmem', hspells', hne, hmost⟩)
    · obtain ⟨item', hmem', hspells', hne⟩ := hsome
      exact absurd (hall item' hmem' hspells') hne
    · rcases hbefore item' hmem' hspells' with rfl | hlt
      · exact hne
      · exact absurd hlt (hmost item hmem hspells)
  · intro hne
    refine Or.inr ⟨item, hmem, hspells, hne, fun item' hmem' hspells' => ?_⟩
    rcases hbefore item' hmem' hspells' with rfl | hlt
    · have hself : Ord.compare item'.1 item'.1 = .eq := Std.ReflCmp.compare_self
      rw [hself]
      decide
    · rw [Std.OrientedCmp.gt_of_lt hlt]
      decide

/-- Both functions: the request is usable exactly where the caller's
`Host` is kept. -/
theorem usable_finish_iff (hreq : req.headers = []) (hhost : host ≠ []) :
    RequestUsable header (finish req header host body)
      ↔ HostKept header := by
  have hothers : ∀ item ∈ header.entries,
      ¬ Spells (ascii "connection") item → ¬ Spells (ascii "host") item →
      ∃ item' ∈ header.entries, Spells item.1 item'
        ∧ (finish req header host body).headers.find item.1
          = some item'.2 := by
    intro item hmem hc hh
    have hne : strcasecmp (ascii "Host") item.1 ≠ .eq := fun heq =>
      hh (Std.TransCmp.eq_trans (Std.OrientedCmp.eq_symm heq)
        (by decide))
    rw [find_finish hne]
    exact find_loop_mem hreq hmem Std.ReflCmp.compare_self hc
  have hone : ∀ {v}, (finish req header host body).headers.find (ascii "host")
      = some v → (RequestUsable header (finish req header host body)
        ↔ v ≠ []) := by
    intro v hfind
    obtain ⟨item, hitem, rfl⟩ :=
      Assoc.filter_of_get (sorted_finish hreq) hfind
    constructor
    · rintro ⟨⟨item', hitem', hne⟩, -⟩
      cases hitem.symm.trans hitem'
      exact hne
    · exact fun hne => ⟨⟨item, hitem, hne⟩, hothers⟩
  by_cases hsome : ∃ item ∈ header.entries,
      Spells (ascii "host") item ∧ item.2 ≠ []
  · obtain ⟨item, hmem, hspells, -⟩ := id hsome
    obtain ⟨item', -, -, hfind⟩ := find_loop_mem (o := ⟨req, false⟩) hreq hmem
      hspells (not_connection_of_host hspells)
    rw [hostKept_iff ((find_loop hreq).mp hfind) hsome]
    apply hone
    rw [find_finish_host, if_pos hsome, hfind]
  · have hall : HostKept header := by
      refine Or.inl fun item hmem hspells => ?_
      by_contra hne
      exact hsome ⟨item, hmem, hspells, hne⟩
    refine iff_of_true ((hone ?_).mpr hhost) hall
    rw [find_finish_host, if_neg hsome]

end Outgoing

-- ============================================================ both functions

/-- For every map of headers: the requests that `DoRequest` builds for a
URI with a host, and `doRequest` for a pool with a host, are usable
exactly where the caller's `Host` is kept. -/
theorem requests_usable_iff (header : HeaderMap) (method : HttpMethod)
    (uri : Uri) (host vhost url body : Bytes) (huri : uri.host ≠ [])
    (hhost : host ≠ []) :
    (RequestUsable header (HttpConnection.doRequest method uri header body)
        ↔ HostKept header)
      ∧ (RequestUsable header
          (HttpConnectionPool.doRequest host vhost method url header body)
        ↔ HostKept header) := by
  refine ⟨Outgoing.usable_finish_iff rfl huri, ?_⟩
  refine Outgoing.usable_finish_iff rfl ?_
  split
  next => exact hhost
  next hvhost => exact hvhost

/-- A map with two spellings of `Host`, the second one empty. -/
def twoHosts : HeaderMap :=
  ⟨[(ascii "HOST", ascii "a"), (ascii "host", [])],
    List.pairwise_pair.mpr (by decide)⟩

/-- Two spellings of `Host` between other names, none of them empty. -/
def hostAndAccept : HeaderMap :=
  ⟨[(ascii "Accept", ascii "*/*"), (ascii "HOST", ascii "a"),
      (ascii "host", ascii "b")],
    List.Pairwise.cons (by decide) (List.pairwise_pair.mpr (by decide))⟩

theorem requests_usable_iff_spellings :
    (RequestUsable hostAndAccept (HttpConnection.doRequest .get
          { Uri.new with host := ascii "example" } hostAndAccept [])
        ↔ HostKept hostAndAccept)
      ∧ (RequestUsable hostAndAccept (HttpConnectionPool.doRequest
          (ascii "example") [] .get (ascii "/") hostAndAccept [])
        ↔ HostKept hostAndAccept) :=
  requests_usable_iff hostAndAccept .get
    { Uri.new with host := ascii "example" } (ascii "example") []
    (ascii "/") [] (by decide) (by decide)

/-- The empty value under the second spelling is sent. -/
theorem host_overwritten :
    (HttpConnection.doRequest .get { Uri.new with host := ascii "example" }
          twoHosts []).headers = [(ascii "HOST", [])]
      ∧ ¬ RequestUsable twoHosts (HttpConnection.doRequest .get
        { Uri.new with host := ascii "example" } twoHosts [])
      ∧ ¬ RequestUsable twoHosts (HttpConnectionPool.doRequest
        (ascii "example") [] .get (ascii "/") twoHosts []) := by
  have hempty : ∀ {req : HttpRequest}, req.headers = [(ascii "HOST", [])] →
      ¬ RequestUsable twoHosts req := by
    rintro req hreq ⟨⟨item, hitem, hne⟩, -⟩
    have hfilter : [(ascii "HOST", [])].filter (Spells (ascii "host"))
        = [(ascii "HOST", ([] : Bytes))] := by decide
    rw [hreq, hfilter] at hitem
    cases hitem
    exact hne rfl
  have hsent : (HttpConnection.doRequest .get
      { Uri.new with host := ascii "example" } twoHosts []).headers
      = [(ascii "HOST", [])] := by decide
  refine ⟨hsent, hempty hsent, hempty ?_⟩
  decide

end TinyServer.Http
