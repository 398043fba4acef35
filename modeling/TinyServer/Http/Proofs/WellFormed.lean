/-
What the parser stores is well formed.

`WellFormed` says of a request that its parts are texts of the grammar:
each can be read again where `dump` writes it. Every request that `read`
returns is well formed (`read_wellFormed`): `Kept` is what is known in
each state of the machine, and every jump keeps it.
-/
import TinyServer.Http.Proofs.Grammar
import TinyServer.Http.Proofs.Headers
import TinyServer.Http.Proofs.Scan

namespace TinyServer.Http

open Lib RequestTable

variable {relaxed relaxed' : Bool} {cs t : Nat} {b : UInt8}
  {acts : List HttpAction} {a : HttpAction} {z : Reading} {d : HttpRequest}

/-- The name of a field. -/
def IsName (relaxed : Bool) (n : Bytes) : Prop :=
  n ≠ [] ∧ ∃ c ∈ [14, 18], follow relaxed .startField 13 n = some c

/-- A path that can stand behind a method. -/
def IsTarget (relaxed : Bool) (p : Bytes) : Prop :=
  p = [] ∨ ∃ c ∈ targetEnds, follow relaxed .mark 3 p = some c

/-- The value of a field. -/
def IsValue (relaxed : Bool) (v : Bytes) : Prop :=
  v = [] ∨ follow relaxed .mark 15 v = some 16

structure WellFormed (relaxed : Bool) (d : HttpRequest) : Prop where
  method : d.method ≠ .invalid ∧ d.method ≠ .msearch
  version : d.version = 0x11 ∨ d.version = 0x10
  path : PlainPath d.path → IsTarget relaxed d.path
  query : d.query = [] ∨ follow relaxed .startQuery 29 d.query = some 30
  fragment : d.fragment = [] ∨ follow relaxed .mark 20 d.fragment = some 21
  fields : ∀ kv ∈ d.headers, IsName relaxed kv.1 ∧ IsValue relaxed kv.2
  sorted : Assoc.Sorted strcasecmp d.headers

theorem wellFormed_new (relaxed : Bool) : WellFormed relaxed .new where
  method := by decide
  version := .inl rfl
  path _ := by
    have h : follow relaxed .mark 3 (ascii "/") = some 33 := by
      cases relaxed <;> decide +kernel
    exact .inr ⟨33, by decide, h⟩
  query := .inl rfl
  fragment := .inl rfl
  fields _ hkv := nomatch hkv
  sorted := List.Pairwise.nil

-- =================================================================== the parts

namespace WellFormed

variable (h : WellFormed relaxed d)
include h

theorem setMethod {m : HttpMethod} (hm : m ≠ .invalid ∧ m ≠ .msearch) :
    WellFormed relaxed { d with method := m } :=
  ⟨hm, h.version, h.path, h.query, h.fragment, h.fields, h.sorted⟩

theorem setVersion {v : Nat} (hv : v = 0x11 ∨ v = 0x10) :
    WellFormed relaxed { d with version := v } :=
  ⟨h.method, hv, h.path, h.query, h.fragment, h.fields, h.sorted⟩

theorem setPath {p : Bytes} (hp : PlainPath p → IsTarget relaxed p) :
    WellFormed relaxed { d with path := p } :=
  ⟨h.method, h.version, hp, h.query, h.fragment, h.fields, h.sorted⟩

theorem setQuery {q : Bytes}
    (hq : q = [] ∨ follow relaxed .startQuery 29 q = some 30) :
    WellFormed relaxed { d with query := q } :=
  ⟨h.method, h.version, h.path, hq, h.fragment, h.fields, h.sorted⟩

theorem setFragment {f : Bytes}
    (hf : f = [] ∨ follow relaxed .mark 20 f = some 21) :
    WellFormed relaxed { d with fragment := f } :=
  ⟨h.method, h.version, h.path, h.query, hf, h.fields, h.sorted⟩

theorem setHeader {k v : Bytes} (hk : IsName relaxed k)
    (hv : IsValue relaxed v) :
    WellFormed relaxed { d with headers := d.headers.set k v } := by
  refine ⟨h.method, h.version, h.path, h.query, h.fragment, ?_, ?_⟩
  · dsimp only
    rw [Headers.set_eq_put]
    exact Assoc.forall_put h.fields hk hv
  · dsimp only
    rw [Headers.set_eq_put]
    exact Assoc.sorted_put h.sorted

/-- A relaxed parser reads what another one stored. -/
theorem mono (hrel : relaxed = true → relaxed' = true) :
    WellFormed relaxed' d where
  method := h.method
  version := h.version
  path hp := (h.path hp).imp_right fun ⟨c, hc, hfollow⟩ =>
    ⟨c, hc, follow_mono hrel hfollow⟩
  query := h.query.imp_right (follow_mono hrel)
  fragment := h.fragment.imp_right (follow_mono hrel)
  fields kv hkv := by
    obtain ⟨⟨hne, c, hc, hname⟩, hvalue⟩ := h.fields kv hkv
    exact ⟨⟨hne, c, hc, follow_mono hrel hname⟩,
      hvalue.imp_right (follow_mono hrel)⟩
  sorted := h.sorted

end WellFormed

/-- `on_request_version` stores one of two versions. -/
theorem versionOf_cases {t : Bytes} {v : Nat} (h : versionOf t = some v) :
    v = 0x11 ∨ v = 0x10 := by
  unfold versionOf at h
  split at h
  · exact .inl (Option.some.inj h).symm
  · split at h
    · exact .inr (Option.some.inj h).symm
    · nomatch h

/-- The method `M-SEARCH` has a `-`. -/
theorem not_msearch {t : Bytes} (h : 45 ∉ t) :
    charsToHttpMethod t ≠ .msearch := by
  intro hm
  unfold charsToHttpMethod at hm
  split at hm
  next m hfind =>
    have hprefix := List.find?_some hfind
    have hmem := List.mem_of_find?_eq_some hfind
    have hall : ∀ m ∈ httpMethodMap, m.1 = .msearch → 45 ∈ m.2 := by
      decide +kernel
    exact h ((List.isPrefixOf_iff_prefix.mp hprefix).subset (hall m hmem hm))
  next => nomatch hm

-- ================================================================ what is kept

/-- What is known of the token at hand in a state of a region. -/
def Held (relaxed : Bool) (cs : Nat) (z : Reading) : Region → Prop
  | .method => 45 ∉ z.mark
  | .path => PathTrace relaxed z.mark cs
  | .query => InToken relaxed .startQuery 29 z.query cs
  | .fragment => InToken relaxed .mark 20 z.mark cs
  | .name => InToken relaxed .startField 13 z.field cs
  | .lead => IsName relaxed z.name
  | .value => IsName relaxed z.name ∧ InToken relaxed .mark 15 z.mark cs
  | .rest => True

/-- The request so far is well formed, if there was no error. -/
def Sound (relaxed : Bool) (z : Reading) : Prop :=
  ∀ d, z.data = some d → WellFormed relaxed d

/-- What is known in the state `cs`. -/
structure Kept (relaxed : Bool) (cs : Nat) (z : Reading) : Prop where
  sound : Sound relaxed z
  held : Held relaxed cs z (regionOf cs)

theorem Sound.store (h : Sound relaxed z) {f : HttpRequest → Option HttpRequest}
    (hf : ∀ q q', WellFormed relaxed q → f q = some q' →
      WellFormed relaxed q') :
    Sound relaxed (z.store f) := by
  intro d hd
  obtain ⟨q, hq, hd⟩ := Option.bind_eq_some_iff.mp hd
  exact hf q d (h q hq) hd

theorem Sound.quiet (h : Sound relaxed z) (ha : a.isQuiet = true) :
    Sound relaxed (z.act a) := by
  cases a
  case httpVersion =>
    refine h.store fun q q' hq hq' => ?_
    obtain ⟨v, hv, rfl⟩ := Option.map_eq_some_iff.mp hq'
    exact hq.setVersion (versionOf_cases hv)
  case mark | startField | requestUri | done | xml | json => exact h
  all_goals nomatch ha

theorem Sound.quiets (h : Sound relaxed z)
    (hacts : acts.all HttpAction.isQuiet = true) :
    Sound relaxed (acts.foldl (fun z a => z.act a) z) := by
  induction acts generalizing z with
  | nil => exact h
  | cons a acts ih =>
      rw [List.all_cons, Bool.and_eq_true] at hacts
      exact ih (h.quiet hacts.1) hacts.2

/-- A path is stored. -/
theorem Kept.requestPath (h : Kept relaxed cs z) (hcs : cs ∈ pathEnds) :
    Sound relaxed (z.act .requestPath) := by
  have hends : ∀ cs ∈ pathEnds, regionOf cs = .path
      ∧ ∀ c ∈ mirrors cs, c ∈ targetEnds := by
    decide +kernel
  obtain ⟨hregion, hends⟩ := hends cs hcs
  have htrace := h.held
  rw [hregion] at htrace
  refine h.sound.store fun q q' hq hq' => ?_
  cases hq'
  refine hq.setPath fun hp => ?_
  obtain ⟨c, hc, hfollow, -⟩ := htrace.mirror hp
  exact .inr ⟨c, hends c hc, hfollow⟩

/-- A field is stored. -/
theorem Sound.writeValue (h : Sound relaxed z) (hname : IsName relaxed z.name)
    (hvalue : IsValue relaxed z.mark) : Sound relaxed (z.act .writeValue) := by
  refine h.store fun q q' hq hq' => ?_
  rw [if_neg hname.1] at hq'
  cases hq'
  exact hq.setHeader hname hvalue

/-- The end of a token keeps the request well formed. -/
theorem Kept.close (h : Kept relaxed cs z) (hc : Closes cs acts) :
    Sound relaxed (acts.foldl (fun z a => z.act a) z) := by
  have hheld := h.held
  rcases hc with hquiet | ⟨hcs, rfl⟩ | ⟨hcs, rfl | rfl⟩ | (rfl | rfl) | ⟨rfl,
    rfl⟩
    | rfl | ⟨rfl, rfl⟩ | rfl | ⟨rfl, rfl⟩ | ⟨rfl, rfl⟩
  · exact h.sound.quiets hquiet
  · rw [hcs] at hheld
    refine h.sound.store fun q q' hq hq' => ?_
    split at hq'
    next => nomatch hq'
    next hm =>
      cases hq'
      exact hq.setMethod ⟨hm, not_msearch hheld⟩
  · exact h.requestPath hcs
  · exact h.requestPath hcs
  · exact h.sound.store fun q q' hq hq' => by
      cases hq'
      exact hq.setPath fun _ => .inl rfl
  · exact h.sound.store fun q q' hq hq' => by
      cases hq'
      exact hq.setPath fun _ => .inl rfl
  · exact h.sound.store fun q q' hq hq' => by
      cases hq'
      exact hq.setQuery (.inr hheld.follows)
  · exact h.sound.store fun q q' hq hq' => by
      cases hq'
      exact hq.setQuery (.inl rfl)
  · exact h.sound.store fun q q' hq hq' => by
      cases hq'
      exact hq.setFragment (.inr hheld.follows)
  · exact h.sound.store fun q q' hq hq' => by
      cases hq'
      exact hq.setFragment (.inl rfl)
  · exact h.sound.writeValue hheld.1 (.inr hheld.2.follows)
  · exact Sound.writeValue (z := z.act .mark) h.sound hheld (.inl rfl)

/-- A jump inside a region, or into it: the token is longer by a byte. -/
theorem InToken.jump {m : Nat} (ha : a ∈ [.mark, .startField, .startQuery])
    (hjump : Enters cs acts [m] a ∨ Stays cs acts t)
    (hstep : transition relaxed cs b = some (acts, t))
    (hheld : regionOf cs = regionOf t → InToken relaxed a m (z.since a) cs) :
    (acts.foldl (fun z a => z.act a) z).data = z.data
      ∧ (acts.foldl (fun z a => z.act a) z).name = z.name
      ∧ InToken relaxed a m
        (((acts.foldl (fun z a => z.act a) z).push b).since a) t := by
  rw [since_push]
  rcases hjump with ⟨hcs, rfl⟩ | ⟨hsame, rfl⟩
  · cases List.mem_singleton.mp hcs
    have hstart : (z.act a).data = z.data ∧ (z.act a).name = z.name
        ∧ (z.act a).since a = [] := by
      simp only [List.mem_cons, List.not_mem_nil, or_false] at ha
      rcases ha with rfl | rfl | rfl <;> exact ⟨rfl, rfl, rfl⟩
    refine ⟨hstart.1, hstart.2.1, ?_⟩
    have hempty : ([a].foldl (fun z a => z.act a) z).since a = [] := hstart.2.2
    rw [hempty]
    exact InToken.start hstep
  · exact ⟨rfl, rfl, (hheld hsame).snoc hstep⟩

/-- A token goes on, or another one starts. -/
theorem Kept.jump (h : Kept relaxed cs z) (hfinal : cs ≠ firstFinal)
    (hstep : transition relaxed cs b = some (acts, t)) :
    Sound relaxed (acts.foldl (fun z a => z.act a) z)
      ∧ Held relaxed t ((acts.foldl (fun z a => z.act a) z).push b)
        (regionOf t) := by
  obtain ⟨hjump, hmethod, -⟩ := transition_jump hstep hfinal
  have hsound : ∀ {z' : Reading}, z'.data = z.data → Sound relaxed z' :=
    fun hdata d hd => h.sound d (hdata.symm.trans hd)
  have hheld : regionOf cs = regionOf t → Held relaxed cs z (regionOf t) :=
    fun hsame => hsame ▸ h.held
  cases hregion : regionOf t <;> rw [hregion] at hjump hheld
  case method =>
    have hb : b ≠ 45 := hmethod hregion
    rcases hjump with ⟨hcs, rfl⟩ | ⟨hsame, rfl⟩
    · exact ⟨h.sound, fun hin => hb (List.mem_singleton.mp hin).symm⟩
    · refine ⟨h.sound, fun hin => ?_⟩
      rcases List.mem_append.mp hin with hin | hin
      · exact hheld (hsame.trans hregion) hin
      · exact hb (List.mem_singleton.mp hin).symm
  case path =>
    rcases hjump with ⟨hcs, rfl⟩ | ⟨hsame, rfl⟩
    · exact ⟨h.sound, PathTrace.start hstep hcs hregion⟩
    · exact ⟨h.sound, PathTrace.snoc (hheld (hsame.trans hregion)) hfinal hstep
        hregion⟩
  case query | fragment | name =>
    obtain ⟨hdata, -, htoken⟩ := InToken.jump (by decide) hjump hstep
      fun hsame => hheld (hsame.trans hregion)
    exact ⟨hsound hdata, htoken⟩
  case lead =>
    rcases hjump with ⟨hcs, rfl⟩ | ⟨rfl, rfl⟩
    · have hname : ∀ cs ∈ [14, 18], regionOf cs = .name := by decide
      have htoken := h.held
      rw [hname cs hcs] at htoken
      exact ⟨h.sound, htoken.ne, cs, hcs, htoken.follows⟩
    · exact ⟨h.sound, h.held⟩
  case value =>
    obtain ⟨hdata, hname, htoken⟩ := InToken.jump (by decide) hjump hstep
      fun hsame => (hheld (hsame.trans hregion)).2
    have hnamed : IsName relaxed z.name := by
      rcases hjump with ⟨hcs, -⟩ | ⟨hsame, -⟩
      · cases List.mem_singleton.mp hcs
        exact h.held
      · exact (hheld (hsame.trans hregion)).1
    exact ⟨hsound hdata, hname.symm ▸ hnamed, htoken⟩
  case rest => exact ⟨h.close hjump, trivial⟩

/-- From any state on, what is stored is well formed. -/
theorem read_sound {z' : Reading} {bs rest : Bytes} (h : Kept relaxed cs z)
    (hfinal : cs < firstFinal)
    (hread : read relaxed cs z bs = some (z', rest)) :
    Sound relaxed z' := by
  induction bs generalizing cs z with
  | nil => nomatch hread
  | cons b bs ih =>
      unfold read at hread
      split at hread
      next => nomatch hread
      next acts t hstep =>
        obtain ⟨hsound, hheld⟩ := h.jump (Nat.ne_of_lt hfinal) hstep
        split at hread
        next hlast =>
          cases hread
          exact hsound
        next hlast =>
          have hlt : t < firstFinal := by
            rw [transition_last hstep] at hlast
            omega
          have hkept : Kept relaxed t
              (Reading.push b (acts.foldl (fun z a => z.act a) z)) :=
            ⟨hsound, hheld⟩
          exact ih hkept hlt hread

/-- The request that is read from a text is well formed. -/
theorem read_wellFormed {z' : Reading} {bs rest : Bytes}
    (hread : read relaxed RequestTable.start .init bs = some (z', rest))
    (hd : z'.data = some d) : WellFormed relaxed d := by
  have hinit : Kept relaxed RequestTable.start .init :=
    ⟨fun d hd => Option.some.inj hd ▸ wellFormed_new relaxed, trivial⟩
  exact read_sound hinit (by decide) hread d hd

end TinyServer.Http
