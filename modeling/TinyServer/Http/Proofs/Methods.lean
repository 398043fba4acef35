/-
Method names.

`CharsToHttpMethod` takes the first name that the characters begin with.
No name begins with another, so at a token that ends with a NUL or a space
it answers the name that the token begins with, if there is one: that is
the token itself or one that goes on behind the name. `StringToHttpMethod`
answers no name at all (`methods_exact_iff`).
-/
import TinyServer.Http.Basic

namespace TinyServer.Http

variable {t rest : Bytes} {m : HttpMethod}

/-- The answer at `t` is the method whose name `t` is, or none. -/
structure Exact (t : Bytes) (answer : HttpMethod) : Prop where
  method : ∀ m, m ≠ .invalid → (answer = m ↔ t = httpMethodToString m)
  invalid : (∀ m, m ≠ .invalid → t ≠ httpMethodToString m) →
    answer = .invalid

-- ================================================================== the names

/-- What one pass over the map shows of each entry. -/
theorem methodMap_checked : ∀ e ∈ httpMethodMap, (0 ∉ e.2 ∧ 32 ∉ e.2)
    ∧ e.1 ≠ .invalid ∧ httpMethodToString e.1 = e.2
    ∧ ∀ e' ∈ httpMethodMap, e.2 <+: e'.2 → e = e' := by
  decide +kernel

/-- No name has a NUL or a space in it. -/
theorem names_plain {term : UInt8} (hterm : term = 0 ∨ term = 32) :
    ∀ e ∈ httpMethodMap, term ∉ e.2 := by
  intro e he
  obtain ⟨⟨hnul, hspace⟩, -⟩ := methodMap_checked e he
  rcases hterm with rfl | rfl
  · exact hnul
  · exact hspace

/-- No name begins with another. -/
theorem names_prefix_free : ∀ e ∈ httpMethodMap, ∀ e' ∈ httpMethodMap,
    e.2 <+: e'.2 → e = e' := by
  intro e he
  obtain ⟨-, -, -, hfree⟩ := methodMap_checked e he
  exact hfree

theorem not_invalid : ∀ e ∈ httpMethodMap, e.1 ≠ .invalid := by
  intro e he
  obtain ⟨-, hne, -⟩ := methodMap_checked e he
  exact hne

theorem httpMethodToString_of_mem {e : HttpMethod × Bytes}
    (he : e ∈ httpMethodMap) : httpMethodToString e.1 = e.2 := by
  obtain ⟨-, -, hname, -⟩ := methodMap_checked e he
  exact hname

theorem httpMethodToString_mem {m : HttpMethod} (h : m ≠ .invalid) :
    (m, httpMethodToString m) ∈ httpMethodMap := by
  obtain ⟨e, he, rfl⟩ : ∃ e ∈ httpMethodMap, e.1 = m := by
    cases m <;> first | exact absurd rfl h | decide
  rw [httpMethodToString_of_mem he]
  exact he

/-- A name begins the characters at a token exactly when it begins the
token. -/
theorem isPrefixOf_token {term : UInt8} {name : Bytes} (hname : term ∉ name) :
    name.isPrefixOf (t ++ term :: rest) = true ↔ name <+: t := by
  rw [List.isPrefixOf_iff_prefix]
  constructor
  · intro h
    apply List.prefix_of_prefix_length_le h (List.prefix_append _ _)
    by_contra hlong
    -- a longer name would hold the byte that ends the token
    obtain ⟨tail, htail⟩ := h
    have hat := congrArg (·[t.length]?) htail
    have hlt : t.length < name.length := by omega
    simp only [List.getElem?_append_left hlt,
      List.getElem?_append_right (Nat.le_refl t.length), Nat.sub_self,
      List.getElem?_cons_zero] at hat
    exact hname (List.mem_of_getElem? hat)
  · exact fun h => h.trans (List.prefix_append _ _)

/-- At a token `CharsToHttpMethod` answers the name it begins with. -/
theorem charsToHttpMethod_of_named {term : UInt8}
    (hterm : term = 0 ∨ term = 32) {e : HttpMethod × Bytes}
    (he : e ∈ httpMethodMap) (hpre : e.2 <+: t) :
    charsToHttpMethod (t ++ term :: rest) = e.1 := by
  have hstarts : ∀ e ∈ httpMethodMap,
      e.2.isPrefixOf (t ++ term :: rest) = true ↔ e.2 <+: t :=
    fun e he => isPrefixOf_token (names_plain hterm e he)
  unfold charsToHttpMethod
  cases hfind : httpMethodMap.find? fun e => e.2.isPrefixOf (t ++ term :: rest)
    with
  | none =>
      exact absurd ((hstarts e he).mpr hpre) (List.find?_eq_none.mp hfind e he)
  | some e' =>
      have he' := List.mem_of_find?_eq_some hfind
      have hpre' : e'.2 <+: t := by
        have hsome := List.find?_some hfind
        exact (hstarts e' he').mp hsome
      -- of two names at the front of the token one begins with the other
      rcases List.prefix_or_prefix_of_prefix hpre hpre' with h | h
      · rw [names_prefix_free e he e' he' h]
      · rw [names_prefix_free e' he' e he h]

/-- At a token that begins with no name it answers none. -/
theorem charsToHttpMethod_of_unnamed {term : UInt8}
    (hterm : term = 0 ∨ term = 32)
    (hno : ∀ e ∈ httpMethodMap, ¬ e.2 <+: t) :
    charsToHttpMethod (t ++ term :: rest) = .invalid := by
  unfold charsToHttpMethod
  have hfind : (httpMethodMap.find? fun e =>
      e.2.isPrefixOf (t ++ term :: rest)) = none := by
    refine List.find?_eq_none.mpr fun e he hpre => hno e he ?_
    exact (isPrefixOf_token (names_plain hterm e he)).mp hpre
  rw [hfind]

-- ================================================================ the answers

/-- At a token `CharsToHttpMethod` is exact when the token does not go on
behind a name. -/
theorem chars_exact_iff :
    (∀ (term : UInt8) (rest : Bytes), term = 0 ∨ term = 32 →
      Exact t (charsToHttpMethod (t ++ term :: rest)))
    ↔ ∀ e ∈ httpMethodMap, e.2 <+: t → e.2 = t := by
  constructor
  · intro hexact e he hpre
    have hmethod := (hexact 0 [] (.inl rfl)).method e.1 (not_invalid e he)
    have ht := hmethod.mp (charsToHttpMethod_of_named (.inl rfl) he hpre)
    rw [ht, httpMethodToString_of_mem he]
  · intro hcond term rest hterm
    by_cases hname : ∃ e ∈ httpMethodMap, e.2 = t
    · obtain ⟨e, he, rfl⟩ := hname
      have hchars : charsToHttpMethod (e.2 ++ term :: rest) = e.1 :=
        charsToHttpMethod_of_named hterm he (List.prefix_refl _)
      refine ⟨fun m hm => ?_, fun hno => ?_⟩
      · rw [hchars]
        constructor
        · rintro rfl
          exact (httpMethodToString_of_mem he).symm
        · intro heq
          have hmem := httpMethodToString_mem hm
          rw [← heq] at hmem
          exact congrArg Prod.fst (names_prefix_free e he _ hmem
            (List.prefix_refl _))
      · exact absurd (httpMethodToString_of_mem he).symm
          (hno e.1 (not_invalid e he))
    · have hno : ∀ e ∈ httpMethodMap, ¬ e.2 <+: t := fun e he hpre =>
        hname ⟨e, he, hcond e he hpre⟩
      have hchars : charsToHttpMethod (t ++ term :: rest) = .invalid :=
        charsToHttpMethod_of_unnamed hterm hno
      refine ⟨fun m hm => ?_, fun _ => hchars⟩
      rw [hchars]
      apply iff_of_false hm.symm
      intro heq
      exact hname ⟨_, httpMethodToString_mem hm, heq.symm⟩

/-- `StringToHttpMethod` is exact on what is no name. -/
theorem string_exact_iff :
    Exact t (stringToHttpMethod t) ↔ ∀ e ∈ httpMethodMap, e.2 ≠ t := by
  constructor
  · rintro hexact e he rfl
    apply not_invalid e he
    exact (((hexact.method e.1 (not_invalid e he)).mpr
      (httpMethodToString_of_mem he).symm)).symm
  · intro hno
    refine ⟨fun m hm => ?_, fun _ => rfl⟩
    apply iff_of_false (fun h => hm h.symm)
    intro heq
    exact hno _ (httpMethodToString_mem hm) heq.symm

/-- The name of a method is read back as that method. -/
theorem charsToHttpMethod_name (m : HttpMethod) (rest : Bytes) :
    charsToHttpMethod (httpMethodToString m ++ 0 :: rest) = m := by
  by_cases hm : m = .invalid
  · subst hm
    apply charsToHttpMethod_of_unnamed (.inl rfl)
    decide
  · exact charsToHttpMethod_of_named (.inl rfl) (httpMethodToString_mem hm)
      (List.prefix_refl _)

/-- When the two lookups are exact at a token and at the name of a
method. -/
theorem methods_exact_iff (t : Bytes) (m : HttpMethod) :
    ((∀ (term : UInt8) (rest : Bytes), term = 0 ∨ term = 32 →
        Exact t (charsToHttpMethod (t ++ term :: rest)))
      ↔ ∀ e ∈ httpMethodMap, e.2 <+: t → e.2 = t)
    ∧ (Exact t (stringToHttpMethod t) ↔ ∀ e ∈ httpMethodMap, e.2 ≠ t)
    ∧ (∀ rest, charsToHttpMethod (httpMethodToString m ++ 0 :: rest) = m)
    ∧ (stringToHttpMethod (httpMethodToString m) = m ↔ m = .invalid) :=
  ⟨chars_exact_iff, string_exact_iff, charsToHttpMethod_name m, eq_comm⟩

/-- `GETX` is taken for `GET`, and `GET` is unknown as a string. -/
theorem methods_inexact :
    charsToHttpMethod (ascii "GETX ") = .get
      ∧ httpMethodToString .get = ascii "GET"
      ∧ stringToHttpMethod (ascii "GET") = .invalid
      ∧ ¬ Exact (ascii "GETX") (charsToHttpMethod (ascii "GETX" ++ [32]))
      ∧ ¬ Exact (ascii "GET") (stringToHttpMethod (ascii "GET")) := by
  have hchars : charsToHttpMethod (ascii "GETX" ++ [32]) = .get := by
    decide
  have hname : httpMethodToString .get = ascii "GET" := by decide
  refine ⟨by decide, hname, rfl, fun hexact => ?_, fun hexact => ?_⟩
  · have hget := (hexact.method .get (by decide)).mp hchars
    rw [hname] at hget
    exact absurd hget (by decide)
  · have hget := (hexact.method .get (by decide)).mpr hname.symm
    cases hget

end TinyServer.Http
