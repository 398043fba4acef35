/-
The node and the service that a host stands for.

`Denotes` says it for the hosts that have a meaning. `Address::Lookup`
hands these on for all of them but three kinds. For a bare IPv6 address
`service` stays where the look for a single `:` has left it. What is
behind a closing bracket is dropped unless it is a `:` with a service.
And a NUL ends both texts.
-/
import TinyServer.Address.Lookup
import TinyServer.Http.Proofs.Headers
import TinyServer.Lib.Cut

namespace TinyServer

open Lib
open Http (Bytes ascii cStr)

namespace Address

variable {host n s t : Bytes} {c : UInt8}

/-- The node and the service for a host. -/
inductive Denotes : Bytes → Bytes → Option Bytes → Prop
  /-- `[n]:s` -/
  | bracketService (n s : Bytes) (hne : n ≠ []) (hclose : 93 ∉ n) :
      Denotes (91 :: n ++ 93 :: 58 :: s) n (some s)
  /-- `[n]` -/
  | bracket (n : Bytes) (hne : n ≠ []) (hclose : 93 ∉ n) :
      Denotes (91 :: n ++ [93]) n none
  /-- `n:s` with one `:` -/
  | service (n s : Bytes) (hne : n ≠ []) (hopen : n.head? ≠ some 91)
      (hn : 58 ∉ n) (hs : 58 ∉ s) : Denotes (n ++ 58 :: s) n (some s)
  /-- without a `:`, and not `[n]` -/
  | plain (host : Bytes) (hcolon : 58 ∉ host)
      (hno : ∀ n, n ≠ [] → 93 ∉ n → host ≠ 91 :: n ++ [93]) :
      Denotes host host none
  /-- a bare IPv6 address -/
  | bare (host : Bytes) (hopen : host.head? ≠ some 91)
      (hcolons : 2 ≤ host.count 58) : Denotes host host none

/-- The call of `getaddrinfo` is for what the host denotes. -/
def Splits (host : Bytes) : Prop :=
  ∀ n s, Denotes host n s → nodeAndService host = (n, s)

/-- The host is no bare IPv6 address, nothing is behind the brackets
around it, and there is no NUL in it. -/
structure Fine (host : Bytes) : Prop where
  bare : host.head? = some 91 ∨ host.count 58 < 2
  closed : 58 ∉ host → ∀ n t, n ≠ [] → 93 ∉ n → host = 91 :: n ++ 93 :: t →
    t = []
  text : 0 ∈ host → ∀ n s, ¬ Denotes host n s

-- ==================================================================== scanning

/-- The first occurrence of a byte, as a cut. -/
theorem cut_at (h : c ∉ n) : Cut (· ≠ c) (n ++ c :: t) n (c :: t) where
  eq := rfl
  all a ha := decide_eq_true fun hac => h (hac ▸ ha)
  stop a as has := by
    cases has
    exact decide_eq_false (not_not.mpr rfl)

/-- `memchr` finds it, -/
theorem memchr_some (h : c ∉ n) : memchr (n ++ c :: t) c = some n.length := by
  unfold memchr
  rw [if_pos (List.mem_append_right n List.mem_cons_self),
    (cut_at h).takeWhile_eq]

/-- or finds nothing. -/
theorem memchr_none (h : c ∉ s) : memchr s c = none := if_neg h

/-- A closing bracket behind a node. -/
theorem scanBrackets_closed (hclose : 93 ∉ n) :
    scanBrackets (91 :: n ++ 93 :: t)
      = (n, if t.head? = some 58 then some (n.length + 3) else none) := by
  have hnext : (91 :: n ++ 93 :: t ++ [0])[n.length + 2]? = (t ++ [0])[0]? := by
    rw [show 91 :: n ++ 93 :: t ++ [0] = (91 :: n ++ [93]) ++ (t ++ [0]) by
      simp,
      List.getElem?_append_right (by simp)]
    simp
  have hcolon : (t ++ [0])[0]? = some 58 ↔ t.head? = some 58 := by
    cases t with
    | nil => decide
    | cons b t => rfl
  unfold scanBrackets
  rw [if_pos (by rfl), List.cons_append, List.tail_cons, memchr_some hclose]
  simp only [List.take_left]
  rw [← List.cons_append, hnext]
  simp only [hcolon]

/-- Without a node in brackets. -/
theorem scanBrackets_nil
    (h : ∀ n t, n ≠ [] → 93 ∉ n → host ≠ 91 :: n ++ 93 :: t) :
    (scanBrackets host).1 = [] := by
  unfold scanBrackets
  split
  next hopen =>
      obtain ⟨rest, rfl⟩ : ∃ rest, host = 91 :: rest := by
        cases host with
        | nil => cases hopen
        | cons b rest =>
            cases hopen
            exact ⟨rest, rfl⟩
      rw [List.tail_cons]
      by_cases hclose : 93 ∈ rest
      · obtain ⟨n, t, rfl, hn⟩ := List.eq_append_cons_of_mem hclose
        have hnil : n = [] := by
          by_contra hne
          exact h n t hne hn rfl
        subst hnil
        rw [memchr_some hn]
        rfl
      · rw [memchr_none hclose]
  next => rfl

/-- Without a bracket in front there is no node in brackets. -/
theorem scanBrackets_unopened (h : host.head? ≠ some 91) :
    (scanBrackets host).1 = [] := by
  unfold scanBrackets
  rw [if_neg h]

/-- Without a colon there is no service. -/
theorem scanColon_none (h : 58 ∉ host) : scanColon host = ([], none) := by
  unfold scanColon
  rw [memchr_none h]

/-- What is before the only colon is the node, and behind it the service. -/
theorem scanColon_one (hn : 58 ∉ n) (hs : 58 ∉ s) :
    scanColon (n ++ 58 :: s) = (n, some (n.length + 1)) := by
  have hdrop : (n ++ 58 :: s).drop (n.length + 1) = s := by
    rw [← List.drop_drop, List.drop_left]
    rfl
  unfold scanColon
  rw [memchr_some hn]
  simp only [hdrop, memchr_none hs, List.take_left]

/-- A second `:` leaves the service at the first. -/
theorem scanColon_more (hn : 58 ∉ n) (hs : 58 ∈ s) :
    scanColon (n ++ 58 :: s) = ([], some n.length) := by
  have hdrop : (n ++ 58 :: s).drop (n.length + 1) = s := by
    rw [← List.drop_drop, List.drop_left]
    rfl
  obtain ⟨k, hk⟩ : ∃ k, memchr s 58 = some k := ⟨_, if_pos hs⟩
  unfold scanColon
  rw [memchr_some hn]
  simp only [hdrop, hk]

-- ================================================================= the results

/-- A node in brackets, with what is behind them. -/
theorem nodeAndService_closed (hne : n ≠ []) (hclose : 93 ∉ n) :
    nodeAndService (91 :: n ++ 93 :: t)
      = (cStr n, if t.head? = some 58 then some (cStr t.tail) else none) := by
  have hdrop : (91 :: n ++ 93 :: t).drop (n.length + 3) = t.tail := by
    rw [show n.length + 3 = (91 :: n).length + 2 by rfl, ← List.drop_drop,
      List.drop_left]
    cases t <;> rfl
  unfold nodeAndService scanHost
  rw [scanBrackets_closed hclose]
  simp only [if_neg hne]
  split
  next => simp only [Option.map_some, hdrop]
  next => rfl

/-- Otherwise the colon decides. -/
theorem nodeAndService_open (h : (scanBrackets host).1 = []) :
    nodeAndService host
      = (cStr (if (scanColon host).1 = [] then host else (scanColon host).1),
        (scanColon host).2.map fun k => cStr (host.drop k)) := by
  unfold nodeAndService scanHost
  simp only [h, if_true]

/-- A C string has no NUL. -/
theorem nul_notMem_cStr (s : Bytes) : 0 ∉ cStr s := by
  intro h
  have hb := List.mem_takeWhile_imp h
  simp at hb

/-- Both texts are C strings. -/
theorem nodeAndService_nul (host : Bytes) :
    0 ∉ (nodeAndService host).1
      ∧ ∀ s, (nodeAndService host).2 = some s → 0 ∉ s := by
  refine ⟨nul_notMem_cStr _, fun s hs => ?_⟩
  obtain ⟨k, -, rfl⟩ := Option.map_eq_some_iff.mp hs
  exact nul_notMem_cStr _

/-- What a host is made of. -/
theorem Denotes.nul {s : Option Bytes} (h : Denotes host n s)
    (hnul : 0 ∈ host) : 0 ∈ n ∨ ∃ t, s = some t ∧ 0 ∈ t := by
  cases h with
  | bracketService n s => simpa using hnul
  | bracket n => simpa using hnul
  | service n s => simpa using hnul
  | plain => exact .inl hnul
  | bare => exact .inl hnul

/-- The first of two colons, and the second. -/
theorem two_colons (h : 2 ≤ host.count 58) :
    ∃ n s, host = n ++ 58 :: s ∧ 58 ∉ n ∧ 58 ∈ s := by
  have hmem : 58 ∈ host := List.count_pos_iff.mp (by omega)
  obtain ⟨n, s, rfl, hn⟩ := List.eq_append_cons_of_mem hmem
  refine ⟨n, s, rfl, hn, ?_⟩
  rw [List.count_append, List.count_eq_zero.mpr hn, List.count_cons_self] at h
  exact List.count_pos_iff.mp (by omega)

/-- A bare address is taken apart at a colon. -/
theorem nodeAndService_bare (hopen : host.head? ≠ some 91)
    (h : 2 ≤ host.count 58) : (nodeAndService host).2 ≠ none := by
  obtain ⟨n, s, rfl, hn, hs⟩ := two_colons h
  rw [nodeAndService_open (scanBrackets_unopened hopen),
    scanColon_more hn hs]
  exact Option.some_ne_none _

/-- A node between brackets is determined. -/
theorem bracket_unique {n' t' : Bytes} (hn : 93 ∉ n) (hn' : 93 ∉ n')
    (h : 91 :: n ++ 93 :: t = 91 :: n' ++ 93 :: t') : n = n' ∧ t = t' := by
  have htail : n ++ 93 :: t = n' ++ 93 :: t' := (List.cons.inj h).2
  have hnode : n = n' := by
    rw [← (cut_at (t := t) hn).takeWhile_eq, htail,
      (cut_at (t := t') hn').takeWhile_eq]
  subst hnode
  exact ⟨rfl, (List.cons.inj (List.append_cancel_left htail)).2⟩

-- =================================================================== the claim

/-- Where the host is fine the call is for what it denotes, -/
theorem Fine.splits (h : Fine host) : Splits host := by
  intro n s hden
  have hnul : 0 ∉ host := fun h0 => h.text h0 n s hden
  cases hden with
  | bracketService n s hne hclose =>
      have hn : 0 ∉ n := fun h0 => hnul (by simp [h0])
      have hs : 0 ∉ s := fun h0 => hnul (by simp [h0])
      rw [nodeAndService_closed hne hclose, if_pos (by rfl), List.tail_cons,
        Http.cStr_eq_self hn, Http.cStr_eq_self hs]
  | bracket n hne hclose =>
      have hn : 0 ∉ n := fun h0 => hnul (by simp [h0])
      rw [nodeAndService_closed hne hclose, if_neg (by decide),
        Http.cStr_eq_self hn]
  | service n s hne hopen hn hs =>
      have hn0 : 0 ∉ n := fun h0 => hnul (List.mem_append_left _ h0)
      have hs0 : 0 ∉ s := fun h0 => hnul (by simp [h0])
      have hhead : (n ++ 58 :: s).head? ≠ some 91 := by
        cases n with
        | nil => exact absurd rfl hne
        | cons b n => exact hopen
      have hdrop : (n ++ 58 :: s).drop (n.length + 1) = s := by
        rw [← List.drop_drop, List.drop_left]
        rfl
      rw [nodeAndService_open (scanBrackets_unopened hhead),
        scanColon_one hn hs]
      simp only [if_neg hne, Option.map_some, hdrop, Http.cStr_eq_self hn0,
        Http.cStr_eq_self hs0]
  | plain _ hcolon hno =>
      have hnode : (scanBrackets host).1 = [] := by
        apply scanBrackets_nil
        rintro n t hne hclose rfl
        obtain rfl := h.closed hcolon n t hne hclose rfl
        exact hno n hne hclose rfl
      rw [nodeAndService_open hnode, scanColon_none hcolon]
      simp only [if_true, Option.map_none, Http.cStr_eq_self hnul]
  | bare _ hopen hcolons =>
      rcases h.bare with hbare | hbare
      · exact absurd hbare hopen
      · exact absurd hcolons (Nat.not_le.mpr hbare)

/-- and nowhere else. -/
theorem Splits.fine (h : Splits host) : Fine host where
  bare := by
    by_contra hno
    obtain ⟨hopen, hcolons⟩ := not_or.mp hno
    have hcolons := Nat.not_lt.mp hcolons
    have hden := h host none (.bare host hopen hcolons)
    exact nodeAndService_bare hopen hcolons (congrArg Prod.snd hden)
  closed := by
    intro hcolon n t hne hclose hhost
    by_contra ht
    have hden := h host none (.plain host hcolon fun n' _ hclose' heq => by
      exact ht (bracket_unique hclose hclose' (hhost.symm.trans heq)).2)
    subst hhost
    rw [nodeAndService_closed hne hclose] at hden
    have hlen := congrArg List.length (congrArg Prod.fst hden)
    have hle : (cStr n).length ≤ n.length :=
      (List.takeWhile_prefix _).length_le
    simp only [List.length_append, List.length_cons] at hlen
    omega
  text := by
    intro hnul n s hden
    obtain ⟨hnode, hservice⟩ := nodeAndService_nul host
    rw [h n s hden] at hnode hservice
    rcases hden.nul hnul with h0 | ⟨t, ht, h0⟩
    · exact hnode h0
    · exact hservice t ht h0

/-- The call is for what the host denotes exactly when the host is fine. -/
theorem splits_iff (host : Bytes) : Splits host ↔ Fine host :=
  ⟨Splits.fine, Fine.splits⟩

/-- The service of a bare address is what follows its first group. -/
theorem bare_address_gets_service :
    nodeAndService (ascii "fe80::1") = (ascii "fe80::1", some (ascii "::1"))
      ∧ ¬ Splits (ascii "fe80::1") := by
  have hgot : nodeAndService (ascii "fe80::1")
      = (ascii "fe80::1", some (ascii "::1")) := by
    decide
  refine ⟨hgot, fun h => ?_⟩
  have hden := h _ none (.bare (ascii "fe80::1") (by decide) (by decide))
  rw [hgot] at hden
  cases congrArg Prod.snd hden

end Address

end TinyServer
