/-
The machine of `Uri::Create` follows the phases.

`phaseRanges` gives the phase of each state. That every entry of the table
goes along with the phases is a finite check (`rows_ok`); with it a jump
is a step of the phases (`transition_step`).
-/
import TinyServer.Uri.Phases

namespace TinyServer

open Lib
open Http (Bytes)

namespace Uri

-- =================================================================== the table

/-- The phases of the states. -/
def phaseRanges : List (Range Phase) :=
  [ ⟨1, 2, .frag⟩, ⟨3, 4, .seg⟩, ⟨5, 6, .plain⟩, ⟨7, 8, .query⟩,
    ⟨9, 30, .host false⟩, ⟨31, 32, .name false⟩, ⟨33, 35, .info false⟩,
    ⟨36, 37, .host false⟩, ⟨38, 228, .ip false⟩, ⟨229, 242, .host true⟩,
    ⟨243, 244, .path⟩, ⟨245, 252, .host true⟩, ⟨253, 254, .name true⟩,
    ⟨255, 257, .info true⟩, ⟨258, 259, .host true⟩, ⟨260, 450, .ip true⟩,
    ⟨451, 451, .start⟩, ⟨452, 452, .seg⟩, ⟨453, 453, .frag0⟩,
    ⟨454, 454, .frag⟩, ⟨455, 455, .plain⟩, ⟨456, 456, .query0⟩,
    ⟨457, 457, .query⟩, ⟨458, 458, .slash false⟩, ⟨459, 459, .auth false⟩,
    ⟨460, 460, .host false⟩, ⟨461, 461, .port0 false⟩, ⟨462, 462, .port false⟩,
    ⟨463, 466, .host false⟩, ⟨467, 467, .name false⟩, ⟨468, 468, .pcolon false⟩,
    ⟨469, 469, .atHost false⟩, ⟨470, 488, .host false⟩,
    ⟨489, 489, .digits false⟩, ⟨490, 507, .name false⟩, ⟨508, 508, .scheme⟩,
    ⟨509, 509, .colon⟩, ⟨510, 510, .slash true⟩, ⟨511, 511, .auth true⟩,
    ⟨512, 512, .host true⟩, ⟨513, 513, .path⟩, ⟨514, 514, .port0 true⟩,
    ⟨515, 515, .port true⟩, ⟨516, 519, .host true⟩, ⟨520, 520, .name true⟩,
    ⟨521, 521, .pcolon true⟩, ⟨522, 522, .atHost true⟩, ⟨523, 541, .host true⟩,
    ⟨542, 542, .digits true⟩, ⟨543, 560, .name true⟩]

/-- The phase that a state of the table is in. -/
def phaseOf (cs : Nat) : Option Phase := rowLookup phaseRanges cs

/-- The entry goes along with the phases, on all classes that its bytes
have. -/
def entryOk (cs : Nat) (r : Range Http.Label) : Bool :=
  match phaseOf cs, UriTable.resolve r.label with
  | some ph, some (acts, t) =>
      match phaseOf t with
      | some ph' => classRanges.all fun c =>
          c.hi.blt r.lo || r.hi.blt c.lo || ph.step c.label == some (acts, ph')
      | none => false
  | _, _ => false

/-- The rows of the table follow the phases, checked once: in relative
references, -/
theorem relative_rows :
    tableAll entryOk 0 (UriTable.rows.take 229) = true := by
  decide +kernel

/-- behind a scheme, -/
theorem absolute_rows :
    tableAll entryOk 229 ((UriTable.rows.drop 229).take 222) = true := by
  decide +kernel

/-- and in the final states. -/
theorem final_rows :
    tableAll entryOk 451 ((UriTable.rows.drop 229).drop 222) = true := by
  decide +kernel

/-- The states before 229 have no scheme, those before 451 have one, and a
text may end in the others. -/
theorem rows_ok : tableAll entryOk 0 UriTable.rows = true :=
  tableAll_split 229 relative_rows
    (tableAll_split 222 absolute_rows final_rows)

/-- And so do the actions at the end of the text. -/
theorem eof_ok : phaseRanges.all (fun r =>
    (List.range' r.lo (r.hi + 1 - r.lo)).all fun cs =>
      cs.blt UriTable.firstFinal
        || r.label.close == some (UriTable.eofActions cs)) = true := by
  decide +kernel

/-- The class of a byte is that of a range that has it. -/
theorem classOf_range (b : UInt8) :
    ∃ c ∈ classRanges, c.label = classOf b ∧ c.lo ≤ b.toNat
      ∧ b.toNat ≤ c.hi := by
  have hall : ∀ n < 256, ∃ c ∈ classRanges,
      c.label = (rowLookup classRanges n).getD .other ∧ c.lo ≤ n
        ∧ n ≤ c.hi := by
    decide +kernel
  exact hall b.toNat b.toNat_lt

variable {cs t : Nat} {b : UInt8} {acts : List UriAction} {ph : Phase}

/-- A jump of the machine is a step of the phases. -/
theorem transition_step (h : UriTable.transition cs b = some (acts, t))
    (hph : phaseOf cs = some ph) :
    ∃ ph', phaseOf t = some ph' ∧ ph.step (classOf b) = some (acts, ph') := by
  obtain ⟨label, hlabel, hres⟩ := Option.bind_eq_some_iff.mp h
  obtain ⟨r, hok, hr, hlo, hhi⟩ := tableAll_lookup rows_ok hlabel
  unfold entryOk at hok
  rw [hph, hr, hres] at hok
  dsimp only at hok
  split at hok
  next ph' hph' =>
    obtain ⟨c, hc, hlabel, hclo, hchi⟩ := classOf_range b
    have hcheck := List.all_eq_true.mp hok c hc
    rw [Bool.or_eq_true, Bool.or_eq_true, Nat.blt_eq, Nat.blt_eq] at hcheck
    refine ⟨ph', hph', ?_⟩
    rw [← hlabel]
    rcases hcheck with (hlt | hlt) | heq
    · omega
    · omega
    · exact beq_iff_eq.mp heq
  next => nomatch hok

/-- What is done at the end of the text. -/
theorem eofActions_close (hph : phaseOf cs = some ph)
    (hfinal : UriTable.firstFinal ≤ cs) :
    ph.close = some (UriTable.eofActions cs) := by
  obtain ⟨r, hfind, hr⟩ := Option.map_eq_some_iff.mp hph
  have hin := List.find?_some hfind
  rw [Bool.and_eq_true, decide_eq_true_eq, decide_eq_true_eq] at hin
  have hall := List.all_eq_true.mp
    (List.all_eq_true.mp eof_ok r (List.mem_of_find?_eq_some hfind)) cs
    (List.mem_range'_1.mpr ⟨hin.1, by omega⟩)
  rw [Bool.or_eq_true, Nat.blt_eq, hr] at hall
  rcases hall with hlt | heq
  · omega
  · exact beq_iff_eq.mp heq

end Uri

end TinyServer
