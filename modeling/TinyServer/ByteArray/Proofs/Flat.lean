/-
`ByteArray` refines a flat byte vector with a cursor.

The abstract array is what the class is for: a sequence of bytes and a
position inside it. It knows no nodes, no capacity and no base size, so
a theorem that ties every observation of the concrete array to it says
at once that none of them depends on the node size or on the
indeterminate bytes of fresh nodes.

The simulation relation is the representation invariant plus equality
of the stored bytes and of the position; each case of the step lemma is
the specification of the operation.
-/
import TinyServer.ByteArray.Proofs.Runs
import TinyServer.Lib.Simulate

namespace TinyServer

open Lib

-- ======================================================== the abstract array

/-- A byte sequence with a cursor inside it. -/
structure FlatArray where
  bytes : List UInt8
  pos : Nat
  pos_le : pos ≤ bytes.length

/-- The calls that move bytes or the cursor. -/
inductive FlatOp
  | write (data : List UInt8)
  | read (n : Nat)
  | setPosition (p : Nat)
  | clear

/-- How a call ends for its caller. -/
inductive Outcome
  | returned
  | bytes (bs : List UInt8)
  | outOfRange
  deriving DecidableEq, Repr

/-- What a caller can see after a call: its outcome, `getPosition()`,
`getSize()` and the result of `toString()`, if that returns. -/
structure Observation where
  outcome : Outcome
  position : Nat
  size : Nat
  string : Option (List UInt8)
  deriving DecidableEq, Repr

namespace FlatArray

def empty : FlatArray := ⟨[], 0, Nat.le_refl 0⟩

/-- Overwrite or extend the bytes at the cursor. -/
def write (a : FlatArray) (data : List UInt8) : FlatArray where
  bytes := overlay a.bytes a.pos data
  pos := a.pos + data.length
  pos_le := by
    rw [length_overlay a.pos_le]
    exact Nat.le_max_right _ _

/-- Fetch `n` bytes at the cursor, or refuse. -/
def read (a : FlatArray) (n : Nat) : Outcome × FlatArray :=
  if h : n ≤ a.bytes.length - a.pos then
    (.bytes (slice a.bytes a.pos n),
      ⟨a.bytes, a.pos + n, by have := a.pos_le; omega⟩)
  else (.outOfRange, a)

def observe (a : FlatArray) (o : Outcome) : Observation :=
  ⟨o, a.pos, a.bytes.length, some (a.bytes.drop a.pos)⟩

/-- One call; positions past the size are not set. -/
def step (op : FlatOp) (a : FlatArray) :
    Option (Observation × FlatArray) :=
  match op with
  | .write data => some ((a.write data).observe .returned, a.write data)
  | .read n => some ((a.read n).2.observe (a.read n).1, (a.read n).2)
  | .setPosition p =>
      if h : p ≤ a.bytes.length then
        let a' : FlatArray := ⟨a.bytes, p, h⟩
        some (a'.observe .returned, a')
      else none
  | .clear => some (empty.observe .returned, empty)

end FlatArray

-- ======================================================= the concrete steps

namespace ByteArray

/-- The outcome of a call that a caller survives. -/
def outcome {α : Type} (show_ : α → Outcome)
    (r : EStateM.Result Err ByteArray α) : Option (Outcome × ByteArray) :=
  match r with
  | .ok a s => some (show_ a, s)
  | .error .outOfRange s => some (.outOfRange, s)
  | .error _ _ => none

def observe (s : ByteArray) (o : Outcome) : Observation :=
  ⟨o, s.getPosition, s.getSize, match toString s with
    | .ok str _ => some str
    | .error _ _ => none⟩

/-- One call of a run that sets no position past the size; `none` also
when the call steps to a null node. -/
def step (op : FlatOp) (s : ByteArray) :
    Option (Observation × ByteArray) :=
  let r : Option (Outcome × ByteArray) := match op with
    | .write data => outcome (fun _ => .returned) (write data s)
    | .read n => outcome .bytes (read n s)
    | .setPosition p =>
        if p ≤ s.getSize then
          outcome (fun _ => .returned) (setPosition p s)
        else none
    | .clear => outcome (fun _ => .returned) (clear s)
  r.map fun (o, s') => (s'.observe o, s')

-- =========================================================== the simulation

variable {b : Nat}

/-- The flat array a concrete array stands for. -/
structure Rel (b : Nat) (s : ByteArray) (a : FlatArray) : Prop where
  inv : Inv b s
  bytes_eq : s.bytes = a.bytes
  pos_eq : s.position = a.pos

theorem Rel.size_eq {s : ByteArray} {a : FlatArray} (h : Rel b s a) :
    s.size = a.bytes.length := by
  rw [← h.bytes_eq, length_bytes h.inv]

/-- Related arrays look the same. -/
theorem Rel.observe_eq (hb : 0 < b) {s : ByteArray} {a : FlatArray}
    (h : Rel b s a) (o : Outcome) : s.observe o = a.observe o := by
  simp only [ByteArray.observe, FlatArray.observe, toString_spec hb h.inv,
    h.bytes_eq, h.pos_eq, getPosition, getSize, h.size_eq]

/-- Every concrete step is a step of the flat array with the same
observation. -/
theorem Rel.step (hb : 0 < b) {op : FlatOp} {s s' : ByteArray}
    {a : FlatArray} {o : Observation} (h : Rel b s a)
    (hstep : s.step op = some (o, s')) :
    ∃ a', a.step op = some (o, a') ∧ Rel b s' a' := by
  have hsize := h.size_eq
  simp only [ByteArray.step, Option.map_eq_some_iff, Prod.mk.injEq] at hstep
  obtain ⟨⟨out, t⟩, hout, rfl, rfl⟩ := hstep
  cases op with
  | write data =>
      simp only at hout
      rcases write_spec hb h.inv data with
        ⟨-, t', hrun⟩ | ⟨-, t', hrun, ⟨hinv, hpos, -, hbytes⟩, -⟩
      · rw [hrun] at hout
        cases hout
      · rw [hrun] at hout
        simp only [outcome, Option.some.injEq, Prod.mk.injEq] at hout
        obtain ⟨rfl, rfl⟩ := hout
        have hrel : Rel b t' (a.write data) :=
          ⟨hinv, by rw [hbytes, h.bytes_eq, h.pos_eq]; rfl,
            by rw [hpos, h.pos_eq]; rfl⟩
        exact ⟨_, by rw [hrel.observe_eq hb]; rfl, hrel⟩
  | read n =>
      simp only at hout
      rcases read_spec hb h.inv n with
        ⟨hlt, hrun⟩ | ⟨-, -, hrun⟩ | ⟨hle, -, hrun⟩
      · rw [hrun] at hout
        simp only [outcome, Option.some.injEq, Prod.mk.injEq] at hout
        obtain ⟨rfl, rfl⟩ := hout
        have hread : a.read n = (.outOfRange, a) := by
          unfold FlatArray.read
          rw [dif_neg]
          rw [← hsize, ← h.pos_eq]
          omega
        refine ⟨a, ?_, h⟩
        simp only [FlatArray.step, hread, h.observe_eq hb]
      · rw [hrun] at hout
        cases hout
      · rw [hrun] at hout
        simp only [outcome, Option.some.injEq, Prod.mk.injEq] at hout
        obtain ⟨rfl, rfl⟩ := hout
        have hle' : n ≤ a.bytes.length - a.pos := by
          rw [← hsize, ← h.pos_eq]
          exact hle
        have hrel : Rel b (s.moved s.endian (s.position + n)) (a.read n).2 := by
          have hpos := h.inv.pos_le
          unfold FlatArray.read
          rw [dif_pos hle']
          exact ⟨h.inv.moved (by omega), h.bytes_eq, by
            show s.position + n = a.pos + n
            rw [h.pos_eq]⟩
        have hfst : (a.read n).1
            = .bytes (slice s.bytes s.position n) := by
          unfold FlatArray.read
          rw [dif_pos hle', h.bytes_eq, h.pos_eq]
        refine ⟨(a.read n).2, ?_, hrel⟩
        simp only [FlatArray.step, hrel.observe_eq hb, hfst]
  | setPosition p =>
      simp only at hout
      split at hout
      swap
      · cases hout
      next hp =>
        unfold getSize at hp
        rcases setPosition_spec hb h.inv p with
          ⟨hgt, -⟩ | ⟨-, t', hrun, hinv, hpos, hsz, hroot⟩
        · have := h.inv.size_le
          omega
        · rw [hrun] at hout
          simp only [outcome, Option.some.injEq, Prod.mk.injEq] at hout
          obtain ⟨rfl, rfl⟩ := hout
          have hp' : p ≤ a.bytes.length := by omega
          have hrel : Rel b t' ⟨a.bytes, p, hp'⟩ :=
            ⟨hinv, by
              unfold bytes
              rw [hroot, hsz, Nat.max_eq_left hp]
              exact h.bytes_eq, hpos⟩
          refine ⟨_, ?_, hrel⟩
          simp only [FlatArray.step, dif_pos hp', hrel.observe_eq hb]
  | clear =>
      obtain ⟨t', hrun, hinv, hpos, hsz⟩ := clear_spec h.inv
      simp only [hrun, outcome, Option.some.injEq, Prod.mk.injEq] at hout
      obtain ⟨rfl, rfl⟩ := hout
      have hrel : Rel b t' FlatArray.empty :=
        ⟨hinv, by rw [bytes, hsz]; rfl, hpos⟩
      exact ⟨_, by rw [hrel.observe_eq hb]; rfl, hrel⟩

/-- A new array stands for the empty byte sequence. -/
theorem rel_new (b : Nat) (heap : Nat → UInt8) :
    Rel b (ByteArray.new b heap) FlatArray.empty :=
  ⟨inv_new b heap, by simp [bytes, ByteArray.new, FlatArray.empty], rfl⟩

/-- Whatever the node size and the contents of fresh memory, a run that
steps to no null node shows exactly what the flat array shows; so two
such runs of the same calls on different node sizes show the same. -/
theorem refines_flat_array (b : Nat) (hb : 1 ≤ b) (heap : Nat → UInt8)
    (ops : List FlatOp) (os : List Observation)
    (h : observeAll step ops (ByteArray.new b heap) = some os) :
    observeAll FlatArray.step ops FlatArray.empty = some os
      ∧ ∀ (b' : Nat) (heap' : Nat → UInt8) (os' : List Observation),
        1 ≤ b' →
        observeAll step ops (ByteArray.new b' heap') = some os' →
        os' = os := by
  have hflat := observeAll_simulate (Rel.step hb) ops (rel_new b heap) h
  refine ⟨hflat, fun b' heap' os' hb' h' => ?_⟩
  have hflat' := observeAll_simulate (Rel.step hb') ops
    (rel_new b' heap') h'
  rw [hflat] at hflat'
  exact (Option.some.inj hflat').symm

/-- A run over nodes of two bytes: an overwrite across a border, a
rewind, a refused read and a clear. -/
theorem refines_flat_array_two_nodes :
    ∃ os, observeAll step [.write [1, 2], .write [3, 4], .setPosition 1,
        .write [9, 9], .setPosition 0, .read 4, .read 1, .clear]
        (ByteArray.new 2 fun _ => 7) = some os
      ∧ observeAll FlatArray.step [.write [1, 2], .write [3, 4],
        .setPosition 1, .write [9, 9], .setPosition 0, .read 4, .read 1,
        .clear] FlatArray.empty = some os := by
  have hrun : (observeAll step [.write [1, 2], .write [3, 4],
      .setPosition 1, .write [9, 9], .setPosition 0, .read 4, .read 1,
      .clear] (ByteArray.new 2 fun _ => 7)).isSome := by
    decide +kernel
  obtain ⟨os, hos⟩ := Option.isSome_iff_exists.mp hrun
  exact ⟨os, hos, (refines_flat_array 2 (by decide) _ _ os hos).1⟩

end ByteArray

end TinyServer
