/-
Smos.Base.BitfieldSet — a bit field is a set of indices.

The three operations on a bit field are those on a set: `step` is one of
them, `run` a sequence. As long as the indices are in range a run does not
stop, keeps the length, answers what the set answers, and leaves the set
that the operations make of the bits the array began with (`run_spec`).
`bfFirstFree` then is the least index in range that is not in the set.
-/
import Mathlib.Data.List.Forall2
import Mathlib.Order.Bounds.Basic
import Smos.Base.Bitfield
import Smos.Base.SetOps

namespace Smos.Base

namespace Bitfield

variable {bf bf' : Bitfield} {bs : List Bool} {i : Nat} {op : SetOp Nat}

/-- The indices of the bits that are set. -/
def bits (bf : Bitfield) : Set Nat := {i | bf.Has i}

@[simp] theorem mem_bits : i ∈ bf.bits ↔ bf.Has i := Iff.rfl

/-- `bf_set_bit`, `bf_clr_bit` or `bf_get_bit`: the array, and what is answered. -/
def step (bf : Bitfield) : SetOp Nat → Option (Bitfield × List Bool)
  | .insert i => (bf.bfSetBit i).map fun bf' => (bf', [])
  | .erase i => (bf.bfClrBit i).map fun bf' => (bf', [])
  | .mem i => (bf.bfGetBit i).map fun b => (bf, [b])

/-- A sequence of operations: the array, and the answers in order. -/
def run (bf : Bitfield) : List (SetOp Nat) → Option (Bitfield × List Bool)
  | [] => some (bf, [])
  | op :: ops =>
    (bf.step op).bind fun r => (run r.1 ops).map fun rest => (rest.1, r.2 ++ rest.2)

/-- The answers are true. -/
abbrev Answers (bs : List Bool) (ps : List Prop) : Prop :=
  List.Forall₂ (fun b p => b = true ↔ p) bs ps

theorem bfGetBit_inRange (h : bf.InRange i) : ∃ b, bf.bfGetBit i = some b :=
  ⟨_, by rw [bfGetBit, List.getElem?_eq_getElem h, Option.map_some]⟩

/-! ## One operation -/

theorem step_spec (h : bf.InRange op.index) :
    ∃ bf' bs, bf.step op = some (bf', bs) ∧ bf'.length = bf.length ∧
      bf'.bits = op.act bf.bits ∧ Answers bs (op.answer bf.bits) := by
  cases op with
  | insert i =>
    change bf.InRange i at h
    obtain ⟨bf', hset⟩ := bfSetBit_inRange h
    have hbits : bf'.bits = insert i bf.bits := by
      ext j
      rw [mem_bits, bfSetBit_has hset, Set.mem_insert_iff, mem_bits, or_comm]
    refine ⟨bf', [], ?_, bfSetBit_length hset, hbits, .nil⟩
    rw [step, hset, Option.map_some]
  | erase i =>
    change bf.InRange i at h
    obtain ⟨bf', hclr⟩ := bfClrBit_inRange h
    have hbits : bf'.bits = bf.bits \ {i} := by
      ext j
      rw [mem_bits, bfClrBit_has hclr, Set.mem_sdiff, mem_bits, Set.mem_singleton_iff]
    refine ⟨bf', [], ?_, bfClrBit_length hclr, hbits, .nil⟩
    rw [step, hclr, Option.map_some]
  | mem i =>
    change bf.InRange i at h
    obtain ⟨b, hget⟩ := bfGetBit_inRange h
    have hb : b = true ↔ i ∈ bf.bits := by
      rw [mem_bits, Has, hget, Option.some.injEq]
    refine ⟨bf, [b], ?_, rfl, rfl, .cons hb .nil⟩
    rw [step, hget, Option.map_some]

/-- Two arrays that agree on a bit answer the same, in range or not. -/
theorem bfGetBit_congr (hlen : bf'.length = bf.length) (h : bf'.Has i ↔ bf.Has i) :
    bf'.bfGetBit i = bf.bfGetBit i := by
  by_cases hr : bf.InRange i
  · have hr' : bf'.InRange i := by
      rw [InRange, hlen]
      exact hr
    obtain ⟨b, hb⟩ := bfGetBit_inRange hr
    obtain ⟨b', hb'⟩ := bfGetBit_inRange hr'
    rw [Has, Has, hb, hb', Option.some.injEq, Option.some.injEq] at h
    rw [hb, hb', Bool.eq_iff_iff.mpr h]
  · have hle : bf.length ≤ wordIndex i := Nat.le_of_not_lt hr
    have hle' : bf'.length ≤ wordIndex i := hlen ▸ hle
    rw [bfGetBit, bfGetBit, List.getElem?_eq_none hle, List.getElem?_eq_none hle']

/-! ## Sequences -/

theorem run_spec (ops : List (SetOp Nat)) (h : ∀ op ∈ ops, bf.InRange op.index) :
    ∃ bf' bs, bf.run ops = some (bf', bs) ∧ bf'.length = bf.length ∧
      bf'.bits = SetOp.after bf.bits ops ∧ Answers bs (SetOp.answers bf.bits ops) := by
  induction ops generalizing bf with
  | nil => exact ⟨bf, [], rfl, rfl, rfl, .nil⟩
  | cons op ops ih =>
    obtain ⟨bf₁, bs₁, hstep, hlen₁, hbits₁, hans₁⟩ := step_spec (h op List.mem_cons_self)
    have hrest : ∀ op' ∈ ops, bf₁.InRange op'.index := by
      intro op' hop
      rw [InRange, hlen₁]
      exact h op' (List.mem_cons_of_mem _ hop)
    obtain ⟨bf₂, bs₂, hrun, hlen₂, hbits₂, hans₂⟩ := ih hrest
    rw [hbits₁] at hbits₂ hans₂
    refine ⟨bf₂, bs₁ ++ bs₂, ?_, hlen₂.trans hlen₁, hbits₂, ?_⟩
    · rw [run, hstep, Option.bind_some, hrun, Option.map_some]
    · exact List.rel_append hans₁ hans₂

/-! ## The first free index -/

/-- The indices that can be had. -/
def free (bf : Bitfield) : Set Nat := {i | bf.InRange i ∧ i ∉ bf.bits}

theorem bfFirstFree_isLeast : bf.bfFirstFree = some i ↔ IsLeast bf.free i := by
  constructor
  · intro hi
    refine ⟨bfFirstFree_spec hi, ?_⟩
    intro j ⟨_, hj⟩
    exact Nat.le_of_not_lt fun hlt => hj (bfFirstFree_least hi hlt)
  · intro hi
    obtain ⟨⟨hr, hn⟩, hle⟩ := hi
    obtain ⟨k, hk, hki⟩ := bfFirstFree_le hr hn
    have hik : i ≤ k := hle (bfFirstFree_spec hk)
    rw [hk, Nat.le_antisymm hki hik]

/-- There is no free index exactly when every word is full. -/
theorem bfFirstFree_none_iff : ∀ {bf : Bitfield},
    bf.bfFirstFree = none ↔ ∀ w ∈ bf, w = BitVec.allOnes 64
  | [] => by simp [bfFirstFree]
  | w :: ws => by
      rw [bfFirstFree]
      by_cases hw : w = BitVec.allOnes 64
      · rw [if_pos hw, Option.map_eq_none_iff, bfFirstFree_none_iff]
        simp [hw]
      · rw [if_neg hw]
        constructor
        · intro h
          cases h
        · intro hall
          exact absurd (hall w List.mem_cons_self) hw

/-- A bit field is a set: whatever it holds and whatever is done to it, in range. -/
theorem run_represents (bf : Bitfield) (ops : List (SetOp Nat))
    (h : ∀ op ∈ ops, bf.InRange op.index) :
    ∃ bf' bs, bf.run ops = some (bf', bs) ∧ bf'.length = bf.length ∧
      (∀ i, bf'.Has i ↔ SetOp.Lasting ops i ∨ bf.Has i ∧ .erase i ∉ ops) ∧
      Answers bs (SetOp.answers bf.bits ops) ∧
      (∀ i, (∀ op ∈ ops, op.index ≠ i) → bf'.bfGetBit i = bf.bfGetBit i) ∧
      (∀ i, bf'.bfFirstFree = some i ↔
        IsLeast {j | bf.InRange j ∧ j ∉ SetOp.after bf.bits ops} i) ∧
      (bf'.bfFirstFree = none ↔ ∀ w ∈ bf', w = BitVec.allOnes 64) := by
  obtain ⟨bf', bs, hrun, hlen, hbits, hans⟩ := run_spec ops h
  have hmem : ∀ i, bf'.Has i ↔ i ∈ SetOp.after bf.bits ops := by
    intro i
    rw [← hbits, mem_bits]
  refine ⟨bf', bs, hrun, hlen, ?_, hans, ?_, ?_, bfFirstFree_none_iff⟩
  · intro i
    rw [hmem, SetOp.mem_after, mem_bits]
  · intro i hi
    refine bfGetBit_congr hlen ?_
    rw [hmem, SetOp.mem_after_of_ne hi, mem_bits]
  · intro i
    have hfree : bf'.free = {j | bf.InRange j ∧ j ∉ SetOp.after bf.bits ops} := by
      rw [free, hbits]
      simp only [InRange, hlen]
    rw [bfFirstFree_isLeast, hfree]

/-- Two words, with operations on both sides of the edge between them. -/
theorem run_represents_edge : ∃ bf' bs,
    run [0, 0] [.insert 63, .insert 64, .mem 64, .erase 63] = some (bf', bs) ∧
      bf'.Has 64 ∧ ¬ bf'.Has 63 ∧ bf'.bfFirstFree = some 0 := by
  have hr : ∀ op ∈ ([.insert 63, .insert 64, .mem 64, .erase 63] : List (SetOp Nat)),
      InRange [0, 0] op.index := by
    unfold InRange
    decide
  obtain ⟨bf', bs, hrun, -, hhas, -, -, hfree, -⟩ := run_represents [0, 0] _ hr
  refine ⟨bf', bs, hrun, ?_, ?_, ?_⟩
  · rw [hhas]
    exact .inl ⟨[.insert 63], [.mem 64, .erase 63], rfl, by decide⟩
  · have hmem : 63 ∈ SetOp.after (bits [0, 0]) [.insert 63, .insert 64, .mem 64, .erase 63] ↔ _ :=
      SetOp.mem_after
    rw [mem_bits] at hmem
    rw [hhas, ← hmem]
    simp [SetOp.after, SetOp.act]
  · rw [hfree]
    have hclear : ¬ Has [0, 0] 0 := by decide
    refine ⟨⟨?_, ?_⟩, fun j _ => Nat.zero_le j⟩
    · unfold InRange
      decide
    · rw [SetOp.mem_after_of_ne (by decide), mem_bits]
      exact hclear

end Bitfield

end Smos.Base
