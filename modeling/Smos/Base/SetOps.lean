/-
Smos.Base.SetOps — insertions, removals and questions, one after the other.

A sequence of operations acts on a set. `after` is the set it ends with,
`answers` what it is told on the way. What is in the set in the end can be
read off the sequence (`mem_after`): what is inserted and not removed later,
and what was there and is never removed.
-/
import Mathlib.Data.BitVec
import Mathlib.Data.Set.BooleanAlgebra
import Mathlib.Data.Set.Insert
import Mathlib.Order.CompletePartialOrder

namespace Smos.Base

/-- An operation on a set. -/
inductive SetOp (α : Type) where
  | insert (a : α)
  | erase (a : α)
  | mem (a : α)
  deriving DecidableEq, Repr

namespace SetOp

variable {α : Type} {S : Set α} {a : α} {op : SetOp α} {ops : List (SetOp α)}

/-- What the operation is about. -/
def index : SetOp α → α
  | .insert a => a
  | .erase a => a
  | .mem a => a

/-- The set after one operation. -/
def act (S : Set α) : SetOp α → Set α
  | .insert a => Insert.insert a S
  | .erase a => S \ {a}
  | .mem _ => S

/-- The set after a sequence. -/
def after (S : Set α) (ops : List (SetOp α)) : Set α := ops.foldl act S

/-- What the operation is told: only questions are answered. -/
def answer (S : Set α) : SetOp α → List Prop
  | .insert _ => []
  | .erase _ => []
  | .mem a => [a ∈ S]

/-- What a sequence is told, in order. -/
def answers (S : Set α) : List (SetOp α) → List Prop
  | [] => []
  | op :: ops => op.answer S ++ answers (op.act S) ops

/-- The sequence inserts `a` and does not remove it later. -/
def Lasting (ops : List (SetOp α)) (a : α) : Prop :=
  ∃ before later, ops = before ++ .insert a :: later ∧ .erase a ∉ later

theorem after_cons : after S (op :: ops) = after (op.act S) ops := rfl

theorem mem_act_of_ne (h : op.index ≠ a) : a ∈ op.act S ↔ a ∈ S := by
  cases op with
  | insert b =>
    constructor
    · intro ha
      rcases ha with rfl | ha
      · exact absurd rfl h
      · exact ha
    · intro ha
      exact .inr ha
  | erase b =>
    constructor
    · intro ha
      exact ha.1
    · intro ha
      exact ⟨ha, fun hab => h hab.symm⟩
  | mem b => exact Iff.rfl

/-- An operation leaves the rest of the set alone. -/
theorem mem_after_of_ne (h : ∀ op ∈ ops, op.index ≠ a) : a ∈ after S ops ↔ a ∈ S := by
  induction ops generalizing S with
  | nil => exact Iff.rfl
  | cons op ops ih =>
    rw [after_cons, ih fun op hop => h op (List.mem_cons_of_mem _ hop)]
    exact mem_act_of_ne (h op List.mem_cons_self)

theorem lasting_cons : Lasting (op :: ops) a ↔
    op = .insert a ∧ .erase a ∉ ops ∨ Lasting ops a := by
  constructor
  · intro ⟨before, later, heq, hno⟩
    cases before with
    | nil =>
      obtain ⟨rfl, rfl⟩ := List.cons.inj heq
      exact .inl ⟨rfl, hno⟩
    | cons first before =>
      obtain ⟨-, rfl⟩ := List.cons.inj heq
      exact .inr ⟨before, later, rfl, hno⟩
  · intro h
    rcases h with ⟨rfl, hno⟩ | ⟨before, later, rfl, hno⟩
    · exact ⟨[], ops, rfl, hno⟩
    · exact ⟨op :: before, later, rfl, hno⟩

/-- The set holds what is inserted and not removed later, and what stays. -/
theorem mem_after : a ∈ after S ops ↔ Lasting ops a ∨ a ∈ S ∧ .erase a ∉ ops := by
  induction ops generalizing S with
  | nil =>
    have hnil : ¬ Lasting ([] : List (SetOp α)) a := by
      intro ⟨before, later, heq, _⟩
      simp at heq
    simp [after, hnil]
  | cons op ops ih =>
    rw [after_cons, ih, lasting_cons]
    by_cases hop : op.index = a
    · cases op with
      | insert b =>
        obtain rfl : b = a := hop
        simp only [act, Set.mem_insert_iff, true_or, true_and, List.mem_cons, reduceCtorEq,
          false_or]
        constructor
        · intro h
          rcases h with h | h
          · exact .inl (.inr h)
          · exact .inl (.inl h)
        · intro h
          rcases h with (h | h) | ⟨_, h⟩
          · exact .inr h
          · exact .inl h
          · exact .inr h
      | erase b =>
        obtain rfl : b = a := hop
        simp [act]
      | mem b => simp [act]
    · have hmem : a ∈ op.act S ↔ a ∈ S := mem_act_of_ne hop
      have hinsert : op ≠ .insert a := fun heq => hop (heq ▸ rfl)
      have herase : SetOp.erase a ≠ op := fun heq => hop (heq ▸ rfl)
      rw [hmem]
      simp [hinsert, herase]

end SetOp

end Smos.Base
