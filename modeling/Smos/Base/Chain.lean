/-
Smos.Base.Chain — singly linked chains of cells.

`Chain next head l` says that the cells reached from `head` along `next` are
those of `l`, in order, and that the last one has no next cell. A chain only depends on the links of its own cells.
-/
import Mathlib.Data.BitVec
import Mathlib.Data.List.Basic
import Mathlib.Logic.Function.Basic

namespace Smos.Base

/-- The links spell out the list. -/
inductive Chain {ι : Type} (next : ι → Option ι) : Option ι → List ι → Prop
  | nil : Chain next none []
  | cons {x : ι} {xs : List ι} (h : Chain next (next x) xs) : Chain next (some x) (x :: xs)

namespace Chain

variable {ι : Type} {next next' : ι → Option ι} {head : Option ι} {l l' : List ι} {x : ι}

theorem head_eq (h : Chain next head l) : head = l.head? := by
  cases h <;> rfl

theorem congr (h : Chain next head l) (hl : ∀ x ∈ l, next' x = next x) : Chain next' head l := by
  induction h with
  | nil => exact .nil
  | cons h ih =>
    refine .cons ?_
    rw [hl _ List.mem_cons_self]
    exact ih fun y hy => hl y (List.mem_cons_of_mem _ hy)

/-- Put a cell in front. -/
theorem push (h : Chain next head l) (hx : next' x = head) (hl : ∀ y ∈ l, next' y = next y) :
    Chain next' (some x) (x :: l) :=
  .cons (by rw [hx]; exact h.congr hl)

/-- Take the first cell off. -/
theorem pop (h : Chain next head (x :: l)) : Chain next (next x) l := by
  cases h with
  | cons h => exact h

/-- Cells linked to the next number each, up to the last one. -/
theorem range' {next : Nat → Option Nat} (n : Nat) : ∀ start,
    (∀ i, start ≤ i → i + 1 < start + n → next i = some (i + 1)) →
    (0 < n → next (start + n - 1) = none) →
    Chain next (if 0 < n then some start else none) (List.range' start n) := by
  induction n with
  | zero => exact fun _ _ _ => .nil
  | succ n ih =>
    intro start hlinks hlast
    rw [if_pos (Nat.succ_pos n)]
    refine .cons ?_
    have hrest := ih (start + 1) (fun i hi hlt => hlinks i (by omega) (by omega)) fun hpos => by
      have heq : start + 1 + n - 1 = start + (n + 1) - 1 := by omega
      rw [heq]
      exact hlast (Nat.succ_pos n)
    rcases Nat.eq_zero_or_pos n with rfl | hpos
    · have hend := hlast Nat.one_pos
      rw [Nat.add_sub_cancel] at hend
      rw [hend]
      exact hrest
    · rw [if_pos hpos] at hrest
      rw [hlinks start (Nat.le_refl _) (by omega)]
      exact hrest

end Chain

end Smos.Base
