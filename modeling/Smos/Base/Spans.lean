/-
Smos.Base.Spans — lists of pairwise disjoint ranges.

`span start size` is the half-open range of `size` addresses from `start`.
The first part compares end points: two ranges are disjoint unless one of
them has an end point inside the other or swallows it whole. The second
part is about a list of things that each occupy a set: when the sets are
pairwise disjoint, a search for the thing that holds a given point has at
most one answer, whatever the order of the list.
-/
import Mathlib.Data.BitVec
import Mathlib.Data.List.Pairwise
import Mathlib.Data.List.Perm.Subperm
import Mathlib.Data.Set.BooleanAlgebra
import Mathlib.Data.Set.Disjoint
import Mathlib.Order.CompletePartialOrder
import Mathlib.Order.Interval.Set.Basic
import Mathlib.Tactic.Common

namespace Smos.Base

/-! ## Two ranges -/

/-- The addresses from `start` on, `size` of them. -/
def span (start size : Nat) : Set Nat := Set.Ico start (start + size)

theorem mem_span {start size a : Nat} : a ∈ span start size ↔ start ≤ a ∧ a < start + size :=
  Iff.rfl

theorem disjoint_span_iff {a m b n : Nat} :
    Disjoint (span a m) (span b n) ↔ m = 0 ∨ n = 0 ∨ a + m ≤ b ∨ b + n ≤ a := by
  rw [Set.disjoint_left]
  simp only [mem_span, not_and, not_lt]
  constructor
  · intro h
    by_contra hc
    simp only [not_or, not_le] at hc
    obtain ⟨hm, hn, hab, hba⟩ := hc
    -- the larger of the two starts lies in both
    have := h (a := max a b) (by omega) (by omega)
    omega
  · intro h x hx hlt
    omega

instance (a m b n : Nat) : Decidable (Disjoint (span a m) (span b n)) :=
  decidable_of_iff _ disjoint_span_iff.symm

/-- The second range lies in the first, which begins before it. -/
def Engulfs (a m b n : Nat) : Prop := n ≠ 0 ∧ a < b ∧ b + n ≤ a + m

instance (a m b n : Nat) : Decidable (Engulfs a m b n) := inferInstanceAs (Decidable (_ ∧ _ ∧ _))

/-- A test that asks whether an end of the first range lies inside the second
misses exactly the ranges that engulf it. -/
theorem disjoint_span_iff_of_ends {a m b n : Nat}
    (h : ¬ (b ≤ a ∧ a < b + n ∨ b < a + m ∧ a + m < b + n)) :
    Disjoint (span a m) (span b n) ↔ ¬ Engulfs a m b n := by
  rw [disjoint_span_iff]
  unfold Engulfs
  constructor
  · rintro hd ⟨hn, hab, hle⟩
    omega
  · intro he
    by_contra hc
    simp only [not_or, not_le] at hc
    exact he ⟨hc.2.1, by omega, by omega⟩

/-! ## Lists of disjoint sets -/

section Lists

variable {α β : Type} {f : α → Set β} {xs ys : List α}

/-- The sets of any two different places of the list are disjoint. -/
def Apart (f : α → Set β) (xs : List α) : Prop := xs.Pairwise fun x y => Disjoint (f x) (f y)

theorem Apart.of_subperm (h : Apart f xs) (hs : ys.Subperm xs) : Apart f ys := by
  obtain ⟨zs, hz, hsub⟩ := hs
  exact (hz.pairwise_iff fun hd => hd.symm).mp (h.sublist hsub)

theorem Apart.concat {x : α} (h : Apart f xs) (hx : ∀ y ∈ xs, Disjoint (f y) (f x)) :
    Apart f (xs ++ [x]) := by
  refine List.pairwise_append.mpr ⟨h, List.pairwise_singleton _ _, ?_⟩
  intro y hy z hz
  rw [List.mem_singleton.mp hz]
  exact hx y hy

/-- The same list under another assignment that agrees on it. -/
theorem Apart.congr {g : α → Set β} (h : Apart f xs) (hg : ∀ x ∈ xs, g x = f x) : Apart g xs := by
  refine List.Pairwise.imp_of_mem ?_ h
  intro x y hx hy hd
  rwa [hg x hx, hg y hy]

theorem Apart.eq_of_mem {x y : α} {b : β} (h : Apart f xs) (hx : x ∈ xs) (hy : y ∈ xs)
    (hbx : b ∈ f x) (hby : b ∈ f y) : x = y := by
  by_contra hne
  have : Std.Symm fun x y => Disjoint (f x) (f y) := ⟨fun _ _ hd => hd.symm⟩
  have hd : Disjoint (f x) (f y) := List.Pairwise.forall h hx hy hne
  exact Set.disjoint_left.mp hd hbx hby

/-- The search finds the one holder of a point. -/
theorem Apart.find?_eq_some_iff [∀ x b, Decidable (b ∈ f x)] {x : α} {b : β} (h : Apart f xs) :
    xs.find? (fun y => decide (b ∈ f y)) = some x ↔ x ∈ xs ∧ b ∈ f x := by
  constructor
  · intro hf
    exact ⟨List.mem_of_find?_eq_some hf, by simpa using List.find?_some hf⟩
  · rintro ⟨hx, hb⟩
    cases hf : xs.find? fun y => decide (b ∈ f y) with
    | none => exact absurd hb (by simpa using List.find?_eq_none.mp hf x hx)
    | some y =>
      have hy : b ∈ f y := by simpa using List.find?_some hf
      rw [h.eq_of_mem (List.mem_of_find?_eq_some hf) hx hy hb]

end Lists

end Smos.Base
