/-
Smos.Base.Custody — who has which of the things an allocator gives out.

An allocator keeps two lists, of the things that are free and of those it has
given out, and every thing there is, is once in one of them. A `Custody` says
this, and what owners have: what an owner has is given out, and only to this
owner. Things that no owner has may be given out all the same; they are lost,
and nothing more is said of them.

The operations of an allocator are taking the first free thing (`take`),
making a new one (`made`) and getting one back (`give`); an owner that ends
gives back all it has (`retire`).
-/
import Mathlib.Data.List.Nodup
import Mathlib.Data.List.Perm.Basic
import Mathlib.Tactic.Common

namespace Smos.Base

variable {ι α : Type}

/-- Every thing is free or given out, once; the owners that are `live` have things that are
given out, and each thing once. -/
structure Custody (all free out : List α) (live : ι → Prop) (has : ι → List α) : Prop where
  distinct : all.Nodup
  every : (free ++ out).Perm all
  given : ∀ i, live i → ∀ x ∈ has i, x ∈ out
  single : ∀ i, live i → (has i).Nodup
  apart : ∀ i j, live i → live j → i ≠ j → (has i).Disjoint (has j)

namespace Custody

variable {all free out : List α} {live live' : ι → Prop} {has has' : ι → List α} {i : ι} {x : α}

/-- No thing is twice in the two lists. -/
theorem once (h : Custody all free out live has) : (free ++ out).Nodup :=
  h.every.nodup_iff.mpr h.distinct

/-- What is given out is not free. -/
theorem not_free (h : Custody all free out live has) (hi : live i) (hx : x ∈ has i) : x ∉ free :=
  fun hf => List.disjoint_of_nodup_append h.once hf (h.given i hi x hx)

/-- Owners may be forgotten. -/
theorem less (h : Custody all free out live has) (hlive : ∀ i, live' i → live i)
    (hhas : ∀ i, live' i → has' i = has i) : Custody all free out live' has' where
  distinct := h.distinct
  every := h.every
  given i hi x hx := h.given i (hlive i hi) x (hhas i hi ▸ hx)
  single i hi := hhas i hi ▸ h.single i (hlive i hi)
  apart i j hi hj hne := by
    rw [hhas i hi, hhas j hj]
    exact h.apart i j (hlive i hi) (hlive j hj) hne

/-- An owner that has nothing yet. -/
theorem enter (h : Custody all free out live has) (hi : has i = []) :
    Custody all free out (fun j => live j ∨ j = i) has where
  distinct := h.distinct
  every := h.every
  given j hj x hx := by
    rcases hj with hj | rfl
    · exact h.given j hj x hx
    · rw [hi] at hx
      cases hx
  single j hj := by
    rcases hj with hj | rfl
    · exact h.single j hj
    · rw [hi]
      exact List.nodup_nil
  apart j k hj hk hne := by
    rcases hj with hj | rfl
    · rcases hk with hk | rfl
      · exact h.apart j k hj hk hne
      · rw [hi]
        exact List.disjoint_nil_right _
    · rw [hi]
      exact List.disjoint_nil_left _

/-- The first free thing goes to one owner. -/
theorem take (h : Custody all (x :: free) out live has) (hi : (has' i).Perm (x :: has i))
    (hother : ∀ j, j ≠ i → has' j = has j) : Custody all free (out ++ [x]) live has' := by
  have hnew : ∀ j, live j → x ∉ has j := fun j hj hmem =>
    h.not_free hj hmem List.mem_cons_self
  have hsub : ∀ j y, y ∈ has' j → y ∈ has j ∨ j = i ∧ y = x := by
    intro j y hy
    by_cases hj : j = i
    · subst hj
      rcases List.mem_cons.mp (hi.mem_iff.mp hy) with rfl | hy
      · exact .inr ⟨rfl, rfl⟩
      · exact .inl hy
    · exact .inl (hother j hj ▸ hy)
  refine ⟨h.distinct, ?_, ?_, ?_, ?_⟩
  · rw [← List.append_assoc]
    exact (List.perm_append_singleton x (free ++ out)).trans h.every
  · intro j hj y hy
    rcases hsub j y hy with hy | ⟨-, rfl⟩
    · exact List.mem_append_left _ (h.given j hj y hy)
    · exact List.mem_append_right _ (List.mem_singleton_self y)
  · intro j hj
    by_cases hji : j = i
    · subst hji
      exact hi.nodup_iff.mpr (List.nodup_cons.mpr ⟨hnew j hj, h.single j hj⟩)
    · rw [hother j hji]
      exact h.single j hj
  · intro j k hj hk hne y hy hy'
    rcases hsub j y hy with hy | ⟨hji, rfl⟩
    · rcases hsub k y hy' with hy' | ⟨-, rfl⟩
      · exact h.apart j k hj hk hne hy hy'
      · exact hnew j hj hy
    · rcases hsub k y hy' with hy' | ⟨hki, -⟩
      · exact hnew k hk hy'
      · exact hne (hji.trans hki.symm)

/-- A new thing is free. -/
theorem made (h : Custody all free out live has) (hx : x ∉ all) :
    Custody (all ++ [x]) (x :: free) out live has where
  distinct := h.distinct.append (List.nodup_singleton x) (List.disjoint_singleton.mpr hx)
  every := (h.every.cons x).trans (List.perm_append_singleton x all).symm
  given := h.given
  single := h.single
  apart := h.apart

variable [DecidableEq α]

/-- A thing that no owner has is given back. -/
theorem give (h : Custody all free out live has) (hx : x ∈ out) (hno : ∀ i, live i → x ∉ has i) :
    Custody all (x :: free) (out.erase x) live has where
  distinct := h.distinct
  every := by
    have hmiddle : (free ++ x :: out.erase x).Perm (x :: free ++ out.erase x) := List.perm_middle
    have hout : (free ++ x :: out.erase x).Perm (free ++ out) :=
      (List.perm_cons_erase hx).symm.append_left free
    exact (hmiddle.symm.trans hout).trans h.every
  given i hi y hy := by
    have hne : y ≠ x := fun heq => hno i hi (heq ▸ hy)
    exact (List.mem_erase_of_ne hne).mpr (h.given i hi y hy)
  single := h.single
  apart := h.apart

/-- Things that no owner has are given back one by one. -/
theorem giveAll : ∀ {xs free out : List α}, Custody all free out live has → xs.Nodup →
    (∀ x ∈ xs, x ∈ out ∧ ∀ i, live i → x ∉ has i) →
    Custody all (xs.reverse ++ free) (out.diff xs) live has := by
  intro xs
  induction xs with
  | nil => exact fun h _ _ => h
  | cons x xs ih =>
    intro free out h hn hall
    obtain ⟨hx, hxs⟩ := List.nodup_cons.mp hn
    obtain ⟨hmem, hno⟩ := hall x List.mem_cons_self
    have hrest : ∀ y ∈ xs, y ∈ out.erase x ∧ ∀ i, live i → y ∉ has i := by
      intro y hy
      obtain ⟨hout, hfree⟩ := hall y (List.mem_cons_of_mem x hy)
      have hne : y ≠ x := fun heq => hx (heq ▸ hy)
      exact ⟨(List.mem_erase_of_ne hne).mpr hout, hfree⟩
    rw [List.reverse_cons, List.append_assoc, List.diff_cons]
    exact ih (h.give hmem hno) hxs hrest

/-- An owner ends and gives back what it has. -/
theorem retire (h : Custody all free out live has) (hi : live i) :
    Custody all ((has i).reverse ++ free) (out.diff (has i)) (fun j => live j ∧ j ≠ i) has := by
  have hless : Custody all free out (fun j => live j ∧ j ≠ i) has :=
    h.less (fun _ hj => hj.1) fun _ _ => rfl
  refine hless.giveAll (h.single i hi) fun x hx => ⟨h.given i hi x hx, ?_⟩
  intro j hj hxj
  exact h.apart j i hj.1 hi hj.2 hxj hx

end Custody

end Smos.Base
