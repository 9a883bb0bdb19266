/-
Smos.Base.PageRuns — the pages that a range of bytes lies in.

`touched p a n` are the pages of size `p` that the `n` bytes from `a` on lie
in; `reach p a n` ends with the page of the byte after the last, which is
one page more when the range ends on a page boundary, and one page when the
range is empty.

A loader that rounds with `p - (a + n) % p` makes room for the reach
(`mem_span_reach`), so its regions are exact for the ranges that end inside
a page (`reach_eq_touched_iff`). A test that asks whether an end of one reach
lies in another misses exactly the reaches that enclose another
(`disjoint_reach_iff_of_ends`).
-/
import Mathlib.Algebra.Order.Group.Nat
import Mathlib.Data.Nat.Basic
import Smos.Base.Spans

namespace Smos.Base

/-- The pages that the `n` bytes from `a` on lie in. -/
def touched (p a n : Nat) : Set Nat := {q | ∃ b ∈ span a n, b / p = q}

/-- The pages from that of `a` to that of `a + n`. -/
def reach (p a n : Nat) : Set Nat := Set.Icc (a / p) ((a + n) / p)

section Pages

variable {p a n b m q x : Nat}

theorem mem_reach : q ∈ reach p a n ↔ a / p ≤ q ∧ q ≤ (a + n) / p := Iff.rfl

instance : Decidable (q ∈ reach p a n) := decidable_of_iff _ mem_reach.symm

/-! ## The pages of a range -/

theorem mem_touched (hp : 0 < p) :
    q ∈ touched p a n ↔ 0 < n ∧ a / p ≤ q ∧ q ≤ (a + n - 1) / p := by
  constructor
  · rintro ⟨c, hc, rfl⟩
    obtain ⟨hlo, hhi⟩ := mem_span.mp hc
    exact ⟨by omega, Nat.div_le_div_right hlo, Nat.div_le_div_right (by omega)⟩
  · rintro ⟨hn, hlo, hhi⟩
    -- the first byte of the page, or the first of the range
    refine ⟨max a (q * p), mem_span.mpr ⟨Nat.le_max_left _ _, ?_⟩, ?_⟩
    · have hq : q * p ≤ a + n - 1 := (Nat.le_div_iff_mul_le hp).mp hhi
      exact Nat.max_lt.mpr ⟨by omega, by omega⟩
    · rcases Nat.le_total a (q * p) with h | h
      · rw [Nat.max_eq_right h, Nat.mul_div_cancel _ hp]
      · rw [Nat.max_eq_left h]
        exact Nat.le_antisymm hlo ((Nat.le_div_iff_mul_le hp).mpr h)

theorem first_mem_touched (hn : 0 < n) : a / p ∈ touched p a n :=
  ⟨a, mem_span.mpr ⟨Nat.le_refl _, by omega⟩, rfl⟩

theorem first_mem_reach : a / p ∈ reach p a n :=
  ⟨Nat.le_refl _, Nat.div_le_div_right (Nat.le_add_right _ _)⟩

theorem last_mem_reach : (a + n) / p ∈ reach p a n :=
  ⟨Nat.div_le_div_right (Nat.le_add_right _ _), Nat.le_refl _⟩

/-- An empty range has the page of its start as its reach. -/
theorem mem_reach_zero : q ∈ reach p a 0 ↔ q = a / p := by
  rw [mem_reach, Nat.add_zero]
  omega

/-! ## Ending inside a page -/

theorem last_touched (hn : 0 < n) (h : (a + n) % p ≠ 0) : (a + n - 1) / p = (a + n) / p := by
  have hs : a + n = a + n - 1 + 1 := by omega
  have hd : ¬ p ∣ a + n - 1 + 1 := fun hd => h (hs ▸ Nat.mod_eq_zero_of_dvd hd)
  conv_rhs => rw [hs, Nat.succ_div, if_neg hd, Nat.add_zero]

theorem last_not_touched (hp : 0 < p) (h : (a + n) % p = 0) : (a + n) / p ∉ touched p a n := by
  rw [mem_touched hp]
  rintro ⟨hn, -, hle⟩
  have hmul : (a + n) / p * p = a + n := Nat.div_mul_cancel (Nat.dvd_of_mod_eq_zero h)
  have := (Nat.le_div_iff_mul_le hp).mp hle
  omega

theorem touched_subset_reach (hp : 0 < p) : touched p a n ⊆ reach p a n := by
  intro q hq
  obtain ⟨-, hlo, hhi⟩ := (mem_touched hp).mp hq
  exact ⟨hlo, hhi.trans (Nat.div_le_div_right (by omega))⟩

/-- The reach of a range is the pages it touches, unless the range ends on a page boundary. -/
theorem reach_eq_touched_iff (hp : 0 < p) (hn : 0 < n) :
    reach p a n = touched p a n ↔ (a + n) % p ≠ 0 := by
  constructor
  · intro h hz
    exact last_not_touched hp hz (h ▸ last_mem_reach)
  · intro h
    ext q
    rw [mem_touched hp, mem_reach, last_touched hn h]
    exact ⟨fun hq => ⟨hn, hq⟩, fun hq => hq.2⟩

/-! ## The bytes of a reach -/

theorem reach_size (hp : 0 < p) :
    a / p * p + (n + a % p + (p - (a + n) % p)) = ((a + n) / p + 1) * p := by
  have ha := Nat.div_add_mod a p
  have hn := Nat.div_add_mod (a + n) p
  have hlt := Nat.mod_lt (a + n) hp
  rw [Nat.succ_mul]
  rw [Nat.mul_comm] at ha hn
  omega

/-- The bytes of the pages in a reach. -/
theorem mem_span_reach (hp : 0 < p) :
    x ∈ span (a / p * p) (n + a % p + (p - (a + n) % p)) ↔ x / p ∈ reach p a n := by
  have hlast : x / p ≤ (a + n) / p ↔ x < ((a + n) / p + 1) * p := by
    rw [← Nat.lt_succ_iff, Nat.div_lt_iff_lt_mul hp]
  rw [mem_span, reach_size hp, mem_reach, Nat.le_div_iff_mul_le hp, hlast]

/-- Two regions made of whole pages share a byte if they share a page. -/
theorem disjoint_pages {S T A B : Set Nat} (hp : 0 < p) (hS : ∀ x, x ∈ S ↔ x / p ∈ A)
    (hT : ∀ x, x ∈ T ↔ x / p ∈ B) : Disjoint S T ↔ Disjoint A B := by
  rw [Set.disjoint_left, Set.disjoint_left]
  constructor
  · intro h q hA hB
    have hq : q * p / p = q := Nat.mul_div_cancel q hp
    exact h ((hS (q * p)).mpr (hq.symm ▸ hA)) ((hT (q * p)).mpr (hq.symm ▸ hB))
  · intro h x hxS hxT
    exact h ((hS x).mp hxS) ((hT x).mp hxT)

/-! ## Two reaches -/

/-- The second reach lies strictly between the ends of the first. -/
def Encloses (p a n b m : Nat) : Prop := a / p < b / p ∧ (b + m) / p < (a + n) / p

instance : Decidable (Encloses p a n b m) := inferInstanceAs (Decidable (_ ∧ _))

/-- An end of the first reach lies in the second. -/
def EndsIn (p a n b m : Nat) : Prop := a / p ∈ reach p b m ∨ (a + n) / p ∈ reach p b m

instance : Decidable (EndsIn p a n b m) := inferInstanceAs (Decidable (_ ∨ _))

theorem disjoint_reach_iff_of_ends (h : ¬ EndsIn p a n b m) :
    Disjoint (reach p b m) (reach p a n) ↔ ¬ Encloses p a n b m := by
  simp only [EndsIn, mem_reach, not_or] at h
  have hb : b / p ≤ (b + m) / p := Nat.div_le_div_right (Nat.le_add_right _ _)
  have ha : a / p ≤ (a + n) / p := Nat.div_le_div_right (Nat.le_add_right _ _)
  rw [Set.disjoint_left]
  unfold Encloses
  constructor
  · rintro hd ⟨hlo, hhi⟩
    exact hd ⟨Nat.le_refl _, hb⟩ ⟨hlo.le, hb.trans hhi.le⟩
  · rintro hne q ⟨hq₁, hq₂⟩ ⟨hq₃, hq₄⟩
    omega

/-- Ranges on different pages do not end in each other's reach, if they end inside a page. -/
theorem not_endsIn_of_disjoint (hp : 0 < p) (hn : 0 < n) (hm : 0 < m) (ha : (a + n) % p ≠ 0)
    (hb : (b + m) % p ≠ 0) (h : Disjoint (touched p a n) (touched p b m)) :
    ¬ EndsIn p a n b m := by
  rw [← (reach_eq_touched_iff hp hn).mpr ha, ← (reach_eq_touched_iff hp hm).mpr hb] at h
  rintro (hf | hl)
  · exact Set.disjoint_left.mp h first_mem_reach hf
  · exact Set.disjoint_left.mp h last_mem_reach hl

end Pages

end Smos.Base
