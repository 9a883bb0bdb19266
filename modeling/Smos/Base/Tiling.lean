/-
Smos.Base.Tiling — aligned blocks that tile the regions they lie in.

A block is an aligned range of `2 ^ bits` addresses, a region one of
`2 ^ top`. `Tiling` says of a list of blocks that no two share an address,
and that a region with a block in it has every address in some block.

An allocator does three things to a tiling: it reorders the list
(`Tiling.perm`), it takes a whole region out (`Tiling.remove`), and it halves
a block (`Tiling.halve`). `Tiling.whole` is where it starts from.
-/
import Mathlib.Algebra.Order.Group.Nat
import Mathlib.Data.Nat.Basic
import Smos.Base.Spans

namespace Smos.Base

/-- A block of `2 ^ bits` addresses. -/
structure Block where
  base : Nat
  bits : Nat
  deriving DecidableEq, Repr

namespace Block

def addrs (b : Block) : Set Nat := span b.base (2 ^ b.bits)

theorem base_mem (b : Block) : b.base ∈ b.addrs :=
  mem_span.mpr ⟨Nat.le_refl _, Nat.lt_add_of_pos_right (Nat.two_pow_pos _)⟩

/-- The addresses of an aligned block all lie in one region. -/
theorem region_eq {b : Block} {top a : Nat} (halign : 2 ^ b.bits ∣ b.base) (hle : b.bits ≤ top)
    (ha : a ∈ b.addrs) : a / 2 ^ top = b.base / 2 ^ top := by
  obtain ⟨k, hk⟩ := halign
  obtain ⟨hlo, hhi⟩ := mem_span.mp ha
  have hpow : 2 ^ top = 2 ^ b.bits * 2 ^ (top - b.bits) := by
    rw [← Nat.pow_add, Nat.add_sub_cancel' hle]
  have hsame : a / 2 ^ b.bits = k := by
    rw [hk] at hlo hhi
    refine Nat.div_eq_of_lt_le ?_ ?_
    · rwa [Nat.mul_comm]
    · rw [Nat.succ_mul, Nat.mul_comm]
      exact hhi
  rw [hpow, ← Nat.div_div_eq_div_mul, ← Nat.div_div_eq_div_mul, hsame, hk,
    Nat.mul_div_cancel_left _ (Nat.two_pow_pos _)]

/-- A block of full size has every address of its region. -/
theorem mem_of_region {b : Block} {a : Nat} (halign : 2 ^ b.bits ∣ b.base)
    (ha : a / 2 ^ b.bits = b.base / 2 ^ b.bits) : a ∈ b.addrs := by
  have hbase := Nat.div_mul_cancel halign
  have hlo := Nat.div_mul_le_self a (2 ^ b.bits)
  have hhi := Nat.lt_div_mul_add (a := a) (Nat.two_pow_pos b.bits)
  rw [ha, hbase] at hlo hhi
  exact mem_span.mpr ⟨hlo, hhi⟩

end Block

/-- No two blocks share an address, and a region that has a block is covered by blocks. -/
structure Tiling (top : Nat) (bs : List Block) : Prop where
  small : ∀ b ∈ bs, b.bits ≤ top
  aligned : ∀ b ∈ bs, 2 ^ b.bits ∣ b.base
  apart : Apart Block.addrs bs
  covered : ∀ b ∈ bs, ∀ a, a / 2 ^ top = b.base / 2 ^ top → ∃ b' ∈ bs, a ∈ b'.addrs

namespace Tiling

variable {top : Nat} {b : Block} {bs bs' : List Block}

theorem perm (h : Tiling top bs) (hp : bs.Perm bs') : Tiling top bs' where
  small b hb := h.small b (hp.mem_iff.mpr hb)
  aligned b hb := h.aligned b (hp.mem_iff.mpr hb)
  apart := h.apart.of_subperm hp.symm.subperm
  covered b hb a ha := by
    obtain ⟨b', hb', hmem⟩ := h.covered b (hp.mem_iff.mpr hb) a ha
    exact ⟨b', hp.mem_iff.mp hb', hmem⟩

/-- Take a whole region out. -/
theorem remove (h : Tiling top (b :: bs)) (hb : b.bits = top) : Tiling top bs where
  small b hb := h.small b (List.mem_cons_of_mem _ hb)
  aligned b hb := h.aligned b (List.mem_cons_of_mem _ hb)
  apart := (List.pairwise_cons.mp h.apart).2
  covered b₁ hb₁ a ha := by
    obtain ⟨b', hb', hmem⟩ := h.covered b₁ (List.mem_cons_of_mem _ hb₁) a ha
    obtain rfl | hb' := List.mem_cons.mp hb'
    · -- a block in the region that is taken out would share its base with it
      have halign := h.aligned b' List.mem_cons_self
      have hregion := Block.region_eq halign (Nat.le_of_eq hb) hmem
      have hbase : b₁.base ∈ b'.addrs := by
        refine Block.mem_of_region halign ?_
        rw [hb, ← ha, hregion]
      have hdisj := (List.pairwise_cons.mp h.apart).1 b₁ hb₁
      exact absurd b₁.base_mem (Set.disjoint_left.mp hdisj hbase)
    · exact ⟨b', hb', hmem⟩

/-- The lower and the upper half of a block. -/
theorem mem_halves {base n a : Nat} : a ∈ (Block.mk base (n + 1)).addrs ↔
    a ∈ (Block.mk base n).addrs ∨ a ∈ (Block.mk (base + 2 ^ n) n).addrs := by
  simp only [Block.addrs, mem_span, Nat.pow_succ]
  omega

/-- Halve a block. -/
theorem halve {base n : Nat} (h : Tiling top (⟨base, n + 1⟩ :: bs)) :
    Tiling top (⟨base, n⟩ :: ⟨base + 2 ^ n, n⟩ :: bs) := by
  have hsmall : n + 1 ≤ top := h.small _ List.mem_cons_self
  have halign : 2 ^ (n + 1) ∣ base := h.aligned _ List.mem_cons_self
  have halign' : 2 ^ n ∣ base := Nat.dvd_trans (Nat.pow_dvd_pow 2 (Nat.le_succ n)) halign
  obtain ⟨hfirst, hrest⟩ := List.pairwise_cons.mp h.apart
  have hhalf : ∀ a, a ∈ (Block.mk (base + 2 ^ n) n).addrs → a ∈ (Block.mk base (n + 1)).addrs :=
    fun a ha => mem_halves.mpr (.inr ha)
  refine ⟨?_, ?_, ?_, ?_⟩
  · intro b hb
    simp only [List.mem_cons] at hb
    obtain rfl | rfl | hb := hb
    · exact Nat.le_of_succ_le hsmall
    · exact Nat.le_of_succ_le hsmall
    · exact h.small b (List.mem_cons_of_mem _ hb)
  · intro b hb
    simp only [List.mem_cons] at hb
    obtain rfl | rfl | hb := hb
    · exact halign'
    · exact (Nat.dvd_add_right halign').mpr (Nat.dvd_refl _)
    · exact h.aligned b (List.mem_cons_of_mem _ hb)
  · refine List.pairwise_cons.mpr ⟨fun b hb => ?_, List.pairwise_cons.mpr ⟨fun b hb => ?_, hrest⟩⟩
    · obtain rfl | hb := List.mem_cons.mp hb
      · exact disjoint_span_iff.mpr (.inr (.inr (.inl (Nat.le_refl _))))
      · exact (hfirst b hb).mono_left fun a ha => mem_halves.mpr (.inl ha)
    · exact (hfirst b hb).mono_left hhalf
  · have hcover : ∀ a, (∃ b' ∈ (⟨base, n + 1⟩ :: bs : List Block), a ∈ b'.addrs) →
        ∃ b' ∈ (⟨base, n⟩ :: ⟨base + 2 ^ n, n⟩ :: bs : List Block), a ∈ b'.addrs := by
      intro a ⟨b', hb', ha⟩
      obtain rfl | hb' := List.mem_cons.mp hb'
      · obtain ha | ha := mem_halves.mp ha
        · exact ⟨_, List.mem_cons_self, ha⟩
        · exact ⟨_, List.mem_cons_of_mem _ List.mem_cons_self, ha⟩
      · exact ⟨b', by simp [hb'], ha⟩
    intro b hb a ha
    refine hcover a ?_
    simp only [List.mem_cons] at hb
    obtain rfl | rfl | hb := hb
    · exact h.covered ⟨base, n + 1⟩ List.mem_cons_self a ha
    · refine h.covered ⟨base, n + 1⟩ List.mem_cons_self a (ha.trans ?_)
      exact Block.region_eq halign hsmall (hhalf _ (Block.base_mem _))
    · exact h.covered b (List.mem_cons_of_mem _ hb) a ha

/-- Different whole regions. -/
theorem whole {bases : List Nat} (halign : ∀ base ∈ bases, 2 ^ top ∣ base)
    (hnodup : bases.Nodup) : Tiling top (bases.map fun base => ⟨base, top⟩) := by
  refine ⟨?_, ?_, ?_, ?_⟩
  · intro b hb
    obtain ⟨base, -, rfl⟩ := List.mem_map.mp hb
    exact Nat.le_refl _
  · intro b hb
    obtain ⟨base, hbase, rfl⟩ := List.mem_map.mp hb
    exact halign base hbase
  · refine List.pairwise_map.mpr (hnodup.imp_of_mem fun {x y} hx hy hne => ?_)
    refine Set.disjoint_left.mpr fun a hax hay => hne ?_
    -- two aligned bases of one region are equal
    have hregion := (Block.region_eq (b := ⟨x, top⟩) (halign x hx) (Nat.le_refl _) hax).symm.trans
      (Block.region_eq (b := ⟨y, top⟩) (halign y hy) (Nat.le_refl _) hay)
    exact Nat.div_left_inj (halign x hx) (halign y hy) |>.mp hregion
  · intro b hb a ha
    obtain ⟨base, hbase, rfl⟩ := List.mem_map.mp hb
    exact ⟨_, List.mem_map.mpr ⟨base, hbase, rfl⟩, Block.mem_of_region (halign base hbase) ha⟩

end Tiling

end Smos.Base
