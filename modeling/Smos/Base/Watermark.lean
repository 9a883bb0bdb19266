/-
Smos.Base.Watermark — objects carved off regions from the bottom up.

A region of `2 ^ size` addresses is given away from its start on: a mark
separates what is used from what is free, and a request for `n` objects of
`2 ^ bits` addresses each raises the mark to the next multiple of
`2 ^ bits`, places the objects one after the other, and leaves the mark
behind the last one.

`Carving` holds the marks of any number of regions and all objects placed
so far, each under a key of its own. Requests for aligned objects can be
split (`place_add`); `Sound` says that the objects of a region lie below its
mark, one behind the other, and no request breaks it.
-/
import Mathlib.Data.List.Nodup
import Mathlib.Logic.Function.Basic
import Smos.Base.Spans

namespace Smos.Base

/-! ## Alignment -/

/-- The next multiple of `2 ^ bits`. -/
def alignUp (x bits : Nat) : Nat := (x + (2 ^ bits - 1)) / 2 ^ bits * 2 ^ bits

theorem le_alignUp (x bits : Nat) : x ≤ alignUp x bits := by
  have hpos : 0 < 2 ^ bits := Nat.two_pow_pos bits
  have hdiv := Nat.div_add_mod (x + (2 ^ bits - 1)) (2 ^ bits)
  have hmod := Nat.mod_lt (x + (2 ^ bits - 1)) hpos
  rw [Nat.mul_comm] at hdiv
  unfold alignUp
  omega

theorem dvd_alignUp (x bits : Nat) : 2 ^ bits ∣ alignUp x bits := Nat.dvd_mul_left _ _

theorem alignUp_of_dvd {x bits : Nat} (h : 2 ^ bits ∣ x) : alignUp x bits = x := by
  obtain ⟨k, rfl⟩ := h
  have hpos : 0 < 2 ^ bits := Nat.two_pow_pos bits
  have hlt : (2 ^ bits - 1) / 2 ^ bits = 0 := Nat.div_eq_of_lt (by omega)
  rw [alignUp, Nat.mul_add_div hpos, hlt, Nat.add_zero, Nat.mul_comm]

@[simp] theorem alignUp_zero (bits : Nat) : alignUp 0 bits = 0 := alignUp_of_dvd (Nat.dvd_zero _)

/-! ## Objects and marks -/

/-- An object at an offset in its region. -/
structure Carved (κ : Type) where
  key : κ
  region : Nat
  offset : Nat
  bits : Nat
  deriving DecidableEq, Repr

/-- The marks of the regions, and the objects in the order they were placed. -/
structure Carving (κ : Type) where
  used : Nat → Nat
  objects : List (Carved κ)

/-- `n` objects one behind the other. -/
def carvedRun {κ : Type} (region start bits : Nat) (key : Nat → κ) (n : Nat) : List (Carved κ) :=
  (List.range n).map fun k => ⟨key k, region, start + k * 2 ^ bits, bits⟩

namespace Carving

variable {κ : Type} {c : Carving κ} {i bits n : Nat} {key : Nat → κ}

def empty : Carving κ := ⟨fun _ => 0, []⟩

/-- Where the first object of a request goes. -/
def start (c : Carving κ) (i bits : Nat) : Nat := alignUp (c.used i) bits

def place (c : Carving κ) (i bits : Nat) (key : Nat → κ) (n : Nat) : Carving κ where
  used := Function.update c.used i (c.start i bits + n * 2 ^ bits)
  objects := c.objects ++ carvedRun i (c.start i bits) bits key n

/-- The request fits into the region. -/
def Fits (size : Nat → Nat) (c : Carving κ) (i bits n : Nat) : Prop :=
  c.start i bits + n * 2 ^ bits ≤ 2 ^ size i

instance (size : Nat → Nat) (c : Carving κ) (i bits n : Nat) : Decidable (Fits size c i bits n) :=
  inferInstanceAs (Decidable (_ ≤ _))

@[simp] theorem place_used_self : (c.place i bits key n).used i = c.start i bits + n * 2 ^ bits :=
  Function.update_self ..

theorem place_used_of_ne {j : Nat} (h : j ≠ i) : (c.place i bits key n).used j = c.used j :=
  Function.update_of_ne h ..

theorem mem_carvedRun {start : Nat} {o : Carved κ} : o ∈ carvedRun i start bits key n ↔
    ∃ k < n, o = ⟨key k, i, start + k * 2 ^ bits, bits⟩ := by
  simp only [carvedRun, List.mem_map, List.mem_range]
  exact exists_congr fun k => and_congr_right fun _ => eq_comm

theorem mem_place {o : Carved κ} : o ∈ (c.place i bits key n).objects ↔
    o ∈ c.objects ∨ ∃ k < n, o = ⟨key k, i, c.start i bits + k * 2 ^ bits, bits⟩ := by
  rw [place, List.mem_append, mem_carvedRun]

/-- Where the mark is aligned, nothing is skipped. -/
theorem start_of_dvd (h : 2 ^ bits ∣ c.used i) : c.start i bits = c.used i := alignUp_of_dvd h

theorem dvd_place_used (c : Carving κ) (i bits : Nat) (key : Nat → κ) (n : Nat) :
    2 ^ bits ∣ (c.place i bits key n).used i := by
  rw [place_used_self]
  exact Nat.dvd_add (dvd_alignUp _ _) (Nat.dvd_mul_left _ _)

/-- Nothing is placed where the mark is aligned already. -/
theorem place_zero (h : 2 ^ bits ∣ c.used i) : c.place i bits key 0 = c := by
  simp [place, carvedRun, start_of_dvd h]

theorem carvedRun_add (start m n : Nat) : carvedRun i start bits key (m + n) =
    carvedRun i start bits key m ++
      carvedRun i (start + m * 2 ^ bits) bits (fun k => key (m + k)) n := by
  simp [carvedRun, List.range_add, Function.comp_def, Nat.add_mul, Nat.add_assoc]

theorem place_keys : (c.place i bits key n).objects.map Carved.key =
    c.objects.map Carved.key ++ (List.range n).map key := by
  simp [place, carvedRun, Function.comp_def]

/-- A request can be made in two parts. -/
theorem place_add (m n : Nat) : (c.place i bits key m).place i bits (fun k => key (m + k)) n =
    c.place i bits key (m + n) := by
  have hstart : (c.place i bits key m).start i bits = c.start i bits + m * 2 ^ bits := by
    rw [start_of_dvd (dvd_place_used ..), place_used_self]
  rw [place, hstart, place, place, Function.update_idem, Nat.add_assoc, ← Nat.add_mul,
    List.append_assoc, ← carvedRun_add]

theorem fits_add {size : Nat → Nat} (m n : Nat) : (c.place i bits key m).Fits size i bits n ↔
    c.Fits size i bits (m + n) := by
  unfold Fits
  rw [start_of_dvd (dvd_place_used ..), place_used_self, Nat.add_mul, Nat.add_assoc]

theorem Fits.mono {size : Nat → Nat} {m : Nat} (h : c.Fits size i bits n) (hle : m ≤ n) :
    c.Fits size i bits m :=
  Nat.le_trans (Nat.add_le_add_left (Nat.mul_le_mul_right _ hle) _) h

/-! ## No two objects meet -/

/-- The objects of a region lie below its mark, one behind the other. -/
structure Sound (size : Nat → Nat) (c : Carving κ) : Prop where
  used_le : ∀ i, c.used i ≤ 2 ^ size i
  below : ∀ o ∈ c.objects, o.offset + 2 ^ o.bits ≤ c.used o.region
  ordered : c.objects.Pairwise fun o o' =>
    o.region = o'.region → o.offset + 2 ^ o.bits ≤ o'.offset

theorem sound_empty (size : Nat → Nat) : Sound size (empty : Carving κ) where
  used_le i := Nat.zero_le _
  below o ho := by cases ho
  ordered := .nil

theorem Sound.place {size : Nat → Nat} (h : Sound size c) (hfits : c.Fits size i bits n) :
    Sound size (c.place i bits key n) := by
  have hstart : c.used i ≤ c.start i bits := le_alignUp _ _
  refine ⟨?_, ?_, ?_⟩
  · intro j
    by_cases hj : j = i
    · subst hj
      rw [place_used_self]
      exact hfits
    · rw [place_used_of_ne hj]
      exact h.used_le j
  · intro o ho
    obtain ho | ⟨k, hk, rfl⟩ := mem_place.mp ho
    · have hbelow := h.below o ho
      by_cases hj : o.region = i
      · rw [hj] at hbelow ⊢
        rw [place_used_self]
        omega
      · rw [place_used_of_ne hj]
        exact hbelow
    · show _ ≤ (c.place i bits key n).used i
      rw [place_used_self]
      have hmul : (k + 1) * 2 ^ bits ≤ n * 2 ^ bits := Nat.mul_le_mul_right _ hk
      rw [Nat.add_mul, Nat.one_mul] at hmul
      show c.start i bits + k * 2 ^ bits + 2 ^ bits ≤ _
      omega
  · refine List.pairwise_append.mpr ⟨h.ordered, ?_, ?_⟩
    · rw [carvedRun, List.pairwise_map]
      refine List.pairwise_lt_range.imp ?_
      intro k k' hlt _
      have hmul : (k + 1) * 2 ^ bits ≤ k' * 2 ^ bits := Nat.mul_le_mul_right _ hlt
      rw [Nat.add_mul, Nat.one_mul] at hmul
      show c.start i bits + k * 2 ^ bits + 2 ^ bits ≤ c.start i bits + k' * 2 ^ bits
      omega
    · intro o ho o' ho' heq
      obtain ⟨k, -, rfl⟩ := mem_carvedRun.mp ho'
      have hbelow := h.below o ho
      rw [heq] at hbelow
      show _ ≤ c.start i bits + k * 2 ^ bits
      have hb : o.offset + 2 ^ o.bits ≤ c.used i := hbelow
      omega

/-- The addresses of an object, from the bases of the regions. -/
def addrs (base : Nat → Nat) (o : Carved κ) : Set Nat :=
  span (base o.region + o.offset) (2 ^ o.bits)

/-- Objects carved off disjoint regions are disjoint. -/
theorem Sound.apart {size base : Nat → Nat} (h : Sound size c)
    (hbase : ∀ o ∈ c.objects, ∀ o' ∈ c.objects, o.region ≠ o'.region →
      Disjoint (span (base o.region) (2 ^ size o.region))
        (span (base o'.region) (2 ^ size o'.region))) : Apart (addrs base) c.objects := by
  have hsub : ∀ o ∈ c.objects, addrs base o ⊆ span (base o.region) (2 ^ size o.region) := by
    intro o ho a ha
    have hle := Nat.le_trans (h.below o ho) (h.used_le o.region)
    obtain ⟨hlo, hhi⟩ := mem_span.mp ha
    exact mem_span.mpr ⟨by omega, by omega⟩
  refine List.Pairwise.imp_of_mem ?_ h.ordered
  intro o o' ho ho' hord
  by_cases heq : o.region = o'.region
  · have hle := hord heq
    unfold addrs
    rw [heq]
    exact disjoint_span_iff.mpr (.inr (.inr (.inl (by omega))))
  · exact (hbase o ho o' ho' heq).mono (hsub o ho) (hsub o' ho')

end Carving

end Smos.Base
