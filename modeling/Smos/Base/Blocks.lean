/-
Smos.Base.Blocks — sectors inside larger blocks, and a buffer that shows them.

A device moves whole blocks of `p` sectors. `firstBlock` and `blockCount` are
the smallest run of blocks around some sectors. A buffer `Shows` a store when
a stretch of it holds what the store has at another place: data patched into
such a buffer and written back changes only the data's own cells of the
store (`put_load_patched`), also when the transfer stops early.
-/
import Smos.Base.Bytes

namespace Smos.Base

/-! ## Runs of blocks -/

section Runs

variable {p sector count : Nat}

/-- The block that a sector is in. -/
def firstBlock (p sector : Nat) : Nat := sector / p

/-- How many blocks `count` sectors from `sector` on are in. -/
def blockCount (p sector count : Nat) : Nat := (sector % p + count + (p - 1)) / p

theorem firstBlock_mul (p sector : Nat) :
    p * firstBlock p sector + sector % p = sector := Nat.div_add_mod sector p

/-- The sectors end inside the run. -/
theorem le_blockCount_mul (hp : 0 < p) : sector % p + count ≤ p * blockCount p sector count := by
  unfold blockCount
  have hdiv := Nat.div_add_mod (sector % p + count + (p - 1)) p
  have hmod := Nat.mod_lt (sector % p + count + (p - 1)) hp
  omega

/-- And no block less would do. -/
theorem blockCount_mul_lt (hp : 0 < p) :
    p * blockCount p sector count < sector % p + count + p := by
  unfold blockCount
  have hle := Nat.mul_div_le (sector % p + count + (p - 1)) p
  omega

/-- Sectors that fill their blocks. -/
theorem blockCount_of_aligned (hp : 0 < p) (hs : sector % p = 0) (hc : count % p = 0) :
    p * blockCount p sector count = count := by
  obtain ⟨q, rfl⟩ := Nat.dvd_of_mod_eq_zero hc
  unfold blockCount
  rw [hs, Nat.zero_add, Nat.mul_add_div hp, Nat.div_eq_of_lt (by omega), Nat.add_zero]

end Runs

/-! ## Buffers -/

section Buffers

variable {β : Type} {m m' disk disk' : Nat → β} {a b n k d x : Nat} {bs : List β}

theorem put_apply_of_lt (h₁ : a ≤ x) (h₂ : x < a + bs.length) :
    put a bs m x = bs[x - a] := by
  unfold put
  rw [if_pos h₁, List.getElem?_eq_getElem (by omega)]
  rfl

@[simp] theorem put_nil (a : Nat) (m : Nat → β) : put a [] m = m := by
  funext x
  simp [put]

@[simp] theorem getElem_load (m : Nat → β) (a n i : Nat) (h : i < (load m a n).length) :
    (load m a n)[i] = m (a + i) := by
  simp [load]

theorem put_load_apply (m m' : Nat → β) (a b n x : Nat) :
    put b (load m a n) m' x = if b ≤ x ∧ x < b + n then m (a + (x - b)) else m' x := by
  by_cases hx : b ≤ x ∧ x < b + n
  · rw [if_pos hx, put_apply_of_lt hx.1 (by simpa using hx.2), getElem_load]
  · rw [if_neg hx]
    by_cases hb : b ≤ x
    · exact put_of_ge (by rw [length_load]; omega)
    · exact put_of_lt (Nat.lt_of_not_le hb)

/-- The `n` cells from `a` on are the store's from `b` on. -/
def Shows (m : Nat → β) (a : Nat) (disk : Nat → β) (b n : Nat) : Prop :=
  ∀ i, i < n → m (a + i) = disk (b + i)

theorem Shows.congr (h : Shows m a disk b n) (hm : ∀ i, i < n → m' (a + i) = m (a + i))
    (hd : ∀ i, i < n → disk' (b + i) = disk (b + i)) : Shows m' a disk' b n := by
  intro i hi
  rw [hm i hi, hd i hi]
  exact h i hi

/-- A buffer just filled from the store. -/
theorem shows_put_load (m disk : Nat → β) (a b n : Nat) :
    Shows (put a (load disk b n) m) a disk b n := by
  intro i hi
  rw [put_load_apply, if_pos (by omega), Nat.add_sub_cancel_left]

/-- Data patched into the buffer and into the store at the same place. -/
theorem Shows.patch (h : Shows m a disk b n) (d : Nat) (bs : List β) :
    Shows (put (a + d) bs m) a (put (b + d) bs disk) b n := by
  intro i hi
  by_cases hin : d ≤ i ∧ i < d + bs.length
  · rw [put_apply_of_lt (by omega) (by omega), put_apply_of_lt (by omega) (by omega)]
    congr 1
    omega
  · by_cases hd : d ≤ i
    · rw [put_of_ge (by omega), put_of_ge (by omega)]
      exact h i hi
    · rw [put_of_lt (by omega), put_of_lt (by omega)]
      exact h i hi

/-- What a load of the shown stretch yields. -/
theorem Shows.load_eq (h : Shows m a disk b n) (hd : d + k ≤ n) :
    load m (a + d) k = load disk (b + d) k := by
  refine List.ext_getElem (by simp) fun i hi _ => ?_
  rw [getElem_load, getElem_load, Nat.add_assoc, Nat.add_assoc]
  rw [length_load] at hi
  exact h (d + i) (by omega)

/--
A buffer that shows the store with the data in it, written back up to its cell
`k`: of the store only the data's own cells change, up to there.
-/
theorem put_load_patched (h : Shows m a (put (b + d) bs disk) b n) (hk : k ≤ n) :
    put b (load m a k) disk = put (b + d) (bs.take (k - d)) disk := by
  funext x
  rw [put_load_apply]
  by_cases hx : b ≤ x ∧ x < b + k
  · rw [if_pos hx]
    have hshow := h (x - b) (by omega)
    rw [Nat.add_sub_cancel' hx.1] at hshow
    rw [hshow]
    by_cases hin : b + d ≤ x ∧ x < b + d + bs.length
    · rw [put_apply_of_lt hin.1 hin.2,
        put_apply_of_lt hin.1 (by rw [List.length_take]; omega), List.getElem_take]
    · by_cases hlow : b + d ≤ x
      · rw [put_of_ge (by omega), put_of_ge (by rw [List.length_take]; omega)]
      · rw [put_of_lt (by omega), put_of_lt (by omega)]
  · rw [if_neg hx]
    by_cases hlow : b + d ≤ x
    · exact (put_of_ge (by rw [List.length_take]; omega)).symm
    · exact (put_of_lt (by omega)).symm

end Buffers

end Smos.Base
