/-
Smos.Base.Bitfield — bit sets in arrays of 64-bit words.

`bfSetBit`, `bfClrBit` and `bfGetBit` touch one bit of one word;
`bfFirstFree` scans for the first word that is not all ones and counts the
trailing ones of it. An index past the last word is out of bounds: the
source panics there, so the two writers answer an `Option`.

The lemmas describe the array by the set of its bits.
-/
import Mathlib.Data.BitVec
import Mathlib.Data.List.Basic
import Mathlib.Tactic.Common

namespace Smos.Base

/-- `[u64; n]`. -/
abbrev Bitfield : Type := List (BitVec 64)

def wordBits : Nat := 64

def wordIndex (bit : Nat) : Nat := bit / wordBits

def bitIndex (bit : Nat) : Nat := bit % wordBits

namespace Bitfield

/-- `bitfield_init!(size)`: no bit set. -/
def init (size : Nat) : Bitfield := List.replicate (size / wordBits) 0

def bfSetBit (bf : Bitfield) (idx : Nat) : Option Bitfield :=
  (bf[wordIndex idx]?).map fun w => bf.set (wordIndex idx) (w ||| BitVec.twoPow 64 (bitIndex idx))

def bfClrBit (bf : Bitfield) (idx : Nat) : Option Bitfield :=
  (bf[wordIndex idx]?).map fun w => bf.set (wordIndex idx) (w &&& ~~~ BitVec.twoPow 64 (bitIndex idx))

def bfGetBit (bf : Bitfield) (idx : Nat) : Option Bool :=
  (bf[wordIndex idx]?).map fun w => w.getLsbD (bitIndex idx)

/-- The number of trailing zeros of the complement. -/
def trailingOnes (w : BitVec 64) : Nat := (List.range 64).findIdx fun i => !w.getLsbD i

/-- The first clear bit, or `none` when every word is full. -/
def bfFirstFree : Bitfield → Option Nat
  | [] => none
  | w :: ws =>
    if w = BitVec.allOnes 64 then (bfFirstFree ws).map (· + wordBits)
    else some (trailingOnes w)

/-- The bit is set. Bits past the last word count as clear. -/
def Has (bf : Bitfield) (idx : Nat) : Prop := bfGetBit bf idx = some true

instance (bf : Bitfield) (idx : Nat) : Decidable (bf.Has idx) :=
  inferInstanceAs (Decidable (_ = _))

/-- The index lies in the array. -/
def InRange (bf : Bitfield) (idx : Nat) : Prop := wordIndex idx < bf.length

variable {bf bf' : Bitfield} {i j : Nat}

theorem index_eq_iff : i = j ↔ wordIndex i = wordIndex j ∧ bitIndex i = bitIndex j := by
  unfold wordIndex bitIndex wordBits
  omega

theorem bitIndex_lt (i : Nat) : bitIndex i < 64 := Nat.mod_lt _ (by decide)

theorem has_iff : bf.Has i ↔ ∃ w, bf[wordIndex i]? = some w ∧ w.getLsbD (bitIndex i) = true := by
  simp [Has, bfGetBit]

theorem bfSetBit_has (h : bf.bfSetBit i = some bf') (j : Nat) :
    bf'.Has j ↔ bf.Has j ∨ j = i := by
  simp only [bfSetBit, Option.map_eq_some_iff] at h
  obtain ⟨w, hw, rfl⟩ := h
  obtain ⟨hlt, rfl⟩ := List.getElem?_eq_some_iff.mp hw
  simp only [has_iff, List.getElem?_set, index_eq_iff (i := j)]
  by_cases hji : wordIndex i = wordIndex j
  · rw [if_pos hji, if_pos (hji ▸ hlt)]
    simp only [← hji, List.getElem?_eq_getElem hlt, Option.some.injEq, exists_eq_left', true_and,
      BitVec.getLsbD_or, BitVec.getLsbD_twoPow, Bool.or_eq_true, Bool.and_eq_true,
      decide_eq_true_eq]
    have := bitIndex_lt i
    constructor
    · rintro (h | ⟨_, h⟩)
      · exact .inl h
      · exact .inr h.symm
    · rintro (h | h)
      · exact .inl h
      · exact .inr ⟨this, h.symm⟩
  · simp [hji, Ne.symm (a := wordIndex i) hji]

theorem bfClrBit_has (h : bf.bfClrBit i = some bf') (j : Nat) :
    bf'.Has j ↔ bf.Has j ∧ j ≠ i := by
  simp only [bfClrBit, Option.map_eq_some_iff] at h
  obtain ⟨w, hw, rfl⟩ := h
  obtain ⟨hlt, rfl⟩ := List.getElem?_eq_some_iff.mp hw
  simp only [has_iff, List.getElem?_set, ne_eq, index_eq_iff (i := j)]
  by_cases hji : wordIndex i = wordIndex j
  · rw [if_pos hji, if_pos (hji ▸ hlt)]
    have := bitIndex_lt j
    simp only [← hji, List.getElem?_eq_getElem hlt, Option.some.injEq, exists_eq_left', true_and,
      BitVec.getLsbD_and, BitVec.getLsbD_not, BitVec.getLsbD_twoPow, Bool.and_eq_true,
      Bool.not_eq_true', this, bitIndex_lt i, decide_true, Bool.true_and, decide_eq_false_iff_not]
    exact and_congr_right fun _ => not_congr eq_comm
  · simp [hji, Ne.symm (a := wordIndex i) hji]

theorem bfSetBit_length (h : bf.bfSetBit i = some bf') : bf'.length = bf.length := by
  simp only [bfSetBit, Option.map_eq_some_iff] at h
  obtain ⟨w, -, rfl⟩ := h
  simp

theorem bfClrBit_length (h : bf.bfClrBit i = some bf') : bf'.length = bf.length := by
  simp only [bfClrBit, Option.map_eq_some_iff] at h
  obtain ⟨w, -, rfl⟩ := h
  simp

/-- A word that is not all ones has a clear bit, and `trailingOnes` finds it. -/
theorem trailingOnes_spec {w : BitVec 64} (h : w ≠ BitVec.allOnes 64) :
    trailingOnes w < 64 ∧ w.getLsbD (trailingOnes w) = false := by
  have hex : ∃ k ∈ List.range 64, (!w.getLsbD k) = true := by
    by_contra hno
    refine h (BitVec.eq_of_getLsbD_eq fun k hk => ?_)
    have : ¬ (!w.getLsbD k) = true := fun hc => hno ⟨k, List.mem_range.mpr hk, hc⟩
    rw [BitVec.getLsbD_allOnes, decide_eq_true hk]
    simpa using this
  have hlt : trailingOnes w < (List.range 64).length := List.findIdx_lt_length.mpr hex
  have hval : (!w.getLsbD (List.range 64)[trailingOnes w]) = true :=
    List.findIdx_getElem (p := fun i => !w.getLsbD i) (w := hlt)
  rw [show (List.range 64)[trailingOnes w] = trailingOnes w from List.getElem_range hlt] at hval
  exact ⟨by simpa using hlt, by simpa using hval⟩

/-- The bit `bfFirstFree` answers is in range and clear. -/
theorem bfFirstFree_spec : ∀ {bf : Bitfield} {i : Nat}, bf.bfFirstFree = some i →
    bf.InRange i ∧ ¬ bf.Has i
  | [], i, h => by simp [bfFirstFree] at h
  | w :: ws, i, h => by
      unfold bfFirstFree at h
      split at h
      · obtain ⟨k, hk, rfl⟩ := Option.map_eq_some_iff.mp h
        obtain ⟨hr, hn⟩ := bfFirstFree_spec hk
        have hw : wordIndex (k + wordBits) = wordIndex k + 1 := by
          unfold wordIndex wordBits; omega
        have hb : bitIndex (k + wordBits) = bitIndex k := by
          unfold bitIndex wordBits; omega
        refine ⟨by simpa [InRange, hw] using hr, ?_⟩
        rw [has_iff, hw, hb, List.getElem?_cons_succ, ← has_iff]
        exact hn
      · rename_i hne
        cases h
        obtain ⟨hlt, hclear⟩ := trailingOnes_spec hne
        have hw : wordIndex (trailingOnes w) = 0 := by
          unfold wordIndex wordBits; omega
        have hb : bitIndex (trailingOnes w) = trailingOnes w := by
          unfold bitIndex wordBits; omega
        refine ⟨by simp [InRange, hw], ?_⟩
        rw [has_iff, hw, hb]
        simp [hclear]

/-! ## The least clear bit -/

theorem has_cons_add {w : BitVec 64} {ws : Bitfield} (j : Nat) :
    Has (w :: ws) (j + wordBits) ↔ Has ws j := by
  have hw : wordIndex (j + wordBits) = wordIndex j + 1 := by
    unfold wordIndex wordBits; omega
  have hb : bitIndex (j + wordBits) = bitIndex j := by
    unfold bitIndex wordBits; omega
  rw [has_iff, hw, hb, List.getElem?_cons_succ, ← has_iff]

theorem has_cons_lt {w : BitVec 64} {ws : Bitfield} {j : Nat} (h : j < 64) :
    Has (w :: ws) j ↔ w.getLsbD j = true := by
  have hw : wordIndex j = 0 := by
    unfold wordIndex wordBits; omega
  have hb : bitIndex j = j := by
    unfold bitIndex wordBits; omega
  rw [has_iff, hw, hb]
  simp

/-- The bits below the first clear one are set. -/
theorem bfFirstFree_least : ∀ {bf : Bitfield} {i j : Nat}, bf.bfFirstFree = some i → j < i → bf.Has j
  | [], i, j, h, _ => by simp [bfFirstFree] at h
  | w :: ws, i, j, h, hj => by
      unfold bfFirstFree at h
      split at h
      · rename_i hfull
        obtain ⟨k, hk, rfl⟩ := Option.map_eq_some_iff.mp h
        by_cases hlt : j < 64
        · rw [has_cons_lt hlt, hfull, BitVec.getLsbD_allOnes]
          simpa using hlt
        · obtain ⟨j', rfl⟩ : ∃ j', j = j' + wordBits := ⟨j - 64, by unfold wordBits; omega⟩
          rw [has_cons_add]
          exact bfFirstFree_least hk (by omega)
      · rename_i hne
        cases h
        have hlt : trailingOnes w < 64 := (trailingOnes_spec hne).1
        rw [has_cons_lt (Nat.lt_trans hj hlt)]
        have := List.not_of_lt_findIdx hj
        simpa using this

/-- Without a first clear bit every bit in range is set. -/
theorem bfFirstFree_none : ∀ {bf : Bitfield}, bf.bfFirstFree = none → ∀ j, bf.InRange j → bf.Has j
  | [], _, j, hj => by simp [InRange] at hj
  | w :: ws, h, j, hj => by
      unfold bfFirstFree at h
      split at h
      · rename_i hfull
        by_cases hlt : j < 64
        · rw [has_cons_lt hlt, hfull, BitVec.getLsbD_allOnes]
          simpa using hlt
        · obtain ⟨j', rfl⟩ : ∃ j', j = j' + wordBits := ⟨j - 64, by unfold wordBits; omega⟩
          rw [has_cons_add]
          refine bfFirstFree_none (Option.map_eq_none_iff.mp h) j' ?_
          simp only [InRange, wordIndex, wordBits, List.length_cons] at hj ⊢
          omega
      · cases h

/-- A clear bit in range bounds the first clear one. -/
theorem bfFirstFree_le (hr : bf.InRange j) (hn : ¬ bf.Has j) : ∃ i, bf.bfFirstFree = some i ∧ i ≤ j := by
  cases hf : bf.bfFirstFree with
  | none => exact absurd (bfFirstFree_none hf j hr) hn
  | some i =>
    refine ⟨i, rfl, Nat.le_of_not_lt fun hlt => hn (bfFirstFree_least hf hlt)⟩

theorem has_inRange (h : bf.Has i) : bf.InRange i := by
  obtain ⟨w, hw, -⟩ := has_iff.mp h
  exact (List.getElem?_eq_some_iff.mp hw).1

theorem bfSetBit_inRange (h : bf.InRange i) : ∃ bf', bf.bfSetBit i = some bf' :=
  ⟨_, by rw [bfSetBit, List.getElem?_eq_getElem h, Option.map_some]⟩

theorem bfClrBit_inRange (h : bf.InRange i) : ∃ bf', bf.bfClrBit i = some bf' :=
  ⟨_, by rw [bfClrBit, List.getElem?_eq_getElem h, Option.map_some]⟩

/-- A bit field is the set of its bits. -/
theorem ext (hlen : bf.length = bf'.length) (h : ∀ j, bf.Has j ↔ bf'.Has j) : bf = bf' := by
  refine List.ext_getElem hlen fun n h₁ h₂ => BitVec.eq_of_getLsbD_eq fun k hk => ?_
  have hw : wordIndex (n * 64 + k) = n := by
    unfold wordIndex wordBits; omega
  have hb : bitIndex (n * 64 + k) = k := by
    unfold bitIndex wordBits; omega
  have := h (n * 64 + k)
  simp only [has_iff, hw, hb, List.getElem?_eq_getElem h₁, List.getElem?_eq_getElem h₂,
    Option.some.injEq, exists_eq_left'] at this
  exact Bool.eq_iff_iff.mpr this

/-- Clearing a clear bit changes nothing. -/
theorem bfClrBit_of_clear (hr : bf.InRange i) (hn : ¬ bf.Has i) : bf.bfClrBit i = some bf := by
  obtain ⟨bf', hclr⟩ := bfClrBit_inRange hr
  have heq : bf' = bf := by
    refine ext (bfClrBit_length hclr) fun j => ?_
    rw [bfClrBit_has hclr]
    exact and_iff_left_of_imp fun hj heq => hn (heq ▸ hj)
  rw [hclr, heq]

/-- Clearing a bit that was just set restores the field. -/
theorem bfClrBit_bfSetBit (hn : ¬ bf.Has i) (h : bf.bfSetBit i = some bf') :
    bf'.bfClrBit i = some bf := by
  have hr : bf'.InRange i := has_inRange ((bfSetBit_has h i).mpr (.inr rfl))
  obtain ⟨bf'', hclr⟩ := bfClrBit_inRange hr
  have heq : bf'' = bf := by
    refine ext ((bfClrBit_length hclr).trans (bfSetBit_length h)) fun j => ?_
    rw [bfClrBit_has hclr, bfSetBit_has h]
    constructor
    · intro ⟨hj, hne⟩
      exact hj.resolve_right hne
    · intro hj
      exact ⟨.inl hj, fun heq => hn (heq ▸ hj)⟩
  rw [hclr, heq]

end Bitfield

end Smos.Base
