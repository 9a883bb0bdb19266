/-
Smos.Base.SharedRing — a ring that one party fills and another empties.

`head` and `tail` count what was ever consumed and produced, in words of `w`
bits, and both wrap; the entry of count `i` is in slot `i % n`. The producer
may fill slots past `tail` before it publishes them. `Mirrors n xs k` says
that the ring is right about the list `xs` of everything produced, of which
the last `k` are not published: no slot that the consumer has still to read
was filled again. Where `n` does not divide `2 ^ w` that ends with the first
wrap, so `Mirrors` is about fewer than `2 ^ w` entries.
-/
import Mathlib.Data.BitVec
import Mathlib.Logic.Function.Basic
import Mathlib.Data.List.Basic
import Mathlib.Tactic.Common

namespace Smos.Base

structure SharedRing (w : Nat) (α : Type) where
  head : BitVec w
  tail : BitVec w
  buffer : Nat → α

namespace SharedRing

variable {w : Nat} {α : Type} {n k j : Nat} {xs : List α} (q : SharedRing w α)

/-- How many published entries wait to be consumed. -/
def length : BitVec w := q.tail - q.head

/-- The entry `i` places behind the head. -/
def filled (n : Nat) (i : BitVec w) : α := q.buffer ((q.head + i).toNat % n)

/-- Fill the slot `i` places behind the tail. -/
def fill (n : Nat) (i : BitVec w) (a : α) : SharedRing w α :=
  { q with buffer := Function.update q.buffer ((q.tail + i).toNat % n) a }

def publishConsumption (c : BitVec w) : SharedRing w α := { q with head := q.head + c }

def publishProduction (c : BitVec w) : SharedRing w α := { q with tail := q.tail + c }

/-- The ring holds what was produced and not consumed, the last `k` unpublished. -/
structure Mirrors (q : SharedRing w α) (n : Nat) (xs : List α) (k : Nat) : Prop where
  bounded : xs.length < 2 ^ w
  tail_add : q.tail.toNat + k = xs.length
  head_le : q.head.toNat ≤ q.tail.toNat
  length_le : xs.length ≤ q.head.toNat + n
  slot : ∀ i (hi : i < xs.length), q.head.toNat ≤ i → q.buffer (i % n) = xs[i]

variable {q}

/-- Two counts less than `n` apart are in different slots. -/
theorem mod_ne {i j : Nat} (h₁ : i < j) (h₂ : j < i + n) : i % n ≠ j % n := by
  intro heq
  have hdvd : n ∣ j - i := Nat.dvd_of_mod_eq_zero (Nat.sub_mod_eq_zero_of_mod_eq heq.symm)
  have hle := Nat.le_of_dvd (by omega) hdvd
  omega

/-- A sum of counts that does not wrap. -/
theorem toNat_add_ofNat {x : BitVec w} (h : x.toNat + k < 2 ^ w) :
    (x + BitVec.ofNat w k).toNat = x.toNat + k := by
  rw [BitVec.toNat_add, BitVec.toNat_ofNat, Nat.mod_eq_of_lt (show k < 2 ^ w by omega),
    Nat.mod_eq_of_lt h]

namespace Mirrors

theorem empty (n : Nat) (buffer : Nat → α) : Mirrors (w := w) ⟨0, 0, buffer⟩ n [] 0 where
  bounded := Nat.two_pow_pos w
  tail_add := by simp
  head_le := Nat.le_refl _
  length_le := Nat.zero_le _
  slot i hi _ := absurd hi (Nat.not_lt_zero i)

/-- The length that the ring computes does not wrap. -/
theorem toNat_length (h : Mirrors q n xs k) : q.length.toNat = q.tail.toNat - q.head.toNat :=
  BitVec.toNat_sub_of_le (BitVec.le_def.mpr h.head_le)

theorem length_eq (h : Mirrors q n xs k) :
    q.length.toNat + k + q.head.toNat = xs.length := by
  have htail := h.tail_add
  have hhead := h.head_le
  rw [h.toNat_length]
  omega

/-- Where there is room, filling the next slot loses nothing. -/
theorem fill (h : Mirrors q n xs k) (a : α) (hroom : xs.length < q.head.toNat + n)
    (hcount : xs.length + 1 < 2 ^ w) :
    Mirrors (q.fill n (BitVec.ofNat w k) a) n (xs ++ [a]) (k + 1) where
  bounded := by
    rw [List.length_append, List.length_singleton]
    exact hcount
  tail_add := by
    rw [List.length_append, List.length_singleton, ← h.tail_add]
    exact (Nat.add_assoc _ _ _).symm
  head_le := h.head_le
  length_le := by
    rw [List.length_append, List.length_singleton]
    exact hroom
  slot i hi hhead := by
    rw [List.length_append, List.length_singleton] at hi
    have htail := h.tail_add
    have hbound := h.bounded
    show Function.update q.buffer ((q.tail + BitVec.ofNat w k).toNat % n) a (i % n) = _
    rw [toNat_add_ofNat (by omega), htail]
    by_cases hlast : i = xs.length
    · subst hlast
      rw [Function.update_self, List.getElem_append_right (Nat.le_refl _)]
      simp
    · have hlt : i < xs.length := by omega
      have hhead' : q.head.toNat ≤ i := hhead
      rw [Function.update_of_ne (mod_ne hlt (by omega)), List.getElem_append_left hlt]
      exact h.slot i hlt hhead'

theorem publishProduction (h : Mirrors q n xs (k + j)) :
    Mirrors (q.publishProduction (BitVec.ofNat w k)) n xs j := by
  have htail := h.tail_add
  have hbound := h.bounded
  have hnew : (q.publishProduction (BitVec.ofNat w k)).tail.toNat = q.tail.toNat + k :=
    toNat_add_ofNat (by omega)
  exact
    { bounded := hbound
      tail_add := by
        rw [hnew, ← htail]
        exact Nat.add_assoc _ _ _
      head_le := by
        rw [hnew]
        exact Nat.le_trans h.head_le (Nat.le_add_right _ _)
      length_le := h.length_le
      slot := h.slot }

/-- The head after consumption, which does not wrap. -/
theorem toNat_head (h : Mirrors q n xs k) {c : Nat} (hc : c ≤ q.length.toNat) :
    (q.publishConsumption (BitVec.ofNat w c)).head.toNat = q.head.toNat + c := by
  have hlen := h.length_eq
  have hbound := h.bounded
  exact toNat_add_ofNat (by omega)

theorem publishConsumption (h : Mirrors q n xs k) {c : Nat} (hc : c ≤ q.length.toNat) :
    Mirrors (q.publishConsumption (BitVec.ofNat w c)) n xs k where
  bounded := h.bounded
  tail_add := h.tail_add
  head_le := by
    have hhead := h.head_le
    rw [h.toNat_length] at hc
    rw [h.toNat_head (by rwa [h.toNat_length])]
    show q.head.toNat + c ≤ q.tail.toNat
    omega
  length_le := by
    have hle := h.length_le
    rw [h.toNat_head hc]
    omega
  slot i hi hle := by
    rw [h.toNat_head hc] at hle
    exact h.slot i hi (Nat.le_trans (Nat.le_add_right _ _) hle)

/-- What the consumer reads is what was produced. -/
theorem filled_eq (h : Mirrors q n xs k) {i : Nat} (hi : q.head.toNat + i < xs.length) :
    q.filled n (BitVec.ofNat w i) = xs[q.head.toNat + i] := by
  have hbound := h.bounded
  unfold filled
  rw [toNat_add_ofNat (by omega)]
  exact h.slot _ hi (Nat.le_add_right _ _)

end Mirrors

end SharedRing

end Smos.Base
