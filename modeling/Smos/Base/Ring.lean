/-
Smos.Base.Ring — a ring buffer in a page that two parties share.

A ring buffer library keeps two indices and a fixed number of entries in
memory `μ` that the other party can write too. `Ring.Fifo` is what such a
library promises: as long as the indices are valid the ring is a bounded
queue, and with indices that cannot be right both calls say so.

`listRing` is the simplest library of this kind.
-/
import Mathlib.Data.BitVec
import Mathlib.Data.List.Basic
import Mathlib.Tactic.Common

namespace Smos.Base

/-- Why an entry is not taken. -/
inductive RingError where
  | full
  | peerMisbehavior
  deriving DecidableEq, Repr

/-- The calls of a ring buffer library. -/
structure Ring (μ α : Type) where
  init : μ → μ
  enqueue : μ → α → Except RingError μ
  dequeue : μ → Except RingError (Option (α × μ))

namespace Ring

variable {μ α : Type}

/-- The ring is a queue of at most `capacity` entries, unless its indices are invalid. -/
structure Fifo (ring : Ring μ α) (capacity : Nat) where
  Intact : μ → Prop
  contents : μ → List α
  length_le : ∀ m, Intact m → (contents m).length ≤ capacity
  init_intact : ∀ m, Intact (ring.init m)
  init_contents : ∀ m, contents (ring.init m) = []
  enqueue_room : ∀ m a, Intact m → (contents m).length < capacity →
    ∃ m', ring.enqueue m a = .ok m' ∧ Intact m' ∧ contents m' = contents m ++ [a]
  enqueue_full : ∀ m a, Intact m → (contents m).length = capacity →
    ring.enqueue m a = .error .full
  enqueue_broken : ∀ m a, ¬ Intact m → ring.enqueue m a = .error .peerMisbehavior
  dequeue_nil : ∀ m, Intact m → contents m = [] → ring.dequeue m = .ok none
  dequeue_cons : ∀ m a as, Intact m → contents m = a :: as →
    ∃ m', ring.dequeue m = .ok (some (a, m')) ∧ Intact m' ∧ contents m' = as
  dequeue_broken : ∀ m, ¬ Intact m → ring.dequeue m = .error .peerMisbehavior

namespace Fifo

variable {ring : Ring μ α} {capacity : Nat} (fifo : ring.Fifo capacity)

end Fifo

/-- The entries in order, as many as fit. -/
def Entries (α : Type) (capacity : Nat) : Type := { xs : List α // xs.length ≤ capacity }

def Entries.push {α : Type} {capacity : Nat} (xs : Entries α capacity) (a : α)
    (h : xs.1.length < capacity) : Entries α capacity :=
  ⟨xs.1 ++ [a], by rw [List.length_append]; exact h⟩

/-- A ring that is a list of entries; `none` stands for invalid indices. -/
def listRing (α : Type) (capacity : Nat) : Ring (Option (Entries α capacity)) α where
  init _ := some ⟨[], Nat.zero_le _⟩
  enqueue
    | some xs, a =>
      if h : xs.1.length < capacity then .ok (some (xs.push a h))
      else .error .full
    | none, _ => .error .peerMisbehavior
  dequeue
    | some ⟨x :: xs, h⟩ => .ok (some (x, some ⟨xs, Nat.le_of_succ_le h⟩))
    | some ⟨[], _⟩ => .ok none
    | none => .error .peerMisbehavior

def listRing_fifo (α : Type) (capacity : Nat) : (listRing α capacity).Fifo capacity where
  Intact m := m ≠ none
  contents m := (m.map Subtype.val).getD []
  length_le m hm := by
    obtain ⟨xs, rfl⟩ := Option.ne_none_iff_exists'.mp hm
    exact xs.2
  init_intact m := by simp [listRing]
  init_contents m := rfl
  enqueue_room m a hm hlt := by
    obtain ⟨xs, rfl⟩ := Option.ne_none_iff_exists'.mp hm
    exact ⟨some (xs.push a hlt), dif_pos hlt, by simp, rfl⟩
  enqueue_full m a hm hfull := by
    obtain ⟨xs, rfl⟩ := Option.ne_none_iff_exists'.mp hm
    exact dif_neg (Nat.not_lt_of_le (Nat.le_of_eq hfull.symm))
  enqueue_broken m a hm := by
    obtain rfl := not_ne_iff.mp hm
    rfl
  dequeue_nil m hm hnil := by
    obtain ⟨⟨xs, hxs⟩, rfl⟩ := Option.ne_none_iff_exists'.mp hm
    obtain rfl : xs = [] := hnil
    rfl
  dequeue_cons m a as hm hcons := by
    obtain ⟨⟨xs, hxs⟩, rfl⟩ := Option.ne_none_iff_exists'.mp hm
    obtain rfl : xs = a :: as := hcons
    exact ⟨some ⟨as, Nat.le_of_succ_le hxs⟩, rfl, by simp, rfl⟩
  dequeue_broken m hm := by
    obtain rfl := not_ne_iff.mp hm
    rfl

end Ring

end Smos.Base
