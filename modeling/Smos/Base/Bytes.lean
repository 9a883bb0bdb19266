/-
Smos.Base.Bytes — bytes in memory, and numbers as bytes.

A memory is a function from addresses. `put` stores some bytes, `load` takes
some, and `Holds m a bs` says that `bs` are what is there. A list of writes
`Descends` when each ends where an earlier one begins, or below: whoever fills
a stack downwards never touches what is above, so all of it is there in the
end (`holds_puts`).

`leBytes` are the bytes of a number, the lowest first.
-/
import Mathlib.Data.BitVec
import Mathlib.Data.List.Basic
import Mathlib.Tactic.Common

namespace Smos.Base

/-! ## Bytes in memory -/

section Memory

variable {β : Type} {m m' : Nat → β} {a b x : Nat} {bs cs : List β}

/-- The memory after `bs` are stored from `a` on. -/
def put (a : Nat) (bs : List β) (m : Nat → β) : Nat → β := fun x =>
  if a ≤ x then bs[x - a]?.getD (m x) else m x

/-- The `n` bytes from `a` on. -/
def load (m : Nat → β) (a n : Nat) : List β := (List.range n).map fun i => m (a + i)

/-- The bytes from `a` on are `bs`. -/
def Holds (m : Nat → β) (a : Nat) (bs : List β) : Prop := load m a bs.length = bs

@[simp] theorem length_load (m : Nat → β) (a n : Nat) : (load m a n).length = n := by
  simp [load]

theorem load_append (m : Nat → β) (a n k : Nat) :
    load m a (n + k) = load m a n ++ load m (a + n) k := by
  unfold load
  rw [List.range_add, List.map_append, List.map_map]
  simp [Function.comp_def, Nat.add_assoc]

theorem holds_iff : Holds m a bs ↔ ∀ i (hi : i < bs.length), m (a + i) = bs[i] := by
  constructor
  · intro h i hi
    have hget := congrArg (fun l => l[i]?) h
    simpa [load, hi, List.getElem?_eq_getElem hi] using hget
  · intro h
    refine List.ext_getElem (length_load m a _) fun i hi hi' => ?_
    simpa [load] using h i hi'

theorem Holds.congr (h : Holds m a bs) (hm : ∀ x, a ≤ x → x < a + bs.length → m' x = m x) :
    Holds m' a bs := by
  rw [holds_iff] at h ⊢
  intro i hi
  rw [hm (a + i) (Nat.le_add_right _ _) (by omega)]
  exact h i hi

theorem holds_append : Holds m a (bs ++ cs) ↔ Holds m a bs ∧ Holds m (a + bs.length) cs := by
  unfold Holds
  rw [List.length_append, load_append]
  constructor
  · exact fun h => List.append_inj h (length_load m a _)
  · rintro ⟨hfirst, hrest⟩
    rw [hfirst, hrest]

theorem put_of_lt (h : x < a) : put a bs m x = m x := if_neg (Nat.not_le.mpr h)

theorem put_of_ge (h : a + bs.length ≤ x) : put a bs m x = m x := by
  unfold put
  rw [List.getElem?_eq_none (by omega)]
  split <;> rfl

theorem holds_put (a : Nat) (bs : List β) (m : Nat → β) : Holds (put a bs m) a bs := by
  rw [holds_iff]
  intro i hi
  unfold put
  rw [if_pos (Nat.le_add_right _ _), Nat.add_sub_cancel_left, List.getElem?_eq_getElem hi]
  rfl

/-! ## Writes downwards -/

/-- The memory after some writes, the first of the list first. -/
def puts (ws : List (Nat × List β)) (m : Nat → β) : Nat → β :=
  ws.foldl (fun m w => put w.1 w.2 m) m

/-- Below `top`, each write ends where the one before begins, or below. -/
def Descends : Nat → List (Nat × List β) → Prop
  | _, [] => True
  | top, w :: ws => w.1 + w.2.length ≤ top ∧ Descends w.1 ws

/-- Where the last of the writes begins. -/
def lowest : Nat → List (Nat × List β) → Nat
  | top, [] => top
  | _, w :: ws => lowest w.1 ws

variable {ws vs : List (Nat × List β)} {top : Nat}

theorem puts_append : puts (ws ++ vs) m = puts vs (puts ws m) := List.foldl_append ..

theorem lowest_append : lowest top (ws ++ vs) = lowest (lowest top ws) vs := by
  induction ws generalizing top with
  | nil => rfl
  | cons w ws ih => exact ih

theorem descends_append :
    Descends top (ws ++ vs) ↔ Descends top ws ∧ Descends (lowest top ws) vs := by
  induction ws generalizing top with
  | nil => simp [Descends, lowest]
  | cons w ws ih =>
    rw [List.cons_append]
    simp only [Descends, lowest]
    rw [ih, and_assoc]

theorem lowest_le (h : Descends top ws) : lowest top ws ≤ top := by
  induction ws generalizing top with
  | nil => exact Nat.le_refl _
  | cons w ws ih =>
    have hrest := ih h.2
    have htop := h.1
    simp only [lowest]
    omega

/-- What is above is left alone. -/
theorem puts_of_ge (h : Descends top ws) (hx : top ≤ x) : puts ws m x = m x := by
  induction ws generalizing top m with
  | nil => rfl
  | cons w ws ih =>
    have htop := h.1
    exact (ih h.2 (by omega)).trans (put_of_ge (by omega))

/-- And what is below. -/
theorem puts_of_lt (h : Descends top ws) (hx : x < lowest top ws) : puts ws m x = m x := by
  induction ws generalizing top m with
  | nil => rfl
  | cons w ws ih =>
    have hlow := lowest_le h.2
    simp only [lowest] at hx
    exact (ih h.2 hx).trans (put_of_lt (by omega))

/-- Everything that was written is there. -/
theorem holds_puts (h : Descends top ws) (hw : (a, bs) ∈ ws) (m : Nat → β) :
    Holds (puts ws m) a bs := by
  induction ws generalizing top m with
  | nil => cases hw
  | cons w ws ih =>
    rcases List.mem_cons.mp hw with rfl | hw
    · exact (holds_put a bs m).congr fun x hx _ => puts_of_ge h.2 hx
    · exact ih h.2 hw _

theorem mem_bounds (h : Descends top ws) (hw : (a, bs) ∈ ws) :
    lowest top ws ≤ a ∧ a + bs.length ≤ top := by
  induction ws generalizing top with
  | nil => cases hw
  | cons w ws ih =>
    have htop := h.1
    rcases List.mem_cons.mp hw with rfl | hw
    · exact ⟨lowest_le h.2, htop⟩
    · have hrest := ih h.2 hw
      simp only [lowest]
      omega

end Memory

/-! ## Numbers -/

/-- The lowest `n` bytes of a number, little-endian. -/
def leBytes (n x : Nat) : List UInt8 := (List.range n).map fun i => UInt8.ofNat (x / 256 ^ i % 256)

/-- The number that bytes are. -/
def leValue : List UInt8 → Nat
  | [] => 0
  | b :: bs => b.toNat + 256 * leValue bs

section Numbers

variable {n x : Nat} {m : Nat → UInt8} {a i : Nat} {xs : List Nat}

@[simp] theorem length_leBytes (n x : Nat) : (leBytes n x).length = n := by
  simp [leBytes]

theorem leBytes_succ (n x : Nat) :
    leBytes (n + 1) x = UInt8.ofNat (x % 256) :: leBytes n (x / 256) := by
  unfold leBytes
  rw [List.range_succ_eq_map, List.map_cons, List.map_map]
  simp [Function.comp_def, Nat.pow_succ', Nat.div_div_eq_div_mul]

theorem leValue_leBytes (h : x < 256 ^ n) : leValue (leBytes n x) = x := by
  induction n generalizing x with
  | zero =>
    rw [Nat.pow_zero] at h
    have hx : x = 0 := by omega
    subst hx
    rfl
  | succ n ih =>
    have hdiv : x / 256 < 256 ^ n := by
      rw [Nat.pow_succ] at h
      exact Nat.div_lt_of_lt_mul (by omega)
    have hmod : (UInt8.ofNat (x % 256)).toNat = x % 256 :=
      UInt8.toNat_ofNat_of_lt' (Nat.mod_lt x (by decide))
    rw [leBytes_succ, leValue, ih hdiv, hmod]
    omega

/-- A word of an array. -/
theorem Holds.word {k : Nat} (h : Holds m a (xs.flatMap (leBytes k))) (hi : i < xs.length) :
    Holds m (a + k * i) (leBytes k xs[i]) := by
  induction xs generalizing a i with
  | nil => exact absurd hi (Nat.not_lt_zero i)
  | cons x xs ih =>
    rw [List.flatMap_cons, holds_append, length_leBytes] at h
    cases i with
    | zero => exact h.1
    | succ i =>
      have hrest := ih h.2 (Nat.lt_of_succ_lt_succ hi)
      rw [Nat.mul_succ, Nat.add_comm (k * i), ← Nat.add_assoc]
      exact hrest

end Numbers

end Smos.Base
