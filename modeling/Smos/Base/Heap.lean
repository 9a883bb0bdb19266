/-
Smos.Base.Heap — shared mutable cells.

`Rc::new(RefCell::new(x))` allocates a cell and hands out its address;
clones of the `Rc` are copies of the address, `Rc::ptr_eq` compares
addresses, and `borrow_mut` updates the cell for every holder. Cells are
never reclaimed here: an address nobody holds any more is simply not
reachable.

The lemmas say what one update or one allocation does to every cell.
-/
import Mathlib.Data.BitVec
import Mathlib.Logic.Function.Basic
import Mathlib.Tactic.Common

namespace Smos.Base

structure Heap (α : Type) where
  /-- The addresses below `next` are allocated. -/
  next : Nat
  cell : Nat → α

namespace Heap

variable {α : Type} (h : Heap α)

instance : CoeFun (Heap α) (fun _ => Nat → α) := ⟨Heap.cell⟩

/-- No cell allocated; `a` fills the cells nobody asks for. -/
def empty (a : α) : Heap α := ⟨0, fun _ => a⟩

/-- `Rc::new(RefCell::new(a))`; the address is the old `next`. -/
def alloc (a : α) : Heap α := ⟨h.next + 1, Function.update h.cell h.next a⟩

/-- `borrow_mut`. -/
def update (r : Nat) (f : α → α) : Heap α := ⟨h.next, Function.update h.cell r (f (h.cell r))⟩

@[simp] theorem alloc_next (a : α) : (h.alloc a).next = h.next + 1 := rfl

@[simp] theorem alloc_self (a : α) : (h.alloc a) h.next = a := by simp [alloc]

theorem alloc_of_ne {r : Nat} (hr : r ≠ h.next) (a : α) : (h.alloc a) r = h r := by
  simp [alloc, Function.update_of_ne hr]

theorem alloc_of_lt {r : Nat} (hr : r < h.next) (a : α) : (h.alloc a) r = h r :=
  h.alloc_of_ne (Nat.ne_of_lt hr) a

@[simp] theorem update_next (r : Nat) (f : α → α) : (h.update r f).next = h.next := rfl

@[simp] theorem update_self (r : Nat) (f : α → α) : (h.update r f) r = f (h r) := by
  simp [update]

theorem update_of_ne {r r' : Nat} (hr : r' ≠ r) (f : α → α) : (h.update r f) r' = h r' := by
  simp [update, Function.update_of_ne hr]

theorem update_apply (r r' : Nat) (f : α → α) :
    (h.update r f) r' = if r' = r then f (h r) else h r' := by
  by_cases hr : r' = r
  · subst hr; simp
  · simp [h.update_of_ne hr, hr]

theorem update_id {r : Nat} {f : α → α} (hf : f (h r) = h r) : h.update r f = h := by
  unfold update
  rw [hf, Function.update_eq_self]

/-- The later of two overwrites of a cell stays. -/
theorem update_overwrite (r : Nat) (f : α → α) (a : α) :
    (h.update r f).update r (fun _ => a) = h.update r fun _ => a := by
  simp [update]

/-- A new cell is changed before anybody else sees it. -/
theorem alloc_update_self (a : α) (f : α → α) :
    (h.alloc a).update h.next f = h.alloc (f a) := by
  simp [alloc, update]

/-- An update that keeps an observation of its cell keeps it of every cell. -/
theorem update_preserves {β : Type} (g : α → β) {r : Nat} {f : α → α}
    (hf : g (f (h r)) = g (h r)) (r' : Nat) : g ((h.update r f) r') = g (h r') := by
  by_cases hr : r' = r
  · subst hr; simpa using hf
  · rw [h.update_of_ne hr]

end Heap

end Smos.Base
