/-
Smos.RootServer.Basic — constants, errors and machine arithmetic.

The root server is built with the development profile, so an addition or
subtraction on `usize` that leaves the 64-bit range panics. Such numbers
are natural numbers here; `addU` and `subU` are the two checked operations.

`Panic` names the places a root-server run can end at: the failed
`expect`, `unwrap`, `assert!`, `todo!`, index or checked operation.
-/
import Mathlib.Tactic.Common
import Smos.Base.Prog

namespace Smos.RootServer

open Smos.Base

/-! ## Constants -/

def pageBits4K : Nat := 12

def pageSize4K : Nat := 4096

/-- `usize` values lie below this bound. -/
def usizeBound : Nat := 2 ^ 64

def objLvlMax : Nat := 512

def maxObjSize : Nat := objLvlMax ^ 4 * pageSize4K

def maxProcs : Nat := 64

def maxHandles : Nat := 256

def stackPages : Nat := 128

def processStackTop : Nat := 0x90000000

def processIpcBuffer : Nat := 0xA0000000

def processRsDataTransferPage : Nat := 0xA0001000

def utTableVaddr : Nat := 0x8000000000

def frameTableVaddr : Nat := 0x8100000000

def frameDataVaddr : Nat := 0x8200000000

/-- `ROUND_DOWN(x, seL4_PageBits)`. -/
def roundDown (x : Nat) : Nat := x / pageSize4K * pageSize4K

/-! ## Errors -/

/-- `sel4::Error`. -/
inductive Sel4Error where
  | invalidArgument
  | invalidCapability
  | illegalOperation
  | rangeError
  | alignmentError
  | failedLookup
  | truncatedMessage
  | deleteFirst
  | revokeFirst
  | notEnoughMemory
  deriving DecidableEq, Repr

/-- `InvocationError`, as far as the handlers below answer it. -/
inductive InvocationError where
  | outOfHandles
  | outOfHandleCaps
  | alignmentError (whichArg : Nat)
  | invalidArguments
  | invalidHandle (whichArg : Nat)
  | invalidHandleCapability (whichArg : Nat)
  | insufficientResources
  deriving DecidableEq, Repr

/-- Where a run panics. -/
inductive Panic where
  | arithmeticOverflow
  | indexOutOfBounds
  | unwrapNone
  | assertionFailed
  | notImplemented
  | zombie
  | allocFrame
  | allocSlot
  | retype
  | insertFrame
  | insertCap
  | copyCap
  | mapFrame
  | revokeCap
  | deviceMemory
  | notificationBufferFull
  | boundObject
  | viewPosition
  | syscallLoop
  | rootServerFault
  | mintCap
  | irqControl
  | alreadyBorrowed
  | replyNotHandled
  deriving DecidableEq, Repr

/-- A panic at a broken link: a view that has the wrong kind of object, or is not in
its object's list. -/
def Panic.Unlinked (p : Panic) : Prop := p = .boundObject ∨ p = .viewPosition

/-- A panic that is neither an insertion into a radix table nor at a broken link. -/
def Panic.Low (p : Panic) : Prop := p ≠ .insertFrame ∧ p ≠ .insertCap ∧ ¬ p.Unlinked

instance (p : Panic) : Decidable p.Unlinked := inferInstanceAs (Decidable (_ ∨ _))

instance (p : Panic) : Decidable p.Low := inferInstanceAs (Decidable (_ ∧ _ ∧ _))

theorem Panic.Low.linked {p : Panic} (h : p.Low) : ¬ p.Unlinked := h.2.2

/-! ## Rights -/

/-- `sel4::CapRights`. -/
structure CapRights where
  read : Bool
  write : Bool
  grant : Bool
  grantReply : Bool
  deriving DecidableEq, Repr

namespace CapRights

/-- `CapRightsBuilder::all()`. -/
def all : CapRights := ⟨true, true, true, true⟩

def none : CapRights := ⟨false, false, false, false⟩

/-- `CapRights::write_only()`. -/
def writeOnly : CapRights := ⟨false, true, false, false⟩

end CapRights

/-- What a page mapping lets its process do. -/
structure Access where
  read : Bool
  write : Bool
  deriving DecidableEq, Repr

namespace Access

/-- Every access of `a` is one of `b`. -/
protected def le (a b : Access) : Prop :=
  (a.read = true → b.read = true) ∧ (a.write = true → b.write = true)

instance : LE Access := ⟨Access.le⟩

instance (a b : Access) : Decidable (a ≤ b) :=
  inferInstanceAs (Decidable (_ ∧ _))

protected theorem le_refl (a : Access) : a ≤ a := ⟨id, id⟩

protected theorem le_trans {a b c : Access} (hab : a ≤ b) (hbc : b ≤ c) : a ≤ c :=
  ⟨hbc.1 ∘ hab.1, hbc.2 ∘ hab.2⟩

/-- The access a frame capability carries: write access needs read access. -/
def ofRights (r : CapRights) : Access := ⟨r.read, r.read && r.write⟩

/-- `maskVMRights`: what is left of `a` under the rights `r`. -/
def mask (a : Access) (r : CapRights) : Access :=
  ⟨a.read && r.read, a.read && a.write && r.read && r.write⟩

theorem mask_le_ofRights (a : Access) (r : CapRights) : a.mask r ≤ ofRights r := by
  refine ⟨?_, ?_⟩ <;> simp +contextual [mask, ofRights]

end Access

/-! ## Checked arithmetic -/

section Checked

variable {σ ε : Type}

def addU (a b : Nat) : Prog Panic σ ε Nat :=
  if a + b < usizeBound then Prog.pure (a + b) else Prog.panic .arithmeticOverflow

def subU (a b : Nat) : Prog Panic σ ε Nat :=
  if b ≤ a then Prog.pure (a - b) else Prog.panic .arithmeticOverflow

variable {Q : Nat → σ → Prop} {E : ε → σ → Prop} {P : Panic → Prop} {s : σ}

@[simp] theorem wp_addU {a b : Nat} :
    Prog.wp (addU a b) Q E P s ↔
      (a + b < usizeBound → Q (a + b) s) ∧ (¬ a + b < usizeBound → P .arithmeticOverflow) := by
  unfold addU
  simp

@[simp] theorem wp_subU {a b : Nat} :
    Prog.wp (subU a b) Q E P s ↔
      (b ≤ a → Q (a - b) s) ∧ (¬ b ≤ a → P .arithmeticOverflow) := by
  unfold subU
  simp

end Checked

end Smos.RootServer
