/-
Smos.Drivers.Component — what an sDDF component holds, and the calls by which
it acquires it.

A component asks the root server for windows, objects, views and channels,
its peers for handle capabilities, and its own cspace for slots. What the
calls answer is an oracle `Answers` of the number of the call. A call that
fails changes nothing. The root server's overlap test for a new window is
part of the model, as it is what a window that was left behind runs into.
-/
import Smos.Base.Acquire
import Smos.Ipc.Decode
import Smos.RootServer.Basic
import Smos.RootServer.Handle

namespace Smos.Drivers

open Smos.Base
open Smos.RootServer (InvocationError HandleOrHandleCap pageSize4K usizeBound)
open Smos.Ipc (VirtType)

/-! ## Holdings -/

structure Window where
  start : Nat
  size : Nat
  deriving DecidableEq, Repr

/-- A view, with the handle of its window. -/
structure View where
  window : Nat
  winOffset : Nat
  size : Nat
  deriving DecidableEq, Repr

/-- What a component holds. Windows and views are listed with their handles, a handle capability
is named by its slot. -/
structure Holdings where
  windows : List (Nat × Window)
  objects : List HandleOrHandleCap
  views : List (Nat × View)
  handleCaps : List Nat
  bits : List Nat
  slots : List Nat
  deriving DecidableEq

/-- How many things are held. -/
def Holdings.size (h : Holdings) : Nat :=
  h.windows.length + h.objects.length + h.views.length + h.handleCaps.length + h.bits.length +
    h.slots.length

/-- `ObjAttributes`. -/
inductive ObjAttributes where
  | default
  | contiguous
  | device
  deriving DecidableEq, Repr

/-- What `obj_stat` answers. -/
structure ObjStat where
  size : Nat
  paddr : Option Nat
  deriving DecidableEq, Repr

/-- What the calls answer, by their number. -/
structure Answers where
  allocSlot : Nat → Option Nat
  windowCreate : Nat → Except InvocationError Nat
  objCreate : Nat → Except InvocationError Nat
  view : Nat → Except InvocationError Nat
  objStat : Nat → Except InvocationError ObjStat
  /-- The bit; its handle capability goes into the slot of the call. -/
  serverChannelCreate : Nat → Except InvocationError Nat
  channelOpen : Nat → Except InvocationError Unit
  /-- The peer's answer; its handle capability goes into the slot of the call. -/
  registerBidirectional : Nat → Except InvocationError Unit
  registerRecvOnly : Nat → Except InvocationError Unit
  /-- Any other call of a peer. -/
  peer : Nat → Except InvocationError Unit
  irqRegister : Nat → Except InvocationError Nat
  connRegister : Nat → Except InvocationError Nat

/-- A component as far as the outside sees it. -/
structure Component where
  held : Holdings
  calls : Nat

/-- Where a component panics. -/
inductive SddfPanic where
  /-- The root server overflowed in a call. -/
  | rootServer
  /-- `expect("Created DMA region should have a paddr")`. -/
  | paddr
  /-- An `expect` on the result of a call. -/
  | callFailed
  | unwrapNone
  | notImplemented
  /-- `panic!("Should not hit this")`. -/
  | virtType
  /-- `panic!("Should not get any other invocations")`. -/
  | otherInvocation
  /-- `panic!("Driver does not expect to handle faults")`. -/
  | fault
  /-- `reply_msg_info.unwrap()`. -/
  | noReply
  /-- `panic!("Expected this to be a handle cap")`. -/
  | handleCap
  deriving DecidableEq, Repr

abbrev SddfProg (α : Type) := Prog SddfPanic Component InvocationError α

/-! ## Calls -/

namespace Component

/-- The next call has been made. -/
def called (c : Component) : Component := { c with calls := c.calls + 1 }

def hold (f : Holdings → Holdings) (c : Component) : Component := { c with held := f c.held }

@[simp] theorem called_calls (c : Component) : c.called.calls = c.calls + 1 := rfl

@[simp] theorem called_held (c : Component) : c.called.held = c.held := rfl

@[simp] theorem hold_calls (f : Holdings → Holdings) (c : Component) :
    (c.hold f).calls = c.calls := rfl

@[simp] theorem hold_held (f : Holdings → Holdings) (c : Component) :
    (c.hold f).held = f c.held := rfl

end Component

namespace Holdings

def addWindow (hndl : Nat) (w : Window) (h : Holdings) : Holdings :=
  { h with windows := (hndl, w) :: h.windows }

def addView (hndl : Nat) (v : View) (h : Holdings) : Holdings :=
  { h with views := (hndl, v) :: h.views }

def addSlot (slot : Nat) (h : Holdings) : Holdings := { h with slots := slot :: h.slots }

def addHandleCap (slot : Nat) (h : Holdings) : Holdings :=
  { h with handleCaps := slot :: h.handleCaps }

def addBit (bit : Nat) (h : Holdings) : Holdings := { h with bits := bit :: h.bits }

/-- A new object, whose handle is a capability when a slot is named. -/
def addObject (hndl : HandleOrHandleCap) (h : Holdings) : Holdings :=
  match hndl with
  | .handle _ => { h with objects := hndl :: h.objects }
  | .handleCap slot => { h with objects := hndl :: h.objects, handleCaps := slot :: h.handleCaps }

end Holdings

/-- Make a call, which adds to what is held when it succeeds. -/
def ask {α : Type} (answers : Nat → Except InvocationError α) (add : α → Holdings → Holdings) :
    SddfProg α := fun c =>
  match answers c.calls with
  | .ok a => .ok a (c.called.hold (add a))
  | .error e => .err e c.called

section Calls

variable (ans : Answers)

/-- `alloc_slot` of the component's cspace. -/
def allocSlot : SddfProg Nat :=
  ask (fun n => (ans.allocSlot n).elim (.error .insufficientResources) .ok) Holdings.addSlot

/-- The overlap test of `overlapping_window` on one window. -/
def Window.overlaps (start size : Nat) (w : Window) : Bool :=
  decide (w.start ≤ start) && decide (start < w.start + w.size) ||
    decide (w.start < start + size) && decide (start + size < w.start + w.size)

/-- The root server lets a window of this range through. -/
def Holdings.Admits (h : Holdings) (start size : Nat) : Prop :=
  start % pageSize4K = 0 ∧ ∀ w ∈ h.windows, ¬ w.2.overlaps start size

instance (h : Holdings) (start size : Nat) : Decidable (h.Admits start size) :=
  inferInstanceAs (Decidable (_ ∧ _))

/-- `window_create`. A component has a window from the start, so the root server adds up the
range to compare it. -/
def windowCreate (start size : Nat) : SddfProg Nat := do
  let h ← Prog.gets Component.held
  if start % pageSize4K ≠ 0 then
    Prog.fail (.alignmentError 0)
  else if usizeBound ≤ start + size then
    Prog.panic .rootServer
  else if ∀ w ∈ h.windows, ¬ w.2.overlaps start size then
    ask ans.windowCreate fun hndl => Holdings.addWindow hndl ⟨start, size⟩
  else
    Prog.fail .invalidArguments

/-- `obj_create`, with the physical address of a device, and the slot for a handle capability. -/
def objCreate (_paddr : Option Nat) (_size : Nat) (_attributes : ObjAttributes)
    (returnCap : Option Nat) : SddfProg HandleOrHandleCap := fun c =>
  match ans.objCreate c.calls with
  | .ok idx =>
    let hndl := returnCap.elim (.handle idx) .handleCap
    .ok hndl (c.called.hold (Holdings.addObject hndl))
  | .error e => .err e c.called

/-- `view`. -/
def view (window : Nat) (_object : HandleOrHandleCap) (winOffset _objOffset size : Nat) :
    SddfProg Nat :=
  ask ans.view fun hndl => Holdings.addView hndl ⟨window, winOffset, size⟩

/-- `obj_stat`. -/
def objStat (_object : HandleOrHandleCap) : SddfProg ObjStat := ask ans.objStat fun _ => id

/-- `server_channel_create`: the bit, and the slot of the handle capability. -/
def serverChannelCreate (slot : Nat) : SddfProg (Nat × Nat) := do
  let bit ← ask ans.serverChannelCreate fun bit h => (h.addBit bit).addHandleCap slot
  pure (bit, slot)

/-- `channel_open`, into a slot. -/
def channelOpen (_hndlCap slot : Nat) : SddfProg Nat := do
  ask ans.channelOpen fun _ => id
  pure slot

/-- `sddf_channel_register_bidirectional` of a peer. -/
def registerBidirectional (_hndlCap : Nat) (_virtType : Option VirtType) (slot : Nat) :
    SddfProg Nat := do
  ask ans.registerBidirectional fun _ => Holdings.addHandleCap slot
  pure slot

/-- `sddf_channel_register_recv_only` of a peer. -/
def registerRecvOnly (_hndlCap : Nat) : SddfProg Unit := ask ans.registerRecvOnly fun _ => id

/-- `conn_create`, `conn_open`, `sddf_queue_register` and `sddf_data_region_provide`. -/
def peerCall : SddfProg Unit := ask ans.peer fun _ => id

/-- `sddf_get_data_region`, into a slot. -/
def getDataRegion (slot : Nat) : SddfProg Nat := do
  ask ans.peer fun _ => Holdings.addHandleCap slot
  pure slot

/-- `irq_register`. -/
def irqRegister (_irqNumber _slot : Nat) : SddfProg Nat := ask ans.irqRegister Holdings.addBit

/-- `conn_register`, whose failure is a panic in every caller. -/
def connRegister (_id : Nat) : SddfProg Nat :=
  (ask ans.connRegister fun _ => id).expect .callFailed

end Calls

/-! ## Calls that acquire -/

section Acquire

variable {α β : Type} {answers : Nat → Except InvocationError α} {add : α → Holdings → Holdings}
  {f : α → SddfProg β} {c : Component}

theorem isOk_iff {x : Except InvocationError α} : x.isOk ↔ ∃ a, x = .ok a := by
  cases x <;> simp [Except.isOk, Except.toBool]

theorem ask_ok {a : α} (h : answers c.calls = .ok a) :
    ask answers add c = .ok a (c.called.hold (add a)) := by
  unfold ask
  rw [h]

theorem ask_err {e : InvocationError} (h : answers c.calls = .error e) :
    ask answers add c = .err e c.called := by
  unfold ask
  rw [h]

/-- The number of things held. -/
abbrev Component.size (c : Component) : Nat := c.held.size

theorem ask_grows (hadd : ∀ a h, h.size ≤ (add a h).size) :
    Prog.Grows Component.size (ask answers add) := by
  intro c
  unfold Prog.wp ask
  cases answers c.calls with
  | ok a => exact hadd a c.held
  | error e => exact Nat.le_refl _

/-- A call succeeds when its answer does, and then the rest must. -/
theorem succeeds_ask {P : Prop}
    (hf : ∀ a, Prog.Succeeds (f a) (c.called.hold (add a)) ↔ P) :
    Prog.Succeeds (ask answers add >>= f) c ↔ (answers c.calls).isOk ∧ P := by
  cases h : answers c.calls with
  | ok a =>
    rw [Prog.succeeds_bind_of_ok (ask_ok h), hf a]
    simp [Except.isOk, Except.toBool]
  | error e => simp [Prog.succeeds_bind_of_err (ask_err h), Except.isOk, Except.toBool]

/-- A chain that starts with a call is atomic when that call fails, or nothing after it does. -/
theorem atomic_ask {P : Prop} (hadd : ∀ a h, h.size < (add a h).size)
    (hgrows : ∀ a, Prog.Grows Component.size (f a))
    (hf : ∀ a, Prog.Succeeds (f a) (c.called.hold (add a)) ↔ P) :
    Prog.Atomic Component.held (ask answers add >>= f) c ↔ ((answers c.calls).isOk → P) := by
  cases h : answers c.calls with
  | ok a =>
    have hsize : Holdings.size c.held < Holdings.size (c.called.hold (add a)).held := hadd a c.held
    rw [Prog.atomic_bind_acquired (ask_ok h) hsize (hgrows a), hf a]
    simp [Except.isOk, Except.toBool]
  | error e =>
    refine ⟨fun _ hok => ?_, fun _ => Prog.atomic_bind_of_err (ask_err h) rfl⟩
    cases hok

end Acquire

end Smos.Drivers
