/-
Smos.RootServer.Irq — the notification bits of a published server.

A server's thread waits on one notification. Everything that signals it
gets a capability with a bit of its own: the root server bit 0, channels
and interrupts the first bit that is free. The bits above the identifying
ones count as taken.
-/
import Smos.RootServer.Connection

namespace Smos.RootServer

open Smos.Base

def modifyDispatch {ε : Type} (srv : ServerRef)
    (f : NotificationDispatch → NotificationDispatch) : SProg ε Unit :=
  modifyServer srv fun server => { server with ntfnDispatch := f server.ntfnDispatch }

/-- `alloc_ntfn_bit`. -/
def allocNtfnBit (srv : ServerRef) : SProg Sel4Error Nat := do
  let server ← getServer srv
  let bit ← server.ntfnDispatch.allocatedBits.bfFirstFree |> Prog.okOr .notEnoughMemory
  let bits ← server.ntfnDispatch.allocatedBits.bfSetBit bit |> Prog.unwrap .indexOutOfBounds
  modifyDispatch srv fun dispatch => { dispatch with allocatedBits := bits }
  pure bit

/-- `free_ntfn_bit`. -/
def freeNtfnBit {ε : Type} (srv : ServerRef) (bit : Nat) : SProg ε Unit := do
  let server ← getServer srv
  let bits ← server.ntfnDispatch.allocatedBits.bfClrBit bit |> Prog.unwrap .indexOutOfBounds
  modifyDispatch srv fun dispatch => { dispatch with allocatedBits := bits }

/-- Mint the badged notification of a bit. -/
def mintNtfn {ε : Type} (srv : ServerRef) (ntfn : Slot) (identBit : Nat) : SProg ε Unit := do
  let server ← getServer srv
  onRes ((mintCap ntfn server.ntfn.1 .writeOnly (ntfnBadge identBit)).expect .mintCap)

/-- `UserNotificationDispatch::ntfn_register` on a server's dispatcher. -/
def dispatchNtfnRegister (srv : ServerRef) : Handler (Nat × Slot) := do
  let identBit ← (allocNtfnBit srv).catchErr fun _ => Prog.fail .insufficientResources
  let ntfn ← (onRes allocSlot).catchErr fun _ => do
    freeNtfnBit srv identBit
    Prog.fail .insufficientResources
  mintNtfn srv ntfn identBit
  modifyDispatch srv fun dispatch =>
    { dispatch with badgedNtfns := Function.update dispatch.badgedNtfns identBit (some ntfn) }
  pure (identBit, ntfn)

/-- `irq_control_get`. The private interrupts of a core must not fail. -/
def irqControlGet (cptr irq : Nat) : RProg Sel4Error Unit :=
  if 16 ≤ irq ∧ irq < 32 then
    (kcall fun k => k.irqControlGet cptr irq).expect .irqControl
  else if 32 ≤ irq ∧ irq < 1021 then
    (kcall fun k => k.irqControlGet cptr irq).catchErr fun _ => Prog.fail .invalidArgument
  else
    Prog.fail .invalidArgument

/-- `UserNotificationDispatch::irq_register`. -/
def irqRegister (srv : ServerRef) (irqNum : Nat) : Handler (Nat × Slot) := do
  let identBit ← (allocNtfnBit srv).catchErr fun _ => Prog.fail .insufficientResources
  let handler ← (onRes allocSlot).catchErr fun _ => do
    freeNtfnBit srv identBit
    Prog.fail .insufficientResources
  let ntfn ← (onRes allocSlot).catchErr fun _ => do
    onRes (freeSlot handler)
    freeNtfnBit srv identBit
    Prog.fail .insufficientResources
  (onRes (irqControlGet handler irqNum)).catchErr fun _ => do
    onRes (freeSlot ntfn)
    onRes (freeSlot handler)
    freeNtfnBit srv identBit
    Prog.fail .insufficientResources
  mintNtfn srv ntfn identBit
  (onRes (kcall fun k => k.irqHandlerSetNotification handler ntfn)).catchErr fun _ => do
    onRes (deleteCap ntfn)
    onRes (deleteCap handler)
    onRes (freeSlot ntfn)
    onRes (freeSlot handler)
    freeNtfnBit srv identBit
    Prog.fail .invalidArguments
  modifyDispatch srv fun dispatch =>
    { dispatch with
      badgedNtfns := Function.update dispatch.badgedNtfns identBit (some ntfn)
      irqHandlerCaps := Function.update dispatch.irqHandlerCaps identBit (some handler) }
  pure (identBit, handler)

structure IRQRegisterArgs where
  publishHndl : Nat
  irqNum : Nat

/-- `handle_irq_register`; whether the interrupt is edge-triggered is the kernel's business. -/
def handleIrqRegister (p : Nat) (args : IRQRegisterArgs) : Handler SMOSReply := do
  let publishHndl ← (getHandle p args.publishHndl).catchErr fun _ => Prog.fail (.invalidHandle 0)
  match ← publishHndl |> Prog.unwrap .unwrapNone with
  | .server srv =>
    let (badgeBit, irqHandler) ← irqRegister srv args.irqNum
    let idx ← allocateHandle p
    let irq ← newIrqRegistration ⟨args.irqNum, badgeBit⟩
    setHandle p idx (some (.irqRegistration irq))
    pure (.irqRegister idx irqHandler badgeBit)
  | _ => Prog.fail (.invalidHandle 0)

end Smos.RootServer
