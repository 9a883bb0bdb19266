/-
Smos.RootServer.Handle — handle tables and the handle capability table.

A client names a resource by an index into its own handle table or, with a
handle capability, by an index into the table all processes share.

`getHandle` and `cleanupHandle` test `idx > len`, so the index `len` gets
past the test and panics at the table itself. The handle capability table
tests `idx >= len`.
-/
import Smos.RootServer.State

namespace Smos.RootServer

open Smos.Base

/-- `ServerReceivedHandleOrHandleCap`. -/
inductive HandleArg where
  | handle (idx : Nat)
  | unwrappedHandleCap (idx : Nat)
  | wrappedHandleCap
  deriving DecidableEq, Repr

/-- `HandleOrHandleCap`, in a reply. -/
inductive HandleOrHandleCap where
  | handle (idx : Nat)
  | handleCap (idx : Nat)
  deriving DecidableEq, Repr

/-- `SMOSReply`. -/
inductive SMOSReply where
  | windowCreate (hndl : HandleOrHandleCap)
  | windowDestroy
  | windowRegister (hndl : Nat)
  | windowDeregister
  | objCreate (hndl : HandleOrHandleCap)
  | objDestroy
  | view (hndl : Nat)
  | unview
  | connPublish (hndl : Nat) (ep : Slot)
  | pageMap
  | loadComplete
  | objStat (size : Nat) (paddr : Option Nat)
  | connCreate (hndl : Nat) (ep : Slot)
  | connDestroy
  | connRegister (hndl : Nat)
  | connDeregister
  | serverHandleCapCreate (hndl : Nat) (cap : Slot)
  /-- The handle capability by its index in the table. -/
  | serverCreateChannel (bit : Nat) (hndlCap : Nat)
  | channelOpen (ntfn : Slot)
  | irqRegister (hndl : Nat) (irqHandler : Slot) (badgeBit : Nat)
  | processSpawn (hndl : Nat)
  | processWait
  | replyCreate (hndl : Nat) (reply : Slot)
  deriving DecidableEq, Repr

/-- `MAX_HANDLE_CAPS`. -/
def maxHandleCaps : Nat := 256

/-- `HandleAllocater::get_handle` and `get_handle_mut`. -/
def getHandle (p : Nat) (idx : Nat) : SProg Unit (Option RootServerResource) := do
  if idx > maxHandles then
    Prog.fail ()
  else if idx = maxHandles then
    Prog.panic .indexOutOfBounds
  else
    let u ← getProc p
    pure (u.handleTable idx)

/-- The first empty entry of a table. -/
def firstEmpty (t : HandleTable) (size : Nat) : Option Nat :=
  (List.range size).find? fun i => (t i).isNone

/-- `HandleAllocater::allocate_handle`. -/
def allocateHandle (p : Nat) : Handler Nat := do
  let u ← getProc p
  firstEmpty u.handleTable maxHandles |> Prog.okOr .outOfHandles

def setHandle {ε : Type} (p : Nat) (idx : Nat) (h : Option RootServerResource) : SProg ε Unit :=
  modifyProc p fun u => { u with handleTable := Function.update u.handleTable idx h }

/-- `HandleAllocater::cleanup_handle`. -/
def cleanupHandle (p : Nat) (idx : Nat) : SProg Unit Unit := do
  if idx > maxHandles then
    Prog.fail ()
  else if idx = maxHandles then
    Prog.panic .indexOutOfBounds
  else
    setHandle p idx none

/-- `HandleCapabilityTable::get_handle_cap_mut`. -/
def getHandleCap (idx : Nat) : SProg Unit (Option RootServerResource) := do
  if idx ≥ maxHandleCaps then
    Prog.fail ()
  else
    Prog.gets fun s => s.handleCaps idx

/-- `HandleCapabilityTable::allocate_handle_cap`. -/
def allocateHandleCap : Handler Nat := do
  let t ← Prog.gets State.handleCaps
  firstEmpty t maxHandleCaps |> Prog.okOr .outOfHandleCaps

def setHandleCap {ε : Type} (idx : Nat) (h : Option RootServerResource) : SProg ε Unit :=
  Prog.modify fun s => { s with handleCaps := Function.update s.handleCaps idx h }

/-- `HandleCapabilityTable::cleanup_handle_cap`; its revoke only removes the
badged endpoint capabilities that processes hold. -/
def cleanupHandleCap (idx : Nat) : SProg Unit Unit := do
  if idx ≥ maxHandleCaps then
    Prog.fail ()
  else
    setHandleCap idx none

/-- `generic_allocate_handle`. -/
def genericAllocateHandle (p : Nat) (returnCap : Bool) : Handler Nat :=
  if returnCap then allocateHandleCap else allocateHandle p

/-- `*handle_ref = Some(...)` on the entry `generic_allocate_handle` answered. -/
def setAllocatedHandle (p : Nat) (returnCap : Bool) (idx : Nat) (h : RootServerResource) :
    Handler Unit :=
  if returnCap then setHandleCap idx (some h) else setHandle p idx (some h)

/-- `generic_get_handle`. -/
def genericGetHandle (p : Nat) (hndl : HandleArg) (whichArg : Nat) :
    Handler (Option RootServerResource) :=
  match hndl with
  | .handle idx => (getHandle p idx).catchErr fun _ => Prog.fail (.invalidHandle whichArg)
  | .unwrappedHandleCap idx =>
    (getHandleCap idx).catchErr fun _ => Prog.fail (.invalidHandleCapability whichArg)
  | .wrappedHandleCap => Prog.panic .assertionFailed

/-- `generic_invalid_handle_error`. -/
def genericInvalidHandleError {α : Type} (hndl : HandleArg) (whichArg : Nat) : Handler α :=
  match hndl with
  | .handle _ => Prog.fail (.invalidHandle whichArg)
  | .unwrappedHandleCap _ => Prog.fail (.invalidHandleCapability whichArg)
  | .wrappedHandleCap => Prog.panic .assertionFailed

/-- `generic_cleanup_handle`. -/
def genericCleanupHandle (p : Nat) (hndl : HandleArg) (whichArg : Nat) : Handler Unit :=
  match hndl with
  | .handle idx => (cleanupHandle p idx).catchErr fun _ => Prog.fail (.invalidHandle whichArg)
  | .unwrappedHandleCap idx =>
    (cleanupHandleCap idx).catchErr fun _ => Prog.fail (.invalidHandleCapability whichArg)
  | .wrappedHandleCap => Prog.panic .assertionFailed

/-- How a new resource is answered. -/
def newHandle (returnCap : Bool) (idx : Nat) : HandleOrHandleCap :=
  if returnCap then .handleCap idx else .handle idx

/-! ## Where handles are -/

/-- A place a handle can be kept at. -/
inductive HandleLoc where
  | table (p : Nat) (idx : Nat)
  | cap (idx : Nat)
  deriving DecidableEq

/-- The resource a place holds. -/
def State.handleAt (s : State) : HandleLoc → Option RootServerResource
  | .table p idx =>
    match s.procCells p with
    | .activeProcess u => if idx < maxHandles then u.handleTable idx else none
    | .zombieProcess _ => none
  | .cap idx => if idx < maxHandleCaps then s.handleCaps idx else none

/-- The place a handle argument of process `p` names. -/
def HandleArg.loc (p : Nat) : HandleArg → Option HandleLoc
  | .handle idx => some (.table p idx)
  | .unwrappedHandleCap idx => some (.cap idx)
  | .wrappedHandleCap => none

end Smos.RootServer
