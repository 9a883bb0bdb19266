/-
Smos.RootServer.Connection — publishing a server.

Publishing makes the server's endpoint, a notification bound to its thread,
and a one-page window whose object holds the notification ring. The page
is taken from the frame table as it is; what is written there is up to the
library of the ring. A full handle table is noticed last, after all of this.
-/
import Smos.RootServer.Vm

namespace Smos.RootServer

open Smos.Base

structure ConnPublishArgs where
  name : String
  ntfnBuffer : Nat

/-- `find_server_with_name`. -/
def findServerWithName (s : State) (name : String) : Option ServerRef :=
  (s.published.find? fun e => e.1 == name).map Prod.snd

/-- `NTFN_BIT | BIT(ident_bit)`. -/
def ntfnBadge (identBit : Nat) : Nat := 2 ^ 63 ||| 2 ^ identBit

/-- `UserNotificationDispatch::ntfn_register` on a new dispatcher, whose first free bit is 0:
the badged notification the root server signals. -/
def ntfnRegister (ntfn : Slot) : RProg InvocationError Slot := do
  let slot ← allocSlot.catchErr fun _ => Prog.fail .insufficientResources
  (mintCap slot ntfn .writeOnly (ntfnBadge 0)).expect .mintCap
  pure slot

/-- `UserNotificationDispatch::destroy` with one badged notification. -/
def ntfnDispatchDestroy {ε : Type} (ntfn : Alloc) (rsBadged : Slot) : RProg ε Unit := do
  deleteCap rsBadged
  freeSlot rsBadged
  deallocRetyped ntfn

/-- The dispatcher of a new server: the bits that identify no notification and the first one
are taken, which the root server signals. -/
def NotificationDispatch.published (rsBadged : Slot) : NotificationDispatch where
  allocatedBits := [BitVec.twoPow 64 63 ||| 1]
  badgedNtfns := Function.update (fun _ => none) 0 (some rsBadged)
  irqHandlerCaps := fun _ => none

/-- The resources of a new server: endpoint, notification, badged notification, ring frame. -/
def publishResources (tcb : Slot) : RProg InvocationError (Alloc × Alloc × Slot × Nat) := do
  let ep ← (allocRetype (.other .endpoint)).catchErr fun _ => Prog.fail .insufficientResources
  let ntfn ← (allocRetype (.other .notification)).catchErr fun _ => do
    deallocRetyped ep
    Prog.fail .insufficientResources
  (kcall fun k => k.bindNotification tcb).catchErr fun _ => do
    deallocRetyped ntfn
    deallocRetyped ep
    Prog.fail .insufficientResources
  let rsBadged ← (ntfnRegister ntfn.1).catchErr fun _ => do
    kmodify fun k => k.unbindNotification tcb
    deallocRetyped ntfn
    deallocRetyped ep
    Prog.fail .insufficientResources
  let frameRef ← allocFrame.catchErr fun _ => do
    ntfnDispatchDestroy ntfn rsBadged
    kmodify fun k => k.unbindNotification tcb
    deallocRetyped ep
    deallocRetyped ntfn
    Prog.fail .insufficientResources
  pure (ep, ntfn, rsBadged, frameRef)

def handleConnPublish (p : Nat) (args : ConnPublishArgs) : Handler SMOSReply := do
  if (← Prog.gets fun s => findServerWithName s args.name).isSome then
    Prog.fail .invalidArguments
  else if args.ntfnBuffer % pageSize4K ≠ 0 then
    Prog.fail (.alignmentError 0)
  else if args.ntfnBuffer ≥ (← Prog.gets fun s => s.res.kernel.userTop) then
    Prog.fail .invalidArguments
  else
    let u ← getProc p
    match ← overlappingWindow args.ntfnBuffer pageSize4K u.windows with
    | some _ => Prog.fail .invalidArguments
    | none =>
      let (ep, ntfn, rsBadged, frameRef) ← onRes (publishResources u.tcb.1)
      let origFrameCap ← onRes (frameCap frameRef)
      let w ← newWindow ⟨args.ntfnBuffer, pageSize4K, none⟩
      let o ← newObject (.new pageSize4K .all .default)
      let v ← newView (View.new w (some o) none .all 0 0)
      modifyWindow w fun window => { window with boundView := some v }
      modifyObject o fun object =>
        { object with associatedViews := object.associatedViews ++ [v] }
      insertFrame o 0 ⟨origFrameCap, frameRef⟩
      addWindowUnchecked p w
      modifyProc p fun u => { u with views := u.views ++ [v] }
      let initRing ← Prog.gets State.initRing
      onRes (writeFrameData frameRef initRing)
      let idx ← allocateHandle p
      let srv ← newServer
        ⟨u.pid, ep, ntfn, rsBadged, v, frameRef, [], .published rsBadged, []⟩
      Prog.modify fun s => { s with published := s.published ++ [(args.name, srv)] }
      setHandle p idx (some (.server srv))
      pure (.connPublish idx ep.1)

end Smos.RootServer
