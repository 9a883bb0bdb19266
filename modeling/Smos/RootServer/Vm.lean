/-
Smos.RootServer.Vm — page faults and `PageMap`.

Both handlers fill a view the same way: find the object's frame for the
page or allocate and clear one, copy its capability with all rights into a
new slot, and record the slot in the view's cap table. The object offset
is `obj_offset + (offset in window - win_offset)`; nothing here knows the
size that was accepted when the view was made.

A fault on a view without an object goes to the managing server, and the
view remembers it as its one pending fault. `handle_page_map` answers a
pending fault by mapping the page it was given, wherever that page is.
-/
import Smos.RootServer.Object
import Smos.RootServer.View

namespace Smos.RootServer

open Smos.Base

/-! ## Filling a view -/

/-- The capability of the object's frame at an offset, made on first use. -/
def objectFrameCap {ε : Type} (o : ObjectRef) (objOffset : Nat) : SProg ε Slot := do
  let object ← getObject o
  match object.lookupFrame objOffset with
  | some frame => pure frame.cap
  | none =>
    let frameRef ← onRes (allocFrame.expect .allocFrame)
    let origFrameCap ← onRes (frameCap frameRef)
    insertFrame o objOffset ⟨origFrameCap, frameRef⟩
    onRes (writeFrameData frameRef fillZero)
    pure origFrameCap

/-- `insert_cap_at(...).expect(...)`. -/
def insertCap {ε : Type} (v : ViewRef) (offset : Nat) (cap : Slot) : SProg ε Unit := do
  let view ← getView v
  match view.insertCapAt offset cap with
  | .ok view => modifyView v fun _ => view
  | .error _ => Prog.panic .insertCap

/-- Copy a frame capability into a new slot and record the slot in the view. -/
def copyIntoView {ε : Type} (v : ViewRef) (offset : Nat) (cap : Slot) : SProg ε Unit := do
  let slot ← onRes (allocSlot.expect .allocSlot)
  onRes ((copyCap slot cap .all).expect .copyCap)
  insertCap v offset slot

/-- Give an object-backed view the page of its object at a window offset. -/
def populate {ε : Type} (v : ViewRef) (o : ObjectRef) (offset : Nat) : SProg ε Unit := do
  let view ← getView v
  let delta ← subU offset view.winOffset
  let objOffset ← addU view.objOffset delta
  let cap ← objectFrameCap o objOffset
  copyIntoView v offset cap

/-- `map_frame(...).expect(...)` of the page a view has at an offset. -/
def mapViewPage {ε : Type} (v : ViewRef) (offset : Nat) (vspace : Slot) (addr : Nat) :
    SProg ε Unit := do
  let view ← getView v
  let cap ← view.lookupCap offset |> Prog.unwrap .unwrapNone
  onRes ((mapFrame cap vspace (roundDown addr) view.rights).expect .mapFrame)

/-! ## Handlers -/

/-- `forward_vm_fault`. -/
def forwardVmFault {ε : Type} (p : Nat) (v : ViewRef) (offset : Nat) (reply : Alloc)
    (addr : Nat) : SProg ε Unit := do
  let view ← getView v
  let (srv, clientId, reference) ← view.managingServerInfo |> Prog.unwrap .unwrapNone
  enqueueNtfnBufferMsg srv (.vmFault clientId reference offset)
  let u ← getProc p
  modifyView v fun view => { view with pendingFault := some ⟨reply, addr, u.vspace.1⟩ }

structure PageMapArgs where
  windowRegistrationHndl : Nat
  viewOffset : Nat
  contentVaddr : Nat

/-- Map the page at `viewOffset` for the faulter, and resume it. -/
def answerPendingFault {ε : Type} (v : ViewRef) (viewOffset : Nat) : SProg ε Unit := do
  match (← getView v).pendingFault with
  | none => pure ()
  | some pending =>
    mapViewPage v viewOffset pending.vspace pending.addr
    onRes (kmodify fun k => k.replySend pending.reply.1)
    onRes (deallocRetyped pending.reply)
    modifyView v fun view => { view with pendingFault := none }

def handlePageMap (p : Nat) (args : PageMapArgs) : Handler SMOSReply := do
  if args.viewOffset % pageSize4K ≠ 0 then
    Prog.fail (.alignmentError 1)
  else if args.contentVaddr % pageSize4K ≠ 0 then
    Prog.fail (.alignmentError 1)
  else
    let windowReg ← (getHandle p args.windowRegistrationHndl).catchErr fun _ =>
      Prog.fail (.invalidHandle 0)
    match ← windowReg |> Prog.unwrap .unwrapNone with
    | .windowRegistration dstView =>
      if ((← getView dstView).lookupCap args.viewOffset).isSome then
        Prog.panic .notImplemented
      else
        let srcWin ← (← findWindowContaining p args.contentVaddr) |> Prog.okOr .invalidArguments
        let srcWindow ← getWindow srcWin
        let srcOffset ← subU args.contentVaddr srcWindow.start
        let srcView ← srcWindow.boundView |> Prog.okOr .invalidArguments
        let view ← getView srcView
        if (view.lookupCap srcOffset).isNone then
          -- an unpopulated page of an external view is a `todo!()`
          let o ← view.boundObject |> Prog.unwrap .notImplemented
          populate srcView o srcOffset
        let srcCap ← (← getView srcView).lookupCap srcOffset |> Prog.unwrap .unwrapNone
        copyIntoView dstView args.viewOffset srcCap
        answerPendingFault dstView args.viewOffset
        pure .pageMap
    | _ => Prog.fail (.invalidHandle 0)

/-- `FaultReply::VMFault { resume }`. -/
structure FaultReply where
  resume : Bool
  deriving DecidableEq, Repr

def handleVmFault {ε : Type} (p : Nat) (reply : Alloc) (addr : Nat) :
    SProg ε (Option FaultReply) := do
  match ← findWindowContaining p addr with
  | none => pure (some ⟨false⟩)
  | some w =>
    let window ← getWindow w
    match window.boundView with
    | none => pure (some ⟨false⟩)
    | some v =>
      let faultOffset ← subU addr window.start
      let view ← getView v
      if (view.lookupCap faultOffset).isNone then
        match view.boundObject with
        | none =>
          forwardVmFault p v (roundDown faultOffset) reply addr
          pure none
        | some o =>
          populate v o faultOffset
          let u ← getProc p
          mapViewPage v faultOffset u.vspace.1 addr
          pure (some ⟨true⟩)
      else
        let u ← getProc p
        mapViewPage v faultOffset u.vspace.1 addr
        pure (some ⟨true⟩)

end Smos.RootServer
