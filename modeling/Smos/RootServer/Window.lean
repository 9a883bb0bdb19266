/-
Smos.RootServer.Window — windows of a process, and their registration.

`handle_window_register` binds a new view to the window whatever was bound
before. `handle_window_destroy_internal` takes a bound view out of its
object and cleans its cap table, but leaves `bound_view` and the view's
handle as they are.
-/
import Smos.RootServer.Handle

namespace Smos.RootServer

open Smos.Base

/-! ## The window list of a process -/

/-- The overlap test of `overlapping_window` on one window. -/
def overlaps {ε : Type} (start size : Nat) (w : Window) : SProg ε Bool := do
  -- `&&` and `||` only evaluate, and overflow, as far as they get
  let first ← if start ≥ w.start then do
      let wend ← addU w.start w.size
      pure (decide (start < wend))
    else pure false
  if first then
    pure true
  else
    let nend ← addU start size
    if nend > w.start then
      let wend ← addU w.start w.size
      pure (decide (nend < wend))
    else pure false

/-- `overlapping_window`. -/
def overlappingWindow {ε : Type} (start size : Nat) : List WindowRef → SProg ε (Option WindowRef)
  | [] => pure none
  | w :: ws => do
    if ← overlaps start size (← getWindow w) then pure (some w)
    else overlappingWindow start size ws

/-- The first window of a list that contains the address. -/
def findWindow {ε : Type} (vaddr : Nat) : List WindowRef → SProg ε (Option WindowRef)
  | [] => pure none
  | w :: ws => do
    let win ← getWindow w
    if vaddr ≥ win.start then
      let wend ← addU win.start win.size
      if vaddr < wend then pure (some w) else findWindow vaddr ws
    else findWindow vaddr ws

/-- `find_window_containing`. -/
def findWindowContaining {ε : Type} (p : Nat) (vaddr : Nat) : SProg ε (Option WindowRef) := do
  let u ← getProc p
  findWindow vaddr (u.initialWindows ++ u.windows)

/-- `add_window_unchecked`. -/
def addWindowUnchecked {ε : Type} (p : Nat) (w : WindowRef) : SProg ε Unit :=
  modifyProc p fun u => { u with windows := u.windows ++ [w] }

/-- `Vec::swap_remove`: the last element takes the place of the removed one. -/
def swapRemove (xs : List Nat) (pos : Nat) : List Nat :=
  match xs.getLast? with
  | some last => (xs.set pos last).dropLast
  | none => xs

/-- `remove_window`. -/
def removeWindow {ε : Type} (p : Nat) (w : WindowRef) : SProg ε Unit :=
  modifyProc p fun u =>
    match u.windows.findIdx? (· == w) with
    | some pos => { u with windows := swapRemove u.windows pos }
    | none => u

/-! ## Cap tables -/

/-- `cleanup_cap_table`. -/
def cleanupCapTable {ε : Type} (v : ViewRef) (delete : Bool) : SProg ε Unit := do
  let view ← getView v
  view.caps.root.forEach fun cap =>
    if delete then do
      onRes (deleteCap cap)
      onRes (freeSlot cap)
    else
      onRes (freeSlot cap)

/-! ## Notifications -/

def ntfnBufferCapacity : Nat := 64

/-- `enqueue_ntfn_buffer_msg(...).expect(...)`, on the server's ring, and the signal. -/
def enqueueNtfnBufferMsg {ε : Type} (srv : ServerRef) (msg : NotificationType) :
    SProg ε Unit := do
  let server ← getServer srv
  if server.ntfnBuffer.length < ntfnBufferCapacity then
    modifyServer srv fun server => { server with ntfnBuffer := server.ntfnBuffer ++ [msg] }
  else
    Prog.panic .notificationBufferFull

/-! ## Handlers -/

structure WindowCreateArgs where
  baseVaddr : Nat
  size : Nat
  returnCap : Bool

def handleWindowCreate (p : Nat) (args : WindowCreateArgs) : Handler SMOSReply := do
  if args.baseVaddr % pageSize4K ≠ 0 then
    Prog.fail (.alignmentError 0)
  else
    let u ← getProc p
    match ← overlappingWindow args.baseVaddr args.size u.windows with
    | some w =>
      -- the warning prints the end of both windows
      let win ← getWindow w
      let _ ← addU args.baseVaddr args.size
      let _ ← addU win.start win.size
      Prog.fail .invalidArguments
    | none =>
      let idx ← genericAllocateHandle p args.returnCap
      let w ← newWindow ⟨args.baseVaddr, args.size, none⟩
      setAllocatedHandle p args.returnCap idx (.window w)
      if args.returnCap then
        modifyProc p fun u => { u with createdHandleCaps := u.createdHandleCaps ++ [idx] }
      addWindowUnchecked p w
      pure (.windowCreate (newHandle args.returnCap idx))

structure WindowRegisterArgs where
  publishHndl : Nat
  windowHndl : Nat
  clientId : Nat
  reference : Nat

def handleWindowRegister (p : Nat) (args : WindowRegisterArgs) : Handler SMOSReply := do
  let publishHndl ← (getHandle p args.publishHndl).catchErr fun _ => Prog.fail (.invalidHandle 0)
  match ← publishHndl |> Prog.unwrap .unwrapNone with
  | .server srv =>
    let windowHandle ← (getHandleCap args.windowHndl).catchErr fun _ =>
      Prog.fail (.invalidHandleCapability 1)
    match ← windowHandle |> Prog.unwrap .unwrapNone with
    | .window w =>
      let idx ← allocateHandle p
      let v ← newView (View.new w none (some (srv, args.clientId, args.reference)) .all 0 0)
      modifyWindow w fun win => { win with boundView := some v }
      setHandle p idx (some (.windowRegistration v))
      pure (.windowRegister idx)
    | _ => Prog.fail (.invalidHandleCapability 0)
  | _ => Prog.fail (.invalidHandle 0)

def handleWindowDeregister (p : Nat) (hndl : Nat) : Handler SMOSReply := do
  let regHndl ← (getHandle p hndl).catchErr fun _ => Prog.fail (.invalidHandle 0)
  match ← regHndl |> Prog.unwrap .unwrapNone with
  | .windowRegistration v =>
    cleanupCapTable v true
    let view ← getView v
    modifyWindow view.boundWindow fun win => { win with boundView := none }
    let view ← getView v
    Prog.assert .boundObject view.boundObject.isNone
    (cleanupHandle p hndl).expect .unwrapNone
    pure .windowDeregister
  | _ => Prog.fail (.invalidHandle 0)

/-- Take a view out of its object's `associated_views`. -/
def dissociateView {ε : Type} (v : ViewRef) : SProg ε Unit := do
  let view ← getView v
  let o ← view.boundObject |> Prog.unwrap .boundObject
  let object ← getObject o
  let pos ← object.associatedViews.findIdx? (· == v) |> Prog.unwrap .viewPosition
  modifyObject o fun object =>
    { object with associatedViews := swapRemove object.associatedViews pos }

def handleWindowDestroyInternal {ε : Type} (w : WindowRef) (destroyView : Bool) :
    SProg ε Unit := do
  match (← getWindow w).boundView with
  | none => pure ()
  | some v =>
    let view ← getView v
    match view.managingServerInfo with
    | some (srv, clientId, reference) =>
      enqueueNtfnBufferMsg srv (.windowDestroy clientId reference)
    | none => pure ()
    if destroyView then
      dissociateView v
      cleanupCapTable v true

def handleWindowDestroy (p : Nat) (hndl : HandleArg) : Handler SMOSReply := do
  let handle ← genericGetHandle p hndl 0
  match ← handle |> Prog.unwrap .unwrapNone with
  | .window w =>
    handleWindowDestroyInternal w true
    removeWindow p w
    genericCleanupHandle p hndl 0
    pure .windowDestroy
  | _ => genericInvalidHandleError hndl 0

end Smos.RootServer
