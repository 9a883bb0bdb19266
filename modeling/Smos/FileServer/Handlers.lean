/-
Smos.FileServer.Handlers — the boot file server's invocations and notifications.

An invocation comes from the client its badge names; a client that has not
opened the connection may do nothing else. A notification of the root
server names a client by its id, and a view by the index of the client's
handle for it: the file server trusts that it still knows both.

A view keeps the offsets and the size it was asked for. The page that a
fault is answered with is computed from them, with nothing of the file but
where its data starts.
-/
import Smos.FileServer.Basic
import Smos.RootServer.State

namespace Smos.FileServer

open Smos.Base
open Smos.RootServer (InvocationError CapRights NotificationType pageSize4K usizeBound)

/-- The invocations of the object server interface that are handled. -/
inductive Invocation where
  | connOpen (sharedBufObj : Option (HandleArg × Nat))
  | connClose
  | objOpen (name : String) (returnCap : Bool)
  | objClose (hndl : HandleArg)
  | objStat (hndl : HandleArg)
  | view (window object : HandleArg) (windowOffset objOffset size : Nat) (rights : CapRights)
  | unview (hndl : Nat)
  | other
  deriving DecidableEq, Repr

inductive Reply where
  | connOpen
  | connClose
  | objOpen (hndl : HandleOrHandleCap)
  | objClose
  | objStat (size : Nat)
  | view (hndl : Nat)
  | unview
  deriving DecidableEq, Repr

variable {ρ : Type} (env : Env ρ)

/-- `HandleCap::try_from`. -/
def HandleArg.toHandleCap : HandleArg → Option Nat
  | .wrappedHandleCap cap => some cap
  | _ => none

/-! ## Connections -/

/-- The end of every failure of `handle_conn_open`. -/
def failOpen {α : Type} (registrationHndl : Nat) (e : InvocationError) : Handler ρ α := do
  (call (env.connDeregister registrationHndl)).expect .callFailed
  Prog.fail e

/-- `window_allocator.free`. -/
def freeWindow {ε : Type} (allocation : Nat) : FsProg ρ ε Unit :=
  Prog.modify fun s => { s with root := env.free allocation s.root }

/-- `window_allocator.allocate(1)`. -/
def allocateWindow {ε : Type} : FsProg ρ ε (Option Nat) := fun s =>
  .ok (env.allocate s.root).1 { s with root := (env.allocate s.root).2 }

/-- Map a client's shared buffer. -/
def openSharedBuffer (registrationHndl : Nat) (object : HandleArg) (size : Nat) :
    Handler ρ SharedBuffer := do
  if size ≠ 4096 then
    failOpen env registrationHndl (.alignmentError 0)
  else
    match ← allocateWindow env with
    | none => failOpen env registrationHndl .insufficientResources
    | some index =>
      let address := sharedBufferBase + index * 4096
      let window ← (call (env.windowCreate address size)).catchErr fun e => do
        freeWindow env index
        failOpen env registrationHndl e
      -- this `?` leaves what has been made so far
      let cap ← object.toHandleCap |> Prog.okOr .invalidArguments
      let view ← (call (env.view window cap 0 0 4096 .all)).catchErr fun e => do
        (call (env.windowDestroy window)).expect .callFailed
        freeWindow env index
        failOpen env registrationHndl e
      pure ⟨address, size, window, view, index⟩

def handleConnOpen (id : Nat) (sharedBufObj : Option (HandleArg × Nat)) : Handler ρ Reply := do
  let slot ← (← Prog.gets findClientSlot) |> Prog.okOr .insufficientResources
  let registrationHndl ← call (env.connRegister id)
  let sharedBuffer ← match sharedBufObj with
    | some (object, size) => some <$> openSharedBuffer env registrationHndl object size
    | none => pure none
  setClient slot (some ⟨id, sharedBuffer, List.replicate maxHandles none, registrationHndl⟩)
  pure .connOpen

/-- Give back the window of a client's shared buffer. -/
def closeSharedBuffer {ε : Type} (client : Client) : FsProg ρ ε Unit :=
  match client.sharedBuffer with
  | none => pure ()
  | some buffer => do
    (call (env.unview buffer.view)).expect .callFailed
    (call (env.windowDestroy buffer.window)).expect .callFailed
    freeWindow env buffer.allocation

/-- `handle_conn_close`, which only prints a message about the handles that are left. -/
def handleConnClose (k : Nat) : Handler ρ Reply := do
  let client ← getClient k
  closeSharedBuffer env client
  (call (env.connDeregister client.connRegistrationHndl)).expect .callFailed
  setClient k none
  pure .connClose

/-! ## Objects -/

/-- The last file with the name. -/
def findFile (files : List File) (name : String) : Option File :=
  (files.filter fun f => f.name == name).getLast?

def handleObjOpen (k : Nat) (name : String) (returnCap : Bool) : Handler ρ Reply := do
  let file ← (← Prog.gets fun s => findFile s.files name) |> Prog.okOr .invalidArguments
  let idx ← genericAllocateHandle k returnCap
  let o ← newObject ⟨file, []⟩
  if returnCap then
    setHandleCap idx (some (.object o))
    pure (.objOpen (.handleCap idx))
  else
    setHandle k idx (some (.object o))
    pure (.objOpen (.handle idx))

/-- The object a handle argument names. -/
def getObjectHandle (k : Nat) (hndl : HandleArg) (whichArg : Nat)
    (otherwise : Handler ρ ObjectRef) : Handler ρ ObjectRef := do
  match ← (← genericGetHandle k hndl whichArg) |> Prog.unwrap .unwrapNone with
  | .object o => pure o
  | .view _ => otherwise

def handleObjStat (k : Nat) (hndl : HandleArg) : Handler ρ Reply := do
  let o ← getObjectHandle k hndl 0 (genericInvalidHandleError hndl 0)
  let object ← getObject o
  pure (.objStat object.file.length)

def handleObjClose (k : Nat) (hndl : HandleArg) : Handler ρ Reply := do
  let o ← getObjectHandle k hndl 0 (genericInvalidHandleError hndl 0)
  let object ← getObject o
  if object.associatedViews.isEmpty then
    (genericCleanupHandle k hndl 0).expect .callFailed
    pure .objClose
  else
    Prog.panic .notImplemented

/-! ## Views -/

def handleView (k : Nat) (window object : HandleArg) (windowOffset objOffset size : Nat)
    (rights : CapRights) : Handler ρ Reply := do
  let windowCap ← window.toHandleCap |> Prog.okOr .invalidArguments
  let o ← getObjectHandle k object 1 (Prog.fail .invalidArguments)
  let client ← getClient k
  let idx ← allocateHandle k
  let regHndl ← call (env.windowRegister windowCap client.id idx)
  let v ← newView ⟨o, size, windowOffset, objOffset, rights, regHndl⟩
  modifyObject o fun object => { object with associatedViews := object.associatedViews ++ [v] }
  setHandle k idx (some (.view v))
  pure (.view idx)

/-- `Vec::swap_remove`. -/
def swapRemove {α : Type} (xs : List α) (i : Nat) : List α :=
  match xs.getLast? with
  | some last => (xs.set i last).dropLast
  | none => []

/-- Take a view off the list of its object. -/
def removeFromObject {ε : Type} (v : ViewRef) : FsProg ρ ε Unit := do
  let view ← getView v
  let object ← getObject view.object
  let pos ← object.associatedViews.findIdx? (· == v) |> Prog.unwrap .unwrapNone
  modifyObject view.object fun object =>
    { object with associatedViews := swapRemove object.associatedViews pos }

def handleUnview (k idx : Nat) : Handler ρ Reply := do
  let hndl ← (getHandle k idx).catchErr fun _ => Prog.fail (.invalidHandle 0)
  match ← hndl |> Prog.unwrap .unwrapNone with
  | .view v =>
    let view ← getView v
    (call (env.windowDeregister view.registrationHndl)).expect .callFailed
    removeFromObject v
    setHandle k idx none
    pure .unview
  | .object _ => Prog.fail (.invalidHandle 0)

/-! ## Notifications -/

/-- The client a notification is about. -/
def notifiedClient {ε : Type} (clientId : Nat) : FsProg ρ ε Nat := do
  (← Prog.gets fun s => findClientFromId s clientId) |> Prog.unwrap .clientId

/-- The view a notification is about. -/
def notifiedView {ε : Type} (k reference : Nat) : FsProg ρ ε ViewRef := do
  let hndl ← (getHandle k reference).expect .handle
  match ← hndl |> Prog.unwrap .unwrapNone with
  | .view v => pure v
  | .object _ => Prog.panic .handleType

/-- The page that a fault at an offset is answered with. A fault next to the view is a `todo!()`,
but not one at its very end. -/
def contentVaddr {ε : Type} (v : ViewRef) (faultOffset : Nat) : FsProg ρ ε Nat := do
  let view ← getView v
  if faultOffset < view.winOffset then
    Prog.panic .notImplemented
  else
    let winEnd ← addU view.winOffset view.size
    if faultOffset > winEnd then
      Prog.panic .notImplemented
    else
      let pos := faultOffset - view.winOffset
      let object ← getObject view.object
      let offset ← addU pos view.objOffset
      -- `wrapping_add`
      pure ((object.file.data + offset) % usizeBound)

/-- `handle_vm_fault`. -/
def handleVmFault {ε : Type} (clientId reference faultOffset : Nat) : FsProg ρ ε Unit := do
  let k ← notifiedClient clientId
  let v ← notifiedView k reference
  let addr ← contentVaddr v faultOffset
  let view ← getView v
  (call (env.pageMap view.registrationHndl faultOffset addr)).expect .callFailed

/-- `handle_conn_destroy_ntfn`. -/
def handleConnDestroyNtfn {ε : Type} (connId : Nat) : FsProg ρ ε Unit := do
  let k ← notifiedClient connId
  let client ← getClient k
  if client.handles.any Option.isSome then
    Prog.panic .notImplemented
  else
    closeSharedBuffer env client
    setClient k none

/-- `handle_win_destroy_ntfn`. -/
def handleWinDestroyNtfn {ε : Type} (clientId reference : Nat) : FsProg ρ ε Unit := do
  let k ← notifiedClient clientId
  let v ← notifiedView k reference
  removeFromObject v
  setHandle k reference none

/-- One message of the loop in `handle_notification`. -/
def handleNotification {ε : Type} : NotificationType → FsProg ρ ε Unit
  | .vmFault clientId reference faultOffset => handleVmFault env clientId reference faultOffset
  | .connDestroy connId => handleConnDestroyNtfn env connId
  | .windowDestroy clientId reference => handleWinDestroyNtfn clientId reference

/-! ## The server loop -/

/-- The handler of an invocation with the badge `id`. -/
def handleInvocation (id : Nat) (inv : Invocation) : Handler ρ Reply := do
  match ← Prog.gets (findClientFromId · id), inv with
  | none, .connOpen sharedBufObj => handleConnOpen env id sharedBufObj
  | none, _ => Prog.panic .notImplemented
  | some _, .connOpen _ => Prog.panic .notImplemented
  | some k, .connClose => handleConnClose env k
  | some k, .objOpen name returnCap => handleObjOpen k name returnCap
  | some k, .objClose hndl => handleObjClose k hndl
  | some k, .objStat hndl => handleObjStat k hndl
  | some k, .view window object windowOffset objOffset size rights =>
    handleView env k window object windowOffset objOffset size rights
  | some k, .unview hndl => handleUnview env k hndl
  | some _, .other => Prog.panic .notImplemented

end Smos.FileServer
