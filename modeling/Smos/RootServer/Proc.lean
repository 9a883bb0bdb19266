/-
Smos.RootServer.Proc — loading is complete, and a process exits.

`handle_load_complete` frees the frames of the loader's initial windows and
the slots of their views; it relies on the revoke of `cleanup_frame_table`
to have removed the capabilities.

`destroy` walks the handle table in index order. A window gives notice to a
managing server, an object is destroyed with force, a view is removed; any
other resource is a `todo!()`. Then the process's own objects go, and last
its cspace: `UserCSpace::destroy` panics at the first slot past the CNode, so
no process ever gets to the end of its exit.
-/
import Smos.RootServer.UserCSpace
import Smos.RootServer.Vm

namespace Smos.RootServer

open Smos.Base

/-- One initial window of `handle_load_complete`. -/
def unloadWindow {ε : Type} (w : WindowRef) : SProg ε Unit := do
  let v ← (← getWindow w).boundView |> Prog.unwrap .unwrapNone
  let o ← (← getView v).boundObject |> Prog.unwrap .unwrapNone
  cleanupFrameTable o
  cleanupCapTable v false

/-- `handle_load_complete`; starting the thread again changes nothing here. -/
def handleLoadComplete (p : Nat) : Handler SMOSReply := do
  let u ← getProc p
  Prog.forEach unloadWindow u.initialWindows
  modifyProc p fun u => { u with initialWindows := [] }
  pure .loadComplete

/-- What `destroy` does with one handle. -/
def destroyResource {ε : Type} : RootServerResource → SProg ε Unit
  | .window w => handleWindowDestroyInternal w false
  | .object o => handleObjDestroyInternal o true
  | .view v => handleUnviewInternal v
  | _ => Prog.panic .notImplemented

/-- One entry of the handle table. -/
def destroyHandle {ε : Type} (t : HandleTable) (idx : Nat) : SProg ε Unit :=
  match t idx with
  | none => pure ()
  | some h => destroyResource h

-- not to be run by a definitional unfolding: there are 128 slots before the panic
/-- The deletions of `UserCSpace::destroy`, in a CNode made by `UserCSpace::new` that holds what
the process has put into it. -/
@[irreducible] def deleteUserSlots {ε : Type} (caps : Nat → Option Cap) : RProg ε Unit :=
  Prog.zoom (fun _ => UserSlots.newCnode caps) (fun r _ => r)
    (UserSlots.destroy.expect .assertionFailed)

/-- `UserCSpace::destroy`. -/
def userCSpaceDestroy {ε : Type} (cs : UserCSpace) (caps : Nat → Option Cap) : RProg ε Unit := do
  deleteUserSlots caps
  utFree cs.untyped
  deleteCap cs.rootCnode

/-- The process's own objects, at the end of `destroy`. -/
def destroyResources {ε : Type} (u : UserProcess) (caps : Nat → Option Cap) : RProg ε Unit := do
  deallocRetyped u.schedContext
  deallocRetyped u.tcb
  deallocRetyped u.vspace
  deleteCap u.ipcBuffer.1
  freeFrame u.ipcBuffer.2
  deleteCap u.sharedBuffer.1
  freeFrame u.sharedBuffer.2
  deleteCap u.faultEp
  userCSpaceDestroy u.cspace caps

/-- `UserProcess::destroy`. -/
def destroy {ε : Type} (p : Nat) (caps : Nat → Option Cap) : SProg ε Unit := do
  let u ← getProc p
  Prog.forEach (destroyHandle u.handleTable) (List.range maxHandles)
  modifyProc p fun u => { u with handleTable := fun _ => none }
  onRes (destroyResources u caps)

def newProcCell {ε : Type} (x : ProcessType) : SProg ε Nat := fun s =>
  .ok s.procCells.next { s with procCells := s.procCells.alloc x }

/-- `procs_set`. -/
def procsSet {ε : Type} (pid : Pid) (cell : Option Nat) : SProg ε Unit :=
  if pid < maxProcs then
    Prog.modify fun s => { s with procs := Function.update s.procs pid cell }
  else
    Prog.panic .assertionFailed

/-- The reply to a waiter: `handle_reply` has no arm for `ProcessWait`. -/
def replyProcessWait {ε : Type} : SProg ε Unit := Prog.panic .replyNotHandled

/-- `handle_process_exit`. -/
def handleProcessExit {ε : Type} (p : Nat) (caps : Nat → Option Cap) : SProg ε Unit := do
  destroy p caps
  let u ← getProc p
  match u.waiter with
  | some waiter =>
    replyProcessWait
    onRes (kmodify fun k => k.replySend waiter.1)
    onRes (deallocRetyped waiter)
    procsSet u.pid none
  | none =>
    let cell ← newProcCell (.zombieProcess u.pid)
    procsSet u.pid (some cell)

/-- `handle_process_wait`; a process has no second reference to itself to wait with. -/
def handleProcessWait (p : Nat) (hndl : Nat) : Handler (Option SMOSReply) := do
  let waitProc ← (getHandle p hndl).catchErr fun _ => Prog.fail (.invalidHandle 0)
  match ← waitProc |> Prog.unwrap .unwrapNone with
  | .process proc =>
    if proc = p then
      Prog.panic .alreadyBorrowed
    else
      match (← Prog.gets State.procCells) proc with
      | .activeProcess _ =>
        let reply ← Prog.gets State.reply
        modifyProc proc fun u => { u with waiter := some reply }
        pure none
      | .zombieProcess pid =>
        procsSet pid none
        pure (some .processWait)
  | _ => Prog.fail (.invalidHandle 0)

end Smos.RootServer
