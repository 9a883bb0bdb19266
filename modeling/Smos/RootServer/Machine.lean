/-
Smos.RootServer.Machine — the root server as a transition system.

An operation is one turn of `syscall_loop`: an invocation or a page fault
of some process, with the answers of the code outside the repository that
the turn asks for. `exec` runs its handler; a handler's error is reported
to the caller and the state it left is kept, so `next` exists unless the
root server panics. `takeNotification` is a server reading its ring and
`userWrite` a process writing its own memory; neither involves the root
server.

A thread that waits for a reply does nothing, which is what `enabled`
says. Runs start with any number of loaded processes and nothing else. No
turn here loads another one: a start that fails gives back a slot which is
not its own, and then nothing that is said here about slots need hold. Every
other invocation is a turn (`syscallTurn_exec`).
-/
import Smos.Base.Run
import Smos.RootServer.Connections
import Smos.RootServer.Proc

namespace Smos.RootServer

open Smos.Base

/-- The invocations that are not about memory, and end nothing that others hold. -/
inductive RegistryInvocation where
  | irqRegister (args : IRQRegisterArgs)
  | connCreate (name : String)
  | connRegister (args : ConnRegisterArgs)
  | connDeregister (hndl : Nat)
  | objStat (hndl : HandleArg)
  | replyCreate
  | serverHandleCapCreate (args : ServerHandleCapCreateArgs)
  | serverCreateChannel (publishHndl : Nat)
  | channelOpen (hndlCap : Nat)

/-- The handler of such an invocation of the process in cell `p`. -/
def handleRegistry (p : Nat) : RegistryInvocation → Handler SMOSReply
  | .irqRegister args => handleIrqRegister p args
  | .connCreate name => handleConnCreate p name
  | .connRegister args => handleConnRegister p args
  | .connDeregister hndl => handleConnDeregister p hndl
  | .objStat hndl => handleObjStat p hndl
  | .replyCreate => handleReplyCreate p
  | .serverHandleCapCreate args => handleServerHandleCapCreate p args
  | .serverCreateChannel publishHndl => handleServerCreateChannel p publishHndl
  | .channelOpen hndlCap => handleChannelOpen hndlCap

inductive Op where
  | windowCreate (pid : Pid) (args : WindowCreateArgs)
  | windowDestroy (pid : Pid) (hndl : HandleArg)
  | windowRegister (pid : Pid) (args : WindowRegisterArgs)
  | windowDeregister (pid : Pid) (hndl : Nat)
  | objCreate (pid : Pid) (args : ObjCreateArgs) (dmaAnswer : Option Nat)
  | objDestroy (pid : Pid) (hndl : HandleArg)
  | view (pid : Pid) (args : ViewArgs)
  | unview (pid : Pid) (hndl : Nat)
  | connPublish (pid : Pid) (args : ConnPublishArgs)
  | pageMap (pid : Pid) (args : PageMapArgs)
  | loadComplete (pid : Pid)
  | registry (pid : Pid) (inv : RegistryInvocation)
  | connDestroy (pid : Pid) (hndl : Nat)
  | processWait (pid : Pid) (hndl : Nat)
  | vmFault (pid : Pid) (addr : Nat)
  | processExit (pid : Pid) (caps : Nat → Option Cap)
  | takeNotification (srv : ServerRef)
  | userWrite (pid : Pid) (vaddr : Nat) (byte : Nat)

/-- The process an operation is of. -/
def Op.pid : Op → Option Pid
  | .windowCreate pid _ | .windowDestroy pid _ | .windowRegister pid _ | .windowDeregister pid _
  | .objCreate pid _ _ | .objDestroy pid _ | .view pid _ | .unview pid _ | .connPublish pid _
  | .pageMap pid _ | .loadComplete pid | .registry pid _ | .connDestroy pid _
  | .processWait pid _ | .vmFault pid _ | .processExit pid _ | .userWrite pid _ _ => some pid
  | .takeNotification _ => none

/-- The cell of the process that invoked or faulted; its badge is its pid. -/
def procCell {ε : Type} (pid : Pid) : SProg ε Nat := do
  Prog.assert .assertionFailed (pid < maxProcs)
  let p ← (← Prog.gets fun s => s.procs pid) |> Prog.unwrap .unwrapNone
  let _ ← getProc p
  pure p

/-- `syscall_loop` gets itself a new reply object. -/
def renewReply {ε : Type} : SProg ε Unit := do
  let reply ← onRes ((allocRetype (.other .reply)).expect .syscallLoop)
  Prog.modify fun s => { s with reply := reply }

/-- A page fault: the faulter blocks on the current reply object, and is
resumed with it or left for later. -/
def faultTurn {ε : Type} (pid : Pid) (addr : Nat) : SProg ε Unit := do
  let p ← procCell pid
  let reply ← Prog.gets State.reply
  onRes (kmodify fun k => k.block reply.1 pid)
  match ← handleVmFault p reply addr with
  | some ⟨true⟩ => onRes (kmodify fun k => k.replySend reply.1)
  | _ => renewReply

/-- The caller waits on the current reply object; if the other process has ended already, there
is a reply, which `handle_reply` does not know. -/
def waitTurn (pid : Pid) (hndl : Nat) : Handler Unit := do
  let p ← procCell pid
  let reply ← Prog.gets State.reply
  match ← handleProcessWait p hndl with
  | some _ => replyProcessWait
  | none =>
    onRes (kmodify fun k => k.block reply.1 pid)
    renewReply

/-- The byte a process writes goes to the frame mapped there, if it may write it. -/
def Kernel.userWrite (k : Kernel) (vspace : Slot) (vaddr byte : Nat) : Kernel :=
  match k.caps vspace with
  | some (.vspace vs) =>
    match k.pages vs (roundDown vaddr) with
    | some e =>
      if e.access.write then
        k.writeMem e.obj (Function.update (k.mem e.obj) (vaddr % pageSize4K) byte)
      else k
    | none => k
  | _ => k

/-- Run a handler for a process and drop its reply. -/
def invoke {α : Type} (pid : Pid) (handler : Nat → Handler α) : Handler Unit := do
  let p ← procCell pid
  let _ ← handler p
  pure ()

/-- One turn. -/
def exec : Op → Handler Unit
  | .windowCreate pid args => invoke pid fun p => handleWindowCreate p args
  | .windowDestroy pid hndl => invoke pid fun p => handleWindowDestroy p hndl
  | .windowRegister pid args => invoke pid fun p => handleWindowRegister p args
  | .windowDeregister pid hndl => invoke pid fun p => handleWindowDeregister p hndl
  | .objCreate pid args dmaAnswer => invoke pid fun p => handleObjCreate p args dmaAnswer
  | .objDestroy pid hndl => invoke pid fun p => handleObjDestroy p hndl
  | .view pid args => invoke pid fun p => handleView p args
  | .unview pid hndl => invoke pid fun p => handleUnview p hndl
  | .connPublish pid args => invoke pid fun p => handleConnPublish p args
  | .pageMap pid args => invoke pid fun p => handlePageMap p args
  | .loadComplete pid => invoke pid handleLoadComplete
  | .registry pid inv => invoke pid fun p => handleRegistry p inv
  | .connDestroy pid hndl => invoke pid fun p => handleConnDestroy p hndl
  | .processWait pid hndl => waitTurn pid hndl
  | .vmFault pid addr => faultTurn pid addr
  | .processExit pid caps => do
    let p ← procCell pid
    handleProcessExit p caps
    renewReply
  | .takeNotification srv => modifyServer srv fun server =>
      { server with ntfnBuffer := server.ntfnBuffer.tail }
  | .userWrite pid vaddr byte => do
    let p ← procCell pid
    let u ← getProc p
    onRes (kmodify fun k => k.userWrite u.vspace.1 vaddr byte)

/-- The process is not waiting for a reply. -/
def Op.enabled (s : State) (op : Op) : Bool :=
  match op.pid with
  | some pid => !s.res.kernel.blocked pid
  | none => true

/-- The state after a turn; there is none after a panic. -/
def next (s : State) (op : Op) : Option State :=
  if op.enabled s then
    match exec op s with
    | .ok _ s' => some s'
    | .err _ s' => some s'
    | .panic _ => none
  else none

/-- What `exec` guarantees is so of `next`. -/
theorem next_of_wp {s s' : State} {op : Op} {Q : State → Prop} {P : Panic → Prop}
    (h : (exec op).wp (fun _ => Q) (fun _ => Q) P s) (hn : next s op = some s') : Q s' := by
  unfold next at hn
  split at hn
  · split at hn
    · rename_i hs
      cases hn
      exact Prog.wp_ok h hs
    · rename_i hs
      cases hn
      exact Prog.wp_err h hs
    · cases hn
  · cases hn

end Smos.RootServer
