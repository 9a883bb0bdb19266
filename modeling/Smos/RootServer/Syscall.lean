/-
Smos.RootServer.Syscall — every invocation, and what a reply gives away.

`handle_syscall` runs the handler of an invocation. Most handlers answer;
`handle_process_wait` may leave the caller waiting, and after
`handle_process_exit` there is nobody to answer. An invocation that none of
the handlers takes is a `todo!()` and is left out here.

A reply can carry one capability. For a handle capability it is the one the
table has for the entry, otherwise the one in the slot the reply names.
-/
import Smos.RootServer.Machine
import Smos.RootServer.Spawn

namespace Smos.RootServer

open Smos.Base

/-- `SMOS_Invocation`, as far as `handle_syscall` has a handler, with the answers of the code
outside the repository. -/
inductive Invocation where
  | windowCreate (args : WindowCreateArgs)
  | windowDestroy (hndl : HandleArg)
  | windowRegister (args : WindowRegisterArgs)
  | windowDeregister (hndl : Nat)
  | irqRegister (args : IRQRegisterArgs)
  | connCreate (name : String)
  | connDestroy (hndl : Nat)
  | connPublish (args : ConnPublishArgs)
  | connRegister (args : ConnRegisterArgs)
  | connDeregister (hndl : Nat)
  | objCreate (args : ObjCreateArgs) (dmaAnswer : Option Nat)
  | objStat (hndl : HandleArg)
  | objDestroy (hndl : HandleArg)
  | view (args : ViewArgs)
  | unview (hndl : Nat)
  | replyCreate
  | serverHandleCapCreate (args : ServerHandleCapCreateArgs)
  | serverCreateChannel (publishHndl : Nat)
  | channelOpen (hndlCap : Nat)
  | pageMap (args : PageMapArgs)
  | loadComplete
  | processSpawn (args : ProcessSpawnArgs) (answers : StartAnswers)
  | processWait (hndl : Nat)
  | processExit (caps : Nat → Option Cap)

/-- What does not change while the root server runs: the slot of its endpoint, the image of the
loader and the capabilities of the handle capability table. -/
structure Setup where
  ep : Slot
  loader : Option Elf
  rootCap : Nat → Option Cap

/-- The handler of an invocation of the process in cell `p`. -/
def handleSyscall (setup : Setup) (p : Nat) : Invocation → Handler (Option SMOSReply)
  | .windowCreate args => some <$> handleWindowCreate p args
  | .windowDestroy hndl => some <$> handleWindowDestroy p hndl
  | .windowRegister args => some <$> handleWindowRegister p args
  | .windowDeregister hndl => some <$> handleWindowDeregister p hndl
  | .irqRegister args => some <$> handleIrqRegister p args
  | .connCreate name => some <$> handleConnCreate p name
  | .connDestroy hndl => some <$> handleConnDestroy p hndl
  | .connPublish args => some <$> handleConnPublish p args
  | .connRegister args => some <$> handleConnRegister p args
  | .connDeregister hndl => some <$> handleConnDeregister p hndl
  | .objCreate args dmaAnswer => some <$> handleObjCreate p args dmaAnswer
  | .objStat hndl => some <$> handleObjStat p hndl
  | .objDestroy hndl => some <$> handleObjDestroy p hndl
  | .view args => some <$> handleView p args
  | .unview hndl => some <$> handleUnview p hndl
  | .replyCreate => some <$> handleReplyCreate p
  | .serverHandleCapCreate args => some <$> handleServerHandleCapCreate p args
  | .serverCreateChannel publishHndl => some <$> handleServerCreateChannel p publishHndl
  | .channelOpen hndlCap => some <$> handleChannelOpen hndlCap
  | .pageMap args => some <$> handlePageMap p args
  | .loadComplete => some <$> handleLoadComplete p
  | .processSpawn args answers =>
    some <$> handleProcessSpawn setup.ep setup.loader p args answers
  | .processWait hndl => handleProcessWait p hndl
  | .processExit caps => do
    handleProcessExit p caps
    pure none

/-! ## Replies -/

/-- The entry of the handle capability table whose capability a reply carries. -/
def SMOSReply.handleCapIndex : SMOSReply → Option Nat
  | .windowCreate (.handleCap idx) | .objCreate (.handleCap idx)
  | .serverCreateChannel _ idx => some idx
  | _ => none

/-- The slot of any other capability a reply carries. -/
def SMOSReply.capSlot : SMOSReply → Option Slot
  | .connCreate _ slot | .connPublish _ slot | .serverHandleCapCreate _ slot | .channelOpen slot
  | .irqRegister _ slot _ | .replyCreate _ slot => some slot
  | _ => none

/-- The capability the kernel copies to the caller with a reply. -/
def replyCap (setup : Setup) (k : Kernel) (r : SMOSReply) : Option Cap :=
  match r.handleCapIndex with
  | some idx => setup.rootCap idx
  | none => r.capSlot.bind k.caps

/-- `handle_reply`, which has no arm for `ProcessWait`. -/
def handleReply {ε : Type} : SMOSReply → SProg ε Unit
  | .processWait => replyProcessWait
  | _ => pure ()

/-- The caller's thread goes on waiting when the invocation has no reply. -/
def Invocation.waits : Invocation → Bool
  | .processWait _ => true
  | _ => false

/-- One turn of `syscall_loop`: the reply, if there is one. -/
def syscallTurn (setup : Setup) (pid : Pid) (inv : Invocation) : Handler (Option SMOSReply) := do
  let p ← procCell pid
  let reply ← Prog.gets State.reply
  match ← handleSyscall setup p inv with
  | some r =>
    handleReply r
    pure (some r)
  | none =>
    onRes (kmodify fun k => if inv.waits then k.block reply.1 pid else k)
    renewReply
    pure none

end Smos.RootServer
