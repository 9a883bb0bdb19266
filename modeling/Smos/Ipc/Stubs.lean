/-
Smos.Ipc.Stubs — the client stubs, up to the call.

A stub writes its arguments to fixed registers of the IPC buffer, strings
to the shared data buffer, and the capabilities it sends to the capability
registers. It answers an error of its own when a string does not fit or no
buffer is set, and when a queue or a data region is not a handle
capability; then nothing is sent.

Two stubs are in this list that have no decoded counterpart of their own
name: `test_simple`, and `process_exit`, which does not return.
-/
import Smos.Ipc.Decode

namespace Smos.Ipc

open Smos.Base

/-- `HandleOrHandleCap`: an index, or the capability pointer of a handle capability. -/
inductive HandleOrHandleCap where
  | handle (idx : Word)
  | handleCap (cptr : Word)
  deriving DecidableEq, Repr

/-- A call of a stub, with its arguments. -/
inductive Request where
  | connCreate (slot : Word) (serverName : String)
  | connRegister (publishHndl id : Word)
  | irqRegister (publishHndl irqNum : Word) (edgeTriggered : Bool) (irqHandlerSlot : Word)
  | connDeregister (regHndl : Word)
  | connPublish (ntfnBuffer slot : Word) (name : String)
  | connDestroy (conn : Word)
  | testSimple (msg : Word)
  | windowCreate (baseVaddr size : Word) (returnCap : Option Word)
  | windowRegister (publishHndl windowHndlCap clientId reference : Word)
  | windowDeregister (winRegHndl : Word)
  | pageMap (winRegHndl viewOffset contentVaddr : Word)
  | windowDestroy (hndl : HandleOrHandleCap)
  | replyCreate (returnCap : Word)
  | serverHandleCapCreate (publishHndl ident returnSlot : Word)
  | processSpawn (executableName fsName : String) (prio : UInt8) (argv : Option (List String))
  | processWait (hndl : Word)
  | processExit
  | loadComplete (entryPoint sp : Word)
  | channelOpen (channelHndlCap ntfnSlot : Word)
  | serverChannelCreate (publishHndl channelSlot : Word)
  | connOpen (sharedBuf : Option (HandleOrHandleCap × Word))
  | connClose
  | objCreate (nameOpt : Option String) (size : Word) (rights : CapRights)
    (attributes : ObjAttributes) (returnCap : Option Word)
  | objOpen (name : String) (rights : CapRights) (returnCap : Option Word)
  | objClose (hndl : HandleOrHandleCap)
  | objDestroy (hndl : HandleOrHandleCap)
  | objStat (hndl : HandleOrHandleCap)
  | view (win obj : HandleOrHandleCap) (winOffset objOffset size : Word) (rights : CapRights)
  | unview (hndl : Word)
  | sddfChannelRegisterBidirectional (hndlCap : Word) (kind : Option VirtType) (recvSlot : Word)
  | sddfChannelRegisterRecvOnly (hndlCap : Word)
  | sddfQueueRegister (objHndlCap : HandleOrHandleCap) (size : Word) (kind : QueueType)
  | sddfGetDataRegion (slot : Word)
  | sddfDataRegionProvide (obj : HandleOrHandleCap) (size : Word)
  deriving DecidableEq, Repr

/-! ## What a client writes -/

/-- The buffers a stub writes to. -/
structure Client where
  ipc : IpcBuffer
  shared : Option (List UInt8)

abbrev Stub (α : Type) := Prog Panic Client InvocationError α

def msgReg (i : Fin 120) (x : Word) : Stub Unit :=
  Prog.modify fun c => { c with ipc := c.ipc.setReg i x }

def capReg (i : Fin 3) (cptr : Word) : Stub Unit :=
  Prog.modify fun c => { c with ipc := c.ipc.setCap i cptr }

def recvSlot (slot : Word) : Stub Unit :=
  Prog.modify fun c => { c with ipc := c.ipc.setRecvSlot slot }

/-- `if return_cap.is_some() { ipc_buf.set_recv_slot(..) }`. -/
def optRecvSlot : Option Word → Stub Unit
  | some slot => recvSlot slot
  | none => pure ()

/-- The buffer after strings are written from its start on. -/
def copyStrings : List String → List UInt8 → Except InvocationError (List UInt8)
  | [], buffer => .ok buffer
  | s :: ss, buffer => do
    let (written, rest) ← copyTerminatedRustString buffer s
    let rest ← copyStrings ss rest
    .ok (written ++ rest)

/-- Write strings to the shared buffer. -/
def writeStrings (ss : List String) : Stub Unit := do
  let buffer ← (← Prog.gets Client.shared) |> Prog.okOr .dataBufferNotSet
  match copyStrings ss buffer with
  | .ok buffer => Prog.modify fun c => { c with shared := some buffer }
  | .error e => Prog.fail e

/-- `bool as u64`. -/
def boolWord (b : Bool) : Word := if b then 1 else 0

/-- The stubs whose only argument is one handle of either kind. -/
def handleStub (label : SMOSInvocation) : HandleOrHandleCap → Stub MessageInfo
  | .handle idx => do
    msgReg 0 idx
    pure { label := label.label, length := 1 }
  | .handleCap cptr => do
    capReg 0 cptr
    pure { label := label.label, extraCaps := 1 }

/-- A handle argument of `view`, after `caps` capabilities. -/
def viewArg (reg : Fin 120) (caps : Fin 3) : HandleOrHandleCap → Stub (Fin 3)
  | .handle idx => do
    msgReg reg idx
    pure caps
  | .handleCap cptr => do
    capReg caps cptr
    msgReg reg (UInt64.ofNat (2 ^ 64 - 1))
    pure (caps + 1)

/-! ## Stubs -/

/-- The stub, up to `self.ep().call(msginfo)`. -/
def Request.stub : Request → Stub MessageInfo
  | .connCreate slot serverName => do
    writeStrings [serverName]
    recvSlot slot
    pure { label := SMOSInvocation.connCreate.label }
  | .connRegister publishHndl id => do
    msgReg 0 publishHndl
    msgReg 1 id
    pure { label := SMOSInvocation.connRegister.label, length := 2 }
  | .irqRegister publishHndl irqNum edgeTriggered irqHandlerSlot => do
    msgReg 0 publishHndl
    msgReg 1 irqNum
    msgReg 2 (boolWord edgeTriggered)
    recvSlot irqHandlerSlot
    pure { label := SMOSInvocation.irqRegister.label, length := 3 }
  | .connDeregister regHndl => do
    msgReg 0 regHndl
    pure { label := SMOSInvocation.connDeregister.label, length := 1 }
  | .connPublish ntfnBuffer slot name => do
    writeStrings [name]
    recvSlot slot
    msgReg 0 ntfnBuffer
    pure { label := SMOSInvocation.connPublish.label, length := 1 }
  | .connDestroy conn => do
    msgReg 0 conn
    pure { label := SMOSInvocation.connDestroy.label, length := 1 }
  | .testSimple msg => do
    msgReg 0 msg
    pure { label := SMOSInvocation.testSimple.label, length := 1 }
  | .windowCreate baseVaddr size returnCap => do
    msgReg 0 baseVaddr
    msgReg 1 size
    msgReg 2 (boolWord returnCap.isSome)
    optRecvSlot returnCap
    pure { label := SMOSInvocation.windowCreate.label, length := 3 }
  | .windowRegister publishHndl windowHndlCap clientId reference => do
    msgReg 0 publishHndl
    msgReg 1 clientId
    msgReg 2 reference
    capReg 0 windowHndlCap
    pure { label := SMOSInvocation.windowRegister.label, length := 3, extraCaps := 1 }
  | .windowDeregister winRegHndl => do
    msgReg 0 winRegHndl
    pure { label := SMOSInvocation.windowDeregister.label, length := 1 }
  | .pageMap winRegHndl viewOffset contentVaddr => do
    msgReg 0 winRegHndl
    msgReg 1 viewOffset
    msgReg 2 contentVaddr
    pure { label := SMOSInvocation.pageMap.label, length := 3 }
  | .windowDestroy hndl => handleStub .windowDestroy hndl
  | .replyCreate returnCap => do
    recvSlot returnCap
    pure { label := SMOSInvocation.replyCreate.label }
  | .serverHandleCapCreate publishHndl ident returnSlot => do
    recvSlot returnSlot
    msgReg 0 publishHndl
    msgReg 1 ident
    pure { label := SMOSInvocation.serverHandleCapCreate.label, length := 2 }
  | .processSpawn executableName fsName prio argv => do
    writeStrings (executableName :: fsName :: argv.getD [])
    msgReg 0 (UInt64.ofNat (argv.getD []).length)
    msgReg 1 prio.toUInt64
    pure { label := SMOSInvocation.procSpawn.label, length := 2 }
  | .processWait hndl => do
    msgReg 0 hndl
    pure { label := SMOSInvocation.procWait.label, length := 1 }
  | .processExit => pure { label := SMOSInvocation.procExit.label }
  | .loadComplete entryPoint sp => do
    msgReg 0 entryPoint
    msgReg 1 sp
    pure { label := SMOSInvocation.loadComplete.label, length := 2 }
  | .channelOpen channelHndlCap ntfnSlot => do
    recvSlot ntfnSlot
    capReg 0 channelHndlCap
    pure { label := SMOSInvocation.channelOpen.label, extraCaps := 1 }
  | .serverChannelCreate publishHndl channelSlot => do
    recvSlot channelSlot
    msgReg 0 publishHndl
    pure { label := SMOSInvocation.serverCreateChannel.label, length := 1 }
  | .connOpen none => pure { label := SMOSInvocation.connOpen.label }
  | .connOpen (some (.handle idx, size)) => do
    msgReg 0 idx
    msgReg 1 size
    pure { label := SMOSInvocation.connOpen.label, length := 2 }
  | .connOpen (some (.handleCap cptr, size)) => do
    capReg 0 cptr
    msgReg 1 size
    pure { label := SMOSInvocation.connOpen.label, length := 2, extraCaps := 1 }
  | .connClose => pure { label := SMOSInvocation.connClose.label }
  | .objCreate nameOpt size rights attributes returnCap => do
    msgReg 0 (boolWord nameOpt.isSome)
    match nameOpt with
    | some name => writeStrings [name]
    | none => pure ()
    msgReg 1 size
    msgReg 2 rights
    msgReg 3 attributes
    msgReg 4 (boolWord returnCap.isSome)
    optRecvSlot returnCap
    pure { label := SMOSInvocation.objCreate.label, length := 5 }
  | .objOpen name rights returnCap => do
    writeStrings [name]
    msgReg 0 rights
    msgReg 1 (boolWord returnCap.isSome)
    optRecvSlot returnCap
    pure { label := SMOSInvocation.objOpen.label, length := 3 }
  | .objClose hndl => handleStub .objClose hndl
  | .objDestroy hndl => handleStub .objDestroy hndl
  | .objStat hndl => handleStub .objStat hndl
  | .view win obj winOffset objOffset size rights => do
    let caps ← viewArg 0 0 win
    let caps ← viewArg 1 caps obj
    msgReg 2 winOffset
    msgReg 3 objOffset
    msgReg 4 size
    msgReg 5 rights
    pure { label := SMOSInvocation.view.label, length := 6, extraCaps := caps.castLE (by decide) }
  | .unview hndl => do
    msgReg 0 hndl
    pure { label := SMOSInvocation.unview.label, length := 1 }
  | .sddfChannelRegisterBidirectional hndlCap kind slot => do
    recvSlot slot
    match kind with
    | some kind => msgReg 0 kind.toWord
    | none => pure ()
    capReg 0 hndlCap
    pure { label := SMOSInvocation.sDDFChannelRegisterBidirectional.label,
           length := if kind.isSome then 1 else 0, extraCaps := 1 }
  | .sddfChannelRegisterRecvOnly hndlCap => do
    capReg 0 hndlCap
    pure { label := SMOSInvocation.sDDFChannelRegisterReceiveOnly.label, extraCaps := 1 }
  | .sddfQueueRegister objHndlCap size kind => do
    msgReg 0 size
    msgReg 1 kind.toWord
    match objHndlCap with
    | .handle _ => Prog.fail .invalidArguments
    | .handleCap cptr => capReg 0 cptr
    pure { label := SMOSInvocation.sDDFQueueRegister.label, length := 2, extraCaps := 1 }
  | .sddfGetDataRegion slot => do
    recvSlot slot
    pure { label := SMOSInvocation.sDDFGetDataRegion.label }
  | .sddfDataRegionProvide (.handle _) _ => Prog.fail .invalidArguments
  | .sddfDataRegionProvide (.handleCap cptr) size => do
    capReg 0 cptr
    msgReg 0 size
    pure { label := SMOSInvocation.sDDFProvideDataRegion.label, length := 1, extraCaps := 1 }

/-! ## Interfaces -/

/-- The traits that declare the stubs. -/
inductive Interface where
  | rootServer
  | nonRootServer
  | objectServer
  | sDDF
  deriving DecidableEq, Repr

/-- The trait a stub is declared in. -/
def Request.interface : Request → Interface
  | .connOpen _ | .connClose => .nonRootServer
  | .objCreate .. | .objOpen .. | .objClose _ | .objDestroy _ | .objStat _ | .view .. | .unview _ =>
    .objectServer
  | .sddfChannelRegisterBidirectional .. | .sddfChannelRegisterRecvOnly _ | .sddfQueueRegister ..
  | .sddfGetDataRegion _ | .sddfDataRegionProvide .. => .sDDF
  | _ => .rootServer

/-- The interfaces that a type of connection implements. -/
def ServerConnection.implements : ServerConnection → Interface → Bool
  | rootServer, i => i == .rootServer || i == .objectServer
  | objectServer, i => i == .nonRootServer || i == .objectServer
  | sDDF, i => i == .nonRootServer || i == .sDDF

end Smos.Ipc
