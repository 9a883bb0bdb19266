/-
Smos.RootServer.Connections — connections, handle capabilities and channels.

A connection is a capability to the server's endpoint, badged with the
client's pid. It is minted with all rights. The server that registers a
connection is told when it goes away, and `handle_conn_register` marks it
registered before it asks for a handle.

A server can have its endpoint badged with a number of its choice, for
handle capabilities of its own; these are minted without rights, as the
root server's own handle capabilities are.
-/
import Smos.RootServer.Irq

namespace Smos.RootServer

open Smos.Base

/-- `INVOCATION_EP_BITS`. -/
def invocationEpBits : Nat := 0

/-- `FAULT_EP_BITS`. -/
def faultEpBits : Nat := 2 ^ 62

/-! ## Connections -/

/-- The connection of a client among those of its server. -/
def findConnection {ε : Type} (clientId : Pid) :
    List ConnectionRef → SProg ε (Option ConnectionRef)
  | [] => pure none
  | conn :: conns => do
    let connection ← getConnection conn
    if connection.id = clientId then pure (some conn) else findConnection clientId conns

structure ConnRegisterArgs where
  publishHndl : Nat
  clientId : Nat

def handleConnRegister (p : Nat) (args : ConnRegisterArgs) : Handler SMOSReply := do
  let publishHndl ← (getHandle p args.publishHndl).catchErr fun _ => Prog.fail (.invalidHandle 0)
  match ← publishHndl |> Prog.unwrap .unwrapNone with
  | .server srv =>
    let server ← getServer srv
    match ← findConnection args.clientId server.connections with
    | some conn =>
      modifyConnection conn fun connection => { connection with registered := true }
      let idx ← allocateHandle p
      setHandle p idx (some (.connRegistration conn))
      pure (.connRegister idx)
    | none => Prog.fail .invalidArguments
  | _ => Prog.fail (.invalidHandle 0)

def handleConnDeregister (p : Nat) (hndl : Nat) : Handler SMOSReply := do
  let connReg ← (getHandle p hndl).catchErr fun _ => Prog.fail (.invalidHandle 0)
  match ← connReg |> Prog.unwrap .unwrapNone with
  | .connRegistration conn =>
    modifyConnection conn fun connection => { connection with registered := false }
    (cleanupHandle p hndl).expect .unwrapNone
    pure .connDeregister
  | _ => Prog.fail (.invalidHandle 0)

def handleConnCreate (p : Nat) (name : String) : Handler SMOSReply := do
  let u ← getProc p
  let srv ← (← Prog.gets fun s => findServerWithName s name) |> Prog.okOr .invalidArguments
  let server ← getServer srv
  if server.pid = u.pid then
    Prog.fail .invalidArguments
  else
    let slot ← (onRes allocSlot).catchErr fun _ => Prog.fail .insufficientResources
    onRes ((mintCap slot server.unbadgedEp.1 .all (u.pid ||| invocationEpBits)).expect .mintCap)
    let conn ← newConnection ⟨u.pid, srv, slot, false⟩
    modifyServer srv fun server => { server with connections := server.connections ++ [conn] }
    let idx ← allocateHandle p
    setHandle p idx (some (.connection conn))
    pure (.connCreate idx slot)

def handleConnDestroy (p : Nat) (hndl : Nat) : Handler SMOSReply := do
  let connHndl ← (getHandle p hndl).catchErr fun _ => Prog.fail (.invalidHandle 0)
  match ← connHndl |> Prog.unwrap .unwrapNone with
  | .connection conn =>
    let connection ← getConnection conn
    onRes (revokeCap connection.badgedEp)
    if connection.registered then
      enqueueNtfnBufferMsg connection.server (.connDestroy connection.id)
    (cleanupHandle p hndl).expect .unwrapNone
    pure .connDestroy
  | _ => Prog.fail (.invalidHandle 0)

/-! ## Handle capabilities and channels -/

structure ServerHandleCapCreateArgs where
  publishHndl : Nat
  ident : Nat

def handleServerHandleCapCreate (p : Nat) (args : ServerHandleCapCreateArgs) :
    Handler SMOSReply := do
  let publishHndl ← (getHandle p args.publishHndl).catchErr fun _ => Prog.fail (.invalidHandle 0)
  match ← publishHndl |> Prog.unwrap .unwrapNone with
  | .server srv =>
    let server ← getServer srv
    let badgedCap ← (onRes allocSlot).catchErr fun _ => Prog.fail .insufficientResources
    (onRes (mintCap badgedCap server.unbadgedEp.1 .none args.ident)).catchErr fun _ => do
      onRes (freeSlot badgedCap)
      Prog.fail .insufficientResources
    let idx ← (allocateHandle p).catchErr fun e => do
      onRes (deleteCap badgedCap)
      onRes (freeSlot badgedCap)
      Prog.fail e
    setHandle p idx (some (.handleCap badgedCap))
    pure (.serverHandleCapCreate idx badgedCap)
  | _ => Prog.fail (.invalidHandle 0)

def handleServerCreateChannel (p : Nat) (publishHndl : Nat) : Handler SMOSReply := do
  let server ← (getHandle p publishHndl).catchErr fun _ => Prog.fail (.invalidHandle 0)
  match ← server |> Prog.unwrap .unwrapNone with
  | .server srv =>
    let idx ← allocateHandleCap
    let (bit, ntfn) ← dispatchNtfnRegister srv
    setHandleCap idx (some (.channelAuthority ntfn bit))
    modifyProc p fun u => { u with createdHandleCaps := u.createdHandleCaps ++ [idx] }
    pure (.serverCreateChannel bit idx)
  | _ => Prog.fail (.invalidHandle 0)

def handleChannelOpen (hndlCap : Nat) : Handler SMOSReply := do
  let channelAuth ← (getHandleCap hndlCap).catchErr fun _ =>
    Prog.fail (.invalidHandleCapability 0)
  match ← channelAuth |> Prog.unwrap .unwrapNone with
  | .channelAuthority ntfn _ => pure (.channelOpen ntfn)
  | _ => Prog.fail (.invalidHandleCapability 0)

/-- `handle_reply_create`. -/
def handleReplyCreate (p : Nat) : Handler SMOSReply := do
  let reply ← (onRes (allocRetype (.other .reply))).catchErr fun _ =>
    Prog.fail .insufficientResources
  let idx ← allocateHandle p
  setHandle p idx (some (.reply reply.1))
  pure (.replyCreate idx reply.1)

end Smos.RootServer
