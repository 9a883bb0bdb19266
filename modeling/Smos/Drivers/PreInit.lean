/-
Smos.Drivers.PreInit — the start-up loop of the sDDF components.

`sddf_driver_pre_init` receives, dispatches to the handlers that the
component gave it, and returns the clients when the component's check says
that it is done. The first free entry of the client table goes to whoever
opens a connection. A message that cannot be decoded is answered with
`continue`, past the check; a notification comes to the check without a
reply to send.
-/
import Smos.Drivers.Client

namespace Smos.Drivers

open Smos.Base
open Smos.RootServer (InvocationError HandleArg)
open Smos.Ipc (QueueType VirtType)

/-- What a connection of an sDDF component decodes. -/
inductive Invocation where
  | connOpen (sharedBufObj : Option (HandleArg × Nat))
  | connClose
  | channelRegisterBidirectional (channelHndlCap : Nat) (virtType : Option VirtType)
  | channelRegisterRecvOnly (channelHndlCap : Nat)
  | queueRegister (hndlCap size : Nat) (queueType : QueueType)
  | provideDataRegion (hndlCap size : Nat)
  | getDataRegion
  deriving DecidableEq, Repr

/-- What the loop can receive. -/
inductive Event where
  | fault (id : Nat)
  | notification
  /-- An invocation that is answered with an error by the decoder. -/
  | undecodable (id : Nat) (e : InvocationError)
  | invocation (id : Nat) (inv : Invocation)

/-- The handlers of a component, and its completion check. -/
structure Handlers where
  virtRegister : Option (Nat → Option VirtType → TurnProg Reply)
  queueRegister : Option (Nat → Nat → QueueType → TurnProg Reply)
  provideDataRegion : Option (Nat → Nat → TurnProg Reply)
  getDataRegion : Option (TurnProg Reply)
  checkDone : List (Option Client) → Bool

/-- The variables of the loop. -/
structure PreInit where
  component : Component
  clients : List (Option Client)
  virtReg : List VirtType
  replyMsgInfo : Option (Except InvocationError Reply)

/-- The loop's state when it begins. -/
def PreInit.start (n : Nat) (c : Component) : PreInit where
  component := c
  clients := List.replicate n none
  virtReg := []
  replyMsgInfo := none

abbrev PreInitProg (ε α : Type) := Prog SddfPanic PreInit ε α

/-- `find_client_from_id`. -/
def findClientFromId (id : Nat) (clients : List (Option Client)) : Option Nat :=
  clients.findIdx? fun client => client.map Client.id == some id

/-- `find_client_slot`. -/
def findClientSlot (clients : List (Option Client)) : Option Nat := clients.findIdx? Option.isNone

section Loop

variable (ans : Answers) (hs : Handlers)

/-- `handle_conn_open`. -/
def handleConnOpen (id : Nat) (sharedBufObj : Option (HandleArg × Nat)) :
    PreInitProg InvocationError Reply := do
  let slot ← (← Prog.gets fun s => findClientSlot s.clients) |> Prog.okOr .insufficientResources
  if sharedBufObj.isSome then
    Prog.fail .invalidArguments
  else
    let registrationHandle ← (connRegister ans id).zoom PreInit.component
      fun s c => { s with component := c }
    Prog.modify fun s =>
      { s with clients := s.clients.set slot (some (Client.new id registrationHandle)) }
    pure .connOpen

/-- Put a handler's work back into the loop's variables. -/
def PreInit.putTurn (s : PreInit) (k : Nat) (t : Turn) : PreInit :=
  { s with
    component := t.component
    clients := s.clients.set k (some t.client)
    virtReg := t.virtReg }

/-- Run a handler for the client in an entry. -/
def onClient (k : Nat) (m : TurnProg Reply) : PreInitProg InvocationError Reply := fun s =>
  match s.clients[k]? with
  | some (some client) =>
    match m ⟨s.component, client, s.virtReg⟩ with
    | .ok a t => .ok a (s.putTurn k t)
    | .err e t => .err e (s.putTurn k t)
    | .panic p => .panic p
  | _ => .panic .unwrapNone

/-- The handler for an invocation of a client that has opened its connection. -/
def Handlers.handler : Invocation → TurnProg Reply
  | .connOpen _ => Prog.panic .notImplemented
  | .channelRegisterBidirectional cap virtType =>
    match hs.virtRegister with
    | some h => h cap virtType
    | none => Prog.panic .notImplemented
  | .queueRegister cap size queueType =>
    match hs.queueRegister with
    | some h => h cap size queueType
    | none => Prog.panic .notImplemented
  | .provideDataRegion cap size =>
    match hs.provideDataRegion with
    | some h => h cap size
    | none => Prog.panic .notImplemented
  | .getDataRegion =>
    match hs.getDataRegion with
    | some h => h
    | none => Prog.panic .notImplemented
  | .connClose | .channelRegisterRecvOnly _ => Prog.panic .otherInvocation

/-- The result of an invocation. -/
def handle (id : Nat) (inv : Invocation) : PreInitProg InvocationError Reply := do
  match ← Prog.gets fun s => findClientFromId id s.clients, inv with
  | none, .connOpen sharedBufObj => handleConnOpen ans id sharedBufObj
  | none, _ => Prog.panic .notImplemented
  | some k, inv => onClient k (hs.handler inv)

variable {ε : Type}

/-- `smos_serv_cleanup`: the message that answers the result. -/
def setReply (reply : Option (Except InvocationError Reply)) : PreInitProg ε Unit :=
  Prog.modify fun s => { s with replyMsgInfo := reply }

/-- The check at the end of the loop's body: the last reply is sent, and the clients returned. -/
def finish : PreInitProg ε (Option (List (Option Client))) := do
  let s ← Prog.get
  if hs.checkDone s.clients then
    let _ ← s.replyMsgInfo |> Prog.unwrap .noReply
    pure (some s.clients)
  else
    pure none

/-- Take a message, and say whether the turn goes on to the check. -/
def receive : Event → PreInitProg ε Bool
  | .fault _ => Prog.panic .fault
  | .notification => do
    setReply none
    pure true
  | .undecodable _ e => do
    setReply (some (.error e))
    pure false
  | .invocation id inv => do
    let ret ← (handle ans hs id inv).attempt
    setReply (some ret)
    pure true

/-- One turn of the loop. It ends with the clients, or goes on. -/
def turn (ev : Event) : PreInitProg ε (Option (List (Option Client))) := do
  if ← receive ans hs ev then finish hs else pure none

/-- `sddf_driver_pre_init` on what it receives; it waits when it has received everything. -/
def sddfDriverPreInit : List Event → PreInitProg ε (Option (List (Option Client)))
  | [] => pure none
  | ev :: evs => do
    match ← turn ans hs ev with
    | some clients => pure (some clients)
    | none => sddfDriverPreInit evs

end Loop

end Smos.Drivers
