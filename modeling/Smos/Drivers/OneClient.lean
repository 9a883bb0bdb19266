/-
Smos.Drivers.OneClient — the timer driver and the Ethernet copier.

Both have a start-up loop of their own, `pre_init`, with one client in an
`Option`. Who sends an invocation only matters for the first one. A
notification or a fault comes to the check at the end of the loop, which
unwraps the client. The timer goes on in `sddf_event_loop_ppc`, where the
sender of an invocation is looked up in the table of channels.

The timer's client has a channel only; the copier's has two queues, a data
region and the flag besides. `notified` and `protected` are the data-plane's:
what `protected` answers is a parameter, and `notified` answers nothing.
-/
import Smos.Drivers.Components
import Smos.Drivers.Virtualizers

namespace Smos.Drivers

open Smos.Base
open Smos.RootServer (InvocationError HandleArg)
open Smos.Ipc (QueueType VirtType)

/-! ## The handlers -/

namespace Timer

def handleClientRegister (ans : Answers) (channelHndlCap : Nat) : TurnProg Reply := do
  let channel ← onComponent (NotificationChannel.openSendOnly ans channelHndlCap)
  modifyClient fun client => { client with channel := some channel }
  pure .channelRegisterRecvOnly

def handler (ans : Answers) : Invocation → TurnProg Reply
  | .channelRegisterRecvOnly cap => handleClientRegister ans cap
  | .connOpen _ => Prog.panic .notImplemented
  | _ => Prog.panic .otherInvocation

def done (client : Client) : Bool := client.channel.isSome

end Timer

namespace EthCopier

def cliFree : Nat := 0x2400000
def cliActive : Nat := 0x2600000
def cliDmaRcvRegion : Nat := 0x2800000
def clientQueueSize : Nat := 0x200000

def handleClientRegister := registerClient

def handleQueueRegister (ans : Answers) :=
  handleNetQueueRegister ans cliActive cliFree clientQueueSize

/-- The size is not the client's. -/
def handleProvideDataRegion (ans : Answers) (hndlCap _size : Nat) : TurnProg Reply := do
  let client ← Prog.gets Turn.client
  if (client.queue .active).isNone || (client.queue .free).isNone then
    Prog.fail .invalidArguments
  else
    let reply ← openData ans (fun _ => cliDmaRcvRegion) clientQueueSize hndlCap
    modifyClient fun client => { client with initialized := true }
    pure reply

def handler (ans : Answers) : Invocation → TurnProg Reply
  | .channelRegisterBidirectional cap virtType => handleClientRegister ans cap virtType
  | .queueRegister cap size queueType => handleQueueRegister ans cap size queueType
  | .provideDataRegion cap size => handleProvideDataRegion ans cap size
  | .connOpen _ => Prog.panic .notImplemented
  | _ => Prog.panic .otherInvocation

def done (client : Client) : Bool := client.initialized

end EthCopier

/-- The components with one client. -/
inductive OneClient where
  | timer
  | ethCopier
  deriving DecidableEq, Repr

namespace OneClient

def handler (ans : Answers) : OneClient → Invocation → TurnProg Reply
  | .timer => Timer.handler ans
  | .ethCopier => EthCopier.handler ans

def done : OneClient → Client → Bool
  | .timer => Timer.done
  | .ethCopier => EthCopier.done

/-! ## `pre_init` -/

/-- The variables of the loop. -/
structure State where
  component : Component
  client : Option Client
  replyMsgInfo : Option (Except InvocationError Reply)

def State.start (c : Component) : State := ⟨c, none, none⟩

abbrev StateProg (ε α : Type) := Prog SddfPanic State ε α

variable (ans : Answers) (m : OneClient)

/-- `handle_conn_open`. -/
def handleConnOpen (id : Nat) (sharedBufObj : Option (HandleArg × Nat)) :
    StateProg InvocationError Reply :=
  if sharedBufObj.isSome then
    Prog.fail .invalidArguments
  else do
    let registrationHandle ← (connRegister ans id).zoom State.component
      fun s c => { s with component := c }
    Prog.modify fun s => { s with client := some (Client.new id registrationHandle) }
    pure .connOpen

/-- Run a handler for the client: `client.as_mut().unwrap()`. -/
def onClient (h : TurnProg Reply) : StateProg InvocationError Reply := fun s =>
  match s.client with
  | some client =>
    match h ⟨s.component, client, []⟩ with
    | .ok a t => .ok a { s with component := t.component, client := some t.client }
    | .err e t => .err e { s with component := t.component, client := some t.client }
    | .panic p => .panic p
  | none => .panic .unwrapNone

/-- The result of an invocation. Its sender only matters while there is no client. -/
def handle (id : Nat) (inv : Invocation) : StateProg InvocationError Reply := do
  match ← Prog.gets State.client, inv with
  | none, .connOpen sharedBufObj => handleConnOpen ans id sharedBufObj
  | none, _ => Prog.panic .notImplemented
  | some _, inv => onClient (m.handler ans inv)

variable {ε : Type}

def setReply (reply : Option (Except InvocationError Reply)) : StateProg ε Unit :=
  Prog.modify fun s => { s with replyMsgInfo := reply }

/-- The check at the end of the loop's body. -/
def finish : StateProg ε (Option Client) := do
  let s ← Prog.get
  let client ← s.client |> Prog.unwrap .unwrapNone
  if m.done client then
    let _ ← s.replyMsgInfo |> Prog.unwrap .noReply
    pure (some client)
  else
    pure none

/-- One turn of the loop. It ends with the client, or goes on. -/
def turn : Event → StateProg ε (Option Client)
  | .fault _ | .notification => do
    setReply none
    m.finish
  | .undecodable _ e => do
    setReply (some (.error e))
    pure none
  | .invocation id inv => do
    let ret ← (m.handle ans id inv).attempt
    setReply (some ret)
    m.finish

/-- `pre_init` on what it receives. -/
def preInit : List Event → StateProg ε (Option Client)
  | [] => pure none
  | ev :: evs => do
    match ← m.turn ans ev with
    | some client => pure (some client)
    | none => preInit evs

end OneClient

/-! ## The event loop of the timer -/

/-- What the event loop can receive. -/
inductive PpcEvent (Msg : Type) where
  | notification (bits : List Nat)
  | invocation (id : Nat) (msg : Msg)
  | fault

section EventLoop

variable {Msg R : Type}

/-- `ppc_get_channel_id`: the index of a map, which panics without the key. -/
def ppcGetChannelId (b : Bindings) (ppcId : Nat) : Prog SddfPanic Unit Empty Nat :=
  b.ppcIds.lookup ppcId |> Prog.unwrap .unwrapNone

/-- One turn of `sddf_event_loop_ppc`: the next `reply_msg_info`. -/
def ppcTurn (b : Bindings) (protected_ : Nat → Msg → R) :
    PpcEvent Msg → Prog SddfPanic Unit Empty (Option R)
  | .notification _ => pure none
  | .invocation id msg => do
    let channel ← ppcGetChannelId b id
    pure (some (protected_ channel msg))
  | .fault => pure none

/-- `sddf_event_loop_ppc`: what is answered to each message. -/
def sddfEventLoopPpc (b : Bindings) (protected_ : Nat → Msg → R) :
    List (PpcEvent Msg) → Prog SddfPanic Unit Empty (List (Option R))
  | [] => pure []
  | ev :: evs => do
    let reply ← ppcTurn b protected_ ev
    let replies ← sddfEventLoopPpc b protected_ evs
    pure (reply :: replies)

end EventLoop

/-- The channels of the timer: its interrupt, and the client's under its sender id. -/
def Timer.setChannels (irqChannel : IrqChannel) (client : Client) : MainProg Bindings := do
  let b ← setChannel .empty irqChannel.bit none (.irq irqChannel)
  let channel ← client.channel |> Prog.unwrap .unwrapNone
  setChannel b 2 (some client.id) (.notificationSend channel)

end Smos.Drivers
