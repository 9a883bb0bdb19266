/-
Smos.Sddf.Channel — the handshake that makes a bidirectional channel.

A client takes a bit of its own dispatcher and sends the handle capability
for it to the server. The server opens the client's channel with it, takes
a bit of its own, records both as the channel to this client and answers
its own handle capability, with which the client opens the server's side.

The system runs any number of handshakes. Each step is one invocation of
the root server, with the handlers as they are; a step that fails ends its
handshake and undoes nothing. A client waits for each of its calls, so it
is in one handshake at a time.

The kernel hands over a handle capability as the index of its entry, and
the notification that `channel_open` answers as a copy of the capability.
-/
import Smos.Base.Run
import Smos.RootServer.Badges
import Smos.RootServer.Connections

namespace Smos.Sddf

open Smos.Base Smos.RootServer
open Smos.Ipc (decodeEntryType ntfnWord ntfnWordBits)

/-- `VirtType`. -/
inductive VirtType where
  | tx
  | rx
  deriving DecidableEq, Repr

/-- `NotificationChannel`, with the capability that `to_channel` holds. -/
structure NotificationChannel where
  fromBit : Nat
  fromHndlCap : Nat
  toChannel : Option Cap
  deriving DecidableEq

/-! ## The servers -/

/-- The handler a server has for the registration of a channel. -/
inductive RegisterHandler where
  /-- `handle_client_register` of the virtualizers and the copier. -/
  | client
  /-- `handle_virt_register` of the block driver. -/
  | blkDriver
  /-- `handle_virt_register` of the serial driver. -/
  | serialDriver
  deriving DecidableEq, Repr

/-- `VirtRegistration`: the virtualizers that have registered. -/
abbrev VirtRegistration := List VirtType

/-- The checks before the channel is opened. -/
def RegisterHandler.accepts (status : VirtRegistration) (virtType : Option VirtType) :
    RegisterHandler → Bool
  | .client => virtType.isNone
  | .blkDriver => true
  | .serialDriver =>
    match virtType with
    | none => false
    | some t => !status.contains t

/-- `virt_reg_status` after the channel was recorded. -/
def RegisterHandler.register (status : VirtRegistration) (virtType : Option VirtType) :
    RegisterHandler → VirtRegistration
  | .serialDriver => virtType.toList ++ status
  | _ => status

/-- The processes: the handle each published its server with, and how it handles a registration.
A process is named by its cell. -/
structure Parties where
  publishHndl : Nat → Nat
  handler : Nat → RegisterHandler

/-! ## The system -/

/-- How far a handshake has come. -/
inductive Stage where
  /-- The client has taken its bit and calls the server. -/
  | created (bit hndlCap : Nat) (virtType : Option VirtType)
  /-- The server has opened the client's channel. -/
  | opened (bit hndlCap : Nat) (virtType : Option VirtType) (toChannel : Option Cap)
  /-- The server has recorded the channel and answered its handle capability. -/
  | answered (bit hndlCap toHndlCap : Nat)

/-- The bit that the client has taken. -/
def Stage.fromBit : Stage → Nat
  | .created bit _ _ | .opened bit _ _ _ | .answered bit _ _ => bit

structure Handshake where
  server : Nat
  stage : Stage

structure System where
  root : State
  /-- The handshake a client is in. -/
  running : Nat → Option Handshake
  /-- The channels a client's completed handshakes returned, with their servers. -/
  channels : Nat → List (Nat × NotificationChannel)
  /-- `client.channel` of a server's entry for a client. -/
  recorded : Nat → Nat → Option NotificationChannel
  status : Nat → VirtRegistration

inductive Op where
  /-- The client's `server_channel_create`. -/
  | create (client server : Nat) (virtType : Option VirtType)
  /-- The server's checks and its `channel_open`. -/
  | openClient (client : Nat)
  /-- The server's `server_channel_create` and its record. -/
  | record (client : Nat)
  /-- The client's `channel_open`. -/
  | complete (client : Nat)
  /-- Anything else that ends a handshake: no slot is free, a call is not answered. -/
  | fail (client : Nat)
  deriving DecidableEq

namespace System

def setRunning (sys : System) (client : Nat) (h : Option Handshake) : System :=
  { sys with running := Function.update sys.running client h }

def setStage (sys : System) (client server : Nat) (stage : Stage) : System :=
  sys.setRunning client (some ⟨server, stage⟩)

/-- Invoke the root server for the handshake of a client; an error ends the handshake. -/
def invoke (sys : System) (client : Nat) (m : Handler SMOSReply)
    (after : SMOSReply → System → Option System) : Option System :=
  match m sys.root with
  | .ok reply root => after reply { sys with root := root }
  | .err _ root => some ({ sys with root := root }.setRunning client none)
  | .panic _ => none

/-- The capability that the kernel copies out of a slot of the root server. -/
def capIn (sys : System) (ntfn : Slot) : Option Cap := sys.root.res.kernel.caps ntfn

/-- `client.channel = Some(channel)`, and the status of the virtualizers. -/
def setRecorded (sys : System) (ps : Parties) (server client : Nat) (virtType : Option VirtType)
    (ch : NotificationChannel) : System :=
  { sys with
    recorded := Function.update sys.recorded server
      (Function.update (sys.recorded server) client (some ch))
    status := Function.update sys.status server
      ((ps.handler server).register (sys.status server) virtType) }

def addChannel (sys : System) (client server : Nat) (ch : NotificationChannel) : System :=
  { sys with
    channels := Function.update sys.channels client (sys.channels client ++ [(server, ch)]) }

def step (ps : Parties) (sys : System) : Op → Option System
  | .create client server virtType =>
    match sys.running client with
    | some _ => none
    | none => sys.invoke client (handleServerCreateChannel client (ps.publishHndl client))
        fun reply sys =>
          match reply with
          | .serverCreateChannel bit hndlCap =>
            some (sys.setStage client server (.created bit hndlCap virtType))
          | _ => none
  | .openClient client =>
    match sys.running client with
    | some ⟨server, .created bit hndlCap virtType⟩ =>
      if (ps.handler server).accepts (sys.status server) virtType then
        sys.invoke client (handleChannelOpen hndlCap) fun reply sys =>
          match reply with
          | .channelOpen ntfn =>
            some (sys.setStage client server (.opened bit hndlCap virtType (sys.capIn ntfn)))
          | _ => none
      else some (sys.setRunning client none)
    | _ => none
  | .record client =>
    match sys.running client with
    | some ⟨server, .opened bit hndlCap virtType toChannel⟩ =>
      sys.invoke client (handleServerCreateChannel server (ps.publishHndl server))
        fun reply sys =>
          match reply with
          | .serverCreateChannel fromBit fromHndlCap =>
            some ((sys.setRecorded ps server client virtType
              ⟨fromBit, fromHndlCap, toChannel⟩).setStage client server
                (.answered bit hndlCap fromHndlCap))
          | _ => none
    | _ => none
  | .complete client =>
    match sys.running client with
    | some ⟨server, .answered bit hndlCap toHndlCap⟩ =>
      sys.invoke client (handleChannelOpen toHndlCap) fun reply sys =>
        match reply with
        | .channelOpen ntfn =>
          some ((sys.addChannel client server ⟨bit, hndlCap, sys.capIn ntfn⟩).setRunning client
            none)
        | _ => none
    | _ => none
  | .fail client => some (sys.setRunning client none)

end System

/-! ## Delivery -/

/-- The server a process has published. -/
def Parties.serverOf (ps : Parties) (s : State) (x : Nat) : Option ServerRef :=
  match s.handleAt (.table x (ps.publishHndl x)) with
  | some (.server srv) => some srv
  | _ => none

/-- The notification object that a process waits on. -/
def Parties.ntfnOf (ps : Parties) (s : State) (x : Nat) : Option Nat :=
  match (ps.serverOf s x).bind fun srv => s.res.kernel.caps (s.servers srv).ntfn.1 with
  | some (.object obj .notification) => some obj
  | _ => none

/-- The bits that process `x` decodes when the capability is signalled. -/
def Parties.received (ps : Parties) (s : State) (x : Nat) : Option Cap → List Nat
  | some (.badged obj .notification badge rights) =>
    if rights.write = true ∧ ps.ntfnOf s x = some obj then
      match decodeEntryType (ntfnWord [badge]) with
      | some (.notification word) => ntfnWordBits word
      | _ => []
    else []
  | _ => []

/-- Signalling the capability has process `x` receive exactly this bit, and no other process
anything. -/
def Parties.Delivers (ps : Parties) (s : State) (cap : Option Cap) (x bit : Nat) : Prop :=
  ps.received s x cap = [bit] ∧ ∀ y, y ≠ x → ps.received s y cap = []

/-! ## What a run starts with and must reach -/

/-- The processes have published their servers, whose notifications are objects of their own. -/
structure Start (ps : Parties) (sys : System) : Prop where
  registering : ∀ x srv, ps.serverOf sys.root x = some srv →
    ∃ given, Registering srv given sys.root
  ntfn : ∀ x srv, ps.serverOf sys.root x = some srv →
    ∃ obj, sys.root.res.kernel.caps (sys.root.servers srv).ntfn.1 =
      some (.object obj .notification)
  apart : ∀ x y obj, ps.ntfnOf sys.root x = some obj → ps.ntfnOf sys.root y = some obj → x = y
  running : ∀ x, sys.running x = none
  channels : ∀ x, sys.channels x = []
  recorded : ∀ x y, sys.recorded x y = none

/-- The bits a process has taken: for the handshake it is in, for its channels and for those it
recorded. -/
inductive Holding where
  | running
  | channel (i : Nat)
  | recorded (client : Nat)
  deriving DecidableEq

def System.bitOf (sys : System) (x : Nat) : Holding → Option Nat
  | .running => (sys.running x).map fun h => h.stage.fromBit
  | .channel i => ((sys.channels x)[i]?).map fun e => e.2.fromBit
  | .recorded client => (sys.recorded x client).map NotificationChannel.fromBit

/-- Every completed channel is paired with the one its server has recorded, and the channels of
a process have different bits. -/
structure Paired (ps : Parties) (sys : System) : Prop where
  paired : ∀ client server ch, (server, ch) ∈ sys.channels client →
    ∃ r, sys.recorded server client = some r ∧
      ps.Delivers sys.root ch.toChannel server r.fromBit ∧
      ps.Delivers sys.root r.toChannel client ch.fromBit
  distinct : ∀ x a b bit, sys.bitOf x a = some bit → sys.bitOf x b = some bit → a = b

/-- A server records a channel only for a client that has none to it yet. -/
def FirstRegistration (sys : System) : Op → Prop
  | .record client => ∀ h ∈ sys.running client, ∀ e ∈ sys.channels client, e.1 ≠ h.server
  | _ => True

instance (sys : System) (op : Op) : Decidable (FirstRegistration sys op) := by
  cases op <;> unfold FirstRegistration <;> infer_instance

end Smos.Sddf
