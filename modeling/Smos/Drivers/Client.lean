/-
Smos.Drivers.Client — a client of an sDDF component, and what its handlers
do for it.

The components' client records differ only in which regions they have. Here
they are one record: the queues are named by `QueueSlot`, `data` is the data
region (the block driver's `storage_info`), and a component never touches
the fields its own record lacks. The handlers are written with three pieces
they all share: record a channel, open a queue, open a data region. Each
handler keeps its own checks, in its own order.

A handler works on the component, the client and `virt_reg`. It changes the
client only after all its calls have succeeded.
-/
import Smos.Base.Keeps
import Smos.Drivers.Regions
import Smos.Ipc.Decode

namespace Smos.Drivers

open Smos.Base
open Smos.RootServer (InvocationError HandleArg HandleOrHandleCap)
open Smos.Ipc (QueueType VirtType)

/-- The queues of the components' client records. -/
inductive QueueSlot where
  | active
  | free
  /-- `req_queue` of the block driver. -/
  | request
  /-- `resp_queue` of the block driver. -/
  | response
  /-- `queue` of the serial driver and virtualizers. -/
  | serial
  deriving DecidableEq, Repr

structure Client where
  id : Nat
  connRegistrationHndl : Nat
  virtType : Option VirtType
  queue : QueueSlot → Option Queue
  data : Option DMARegion
  channel : Option NotificationChannel
  /-- The flag of the receive virtualizer and of the copier. -/
  initialized : Bool

/-- `sDDFClient::new`. -/
def Client.new (id connRegistrationHndl : Nat) : Client where
  id := id
  connRegistrationHndl := connRegistrationHndl
  virtType := none
  queue := fun _ => none
  data := none
  channel := none
  initialized := false

def Client.setQueue (c : Client) (slot : QueueSlot) (q : Queue) : Client :=
  { c with queue := Function.update c.queue slot (some q) }

@[simp] theorem setQueue_self (c : Client) (slot : QueueSlot) (q : Queue) :
    (c.setQueue slot q).queue slot = some q := by
  simp [Client.setQueue]

theorem setQueue_of_ne (c : Client) {slot slot' : QueueSlot} (h : slot' ≠ slot) (q : Queue) :
    (c.setQueue slot q).queue slot' = c.queue slot' := by
  simp [Client.setQueue, h]

/-- `SMOSReply`, as far as the components answer it. -/
inductive Reply where
  | connOpen
  | channelRegisterBidirectional (hndlCap : Nat)
  | channelRegisterRecvOnly
  | queueRegister
  | provideDataRegion
  | getDataRegion (hndlCap : Nat)
  deriving DecidableEq, Repr

/-- What a handler works on. -/
structure Turn where
  component : Component
  client : Client
  /-- `virt_reg`, the set of `VirtRegistration` flags. -/
  virtReg : List VirtType

abbrev TurnProg (α : Type) := Prog SddfPanic Turn InvocationError α

/-- Work on the component. -/
def onComponent {α : Type} (m : SddfProg α) : TurnProg α :=
  m.zoom Turn.component fun t c => { t with component := c }

def modifyClient (f : Client → Client) : TurnProg Unit :=
  Prog.modify fun t => { t with client := f t.client }

section Handlers

variable (ans : Answers)

/-! ## Channels -/

/-- The reply unwraps what was recorded. -/
def replyChannel : TurnProg Reply := do
  let client ← Prog.gets Turn.client
  let channel ← client.channel |> Prog.unwrap .unwrapNone
  let hndlCap ← channel.fromHndlCap |> Prog.unwrap .unwrapNone
  pure (.channelRegisterBidirectional hndlCap)

/-- Open the client's channel and record it. -/
def recordChannel (channelHndlCap : Nat) : TurnProg Unit := do
  let channel ← onComponent (NotificationChannel.openBidirectional ans channelHndlCap)
  modifyClient fun client => { client with channel := some channel }

/-- `handle_virt_register` of the Ethernet and serial drivers: one virtualizer of each kind. -/
def registerVirt (channelHndlCap : Nat) (virtType : Option VirtType) : TurnProg Reply :=
  match virtType with
  | none => Prog.fail .invalidArguments
  | some virtType => do
    let status ← Prog.gets Turn.virtReg
    if virtType ∈ status then
      Prog.fail .invalidArguments
    else
      recordChannel ans channelHndlCap
      modifyClient fun client => { client with virtType := some virtType }
      Prog.modify fun t => { t with virtReg := virtType :: t.virtReg }
      replyChannel

/-- `handle_client_register` and `handle_copier_register`: no virtualizer. -/
def registerClient (channelHndlCap : Nat) (virtType : Option VirtType) : TurnProg Reply :=
  if virtType.isSome then
    Prog.fail .invalidArguments
  else do
    recordChannel ans channelHndlCap
    replyChannel

/-- `handle_virt_register` of the block driver: no checks. -/
def registerAny (channelHndlCap : Nat) (_virtType : Option VirtType) : TurnProg Reply := do
  recordChannel ans channelHndlCap
  replyChannel

/-! ## Regions -/

/-- Open a queue that the client does not have yet. -/
def openQueue (slot : QueueSlot) (vaddr : Client → Option Nat) (size hndlCap : Nat) :
    TurnProg Reply := do
  let client ← Prog.gets Turn.client
  if (client.queue slot).isSome then
    Prog.fail .invalidArguments
  else
    let vaddr ← vaddr client |> Prog.unwrap .virtType
    let queue ← onComponent (Queue.open ans vaddr size (.handleCap hndlCap))
    modifyClient fun client => client.setQueue slot queue
    pure .queueRegister

/-- Open the data region, whether there is one or not. -/
def openData (vaddr : Client → Nat) (expectedSize hndlCap : Nat) : TurnProg Reply := do
  let client ← Prog.gets Turn.client
  let data ← onComponent (DMARegion.open ans (.handleCap hndlCap) (vaddr client) expectedSize)
  modifyClient fun client => { client with data := some data }
  pure .provideDataRegion

end Handlers

/-- An address for each kind of virtualizer. -/
def byKind (rx tx : Nat) (client : Client) : Option Nat :=
  client.virtType.map fun
    | .rx => rx
    | .tx => tx

end Smos.Drivers
