/-
Smos.Drivers.Virtualizers — the network and serial virtualizers.

A virtualizer makes the regions it shares with its driver, waits for its one
client, then connects to the driver as a client itself and registers those
regions there. The client must register a channel before its queues, and
its queues before the data region.
-/
import Smos.Drivers.Components

namespace Smos.Drivers

open Smos.Base
open Smos.RootServer (InvocationError HandleOrHandleCap)
open Smos.Ipc (QueueType VirtType)

/-! ## Shared pieces -/

/-- Connect to the driver, and set up the channel to it. -/
def connectDriver (ans : Answers) (virtType : Option VirtType) : MainProg NotificationChannel := do
  let _ ← (allocSlot ans).expect .callFailed
  (peerCall ans).expect .callFailed
  (peerCall ans).expect .callFailed
  (NotificationChannel.newBidirectional ans virtType).expect .callFailed

/-- Register a queue with the driver: `obj_hndl_cap.unwrap()`. -/
def registerQueue (ans : Answers) (q : Queue) : MainProg Unit := do
  let _ ← q.objHndlCap |> Prog.unwrap .unwrapNone
  (peerCall ans).expect .callFailed

/-- Set the channel to the driver under its own bit. -/
def setDriverChannel (b : Bindings) (channel : NotificationChannel) : MainProg Bindings := do
  let bit ← channel.fromBit |> Prog.unwrap .unwrapNone
  setChannel b bit none (.notificationBi channel)

/-- The two queues of a network client. -/
def handleNetQueueRegister (ans : Answers) (activeAt freeAt queueSize : Nat)
    (hndlCap size : Nat) (queueType : QueueType) : TurnProg Reply := do
  let client ← Prog.gets Turn.client
  if client.channel.isNone then
    Prog.fail .invalidArguments
  else if size ≠ queueSize then
    Prog.fail .invalidArguments
  else
    match queueType with
    | .active => openQueue ans .active (fun _ => some activeAt) size hndlCap
    | .free => openQueue ans .free (fun _ => some freeAt) size hndlCap
    | _ => Prog.fail .invalidArguments

/-- `QueuePair`. -/
structure QueuePair where
  active : Queue
  free : Queue

/-- `QueuePair::new`. -/
def QueuePair.new (ans : Answers) (activeVaddr freeVaddr size : Nat) : SddfProg QueuePair := do
  let active ← Queue.new ans activeVaddr size
  let free ← Queue.new ans freeVaddr size
  pure ⟨active, free⟩

/-- The connection over the virtualizer's own queues. -/
def QueuePair.connection (q : QueuePair) (channel : NotificationChannel) :
    MainProg NetConnectionResource := do
  let id ← channel.fromBit |> Prog.unwrap .unwrapNone
  pure ⟨q.free.region, q.active.region, 512, id⟩

/-- The connection over the queues of a network client. -/
def netConnection (client : Client) : MainProg NetConnectionResource := do
  let free ← client.queue .free |> Prog.unwrap .unwrapNone
  let active ← client.queue .active |> Prog.unwrap .unwrapNone
  let id ← channelBit client
  pure ⟨free.region, active.region, 512, id⟩

/-! ## The network receive virtualizer -/

namespace EthVirtRx

def cpyFree : Nat := 0x2000000
def cpyActive : Nat := 0x2200000
def drvFree : Nat := 0x3000000
def drvActive : Nat := 0x3200000
def bufferMetadata : Nat := 0x3400000
def rcvDma : Nat := 0x3600000
def drvQueueSize : Nat := 0x200000
def cpyQueueSize : Nat := 0x200000
def rcvDmaRegionSize : Nat := 0x2200000

/-- `ROUND_UP(size_of::<u32>() * 512, seL4_PageBits)`. -/
def bufferMetadataSize : Nat := roundUp (4 * 512) pageBits

def handleCopierRegister := registerClient

/-- The queues of the copier. -/
def handleQueueRegister (ans : Answers) :=
  handleNetQueueRegister ans cpyActive cpyFree cpyQueueSize

/-- The copier is given the receive region, and is done with that. -/
def handleGetDataRegion (rcvDmaRegion : DMARegion) : TurnProg Reply := do
  let client ← Prog.gets Turn.client
  if (client.queue .active).isNone || (client.queue .free).isNone then
    Prog.fail .invalidArguments
  else
    match rcvDmaRegion.objHndl with
    | .handleCap hndlCap => do
      modifyClient fun client => { client with initialized := true }
      pure (.getDataRegion hndlCap)
    | .handle _ => Prog.panic .handleCap

/-- It has asked for the receive region. -/
def initialized (client : Client) : Bool := client.initialized

def checkDone : List (Option Client) → Bool := checkFirst initialized

def handlers (ans : Answers) (rcvDmaRegion : DMARegion) : Handlers where
  virtRegister := some (handleCopierRegister ans)
  queueRegister := some (handleQueueRegister ans)
  provideDataRegion := none
  getDataRegion := some (handleGetDataRegion rcvDmaRegion)
  checkDone := checkDone

/-- What the virtualizer makes before it starts to listen. -/
structure Regions where
  drvQueues : QueuePair
  rcvDmaRegion : DMARegion

/-- The metadata of the buffers has a window, an object and a view, but nobody else sees it. -/
def setUp (ans : Answers) : MainProg Regions := do
  let drvQueues ← (QueuePair.new ans drvActive drvFree drvQueueSize).expect .callFailed
  let rcvDmaRegion ← (DMARegion.new ans rcvDma rcvDmaRegionSize true).expect .callFailed
  let winHndl ← (windowCreate ans bufferMetadata bufferMetadataSize).expect .callFailed
  let objHndl ← (objCreate ans none bufferMetadataSize .default none).expect .callFailed
  let _ ← (view ans winHndl objHndl 0 0 bufferMetadataSize).expect .callFailed
  pure ⟨drvQueues, rcvDmaRegion⟩

/-- The driver is connected to only after the copier is done. -/
def configure (ans : Answers) (regions : Regions) (clients : List (Option Client)) :
    MainProg Config := do
  let copier ← clientAt clients 0
  let drvChannel ← connectDriver ans (some .rx)
  registerQueue ans regions.drvQueues.active
  registerQueue ans regions.drvQueues.free
  let b ← setDriverChannel .empty drvChannel
  let _ ← setClientChannel b copier
  let client ← netConnection copier
  let driver ← regions.drvQueues.connection drvChannel
  pure (.netVirtRx driver ⟨⟨rcvDma, rcvDmaRegionSize⟩, regions.rcvDmaRegion.paddr⟩
    ⟨bufferMetadata, bufferMetadataSize⟩ client)

def component : SddfComponent where
  Own := Regions
  setUp := setUp
  slots := 1
  handlers ans regions := handlers ans regions.rcvDmaRegion
  configure := configure

end EthVirtRx

/-! ## The network transmit virtualizer -/

namespace EthVirtTx

def drvFree : Nat := 0x3000000
def drvActive : Nat := 0x3200000
def cli0Active : Nat := 0x3400000
def cli0Free : Nat := 0x3600000
def cli0TxDmaRegion : Nat := 0x3800000
def drvQueueSize : Nat := 0x200000
def cliQueueSize : Nat := 0x200000

def handleClientRegister := registerClient

def handleQueueRegister (ans : Answers) :=
  handleNetQueueRegister ans cli0Active cli0Free cliQueueSize

/-- The client's size is not looked at. -/
def handleProvideDataRegion (ans : Answers) (hndlCap _size : Nat) : TurnProg Reply := do
  let client ← Prog.gets Turn.client
  if (client.queue .active).isNone || (client.queue .free).isNone then
    Prog.fail .invalidArguments
  else
    openData ans (fun _ => cli0TxDmaRegion) 0x200000 hndlCap

/-- The channel, both queues and the transmit region are there. -/
def initialized (client : Client) : Bool :=
  client.channel.isSome && (client.queue .free).isSome && (client.queue .active).isSome &&
    client.data.isSome

def checkDone : List (Option Client) → Bool := checkFirst initialized

def handlers (ans : Answers) : Handlers where
  virtRegister := some (handleClientRegister ans)
  queueRegister := some (handleQueueRegister ans)
  provideDataRegion := some (handleProvideDataRegion ans)
  getDataRegion := none
  checkDone := checkDone

/-- Only the driver's queues; the transmit region is the client's. -/
def setUp (ans : Answers) : MainProg QueuePair :=
  (QueuePair.new ans drvActive drvFree drvQueueSize).expect .callFailed

def configure (ans : Answers) (drvQueues : QueuePair) (clients : List (Option Client)) :
    MainProg Config := do
  let client ← clientAt clients 0
  let drvChannel ← connectDriver ans (some .tx)
  registerQueue ans drvQueues.active
  registerQueue ans drvQueues.free
  let b ← setDriverChannel .empty drvChannel
  let _ ← setClientChannel b client
  let conn ← netConnection client
  let data ← client.data |> Prog.unwrap .unwrapNone
  let driver ← drvQueues.connection drvChannel
  pure (.netVirtTx driver conn data.resource)

def component : SddfComponent where
  Own := QueuePair
  setUp := setUp
  slots := 1
  handlers ans _ := handlers ans
  configure := configure

end EthVirtTx

/-! ## The serial virtualizers

The receive and the transmit virtualizer use the same addresses and handlers. -/

namespace SerialVirt

def drvQueue : Nat := 0x3000000
def drvData : Nat := 0x3002000
def drvDataSize : Nat := 0x2000
def cliQueue : Nat := 0x4000000
def cliData : Nat := 0x4002000
def clientQueueSize : Nat := 0x1000

def handleClientRegister := registerClient

/-- One queue, whatever type the client names. -/
def handleQueueRegister (ans : Answers) (hndlCap size : Nat) (_queueType : QueueType) :
    TurnProg Reply := do
  let client ← Prog.gets Turn.client
  if client.channel.isNone then
    Prog.fail .invalidArguments
  else if size ≠ clientQueueSize then
    Prog.fail .invalidArguments
  else
    openQueue ans .serial (fun _ => some cliQueue) size hndlCap

/-- The size is the client's. -/
def handleProvideDataRegion (ans : Answers) (hndlCap size : Nat) : TurnProg Reply := do
  let client ← Prog.gets Turn.client
  if (client.queue .serial).isNone then
    Prog.fail .invalidArguments
  else
    openData ans (fun _ => cliData) size hndlCap

/-- The channel, the queue and the data region are there. -/
def initialized (client : Client) : Bool :=
  client.channel.isSome && (client.queue .serial).isSome && client.data.isSome

def checkDone : List (Option Client) → Bool := checkFirst initialized

def handlers (ans : Answers) : Handlers where
  virtRegister := some (handleClientRegister ans)
  queueRegister := some (handleQueueRegister ans)
  provideDataRegion := some (handleProvideDataRegion ans)
  getDataRegion := none
  checkDone := checkDone

/-- What the virtualizer makes before it starts to listen. -/
structure Regions where
  drvQueue : Queue
  drvDataRegion : DMARegion

/-- The driver's queue and the data it is to send or has received. -/
def setUp (ans : Answers) : MainProg Regions := do
  let queue ← (Queue.new ans drvQueue 0x1000).expect .callFailed
  let data ← (DMARegion.new ans drvData drvDataSize true).expect .callFailed
  pure ⟨queue, data⟩

def configure (ans : Answers) (virtType : VirtType) (regions : Regions)
    (clients : List (Option Client)) : MainProg Config := do
  let client ← clientAt clients 0
  let drvChannel ← connectDriver ans (some virtType)
  registerQueue ans regions.drvQueue
  (peerCall ans).expect .callFailed
  let b ← setDriverChannel .empty drvChannel
  let _ ← setClientChannel b client
  let queue ← client.queue .serial |> Prog.unwrap .unwrapNone
  let data ← client.data |> Prog.unwrap .unwrapNone
  let id ← channelBit client
  let drvId ← drvChannel.fromBit |> Prog.unwrap .unwrapNone
  pure (.serialVirt ⟨regions.drvQueue.region, regions.drvDataRegion.region, drvId⟩
    -- the size of the data region is its address
    ⟨queue.region, ⟨data.vaddr, data.vaddr⟩, id⟩)

def component (virtType : VirtType) : SddfComponent where
  Own := Regions
  setUp := setUp
  slots := 1
  handlers ans _ := handlers ans
  configure ans := configure ans virtType

end SerialVirt

/-- The components that use the start-up loop. -/
inductive Kind where
  | ethDriver
  | serialDriver
  | blkDriver
  | ethVirtRx
  | ethVirtTx
  | serialVirtRx
  | serialVirtTx
  deriving DecidableEq, Repr

/-- Each with its handlers; the two serial ones differ in the type they register as. -/
def Kind.component : Kind → SddfComponent
  | .ethDriver => EthDriver.component
  | .serialDriver => SerialDriver.component
  | .blkDriver => BlkDriver.component
  | .ethVirtRx => EthVirtRx.component
  | .ethVirtTx => EthVirtTx.component
  | .serialVirtRx => SerialVirt.component .rx
  | .serialVirtTx => SerialVirt.component .tx

end Smos.Drivers
