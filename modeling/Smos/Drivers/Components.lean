/-
Smos.Drivers.Components — the block, Ethernet and serial drivers.

Each `main` makes the device's regions, runs the start-up loop until its own
check says that it is done, and builds the configuration. The Ethernet and
serial drivers wait for one virtualizer of each kind, the block driver for
the client in the first entry.

Publishing the server, the reply object and the slot for received
capabilities are not modelled.
-/
import Smos.Drivers.Config

namespace Smos.Drivers

open Smos.Base
open Smos.RootServer (InvocationError HandleOrHandleCap)
open Smos.Ipc (QueueType VirtType)

/-- `check_done` of the drivers with two virtualizers. -/
def checkBoth (initialized : Client → Bool) : List (Option Client) → Bool
  | [some a, some b] => initialized a && initialized b
  | _ => false

/-- `check_done` of the components that look at their first entry. -/
def checkFirst (initialized : Client → Bool) : List (Option Client) → Bool
  | some a :: _ => initialized a
  | _ => false

/-- `sddf_driver_pre_init` of a component with `n` entries. -/
def preInit (ans : Answers) (hs : Handlers) (n : Nat) (events : List Event) :
    MainProg (Option (List (Option Client))) := fun c =>
  match (sddfDriverPreInit ans hs events : PreInitProg Empty _) (PreInit.start n c) with
  | .ok clients s => .ok clients s.component
  | .err e _ => nomatch e
  | .panic p => .panic p

/-- `virts[k].unwrap()`. -/
def clientAt (clients : List (Option Client)) (k : Nat) : MainProg Client :=
  (clients[k]?).join |> Prog.unwrap .unwrapNone

/-- The assignment of `rx_virt` and `tx_virt`. -/
def assignVirts (virts : List (Option Client)) : MainProg (Client × Client) := do
  let first ← clientAt virts 0
  match ← first.virtType |> Prog.unwrap .unwrapNone with
  | .rx => do
    let second ← clientAt virts 1
    pure (first, second)
  | .tx => do
    let second ← clientAt virts 1
    pure (second, first)

/-- A component that uses the start-up loop: what it makes first, the entries of its client table,
its handlers, and the configuration it builds from the clients. -/
structure SddfComponent where
  Own : Type
  setUp : Answers → MainProg Own
  slots : Nat
  handlers : Answers → Own → Handlers
  configure : Answers → Own → List (Option Client) → MainProg Config

/-- `main`, up to the call of the data-plane code. -/
def SddfComponent.main (m : SddfComponent) (ans : Answers) (events : List Event) :
    MainProg (Option Config) := do
  let own ← m.setUp ans
  match ← preInit ans (m.handlers ans own) m.slots events with
  | none => pure none
  | some clients => some <$> m.configure ans own clients

/-! ## The Ethernet driver -/

namespace EthDriver

def regsBase : Nat := 0xB000000
def virtRxActive : Nat := 0xC000000
def virtRxFree : Nat := 0xC200000
def virtTxActive : Nat := 0xC400000
def virtTxFree : Nat := 0xC600000
def hwRing : Nat := 0xD000000
def ethRegsPaddr : Nat := 0xa003e00
def hwRingBufferSize : Nat := 0x10000
def ethIrqNumber : Nat := 79
def rxQueueSize : Nat := 0x200000
def virtioNetOffset : Nat := 0xe00

def handleVirtRegister := registerVirt

/-- A virtualizer names its type first; either queue has the size of the receive queues. -/
def handleQueueRegister (ans : Answers) (hndlCap size : Nat) (queueType : QueueType) :
    TurnProg Reply := do
  let client ← Prog.gets Turn.client
  if client.virtType.isNone then
    Prog.fail .invalidArguments
  else if size ≠ rxQueueSize then
    Prog.fail .invalidArguments
  else
    match queueType with
    | .active => openQueue ans .active (byKind virtRxActive virtTxActive) size hndlCap
    | .free => openQueue ans .free (byKind virtRxFree virtTxFree) size hndlCap
    | _ => Prog.fail .invalidArguments

/-- Both queues are there. The channel is not asked for: its bit is read later. -/
def initialized (client : Client) : Bool :=
  (client.queue .free).isSome && (client.queue .active).isSome

def checkDone : List (Option Client) → Bool := checkBoth initialized

def handlers (ans : Answers) : Handlers where
  virtRegister := some (handleVirtRegister ans)
  queueRegister := some (handleQueueRegister ans)
  provideDataRegion := none
  getDataRegion := none
  checkDone := checkDone

/-- What the driver makes before it starts to listen. -/
structure Device where
  region : DeviceRegion
  irqChannel : IrqChannel
  hwRingBuffer : DMARegion

/-- The device's page, its interrupt, and the memory for the hardware ring. -/
def setUp (ans : Answers) : MainProg Device := do
  let region ← (DeviceRegion.new ans regsBase 0x1000 (roundDown ethRegsPaddr pageBits)).expect
    .callFailed
  let irqChannel ← (IrqChannel.new ans ethIrqNumber).expect .callFailed
  let ring ← (DMARegion.new ans hwRing hwRingBufferSize false).expect .callFailed
  pure ⟨region, irqChannel, ring⟩

/-- The connection of a virtualizer. The queue sizes are literals. -/
def connection (virt : Client) : MainProg NetConnectionResource := do
  let free ← virt.queue .free |> Prog.unwrap .unwrapNone
  let active ← virt.queue .active |> Prog.unwrap .unwrapNone
  let id ← channelBit virt
  pure ⟨⟨free.vaddr, 0x200000⟩, ⟨active.vaddr, 0x200000⟩, 512, id⟩

/-- The interrupt is on its own bit, then come the two virtualizers. -/
def configure (device : Device) (virts : List (Option Client)) : MainProg Config := do
  let (rxVirt, txVirt) ← assignVirts virts
  let b ← setChannel .empty device.irqChannel.bit none (.irq device.irqChannel)
  let b ← setClientChannel b txVirt
  let _ ← setClientChannel b rxVirt
  let virtRx ← connection rxVirt
  let virtTx ← connection txVirt
  pure (.netDriver virtRx virtTx {
    deviceRegions := [
      ⟨⟨device.region.vaddr + virtioNetOffset, device.region.size⟩, ethRegsPaddr⟩,
      device.hwRingBuffer.resource]
    irqs := [device.irqChannel.bit] })

def component : SddfComponent where
  Own := Device
  setUp := setUp
  slots := 2
  handlers ans _ := handlers ans
  configure _ := configure

end EthDriver

/-! ## The serial driver -/

namespace SerialDriver

def regsBase : Nat := 0xB000000
def virtRxQueue : Nat := 0xC000000
def rxQueueSize : Nat := 4096
def virtTxQueue : Nat := 0xC001000
def virtRxData : Nat := 0xD000000
def virtTxData : Nat := 0xD200000
def rxVirtioBuf : Nat := 0xE000000
def txVirtioBuf : Nat := 0xE001000
def serialRegsPaddr : Nat := 0xa003c00
def serialOffset : Nat := serialRegsPaddr - roundDown serialRegsPaddr pageBits
def serialIrqNumber : Nat := 78
def hwRing : Nat := 0xE002000
def hwRingBufferSize : Nat := 0x10000

def handleVirtRegister := registerVirt

/-- One queue for each virtualizer, whatever type of queue it names. -/
def handleQueueRegister (ans : Answers) (hndlCap size : Nat) (_queueType : QueueType) :
    TurnProg Reply := do
  let client ← Prog.gets Turn.client
  if client.virtType.isNone then
    Prog.fail .invalidArguments
  else if size ≠ rxQueueSize then
    Prog.fail .invalidArguments
  else
    openQueue ans .serial (byKind virtRxQueue virtTxQueue) size hndlCap

/-- Anything that is not the transmit virtualizer is given the receive address. -/
def dataAddress (client : Client) : Nat :=
  if client.virtType = some .tx then virtTxData else virtRxData

/-- The size is the client's: nothing bounds it. -/
def handleProvideDataRegion (ans : Answers) (hndlCap size : Nat) : TurnProg Reply := do
  let client ← Prog.gets Turn.client
  if (client.queue .serial).isNone then
    Prog.fail .invalidArguments
  else
    openData ans dataAddress size hndlCap

/-- The queue and the data region are there. -/
def initialized (client : Client) : Bool := (client.queue .serial).isSome && client.data.isSome

def checkDone : List (Option Client) → Bool := checkBoth initialized

def handlers (ans : Answers) : Handlers where
  virtRegister := some (handleVirtRegister ans)
  queueRegister := some (handleQueueRegister ans)
  provideDataRegion := some (handleProvideDataRegion ans)
  getDataRegion := none
  checkDone := checkDone

/-- What the driver makes before it starts to listen. -/
structure Device where
  region : DeviceRegion
  irqChannel : IrqChannel
  hwRingBuffer : DMARegion
  rxCharBuf : DMARegion
  txCharBuf : DMARegion

/-- The receive and the transmit character have a page each. -/
def setUp (ans : Answers) : MainProg Device := do
  let region ← (DeviceRegion.new ans regsBase 0x1000 (roundDown serialRegsPaddr pageBits)).expect
    .callFailed
  let irqChannel ← (IrqChannel.new ans serialIrqNumber).expect .callFailed
  let ring ← (DMARegion.new ans hwRing hwRingBufferSize false).expect .callFailed
  let rxCharBuf ← (DMARegion.new ans rxVirtioBuf 0x1000 false).expect .callFailed
  let txCharBuf ← (DMARegion.new ans txVirtioBuf 0x1000 false).expect .callFailed
  pure ⟨region, irqChannel, ring, rxCharBuf, txCharBuf⟩

/-- The connection of a virtualizer, with the sizes it came with. -/
def connection (virt : Client) : MainProg SerialConnectionResource := do
  let queue ← virt.queue .serial |> Prog.unwrap .unwrapNone
  let data ← virt.data |> Prog.unwrap .unwrapNone
  let id ← channelBit virt
  pure ⟨queue.region, data.region, id⟩

def configure (device : Device) (virts : List (Option Client)) : MainProg Config := do
  let (rxVirt, txVirt) ← assignVirts virts
  let b ← setChannel .empty device.irqChannel.bit none (.irq device.irqChannel)
  let b ← setClientChannel b txVirt
  let _ ← setClientChannel b rxVirt
  let rx ← connection rxVirt
  let tx ← connection txVirt
  pure (.serialDriver rx tx {
    deviceRegions := [
      ⟨⟨device.region.vaddr + serialOffset, device.region.size⟩, serialRegsPaddr⟩,
      device.hwRingBuffer.resource,
      device.rxCharBuf.resource,
      device.txCharBuf.resource]
    irqs := [device.irqChannel.bit] })

def component : SddfComponent where
  Own := Device
  setUp := setUp
  slots := 2
  handlers ans _ := handlers ans
  configure _ := configure

end SerialDriver

/-! ## The block driver -/

namespace BlkDriver

def regsBase : Nat := 0xB000000
def virtReq : Nat := 0xC000000
def virtResp : Nat := 0xC001000
def virtData : Nat := 0xD000000
def reqBuf : Nat := 0xD200000
def virtioBuf : Nat := 0xD201000
def queueSize : Nat := 4096
def blkRegsPaddr : Nat := 0xa003a00
def blkOffset : Nat := blkRegsPaddr - roundDown blkRegsPaddr pageBits
def blkIrqNumber : Nat := 77

def handleVirtRegister := registerAny

/-- The client need not have named a type. -/
def handleQueueRegister (ans : Answers) (hndlCap size : Nat) (queueType : QueueType) :
    TurnProg Reply :=
  if size ≠ queueSize then
    Prog.fail .invalidArguments
  else
    match queueType with
    | .request => openQueue ans .request (fun _ => some virtReq) size hndlCap
    | .response => openQueue ans .response (fun _ => some virtResp) size hndlCap
    | _ => Prog.fail .invalidArguments

/-- Only once both queues are there. -/
def handleProvideDataRegion (ans : Answers) (hndlCap size : Nat) : TurnProg Reply := do
  let client ← Prog.gets Turn.client
  if (client.queue .request).isNone || (client.queue .response).isNone then
    Prog.fail .invalidArguments
  else
    openData ans (fun _ => virtData) size hndlCap

/-- No channel is asked for. -/
def initialized (client : Client) : Bool :=
  client.data.isSome && (client.queue .request).isSome && (client.queue .response).isSome

def checkDone : List (Option Client) → Bool := checkFirst initialized

def handlers (ans : Answers) : Handlers where
  virtRegister := some (handleVirtRegister ans)
  queueRegister := some (handleQueueRegister ans)
  provideDataRegion := some (handleProvideDataRegion ans)
  getDataRegion := none
  checkDone := checkDone

/-- What the driver makes before it starts to listen. -/
structure Device where
  region : DeviceRegion
  irqChannel : IrqChannel
  requestsBuffer : DMARegion
  virtCharBuf : DMARegion

/-- The requests of the driver have a page of their own. -/
def setUp (ans : Answers) : MainProg Device := do
  let region ← (DeviceRegion.new ans regsBase 0x1000 (roundDown blkRegsPaddr pageBits)).expect
    .callFailed
  let irqChannel ← (IrqChannel.new ans blkIrqNumber).expect .callFailed
  let requestsBuffer ← (DMARegion.new ans reqBuf 0x1000 false).expect .callFailed
  let virtCharBuf ← (DMARegion.new ans virtioBuf 0x1000 false).expect .callFailed
  pure ⟨region, irqChannel, requestsBuffer, virtCharBuf⟩

/-- The client in the first entry is the only one, and the queue's capacity is a literal. -/
def configure (device : Device) (virts : List (Option Client)) : MainProg Config := do
  let b ← setChannel .empty device.irqChannel.bit none (.irq device.irqChannel)
  let virt ← clientAt virts 0
  let _ ← setClientChannel b virt
  let storageInfo ← virt.data |> Prog.unwrap .unwrapNone
  let reqQueue ← virt.queue .request |> Prog.unwrap .unwrapNone
  let respQueue ← virt.queue .response |> Prog.unwrap .unwrapNone
  let id ← channelBit virt
  pure (.blkDriver ⟨storageInfo.region, reqQueue.region, respQueue.region, 1024, id⟩ {
    deviceRegions := [
      ⟨⟨device.region.vaddr + blkOffset, device.region.size⟩, blkRegsPaddr⟩,
      device.virtCharBuf.resource,
      device.requestsBuffer.resource]
    irqs := [device.irqChannel.bit] })

def component : SddfComponent where
  Own := Device
  setUp := setUp
  slots := 2
  handlers ans _ := handlers ans
  configure _ := configure

end BlkDriver

end Smos.Drivers
