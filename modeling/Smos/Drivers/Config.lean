/-
Smos.Drivers.Config — what a component hands to its data-plane code.

The configuration is built from the regions the component made itself and
from those its clients registered, field by field and with an `unwrap` for
each `Option`. `regions` lists the address and size pairs of each structure.
-/
import Smos.Drivers.PreInit

namespace Smos.Drivers

open Smos.Base
open Smos.RootServer (InvocationError HandleOrHandleCap)
open Smos.Ipc (QueueType VirtType)

/-- A component's `main`, whose errors are all panics. -/
abbrev MainProg (α : Type) := Prog SddfPanic Component Empty α

/-! ## Channels -/

/-- `sDDFChannel`. -/
inductive SddfChannel where
  | irq (c : IrqChannel)
  | notificationBi (c : NotificationChannel)
  | notificationSend (c : NotificationChannel)

/-- `CHANNELS` and `PPCID_TO_CHANNELID`. -/
structure Bindings where
  channels : List (Nat × SddfChannel)
  ppcIds : List (Nat × Nat)

def Bindings.empty : Bindings := ⟨[], []⟩

/-- `sddf_set_channel`. -/
def sddfSetChannel (b : Bindings) (id : Nat) (ppcId : Option Nat) (channel : SddfChannel) :
    Option Bindings :=
  if (b.channels.lookup id).isSome then none
  else some {
    channels := (id, channel) :: b.channels
    ppcIds :=
      match ppcId with
      | some x => (x, id) :: b.ppcIds
      | none => b.ppcIds }

/-- `sddf_set_channel(...).expect(...)`. -/
def setChannel (b : Bindings) (id : Nat) (ppcId : Option Nat) (channel : SddfChannel) :
    MainProg Bindings :=
  sddfSetChannel b id ppcId channel |> Prog.unwrap .callFailed

/-- The bit of a client's channel: `channel.unwrap().from_bit.unwrap()`. -/
def channelBit (client : Client) : MainProg Nat := do
  let channel ← client.channel |> Prog.unwrap .unwrapNone
  channel.fromBit |> Prog.unwrap .unwrapNone

/-- Set the channel of a client under its own bit. -/
def setClientChannel (b : Bindings) (client : Client) : MainProg Bindings := do
  let bit ← channelBit client
  let channel ← client.channel |> Prog.unwrap .unwrapNone
  setChannel b bit none (.notificationBi channel)

/-! ## Configuration structures -/

structure RegionResource where
  vaddr : Nat
  size : Nat
  deriving DecidableEq, Repr

structure DeviceRegionResource where
  region : RegionResource
  ioAddr : Nat
  deriving DecidableEq, Repr

structure DeviceResources where
  deviceRegions : List DeviceRegionResource
  irqs : List Nat
  deriving DecidableEq, Repr

def DeviceResources.regions (r : DeviceResources) : List RegionResource :=
  r.deviceRegions.map DeviceRegionResource.region

structure NetConnectionResource where
  freeQueue : RegionResource
  activeQueue : RegionResource
  numBuffers : Nat
  id : Nat
  deriving DecidableEq, Repr

def NetConnectionResource.regions (c : NetConnectionResource) : List RegionResource :=
  [c.freeQueue, c.activeQueue]

structure SerialConnectionResource where
  queue : RegionResource
  data : RegionResource
  id : Nat
  deriving DecidableEq, Repr

def SerialConnectionResource.regions (c : SerialConnectionResource) : List RegionResource :=
  [c.queue, c.data]

structure BlkConnectionResource where
  storageInfo : RegionResource
  reqQueue : RegionResource
  respQueue : RegionResource
  numBuffers : Nat
  id : Nat
  deriving DecidableEq, Repr

def BlkConnectionResource.regions (c : BlkConnectionResource) : List RegionResource :=
  [c.storageInfo, c.reqQueue, c.respQueue]

/-- The configurations of the components, with the device resources of the drivers. -/
inductive Config where
  | netDriver (virtRx virtTx : NetConnectionResource) (device : DeviceResources)
  | serialDriver (rx tx : SerialConnectionResource) (device : DeviceResources)
  | blkDriver (virt : BlkConnectionResource) (device : DeviceResources)
  | netVirtRx (driver : NetConnectionResource) (data : DeviceRegionResource)
    (bufferMetadata : RegionResource) (client : NetConnectionResource)
  | netVirtTx (driver client : NetConnectionResource) (clientData : DeviceRegionResource)
  | serialVirt (driver client : SerialConnectionResource)
  | netCopy (virtRx : NetConnectionResource) (deviceData : RegionResource)
    (client : NetConnectionResource) (clientData : RegionResource)
  deriving DecidableEq, Repr

/-- Every address and size pair of a configuration. -/
def Config.regions : Config → List RegionResource
  | .netDriver virtRx virtTx device => virtRx.regions ++ virtTx.regions ++ device.regions
  | .serialDriver rx tx device => rx.regions ++ tx.regions ++ device.regions
  | .blkDriver virt device => virt.regions ++ device.regions
  | .netVirtRx driver data bufferMetadata client =>
    driver.regions ++ [data.region, bufferMetadata] ++ client.regions
  | .netVirtTx driver client clientData =>
    driver.regions ++ client.regions ++ [clientData.region]
  | .serialVirt driver client => driver.regions ++ client.regions
  | .netCopy virtRx deviceData client clientData =>
    virtRx.regions ++ [deviceData] ++ client.regions ++ [clientData]

def Queue.region (q : Queue) : RegionResource := ⟨q.vaddr, q.size⟩

def DMARegion.region (r : DMARegion) : RegionResource := ⟨r.vaddr, r.size⟩

/-- A region the component made, at an offset, as a device resource. -/
def DMARegion.resource (r : DMARegion) : DeviceRegionResource := ⟨r.region, r.paddr⟩

/-- `ROUND_DOWN`. -/
def roundDown (n b : Nat) : Nat := n / 2 ^ b * 2 ^ b

/-- `ROUND_UP`. -/
def roundUp (n b : Nat) : Nat := if n = 0 then 0 else ((n - 1) / 2 ^ b + 1) * 2 ^ b

/-- `seL4_PageBits`. -/
def pageBits : Nat := 12

end Smos.Drivers
