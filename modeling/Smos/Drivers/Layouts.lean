/-
Smos.Drivers.Layouts — the layout of each component, and its handlers' steps.

The start-up loop is used by the three drivers, the two network virtualizers
and the serial ones. For each, every handler makes a step of its layout,
whatever the client and the answers of its calls.
-/
import Smos.Drivers.Steps

namespace Smos.Drivers

open Smos.Base
open Smos.RootServer (InvocationError HandleOrHandleCap)
open Smos.Ipc (QueueType VirtType)

/-- An address of either kind of virtualizer. -/
theorem byKind_le {lo rx tx v : Nat} {c : Client} (hrx : lo ≤ rx) (htx : lo ≤ tx)
    (h : byKind rx tx c = some v) : lo ≤ v := by
  unfold byKind at h
  cases hk : c.virtType with
  | none => simp [hk] at h
  | some k => cases k <;> simp_all

/-! ## The Ethernet driver -/

namespace EthDriver

/-- Two queues for each kind of virtualizer, and no data region: a kind is needed to know where
they go. -/
def layout : Layout where
  lowest := virtRxActive
  queueReady c := c.virtType.isSome
  queueAt c
    | .active => byKind virtRxActive virtTxActive c
    | .free => byKind virtRxFree virtTxFree c
    | _ => none
  queueSize := rxQueueSize
  dataReady _ := false
  dataAt _ := 0
  dataSize := id
  flagReady _ := false

/-- The addresses are above `lowest` for either kind and either queue. -/
theorem handleQueueRegister_handles (ans : Answers) (inv : Invocation) (cap size : Nat)
    (queueType : QueueType) (t : Turn) :
    layout.Handles inv (handleQueueRegister ans cap size queueType) t := by
  unfold Layout.Handles handleQueueRegister
  rw [Prog.wp_bind, Prog.wp_gets, Prog.wp_ite, Prog.wp_ite]
  refine ⟨fun _ => handles_fail _, fun hkind => ⟨fun _ => handles_fail _, fun hsize => ?_⟩⟩
  have hready : layout.queueReady t.client = true := by
    simpa [layout, Option.isSome_iff_ne_none] using hkind
  have hsize' : size = layout.queueSize := Decidable.not_not.mp hsize
  cases queueType with
  | active =>
    refine openQueue_handles hready hsize' fun v hv => ⟨hv, byKind_le ?_ ?_ hv⟩ <;> decide
  | free =>
    refine openQueue_handles hready hsize' fun v hv => ⟨hv, byKind_le ?_ ?_ hv⟩ <;> decide
  | request => exact handles_fail _
  | response => exact handles_fail _
  | none => exact handles_fail _

/-- The channel says of which kind the client is; the other invocations are not served. -/
theorem handler_step (ans : Answers) (inv : Invocation) (t : Turn) :
    layout.Handles inv ((handlers ans).handler inv) t := by
  cases inv with
  | channelRegisterBidirectional cap virtType => exact registerVirt_handles cap virtType
  | queueRegister cap size queueType => exact handleQueueRegister_handles ans _ cap size queueType t
  | _ => exact handles_panic _

end EthDriver

/-! ## The serial driver -/

namespace SerialDriver

/-- One queue for each kind of virtualizer, and a data region beside it. -/
def layout : Layout where
  lowest := virtRxQueue
  queueReady c := c.virtType.isSome
  queueAt c
    | .serial => byKind virtRxQueue virtTxQueue c
    | _ => none
  queueSize := rxQueueSize
  dataReady c := (c.queue .serial).isSome
  dataAt := dataAddress
  dataSize := id
  flagReady _ := false

/-- There is one queue, whatever type the client names. -/
theorem handleQueueRegister_handles (ans : Answers) (inv : Invocation) (cap size : Nat)
    (queueType : QueueType) (t : Turn) :
    layout.Handles inv (handleQueueRegister ans cap size queueType) t := by
  unfold Layout.Handles handleQueueRegister
  rw [Prog.wp_bind, Prog.wp_gets, Prog.wp_ite, Prog.wp_ite]
  refine ⟨fun _ => handles_fail _, fun hkind => ⟨fun _ => handles_fail _, fun hsize => ?_⟩⟩
  have hready : layout.queueReady t.client = true := by
    simpa [layout, Option.isSome_iff_ne_none] using hkind
  have hsize' : size = layout.queueSize := Decidable.not_not.mp hsize
  refine openQueue_handles hready hsize' fun v hv => ⟨hv, byKind_le ?_ ?_ hv⟩ <;> decide

/-- Both data regions lie above `lowest`. -/
theorem dataAddress_ge (c : Client) : layout.lowest ≤ dataAddress c := by
  unfold dataAddress
  split <;> decide

/-- The data region comes after the queue. -/
theorem handleProvideDataRegion_handles (ans : Answers) (cap size : Nat) (t : Turn) :
    layout.Handles (.provideDataRegion cap size) (handleProvideDataRegion ans cap size) t := by
  unfold Layout.Handles handleProvideDataRegion
  rw [Prog.wp_bind, Prog.wp_gets, Prog.wp_ite]
  refine ⟨fun _ => handles_fail _, fun hq => ?_⟩
  refine openData_handles rfl ?_ rfl rfl (dataAddress_ge t.client)
  simpa [layout, Option.isSome_iff_ne_none] using hq

/-- The driver serves a channel, a queue and a data region. -/
theorem handler_step (ans : Answers) (inv : Invocation) (t : Turn) :
    layout.Handles inv ((handlers ans).handler inv) t := by
  cases inv with
  | channelRegisterBidirectional cap virtType => exact registerVirt_handles cap virtType
  | queueRegister cap size queueType => exact handleQueueRegister_handles ans _ cap size queueType t
  | provideDataRegion cap size => exact handleProvideDataRegion_handles ans cap size t
  | _ => exact handles_panic _

end SerialDriver

/-! ## The block driver -/

namespace BlkDriver

/-- A request and a response queue at fixed addresses, whoever the client is. -/
def layout : Layout where
  lowest := virtReq
  queueReady _ := true
  queueAt _
    | .request => some virtReq
    | .response => some virtResp
    | _ => none
  queueSize := queueSize
  dataReady c := (c.queue .request).isSome && (c.queue .response).isSome
  dataAt _ := virtData
  dataSize := id
  flagReady _ := false

/-- Nothing has to come before a queue here: the driver does not ask for a channel. -/
theorem handleQueueRegister_handles (ans : Answers) (inv : Invocation) (cap size : Nat)
    (queueType : QueueType) (t : Turn) :
    layout.Handles inv (handleQueueRegister ans cap size queueType) t := by
  unfold Layout.Handles handleQueueRegister
  rw [Prog.wp_ite]
  refine ⟨fun _ => handles_fail _, fun hsize => ?_⟩
  have hsize' : size = layout.queueSize := Decidable.not_not.mp hsize
  cases queueType with
  | request =>
    refine openQueue_handles rfl hsize' ?_
    rintro _ ⟨⟩
    exact ⟨rfl, by decide⟩
  | response =>
    refine openQueue_handles rfl hsize' ?_
    rintro _ ⟨⟩
    exact ⟨rfl, by decide⟩
  | active => exact handles_fail _
  | free => exact handles_fail _
  | none => exact handles_fail _

/-- The data region comes after both queues. -/
theorem handleProvideDataRegion_handles (ans : Answers) (cap size : Nat) (t : Turn) :
    layout.Handles (.provideDataRegion cap size) (handleProvideDataRegion ans cap size) t := by
  unfold Layout.Handles handleProvideDataRegion
  rw [Prog.wp_bind, Prog.wp_gets, Prog.wp_ite]
  refine ⟨fun _ => handles_fail _, fun hq => ?_⟩
  refine openData_handles rfl ?_ rfl rfl (by decide)
  simpa [layout, Option.isSome_iff_ne_none] using hq

/-- The channel is not of any kind, and may come at any time. -/
theorem handler_step (ans : Answers) (inv : Invocation) (t : Turn) :
    layout.Handles inv ((handlers ans).handler inv) t := by
  cases inv with
  | channelRegisterBidirectional cap virtType => exact registerAny_handles cap virtType
  | queueRegister cap size queueType => exact handleQueueRegister_handles ans _ cap size queueType t
  | provideDataRegion cap size => exact handleProvideDataRegion_handles ans cap size t
  | _ => exact handles_panic _

end BlkDriver

/-! ## The network virtualizers -/

/-- The layout of a network virtualizer, with its two queues. -/
def netLayout (lowest activeAt freeAt queueSize : Nat) : Layout where
  lowest := lowest
  queueReady c := c.channel.isSome
  queueAt _
    | .active => some activeAt
    | .free => some freeAt
    | _ => none
  queueSize := queueSize
  dataReady _ := false
  dataAt _ := 0
  dataSize := id
  flagReady _ := false

/-- Both network virtualizers register queues the same way, at addresses of their own. -/
theorem handleNetQueueRegister_handles (ans : Answers) (inv : Invocation) {l : Layout}
    {activeAt freeAt queueSize : Nat} (hready : ∀ c, l.queueReady c = c.channel.isSome)
    (hactive : ∀ c, l.queueAt c .active = some activeAt)
    (hfree : ∀ c, l.queueAt c .free = some freeAt) (hsize : l.queueSize = queueSize)
    (hlo : l.lowest ≤ activeAt ∧ l.lowest ≤ freeAt) (cap size : Nat) (queueType : QueueType)
    (t : Turn) :
    l.Handles inv (handleNetQueueRegister ans activeAt freeAt queueSize cap size queueType) t := by
  unfold Layout.Handles handleNetQueueRegister
  rw [Prog.wp_bind, Prog.wp_gets, Prog.wp_ite, Prog.wp_ite]
  refine ⟨fun _ => handles_fail _, fun hch => ⟨fun _ => handles_fail _, fun hsz => ?_⟩⟩
  have hready' : l.queueReady t.client = true := by
    simpa [hready, Option.isSome_iff_ne_none] using hch
  have hsize' : size = l.queueSize := by simpa [hsize] using hsz
  cases queueType with
  | active =>
    refine openQueue_handles hready' hsize' ?_
    rintro _ ⟨⟩
    exact ⟨hactive t.client, hlo.1⟩
  | free =>
    refine openQueue_handles hready' hsize' ?_
    rintro _ ⟨⟩
    exact ⟨hfree t.client, hlo.2⟩
  | request => exact handles_fail _
  | response => exact handles_fail _
  | none => exact handles_fail _

namespace EthVirtRx

/-- The receiving side shows its clients the data region that it has itself got, once they have
both queues. -/
def layout : Layout :=
  { netLayout cpyFree cpyActive cpyFree cpyQueueSize with
    flagReady := fun c => (c.queue .active).isSome && (c.queue .free).isSome }

/-- The client is marked as having asked, and nothing is mapped for it. -/
theorem handleGetDataRegion_handles (inv : Invocation) (rcvDmaRegion : DMARegion) (t : Turn) :
    layout.Handles inv (handleGetDataRegion rcvDmaRegion) t := by
  unfold Layout.Handles handleGetDataRegion
  rw [Prog.wp_bind, Prog.wp_gets, Prog.wp_ite]
  refine ⟨fun _ => handles_fail _, fun hq => ?_⟩
  split
  · refine ⟨.refl _ _, .flagged ?_ rfl rfl⟩
    simpa [layout, Option.isSome_iff_ne_none] using hq
  · trivial

/-- Clients register a channel and two queues, then ask for the data region. -/
theorem handler_step (ans : Answers) (rcvDmaRegion : DMARegion) (inv : Invocation) (t : Turn) :
    layout.Handles inv ((handlers ans rcvDmaRegion).handler inv) t := by
  cases inv with
  | channelRegisterBidirectional cap virtType => exact registerClient_handles cap virtType
  | queueRegister cap size queueType =>
    exact handleNetQueueRegister_handles ans _ (fun _ => rfl) (fun _ => rfl) (fun _ => rfl) rfl
      (by decide) cap size queueType t
  | getDataRegion => exact handleGetDataRegion_handles _ rcvDmaRegion t
  | _ => exact handles_panic _

end EthVirtRx

namespace EthVirtTx

/-- On the sending side the clients bring their data region, which is mapped with a fixed size. -/
def layout : Layout :=
  { netLayout cli0Active cli0Active cli0Free cliQueueSize with
    dataReady := fun c => (c.queue .active).isSome && (c.queue .free).isSome
    dataAt := fun _ => cli0TxDmaRegion
    dataSize := fun _ => 0x200000 }

/-- The data region comes after both queues. -/
theorem handleProvideDataRegion_handles (ans : Answers) (cap size : Nat) (t : Turn) :
    layout.Handles (.provideDataRegion cap size) (handleProvideDataRegion ans cap size) t := by
  unfold Layout.Handles handleProvideDataRegion
  rw [Prog.wp_bind, Prog.wp_gets, Prog.wp_ite]
  refine ⟨fun _ => handles_fail _, fun hq => ?_⟩
  refine openData_handles rfl ?_ rfl rfl (by decide)
  simpa [layout, Option.isSome_iff_ne_none] using hq

/-- Clients register a channel and two queues, then provide their data region. -/
theorem handler_step (ans : Answers) (inv : Invocation) (t : Turn) :
    layout.Handles inv ((handlers ans).handler inv) t := by
  cases inv with
  | channelRegisterBidirectional cap virtType => exact registerClient_handles cap virtType
  | queueRegister cap size queueType =>
    exact handleNetQueueRegister_handles ans _ (fun _ => rfl) (fun _ => rfl) (fun _ => rfl) rfl
      (by decide) cap size queueType t
  | provideDataRegion cap size => exact handleProvideDataRegion_handles ans cap size t
  | _ => exact handles_panic _

end EthVirtTx

/-! ## The serial virtualizers -/

namespace SerialVirt

/-- The layout of either serial virtualizer: a queue and a data region. -/
def layout : Layout where
  lowest := cliQueue
  queueReady c := c.channel.isSome
  queueAt _
    | .serial => some cliQueue
    | _ => none
  queueSize := clientQueueSize
  dataReady c := (c.queue .serial).isSome
  dataAt _ := cliData
  dataSize := id
  flagReady _ := false

/-- The queue comes after the channel. -/
theorem handleQueueRegister_handles (ans : Answers) (inv : Invocation) (cap size : Nat)
    (queueType : QueueType) (t : Turn) :
    layout.Handles inv (handleQueueRegister ans cap size queueType) t := by
  unfold Layout.Handles handleQueueRegister
  rw [Prog.wp_bind, Prog.wp_gets, Prog.wp_ite, Prog.wp_ite]
  refine ⟨fun _ => handles_fail _, fun hch => ⟨fun _ => handles_fail _, fun hsize => ?_⟩⟩
  refine openQueue_handles ?_ (Decidable.not_not.mp hsize) ?_
  · simpa [layout, Option.isSome_iff_ne_none] using hch
  · rintro _ ⟨⟩
    exact ⟨rfl, Nat.le_refl _⟩

/-- The data region comes after the queue. -/
theorem handleProvideDataRegion_handles (ans : Answers) (cap size : Nat) (t : Turn) :
    layout.Handles (.provideDataRegion cap size) (handleProvideDataRegion ans cap size) t := by
  unfold Layout.Handles handleProvideDataRegion
  rw [Prog.wp_bind, Prog.wp_gets, Prog.wp_ite]
  refine ⟨fun _ => handles_fail _, fun hq => ?_⟩
  refine openData_handles rfl ?_ rfl rfl (by decide)
  simpa [layout, Option.isSome_iff_ne_none] using hq

/-- Clients register a channel and a queue, then provide their data region. -/
theorem handler_step (ans : Answers) (inv : Invocation) (t : Turn) :
    layout.Handles inv ((handlers ans).handler inv) t := by
  cases inv with
  | channelRegisterBidirectional cap virtType => exact registerClient_handles cap virtType
  | queueRegister cap size queueType => exact handleQueueRegister_handles ans _ cap size queueType t
  | provideDataRegion cap size => exact handleProvideDataRegion_handles ans cap size t
  | _ => exact handles_panic _

end SerialVirt

end Smos.Drivers
