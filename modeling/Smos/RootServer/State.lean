/-
Smos.RootServer.State — the root server's own data.

Windows, views, memory objects, servers, connections and process cells are shared and
mutable (`Rc<RefCell<_>>`): each kind has a heap, and a field that holds an
`Rc` holds an address. A view's cap table and an object's frame table are
radix tables of four levels with 512 entries each, indexed by the page of
a byte offset.

A process's handle table and the handle capability table have 256 entries,
here functions that are asked below 256 only. A published server's
notification ring is the list of the messages not yet dequeued, at most 64.

`State.reply` is the reply object `syscall_loop` receives with. `dma` keeps
the DMA pool's pages and the offsets the pool's allocator has handed out.
-/
import Smos.Base.Bitfield
import Smos.Base.Heap
import Smos.Base.Radix
import Smos.RootServer.Resources

namespace Smos.RootServer

open Smos.Base

/-! ## Page tables of objects and views -/

/-- The index a byte offset has at the level of `shift`. -/
def levelIndex (offset shift : Nat) : Fin 512 := Fin.ofNat 512 (offset >>> shift)

/-- The indices below the top level. -/
def lowerPath (offset : Nat) : List (Fin 512) :=
  [levelIndex offset 30, levelIndex offset 21, levelIndex offset 12]

def path (offset : Nat) : List (Fin 512) := levelIndex offset 39 :: lowerPath offset

abbrev PageTable (α : Type) := Table objLvlMax 3 α

/-- `lookup_frame` and `lookup_cap`. -/
def PageTable.lookupAt {α : Type} (t : PageTable α) (offset : Nat) : Option α :=
  Table.lookup t (path offset)

/-- `insert_frame_at` and `insert_cap_at`; the entry they find taken is `DeleteFirst`. -/
def PageTable.insertAt {α : Type} (t : PageTable α) (offset : Nat) (a : α) :
    Except Sel4Error (PageTable α) :=
  match Table.insert t (levelIndex offset 39) (lowerPath offset) rfl a with
  | some t' => .ok t'
  | none => .error .deleteFirst

/-! ## Resources of a process -/

abbrev WindowRef := Nat

abbrev ViewRef := Nat

abbrev ObjectRef := Nat

abbrev ServerRef := Nat

abbrev ConnectionRef := Nat

/-- A capability and the untyped it was made from. -/
abbrev Alloc := Slot × UT

structure Window where
  start : Nat
  size : Nat
  boundView : Option ViewRef

structure ObjectFrame where
  cap : Slot
  frameRef : Nat
  deriving DecidableEq

/-- `ObjAttributes`. -/
structure ObjAttributes where
  contiguous : Bool
  device : Bool
  eager : Bool
  deriving DecidableEq, Repr

namespace ObjAttributes

def default : ObjAttributes := ⟨false, false, false⟩

/-- `ObjAttributes::from_inner`. -/
def fromInner (n : Nat) : ObjAttributes := ⟨n.testBit 0, n.testBit 1, n.testBit 2⟩

end ObjAttributes

structure AnonymousMemoryObject where
  size : Nat
  rights : CapRights
  frames : PageTable ObjectFrame
  associatedViews : List ViewRef
  attributes : ObjAttributes
  dmaAllocation : Option Nat

namespace AnonymousMemoryObject

def new (size : Nat) (rights : CapRights) (attributes : ObjAttributes) : AnonymousMemoryObject where
  size := size
  rights := rights
  frames := Table.new
  associatedViews := []
  attributes := attributes
  dmaAllocation := none

def lookupFrame (o : AnonymousMemoryObject) (offset : Nat) : Option ObjectFrame :=
  o.frames.lookupAt offset

def insertFrameAt (o : AnonymousMemoryObject) (offset : Nat) (frame : ObjectFrame) :
    Except Sel4Error AnonymousMemoryObject := do
  pure { o with frames := ← o.frames.insertAt offset frame }

end AnonymousMemoryObject

/-- A fault forwarded to a server: the reply object, the address and the faulter's vspace. -/
structure PendingFault where
  reply : Alloc
  addr : Nat
  vspace : Slot

structure View where
  caps : PageTable Slot
  boundWindow : WindowRef
  boundObject : Option ObjectRef
  /-- Server, client id and reference of an externally managed view. -/
  managingServerInfo : Option (ServerRef × Nat × Nat)
  rights : CapRights
  winOffset : Nat
  objOffset : Nat
  pendingFault : Option PendingFault

namespace View

def new (boundWindow : WindowRef) (boundObject : Option ObjectRef)
    (managingServerInfo : Option (ServerRef × Nat × Nat)) (rights : CapRights)
    (winOffset objOffset : Nat) : View where
  caps := Table.new
  boundWindow := boundWindow
  boundObject := boundObject
  managingServerInfo := managingServerInfo
  rights := rights
  winOffset := winOffset
  objOffset := objOffset
  pendingFault := none

def lookupCap (v : View) (offset : Nat) : Option Slot := v.caps.lookupAt offset

def insertCapAt (v : View) (offset : Nat) (cap : Slot) : Except Sel4Error View := do
  pure { v with caps := ← v.caps.insertAt offset cap }

end View

inductive NotificationType where
  | vmFault (clientId reference faultOffset : Nat)
  | connDestroy (connId : Nat)
  | windowDestroy (clientId reference : Nat)
  deriving DecidableEq, Repr

/-- `UserNotificationDispatch`, without the notification itself. -/
structure NotificationDispatch where
  allocatedBits : Bitfield
  badgedNtfns : Nat → Option Slot
  irqHandlerCaps : Nat → Option Slot

structure Connection where
  id : Pid
  server : ServerRef
  badgedEp : Slot
  registered : Bool

structure IRQRegistration where
  irqNumber : Nat
  badgeBit : Nat

structure Server where
  pid : Pid
  unbadgedEp : Alloc
  ntfn : Alloc
  /-- The badged notification the root server signals. -/
  rsBadgedNtfn : Slot
  ntfnBufferView : ViewRef
  /-- The frame whose root server mapping `ntfn_buffer_addr` points to. -/
  ntfnBufferFrame : Nat
  ntfnBuffer : List NotificationType
  ntfnDispatch : NotificationDispatch
  connections : List ConnectionRef

inductive RootServerResource where
  | window (w : WindowRef)
  | object (o : ObjectRef)
  | connRegistration (conn : Nat)
  | windowRegistration (v : ViewRef)
  | irqRegistration (irq : Nat)
  | view (v : ViewRef)
  | connection (conn : Nat)
  | server (srv : ServerRef)
  | process (proc : Nat)
  | reply (reply : Slot)
  | handleCap (ep : Slot)
  | channelAuthority (ntfn : Slot) (bit : Nat)
  deriving DecidableEq, Repr

/-- A table of handles or handle capabilities. -/
abbrev HandleTable := Nat → Option RootServerResource

structure UserCSpace where
  rootCnode : Slot
  untyped : UT

structure UserProcess where
  tcb : Alloc
  pid : Pid
  vspace : Alloc
  ipcBuffer : Slot × Nat
  sharedBuffer : Slot × Nat
  schedContext : Alloc
  cspace : UserCSpace
  faultEp : Slot
  handleTable : HandleTable
  createdHandleCaps : List Nat
  initialWindows : List WindowRef
  windows : List WindowRef
  views : List ViewRef
  waiter : Option Alloc

inductive ProcessType where
  | activeProcess (p : UserProcess)
  | zombieProcess (pid : Pid)

/-- `f` on an active process. -/
def ProcessType.map (f : UserProcess → UserProcess) : ProcessType → ProcessType
  | .activeProcess p => .activeProcess (f p)
  | .zombieProcess pid => .zombieProcess pid

structure DmaPool where
  pstart : Nat
  pages : List Slot
  /-- The offsets allocated and not given back. -/
  allocations : List Nat

/-! ## The state -/

structure State where
  res : Res
  windows : Heap Window
  views : Heap View
  objects : Heap AnonymousMemoryObject
  servers : Heap Server
  connections : Heap Connection
  irqs : Heap IRQRegistration
  /-- The cells of the process table. -/
  procCells : Heap ProcessType
  /-- `PROCS`. -/
  procs : Pid → Option Nat
  handleCaps : HandleTable
  /-- `SERVERS`. -/
  published : List (String × ServerRef)
  dma : DmaPool
  reply : Alloc
  /-- `init_ntfn_buffer` on the bytes of a page; how the ring lies there is for its library to
  say. -/
  initRing : (Nat → Nat) → Nat → Nat := fun old => old

/-- A handler: it answers a value or an `InvocationError`. -/
abbrev Handler (α : Type) := Prog Panic State InvocationError α

/-- A helper of the handlers, which never answers an error itself. -/
abbrev SProg (ε α : Type) := Prog Panic State ε α

section Access

variable {ε α : Type}

/-- Run an allocator on the resources. -/
def onRes (m : RProg ε α) : SProg ε α :=
  Prog.zoom State.res (fun s r => { s with res := r }) m

def getWindow (w : WindowRef) : SProg ε Window := Prog.gets fun s => s.windows w

def getView (v : ViewRef) : SProg ε View := Prog.gets fun s => s.views v

def getObject (o : ObjectRef) : SProg ε AnonymousMemoryObject := Prog.gets fun s => s.objects o

def getServer (srv : ServerRef) : SProg ε Server := Prog.gets fun s => s.servers srv

def modifyWindow (w : WindowRef) (f : Window → Window) : SProg ε Unit :=
  Prog.modify fun s => { s with windows := s.windows.update w f }

def modifyView (v : ViewRef) (f : View → View) : SProg ε Unit :=
  Prog.modify fun s => { s with views := s.views.update v f }

def modifyObject (o : ObjectRef) (f : AnonymousMemoryObject → AnonymousMemoryObject) :
    SProg ε Unit :=
  Prog.modify fun s => { s with objects := s.objects.update o f }

def getConnection (conn : ConnectionRef) : SProg ε Connection :=
  Prog.gets fun s => s.connections conn

def modifyServer (srv : ServerRef) (f : Server → Server) : SProg ε Unit :=
  Prog.modify fun s => { s with servers := s.servers.update srv f }

def modifyConnection (conn : ConnectionRef) (f : Connection → Connection) : SProg ε Unit :=
  Prog.modify fun s => { s with connections := s.connections.update conn f }

/-- `Rc::new(RefCell::new(w))`. -/
def newWindow (x : Window) : SProg ε WindowRef := fun s =>
  .ok s.windows.next { s with windows := s.windows.alloc x }

def newView (x : View) : SProg ε ViewRef := fun s =>
  .ok s.views.next { s with views := s.views.alloc x }

def newObject (x : AnonymousMemoryObject) : SProg ε ObjectRef := fun s =>
  .ok s.objects.next { s with objects := s.objects.alloc x }

def newServer (x : Server) : SProg ε ServerRef := fun s =>
  .ok s.servers.next { s with servers := s.servers.alloc x }

def newConnection (x : Connection) : SProg ε ConnectionRef := fun s =>
  .ok s.connections.next { s with connections := s.connections.alloc x }

def newIrqRegistration (x : IRQRegistration) : SProg ε Nat := fun s =>
  .ok s.irqs.next { s with irqs := s.irqs.alloc x }

/-- The process in a cell; only an active one handles anything. -/
def getProc (p : Nat) : SProg ε UserProcess := do
  match ← Prog.gets fun s => s.procCells p with
  | .activeProcess u => pure u
  | .zombieProcess _ => Prog.panic .zombie

def modifyProc (p : Nat) (f : UserProcess → UserProcess) : SProg ε Unit :=
  Prog.modify fun s => { s with procCells := s.procCells.update p (ProcessType.map f) }

end Access

end Smos.RootServer
