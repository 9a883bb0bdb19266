/-
Smos.FileServer.Basic — the boot file server's own data.

The file server answers object invocations with the files that are built
into its image. It keeps at most 16 clients with 16 handles each, and a
table of 16 handle capabilities that all of them share. Objects and views
are shared cells, as in the root server.

What lies outside the file server is a parameter `Env`: the invocations it
makes of the root server, and the allocator of the windows for its
clients' shared buffers. `ρ` is the state they act on.
-/
import Smos.Base.Heap
import Smos.RootServer.Basic

namespace Smos.FileServer

open Smos.Base
open Smos.RootServer (InvocationError CapRights pageSize4K usizeBound)

/-- `MAX_HANDLES`. -/
def maxHandles : Nat := 16

/-- `MAX_HANDLE_CAPS`. -/
def maxHandleCaps : Nat := 16

/-- `MAX_CLIENTS`. -/
def maxClients : Nat := 16

/-- `SHARED_BUFFER_BASE`. -/
def sharedBufferBase : Nat := 0xC0000

/-- Where a run of the file server panics. -/
inductive FsPanic where
  /-- The root server panicked in an invocation. -/
  | rootServer (p : RootServer.Panic)
  /-- `expect("BFS corruption: Invalid client ID")`. -/
  | clientId
  /-- `expect("BFS corruption: Invalid handle from vm fault")`. -/
  | handle
  /-- `panic!("BFS corruption: Invalid handle type from vm fault")`. -/
  | handleType
  | unwrapNone
  | indexOutOfBounds
  | arithmeticOverflow
  | notImplemented
  /-- An `expect` on what the root server answered. -/
  | callFailed
  | deleteClient
  | wrappedHandleCap
  deriving DecidableEq, Repr

/-! ## Files -/

/-- A file of the image: `include_bytes_aligned!(4096, ..)` puts it at a page of its own. -/
structure File where
  name : String
  data : Nat
  length : Nat
  aligned : data % pageSize4K = 0
  fits : data + length ≤ usizeBound
  deriving DecidableEq

/-- The bytes of the pages that hold the file. -/
def File.pagesLength (f : File) : Nat := (f.length + (pageSize4K - 1)) / pageSize4K * pageSize4K

/-- The address lies in the pages that hold the file's data. -/
def File.Holds (f : File) (addr : Nat) : Prop := f.data ≤ addr ∧ addr < f.data + f.pagesLength

instance (f : File) (addr : Nat) : Decidable (f.Holds addr) := inferInstanceAs (Decidable (_ ∧ _))

/-! ## The state -/

abbrev ObjectRef := Nat

abbrev ViewRef := Nat

structure Object where
  file : File
  associatedViews : List ViewRef

structure ViewData where
  object : ObjectRef
  size : Nat
  winOffset : Nat
  objOffset : Nat
  rights : CapRights
  registrationHndl : Nat

inductive BFSResource where
  | object (o : ObjectRef)
  | view (v : ViewRef)
  deriving DecidableEq, Repr

/-- The window and view of a client's shared buffer, and what the window allocator answered. -/
structure SharedBuffer where
  address : Nat
  size : Nat
  window : Nat
  view : Nat
  allocation : Nat

structure Client where
  id : Nat
  sharedBuffer : Option SharedBuffer
  handles : List (Option BFSResource)
  connRegistrationHndl : Nat

structure State (ρ : Type) where
  root : ρ
  files : List File
  objects : Heap Object
  views : Heap ViewData
  /-- `CLIENTS`. -/
  clients : List (Option Client)
  /-- The handles of the handle capability table. -/
  handleCaps : List (Option BFSResource)

/-- An invocation of the root server. -/
abbrev Call (ρ α : Type) := Prog RootServer.Panic ρ InvocationError α

/-- What the file server calls. A capability is named by the entry of the root server's table
that it was made for. -/
structure Env (ρ : Type) where
  connRegister (clientId : Nat) : Call ρ Nat
  connDeregister (hndl : Nat) : Call ρ Unit
  windowCreate (start size : Nat) : Call ρ Nat
  windowDestroy (hndl : Nat) : Call ρ Unit
  view (window objectCap winOffset objOffset size : Nat) (rights : CapRights) : Call ρ Nat
  unview (hndl : Nat) : Call ρ Unit
  windowRegister (windowCap clientId reference : Nat) : Call ρ Nat
  windowDeregister (hndl : Nat) : Call ρ Unit
  pageMap (registrationHndl viewOffset contentVaddr : Nat) : Call ρ Unit
  /-- The window allocator. -/
  allocate : ρ → Option Nat × ρ
  free : Nat → ρ → ρ

/-- The file server's handlers. -/
abbrev Handler (ρ α : Type) := Prog FsPanic (State ρ) InvocationError α

abbrev FsProg (ρ ε α : Type) := Prog FsPanic (State ρ) ε α

section Access

variable {ρ ε α : Type}

/-- Invoke the root server. -/
def call (m : Call ρ α) : Handler ρ α := fun s =>
  match m s.root with
  | .ok a r => .ok a { s with root := r }
  | .err e r => .err e { s with root := r }
  | .panic p => .panic (.rootServer p)

/-- `find_client_from_id`. -/
def findClientFromId (s : State ρ) (id : Nat) : Option Nat :=
  s.clients.findIdx? fun client => client.map Client.id == some id

/-- `find_client_slot`. -/
def findClientSlot (s : State ρ) : Option Nat := s.clients.findIdx? Option.isNone

/-- The client in a slot that has one. -/
def getClient (k : Nat) : FsProg ρ ε Client := do
  (← Prog.gets fun s => (s.clients[k]?).join) |> Prog.unwrap .unwrapNone

def setClient (k : Nat) (client : Option Client) : FsProg ρ ε Unit :=
  Prog.modify fun s => { s with clients := s.clients.set k client }

def getObject (o : ObjectRef) : FsProg ρ ε Object := Prog.gets fun s => s.objects o

def getView (v : ViewRef) : FsProg ρ ε ViewData := Prog.gets fun s => s.views v

def modifyObject (o : ObjectRef) (f : Object → Object) : FsProg ρ ε Unit :=
  Prog.modify fun s => { s with objects := s.objects.update o f }

def newObject (x : Object) : FsProg ρ ε ObjectRef := fun s =>
  .ok s.objects.next { s with objects := s.objects.alloc x }

def newView (x : ViewData) : FsProg ρ ε ViewRef := fun s =>
  .ok s.views.next { s with views := s.views.alloc x }

def addU (a b : Nat) : FsProg ρ ε Nat :=
  if a + b < usizeBound then Prog.pure (a + b) else Prog.panic .arithmeticOverflow

end Access

/-! ## Handles -/

/-- `ServerReceivedHandleOrHandleCap`. A wrapped capability is one of the root server's. -/
inductive HandleArg where
  | handle (idx : Nat)
  | unwrappedHandleCap (idx : Nat)
  | wrappedHandleCap (cap : Nat)
  deriving DecidableEq, Repr

inductive HandleOrHandleCap where
  | handle (idx : Nat)
  | handleCap (idx : Nat)
  deriving DecidableEq, Repr

section Handles

variable {ρ ε : Type}

/-- `get_handle` and `get_handle_mut` of a client. -/
def getHandle (k idx : Nat) : FsProg ρ Unit (Option BFSResource) := do
  if idx > maxHandles then
    Prog.fail ()
  else
    let client ← getClient k
    client.handles[idx]? |> Prog.unwrap .indexOutOfBounds

/-- `allocate_handle` of a client. -/
def allocateHandle (k : Nat) : Handler ρ Nat := do
  let client ← getClient k
  client.handles.findIdx? Option.isNone |> Prog.okOr .outOfHandles

def setHandle (k idx : Nat) (h : Option BFSResource) : FsProg ρ ε Unit := do
  let client ← getClient k
  setClient k (some { client with handles := client.handles.set idx h })

/-- `cleanup_handle` of a client. -/
def cleanupHandle (k idx : Nat) : FsProg ρ Unit Unit := do
  if idx > maxHandles then
    Prog.fail ()
  else
    let client ← getClient k
    Prog.assert .indexOutOfBounds (idx < client.handles.length)
    setHandle k idx none

/-- `get_handle_cap_mut`. -/
def getHandleCap (idx : Nat) : FsProg ρ Unit (Option BFSResource) := do
  (← Prog.gets fun s => s.handleCaps[idx]?) |> Prog.okOr ()

/-- `allocate_handle_cap`. -/
def allocateHandleCap : Handler ρ Nat := do
  (← Prog.gets fun s => s.handleCaps.findIdx? Option.isNone) |> Prog.okOr .outOfHandleCaps

def setHandleCap (idx : Nat) (h : Option BFSResource) : FsProg ρ ε Unit :=
  Prog.modify fun s => { s with handleCaps := s.handleCaps.set idx h }

/-- `cleanup_handle_cap`; its revoke takes the copies clients hold. -/
def cleanupHandleCap (idx : Nat) : FsProg ρ Unit Unit := do
  let _ ← getHandleCap idx
  setHandleCap idx none

/-- `generic_allocate_handle`. -/
def genericAllocateHandle (k : Nat) (returnCap : Bool) : Handler ρ Nat :=
  if returnCap then allocateHandleCap else allocateHandle k

/-- `generic_get_handle`. -/
def genericGetHandle (k : Nat) (hndl : HandleArg) (whichArg : Nat) :
    Handler ρ (Option BFSResource) :=
  match hndl with
  | .handle idx => (getHandle k idx).catchErr fun _ => Prog.fail (.invalidHandle whichArg)
  | .unwrappedHandleCap idx =>
    (getHandleCap idx).catchErr fun _ => Prog.fail (.invalidHandleCapability whichArg)
  | .wrappedHandleCap _ => Prog.panic .wrappedHandleCap

/-- `generic_invalid_handle_error`. -/
def genericInvalidHandleError {α : Type} (hndl : HandleArg) (whichArg : Nat) : Handler ρ α :=
  match hndl with
  | .handle _ => Prog.fail (.invalidHandle whichArg)
  | .unwrappedHandleCap _ => Prog.fail (.invalidHandleCapability whichArg)
  | .wrappedHandleCap _ => Prog.panic .wrappedHandleCap

/-- `generic_cleanup_handle`. -/
def genericCleanupHandle (k : Nat) (hndl : HandleArg) (whichArg : Nat) : Handler ρ Unit :=
  match hndl with
  | .handle idx => (cleanupHandle k idx).catchErr fun _ => Prog.fail (.invalidHandle whichArg)
  | .unwrappedHandleCap idx =>
    (cleanupHandleCap idx).catchErr fun _ => Prog.fail (.invalidHandleCapability whichArg)
  | .wrappedHandleCap _ => Prog.panic .wrappedHandleCap

end Handles

end Smos.FileServer
