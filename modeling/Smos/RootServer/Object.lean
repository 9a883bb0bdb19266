/-
Smos.RootServer.Object — anonymous memory objects.

Frames of four kinds live in the same table: those faults put in, those an
EAGER object takes from the frame table at once, and those of a CONTIGUOUS
or a DEVICE object, which are not the frame table's and carry the
placeholder reference 0. `cleanup_frame_table` frees the reference of
every one of them, and leaves the table filled.

The offset allocator of the DMA pool is a library; its answer for a
request is an argument of `handleObjCreate`.
-/
import Smos.RootServer.Window

namespace Smos.RootServer

open Smos.Base

structure ObjCreateArgs where
  name : Option String
  size : Nat
  rights : CapRights
  attributes : ObjAttributes
  returnCap : Bool

/-- `str::parse::<usize>`: an optional `+` and at least one digit. -/
def parseUsize (s : String) : Option Nat :=
  let digits := match s.toList with
    | '+' :: rest => rest
    | cs => cs
  if digits = [] ∨ digits.any (fun c => !c.isDigit) then none
  else
    let n := digits.foldl (fun n c => 10 * n + (c.toNat - '0'.toNat)) 0
    if n < usizeBound then some n else none

/-- `insert_frame_at(...).expect(...)`. -/
def insertFrame {ε : Type} (o : ObjectRef) (offset : Nat) (frame : ObjectFrame) : SProg ε Unit := do
  let object ← getObject o
  match object.insertFrameAt offset frame with
  | .ok object => modifyObject o fun _ => object
  | .error _ => Prog.panic .insertFrame

/-- Insert frames at consecutive pages. -/
def insertFrames {ε : Type} (o : ObjectRef) : Nat → List ObjectFrame → SProg ε Unit
  | _, [] => pure ()
  | offset, frame :: frames => do
    insertFrame o offset frame
    insertFrames o (offset + pageSize4K) frames

/-- `allocate_contig_pages(...).expect(...)`, with the allocator's answer. -/
def allocateContigPages {ε : Type} (nPages : Nat) (answer : Option Nat) :
    SProg ε (Nat × List Slot) := do
  if nPages < 2 ^ 32 then
    let offset ← answer |> Prog.unwrap .unwrapNone
    let pages ← Prog.gets fun s => s.dma.pages
    if offset + nPages ≤ pages.length then
      Prog.modify fun s => { s with dma := { s.dma with allocations := offset :: s.dma.allocations } }
      pure (offset, (pages.drop offset).take nPages)
    else
      Prog.panic .indexOutOfBounds
  else
    Prog.panic .unwrapNone

/-- One page of an EAGER object. -/
def eagerPage {ε : Type} (o : ObjectRef) (i : Nat) : SProg ε Unit := do
  let frame ← onRes (allocFrame.expect .allocFrame)
  let cap ← onRes (frameCap frame)
  insertFrame o (i * pageSize4K) ⟨cap, frame⟩

def handleObjCreate (p : Nat) (args : ObjCreateArgs) (dmaAnswer : Option Nat) :
    Handler SMOSReply := do
  if args.name.isSome ∧ args.attributes.device = false then
    Prog.fail .invalidArguments
  else if args.size = 0 ∨ args.size % pageSize4K ≠ 0 then
    Prog.fail .invalidArguments
  else if args.size / pageSize4K ≥ maxObjSize then
    Prog.fail .invalidArguments
  else
    let o ← newObject (.new args.size args.rights args.attributes)
    if args.attributes.device then
      let name ← args.name |> Prog.unwrap .unwrapNone
      let paddr ← parseUsize name |> Prog.unwrap .unwrapNone
      let frames ← onRes (allocDeviceMem paddr args.size)
      insertFrames o 0 (frames.map fun frame => ⟨frame.1, frame.2⟩)
    else
      let nPages := args.size / pageSize4K
      if args.attributes.contiguous then
        let (allocation, frames) ← allocateContigPages nPages dmaAnswer
        modifyObject o fun object => { object with dmaAllocation := some allocation }
        insertFrames o 0 (frames.map fun frame => ⟨frame, 0⟩)
      else if args.attributes.eager then
        Prog.forEach (eagerPage o) (List.range nPages)
    let idx ← genericAllocateHandle p args.returnCap
    setAllocatedHandle p args.returnCap idx (.object o)
    if args.returnCap then
      modifyProc p fun u => { u with createdHandleCaps := u.createdHandleCaps ++ [idx] }
    pure (.objCreate (newHandle args.returnCap idx))

/-- `cleanup_frame_table`: the frames are revoked when the object has views. -/
def cleanupFrameTable {ε : Type} (o : ObjectRef) : SProg ε Unit := do
  let object ← getObject o
  let revoke := object.associatedViews.length ≠ 0
  object.frames.root.forEach fun frame =>
    if revoke then do
      onRes (revokeCap frame.cap)
      onRes (freeFrame frame.frameRef)
    else
      onRes (freeFrame frame.frameRef)

def handleObjDestroyInternal {ε : Type} (o : ObjectRef) (forceDelete : Bool) : SProg ε Unit := do
  let object ← getObject o
  if object.associatedViews ≠ [] ∧ forceDelete = false then
    Prog.panic .notImplemented
  else
    cleanupFrameTable o

def handleObjDestroy (p : Nat) (hndl : HandleArg) : Handler SMOSReply := do
  let handle ← genericGetHandle p hndl 0
  match ← handle |> Prog.unwrap .unwrapNone with
  | .object o =>
    handleObjDestroyInternal o false
    genericCleanupHandle p hndl 0
    pure .objDestroy
  | _ => genericInvalidHandleError hndl 0

/-- `allocation_paddr`. -/
def DmaPool.allocationPaddr (pool : DmaPool) (offset : Nat) : Nat :=
  pool.pstart + offset * pageSize4K

def handleObjStat (p : Nat) (hndl : HandleArg) : Handler SMOSReply := do
  let handle ← genericGetHandle p hndl 0
  match ← handle |> Prog.unwrap .unwrapNone with
  | .object o =>
    let object ← getObject o
    let pool ← Prog.gets State.dma
    pure (.objStat object.size (object.dmaAllocation.map pool.allocationPaddr))
  | _ => genericInvalidHandleError hndl 0

end Smos.RootServer
