/-
Smos.RootServer.Resources — untyped memory, page mapping, the frame table.

`Res` is the state the allocators share: the kernel's objects, the slot
allocator, the untyped table and the frame table. The untyped table's free
lists and the frame table's two lists are linked through their nodes in
the source; here they are lists, front first. A frame whose `list_id` is
`AllocatedList` is one that occurs in `allocated`.

A function that fails half way leaves what it did so far, as the source
does: `alloc_slot` may mark a slot and then fail, `map_frame` drops the
page tables it made.
-/
import Smos.RootServer.CSpace

namespace Smos.RootServer

open Smos.Base

/-- `UT`: a free or used piece of untyped memory and the node that describes it. -/
structure UT where
  ptr : Nat
  cap : Slot
  sizeBits : Nat
  deriving DecidableEq, Repr

/-- The table's entry for one page of physical memory. -/
structure UTEntry where
  cap : Slot
  valid : Bool

structure UTTable where
  firstPaddr : Nat
  untypeds : List UTEntry
  /-- The free list of each size. -/
  freeUntypeds : Nat → List UT
  freeStructures : List Nat
  nextFreeVaddr : Nat

structure FrameTable where
  /-- The capability recorded for a frame. -/
  cap : Nat → Slot
  capacity : Nat
  used : Nat
  byteLength : Nat
  free : List Nat
  allocated : List Nat

structure DeviceMemAllocation where
  paddr : Nat
  size : Nat
  frames : List (Slot × Nat)

structure Res where
  kernel : Kernel
  cspace : CSpace
  ut : UTTable
  frameTable : FrameTable
  deviceAllocations : List DeviceMemAllocation

/-- A program over the resources. -/
abbrev RProg (ε α : Type) := Prog Panic Res ε α

/-! ## Calls into the parts -/

section Parts

variable {ε : Type}

/-- A kernel call that can fail. -/
def kcall (f : Kernel → Except Sel4Error Kernel) : RProg Sel4Error Unit :=
  Prog.zoom Res.kernel (fun r k => { r with kernel := k }) (Prog.ofExcept f)

def kmodify (f : Kernel → Kernel) : RProg ε Unit :=
  Prog.modify fun r => { r with kernel := f r.kernel }

def allocSlot : RProg Sel4Error Slot :=
  Prog.zoom Res.cspace (fun r cs => { r with cspace := cs }) CSpace.allocSlot

def freeSlot (c : Slot) : RProg ε Unit :=
  Prog.zoom Res.cspace (fun r cs => { r with cspace := cs }) (CSpace.freeSlot c)

def deleteCap (c : Slot) : RProg ε Unit := kmodify fun k => k.delete c

def revokeCap (c : Slot) : RProg ε Unit := kmodify fun k => k.revoke c

def copyCap (dst src : Slot) (rights : CapRights) : RProg Sel4Error Unit :=
  kcall fun k => k.copy dst src rights

/-- `mint` with a badge. -/
def mintCap (dst src : Slot) (rights : CapRights) (badge : Nat) : RProg Sel4Error Unit :=
  kcall fun k => k.mint dst src rights badge

def untypedRetype (blueprint : ObjectBlueprint) (c : Slot) : RProg Sel4Error Unit :=
  kcall fun k => k.untypedRetype blueprint c

def modifyUt (f : UTTable → UTTable) : RProg ε Unit :=
  Prog.modify fun r => { r with ut := f r.ut }

def modifyFrameTable (f : FrameTable → FrameTable) : RProg ε Unit :=
  Prog.modify fun r => { r with frameTable := f r.frameTable }

end Parts

/-! ## 4K untypeds and page mapping -/

/-- `alloc_4k_untyped`, whose physical address no caller uses. -/
def alloc4kUntyped : RProg Sel4Error UT := do
  match ← Prog.gets fun r => r.ut.freeUntypeds pageBits4K with
  | [] => Prog.fail .notEnoughMemory
  | ut :: rest =>
    modifyUt fun t => { t with freeUntypeds := Function.update t.freeUntypeds pageBits4K rest }
    pure ut

/-- `UTTable::free`. -/
def utFree {ε : Type} (ut : UT) : RProg ε Unit :=
  modifyUt fun t =>
    { t with
      freeUntypeds :=
        Function.update t.freeUntypeds ut.sizeBits (ut :: t.freeUntypeds ut.sizeBits) }

/-- `retype_map_pt`. -/
def retypeMapPt (vspace : Slot) (vaddr : Nat) (ptSlot : Slot) : RProg Sel4Error Unit := do
  untypedRetype .pt ptSlot
  kcall fun k => k.ptMap ptSlot vspace vaddr

/-- `frame_map` on the capability in a slot. -/
def frameMap (frameCap vspace : Slot) (vaddr : Nat) (rights : CapRights) :
    RProg Sel4Error Unit :=
  kcall fun k => k.frameMap frameCap vspace vaddr rights

/-- The loop of `map_frame`: while the mapping fails for want of a page
table, install one and try again. -/
def mapFrameLoop (frameCap vspace : Slot) (vaddr : Nat) (rights : CapRights) :
    Nat → Except Sel4Error Unit → RProg Sel4Error (Except Sel4Error Unit)
  | n + 1, .error .failedLookup => do
    let _ ← alloc4kUntyped
    let slot ← allocSlot
    if slot = 0 then
      Prog.fail .invalidCapability
    else
      match ← (retypeMapPt vspace vaddr slot).attempt with
      | .ok () =>
        let err ← (frameMap frameCap vspace vaddr rights).attempt
        mapFrameLoop frameCap vspace vaddr rights n err
      | .error e => mapFrameLoop frameCap vspace vaddr rights n (.error e)
  | _, err => pure err

/-- `MAPPING_SLOTS`. -/
def mappingSlots : Nat := 3

/-- `map_frame` without slots of the caller's. -/
def mapFrame (frameCap vspace : Slot) (vaddr : Nat) (rights : CapRights) :
    RProg Sel4Error Unit := do
  let err ← (frameMap frameCap vspace vaddr rights).attempt
  match ← mapFrameLoop frameCap vspace vaddr rights mappingSlots err with
  | .ok () => pure ()
  | .error e => Prog.fail e

/-! ## Smaller untypeds -/

/-- `map_frame_to_next_free_vaddr`. -/
def mapFrameToNextFreeVaddr (frame : Slot) : RProg Sel4Error Nat := do
  let vaddr ← Prog.gets fun r => r.ut.nextFreeVaddr
  mapFrame frame rootVSpaceSlot vaddr .all
  let next ← addU vaddr pageSize4K
  modifyUt fun t => { t with nextFreeVaddr := next }
  pure vaddr

/-- `size_of::<UT>()`. -/
def utSize : Nat := 32

def pushStructure {ε : Type} (ptr : Nat) : RProg ε Unit :=
  modifyUt fun t => { t with freeStructures := ptr :: t.freeStructures }

/-- `pop_mut(self.free_structures)`. -/
def popStructure : RProg Sel4Error Nat := do
  match ← Prog.gets fun r => r.ut.freeStructures with
  | [] => Prog.fail .notEnoughMemory
  | ptr :: rest =>
    modifyUt fun t => { t with freeStructures := rest }
    pure ptr

/-- `ensure_new_structures`: keep at least two spare nodes. -/
def ensureNewStructures : RProg Sel4Error Unit := do
  if (← Prog.gets fun r => r.ut.freeStructures.length) ≤ 1 then
    let _ ← alloc4kUntyped
    let cptr ← allocSlot
    untypedRetype .smallPage cptr
    let newUts ← mapFrameToNextFreeVaddr cptr
    Prog.forEach (fun i => pushStructure (newUts + i * utSize))
      (List.range (pageSize4K / utSize))
  else
    pure ()

/-- Split a larger untyped in two, both of which go on the free list of their size. -/
def utSplit (larger : UT) (sizeBits : Nat) : RProg Sel4Error Unit := do
  ensureNewStructures.catchErr fun e => do
    utFree larger
    Prog.fail e
  let new1 ← popStructure.catchErr fun e => do
    utFree larger
    Prog.fail e
  let cslot1 ← allocSlot.catchErr fun e => do
    utFree larger
    pushStructure new1
    Prog.fail e
  let new2 ← popStructure.catchErr fun e => do
    utFree larger
    pushStructure new1
    freeSlot cslot1
    Prog.fail e
  let cslot2 ← allocSlot.catchErr fun e => do
    utFree larger
    pushStructure new1
    freeSlot cslot1
    pushStructure new2
    Prog.fail e
  (untypedRetype (.other (.untyped sizeBits)) cslot1).catchErr fun e => do
    utFree larger
    pushStructure new1
    freeSlot cslot1
    pushStructure new2
    freeSlot cslot2
    Prog.fail e
  (untypedRetype (.other (.untyped sizeBits)) cslot2).catchErr fun e => do
    utFree larger
    pushStructure new1
    deleteCap cslot1
    freeSlot cslot1
    pushStructure new2
    freeSlot cslot2
    Prog.fail e
  utFree ⟨new1, cslot1, sizeBits⟩
  utFree ⟨new2, cslot2, sizeBits⟩

/-- `UTTable::alloc` for a size of `pageBits4K - n` bits. -/
def utAllocBelow : Nat → RProg Sel4Error UT
  | 0 => alloc4kUntyped
  | n + 1 => do
    let sizeBits := pageBits4K - (n + 1)
    if (← Prog.gets fun r => (r.ut.freeUntypeds sizeBits).isEmpty) then
      let larger ← utAllocBelow n
      utSplit larger sizeBits
    match ← Prog.gets fun r => r.ut.freeUntypeds sizeBits with
    | [] => Prog.panic .unwrapNone
    | ut :: rest =>
      modifyUt fun t => { t with freeUntypeds := Function.update t.freeUntypeds sizeBits rest }
      pure ut

/-- `seL4_EndpointBits`. -/
def endpointBits : Nat := 4

/-- `UTTable::alloc`. -/
def utAlloc (sizeBits : Nat) : RProg Sel4Error UT :=
  if sizeBits > pageBits4K then Prog.fail .invalidArgument
  else if sizeBits < endpointBits then Prog.fail .invalidArgument
  else utAllocBelow (pageBits4K - sizeBits)

/-- `ObjectBlueprint::physical_size_bits`. -/
def ObjectBlueprint.physicalSizeBits : ObjectBlueprint → Nat
  | .smallPage => pageBits4K
  | .pt => pageBits4K
  | .vspace => pageBits4K
  | .other (.untyped sizeBits) => sizeBits
  | .other .endpoint => endpointBits
  | .other .notification => 6
  | .other .reply => 5
  | .other .tcb => 11
  | .other (.schedContext sizeBits) => sizeBits
  | .other (.cnode sizeBits) => sizeBits + 5

/-- `alloc_retype`. -/
def allocRetype (blueprint : ObjectBlueprint) : RProg Sel4Error (Slot × UT) := do
  let ut ← (utAlloc blueprint.physicalSizeBits).catchErr fun _ => Prog.fail .notEnoughMemory
  let cptr ← allocSlot.catchErr fun _ => do
    utFree ut
    Prog.fail .invalidCapability
  (untypedRetype blueprint cptr).catchErr fun _ => do
    utFree ut
    freeSlot cptr
    Prog.fail .illegalOperation
  pure (cptr, ut)

/-- `dealloc_retyped`. -/
def deallocRetyped {ε : Type} (alloc : Slot × UT) : RProg ε Unit := do
  deleteCap alloc.1
  freeSlot alloc.1
  utFree alloc.2

/-! ## The frame table -/

/-- `frame_from_ref(frame_ref).get_cap()`. -/
def frameCap {ε : Type} (frameRef : Nat) : RProg ε Slot := do
  let t ← Prog.gets Res.frameTable
  Prog.assert .assertionFailed (frameRef < t.capacity)
  pure (t.cap frameRef)

/-- Where the root server sees the bytes of a frame. -/
def frameDataAddr (frameRef : Nat) : Nat := frameDataVaddr + frameRef * pageSize4K

/-- Write to the page that `frame_data(frame_ref)` points to. -/
def writeFrameData {ε : Type} (frameRef : Nat) (f : (Nat → Nat) → Nat → Nat) : RProg ε Unit := do
  let t ← Prog.gets Res.frameTable
  Prog.assert .assertionFailed (frameRef < t.capacity)
  let page ← (← Prog.gets fun r => r.kernel.pages rootVSpace (frameDataAddr frameRef))
    |> Prog.unwrap .rootServerFault
  kmodify fun k => k.writeMem page.obj (f (k.mem page.obj))

def zeroPage : Nat → Nat := fun _ => 0

/-- `frame_data[0..4096].fill(0)`. -/
def fillZero : (Nat → Nat) → Nat → Nat := fun _ => zeroPage

/-- `alloc_frame_at`. -/
def allocFrameAt (vaddr : Nat) : RProg Sel4Error Slot := do
  let ut ← alloc4kUntyped
  let cptr ← allocSlot.catchErr fun e => do
    utFree ut
    Prog.fail e
  (untypedRetype .smallPage cptr).catchErr fun e => do
    freeSlot cptr
    utFree ut
    Prog.fail e
  (mapFrame cptr rootVSpaceSlot vaddr .all).catchErr fun e => do
    deleteCap cptr
    freeSlot cptr
    utFree ut
    Prog.fail e
  pure cptr

/-- `size_of::<Frame>()`. -/
def frameSize : Nat := 32

/-- `bump_capacity`. -/
def bumpCapacity : RProg Sel4Error Unit := do
  let t ← Prog.gets Res.frameTable
  let _ ← allocFrameAt (frameTableVaddr + t.byteLength)
  modifyFrameTable fun t =>
    { t with
      byteLength := t.byteLength + pageSize4K
      capacity := (t.byteLength + pageSize4K) / frameSize }

/-- `alloc_fresh_frame`, as a frame reference. -/
def allocFreshFrame : RProg Sel4Error Nat := do
  let t ← Prog.gets Res.frameTable
  Prog.assert .assertionFailed (t.used ≤ t.capacity)
  if t.used = t.capacity then
    bumpCapacity
  let t ← Prog.gets Res.frameTable
  Prog.assert .assertionFailed (t.used < t.capacity)
  let frameRef := t.used
  modifyFrameTable fun t => { t with used := t.used + 1 }
  let cap ← (allocFrameAt (frameDataAddr frameRef)).catchErr fun e => do
    modifyFrameTable fun t => { t with used := t.used - 1 }
    Prog.fail e
  modifyFrameTable fun t => { t with cap := Function.update t.cap frameRef cap }
  pure frameRef

/-- `alloc_frame`: the first free frame, or a fresh one. -/
def allocFrame : RProg Unit Nat := do
  match ← Prog.gets fun r => r.frameTable.free with
  | frameRef :: rest =>
    modifyFrameTable fun t =>
      { t with free := rest, allocated := t.allocated ++ [frameRef] }
    pure frameRef
  | [] =>
    let frameRef ← allocFreshFrame.catchErr fun _ => Prog.fail ()
    modifyFrameTable fun t => { t with allocated := t.allocated ++ [frameRef] }
    pure frameRef

/-- `free_frame`. -/
def freeFrame {ε : Type} (frameRef : Nat) : RProg ε Unit := do
  let t ← Prog.gets Res.frameTable
  Prog.assert .assertionFailed (frameRef < t.capacity)
  Prog.assert .assertionFailed (frameRef ∈ t.allocated)
  modifyFrameTable fun t =>
    { t with free := frameRef :: t.free, allocated := t.allocated.erase frameRef }

/-! ## Device memory -/

/-- `alloc_4k_device`. -/
def alloc4kDevice (paddr : Nat) : RProg Sel4Error UTEntry := do
  let t ← Prog.gets Res.ut
  let offset ← subU paddr t.firstPaddr
  let entry ← t.untypeds[offset / pageSize4K]? |> Prog.unwrap .rootServerFault
  if entry.valid then pure entry else Prog.fail .invalidArgument

/-- `MAX_DEVICE_ALLOCATIONS`. -/
def maxDeviceAllocations : Nat := 64

/-- One page of `alloc_device_mem`. -/
def allocDevicePage {ε : Type} (paddr : Nat) : RProg ε Slot := do
  let ut ← (alloc4kDevice paddr).expect .deviceMemory
  let frameSlot ← allocSlot.expect .deviceMemory
  (kcall fun k => k.deviceRetype ut.cap frameSlot).expect .deviceMemory
  pure frameSlot

/-- The pages of a new device range, in order. -/
def allocDevicePages {ε : Type} : List Nat → RProg ε (List (Slot × Nat))
  | [] => pure []
  | paddr :: paddrs => do
    let slot ← allocDevicePage paddr
    let rest ← allocDevicePages paddrs
    pure ((slot, 0) :: rest)

/-- `(start..start + size).step_by(PAGE_SIZE_4K)`. -/
def pageSteps (start size : Nat) : List Nat :=
  (List.range ((size + (pageSize4K - 1)) / pageSize4K)).map fun i => start + i * pageSize4K

/-- `alloc_device_mem`; frames that are not the frame table's carry the reference 0. -/
def allocDeviceMem {ε : Type} (paddr size : Nat) : RProg ε (List (Slot × Nat)) := do
  let cached ← Prog.gets Res.deviceAllocations
  match cached.find? fun a => paddr == a.paddr && size ≤ a.size with
  | some a => pure a.frames
  | none =>
    let _ ← addU paddr size
    let frames ← allocDevicePages (pageSteps paddr size)
    let cached ← Prog.gets Res.deviceAllocations
    if cached.length < maxDeviceAllocations then
      Prog.modify fun r =>
        { r with deviceAllocations := r.deviceAllocations ++ [⟨paddr, size, frames⟩] }
      pure frames
    else
      Prog.panic .deviceMemory

end Smos.RootServer
