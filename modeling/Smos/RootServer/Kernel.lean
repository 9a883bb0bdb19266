/-
Smos.RootServer.Kernel — the seL4 objects the root server works with.

The kernel is outside the repository; this is its documented behaviour,
as far as the root server relies on it:

* `caps` is the root server's cnode. A frame capability knows its frame
  object, whether it is the one made by retype (`orig`, the only revocable
  one), the access it carries and the page it is mapped at.
* retype makes a new object with an original capability, if the untyped has
  room for it; a new frame is zero. copy makes a further capability of the
  same object, unmapped, with masked rights. delete removes and unmaps one
  capability; deleting an empty slot succeeds. revoke on an original deletes
  every other capability of its frame, and unmaps them.
* mint makes a badged capability of an endpoint or a notification, with the
  rights it is given. A badge cannot be changed.
* a page table hierarchy has three levels below the address space; mapping
  a frame needs all three, mapping a page table installs the first one
  missing. Where a page is mapped already, the kernel refuses to map another
  one or puts it in its place (`overmaps`, as on aarch64). The root server
  never maps a page of its own twice, so there only the refusal is kept.

Whether an untyped has room and whether a page can be replaced are not for
the root server to say: the fields `room` and `overmaps` leave both open.

`log` records the frame mappings, the replies and the endpoint capabilities
minted into the cspaces of processes, in the order the kernel carried them
out. It is a history variable, nothing reads it.
-/
import Mathlib.Logic.Function.Basic
import Smos.RootServer.Basic

namespace Smos.RootServer

abbrev Slot := Nat

abbrev VSpaceId := Nat

/-- `sel4::init_thread::slot::VSPACE`. -/
def rootVSpaceSlot : Slot := 3

/-- The root server's own address space. -/
def rootVSpace : VSpaceId := 0

abbrev Pid := Nat

/-- `ObjectBlueprint`, without the pages and page tables. -/
inductive ObjectKind where
  | untyped (sizeBits : Nat)
  | endpoint
  | notification
  | reply
  | tcb
  | schedContext (sizeBits : Nat)
  | cnode (sizeBits : Nat)
  deriving DecidableEq, Repr

/-- `ObjectBlueprint`. -/
inductive ObjectBlueprint where
  | smallPage
  | pt
  | vspace
  | other (kind : ObjectKind)
  deriving DecidableEq, Repr

inductive Cap where
  | frame (obj : Nat) (orig : Bool) (access : Access) (mapped : Option (VSpaceId × Nat))
  | pageTable (mapped : Bool)
  | vspace (vs : VSpaceId)
  | object (obj : Nat) (kind : ObjectKind)
  | badged (obj : Nat) (kind : ObjectKind) (badge : Nat) (rights : CapRights)
  | irqHandler (irq : Nat)
  deriving DecidableEq, Repr

/-- The original capability of a new object. -/
def ObjectBlueprint.newCap (obj : Nat) : ObjectBlueprint → Cap
  | .smallPage => .frame obj true ⟨true, true⟩ none
  | .pt => .pageTable false
  | .vspace => .vspace obj
  | .other kind => .object obj kind

structure PageEntry where
  obj : Nat
  access : Access
  deriving DecidableEq, Repr

inductive KernelEvent where
  /-- The capability in `slot` was mapped. -/
  | map (slot : Slot) (vs : VSpaceId) (vaddr : Nat) (entry : PageEntry)
  /-- The thread blocked on a reply object was resumed. -/
  | reply (slot : Slot) (pid : Pid)
  /-- The capability was minted into the cspace of the process. -/
  | grant (pid : Pid) (cap : Cap)
  deriving DecidableEq, Repr

structure Kernel where
  caps : Slot → Option Cap
  /-- Objects below `nextObj` have been created. -/
  nextObj : Nat
  pages : VSpaceId → Nat → Option PageEntry
  /-- Which page tables exist: address space, bits translated below, index. -/
  tables : VSpaceId → Nat → Nat → Bool
  /-- The bytes of each frame. -/
  mem : Nat → Nat → Nat
  /-- The processes whose thread waits on the reply object in a slot. -/
  waiting : List (Slot × Pid)
  /-- The thread objects that have a notification bound to them. -/
  boundTcbs : List Nat
  /-- The interrupts that have a handler capability. -/
  irqs : List Nat
  /-- The device untypeds a page was made from; such pages are never deleted. -/
  usedDevice : List Slot
  /-- `seL4_UserTop` of the build's kernel configuration. -/
  userTop : Nat
  log : List KernelEvent
  /-- The device untyped that a page was made from, which says where the page lies. -/
  madeFrom : Nat → Option Slot := fun _ => none
  /-- Whether there is room for the object that is made next. -/
  room : ObjectBlueprint → Nat → Bool := fun _ _ => true
  /-- Whether a page may take the place of another one, for processes. -/
  overmaps : Bool := false

namespace Kernel

variable (k : Kernel)

def setCap (c : Slot) (cap : Option Cap) : Kernel :=
  { k with caps := Function.update k.caps c cap }

def setPage (vs : VSpaceId) (vaddr : Nat) (e : Option PageEntry) : Kernel :=
  { k with pages := Function.update k.pages vs (Function.update (k.pages vs) vaddr e) }

/-- Remove the mapping a frame capability was used for. -/
def unmap (obj : Nat) : Option (VSpaceId × Nat) → Kernel
  | none => k
  | some (vs, vaddr) =>
    if (k.pages vs vaddr).map PageEntry.obj = some obj then k.setPage vs vaddr none else k

/-! ## Capability operations -/

/-- `seL4_CNode_Delete`. -/
def delete (c : Slot) : Kernel :=
  match k.caps c with
  | none => k
  | some (.frame obj _ _ m) => (k.unmap obj m).setCap c none
  | some (.vspace vs) =>
    { k.setCap c none with pages := Function.update k.pages vs fun _ => none }
  | some (.irqHandler irq) => { k.setCap c none with irqs := k.irqs.erase irq }
  | some _ => k.setCap c none

/-- The capability is one of `obj`'s, other than in `c`. -/
def isCopyOf (obj : Nat) (c c' : Slot) : Bool :=
  match k.caps c' with
  | some (.frame obj' _ _ _) => obj' == obj && c' != c
  | _ => false

/-- `seL4_CNode_Revoke`. -/
def revoke (c : Slot) : Kernel :=
  match k.caps c with
  | some (.frame obj true _ m) =>
    { k with
      caps := fun c' => if k.isCopyOf obj c c' then none else k.caps c'
      pages := fun vs vaddr =>
        match k.pages vs vaddr with
        | some e => if e.obj = obj ∧ m ≠ some (vs, vaddr) then none else some e
        | none => none }
  | _ => k

/-- `seL4_CNode_Copy` inside the root cnode. -/
def copy (dst src : Slot) (rights : CapRights) : Except Sel4Error Kernel :=
  match k.caps src with
  | none => .error .failedLookup
  | some cap =>
    if (k.caps dst).isSome then .error .deleteFirst
    else
      match cap with
      | .frame obj _ access _ =>
        .ok (k.setCap dst (some (.frame obj false (access.mask rights) none)))
      | .pageTable true => .error .illegalOperation
      | cap => .ok (k.setCap dst (some cap))

/-- `seL4_CNode_Mint` of an endpoint or notification with a badge. -/
def mint (dst src : Slot) (rights : CapRights) (badge : Nat) : Except Sel4Error Kernel :=
  match k.caps src with
  | none => .error .failedLookup
  | some (.object obj kind) =>
    if (k.caps dst).isSome then .error .deleteFirst
    else .ok (k.setCap dst (some (.badged obj kind badge rights)))
  | some _ => .error .illegalOperation

/-- The next object, with its capability in `c`. A frame is cleared. -/
def newObject (blueprint : ObjectBlueprint) (c : Slot) : Kernel :=
  { k.setCap c (some (blueprint.newCap k.nextObj)) with
    nextObj := k.nextObj + 1
    mem := if blueprint = .smallPage then Function.update k.mem k.nextObj fun _ => 0 else k.mem }

/-- `seL4_Untyped_Retype` of one object. -/
def untypedRetype (blueprint : ObjectBlueprint) (c : Slot) : Except Sel4Error Kernel :=
  if (k.caps c).isSome then .error .deleteFirst
  else if k.room blueprint k.nextObj = false then .error .notEnoughMemory
  else .ok (k.newObject blueprint c)

/-- `seL4_Untyped_Retype` of a device page, which the kernel does not clear. -/
def deviceRetype (ut c : Slot) : Except Sel4Error Kernel :=
  if (k.caps c).isSome then .error .deleteFirst
  else if ut ∈ k.usedDevice then .error .notEnoughMemory
  else
    .ok { k.setCap c (some (.frame k.nextObj true ⟨true, true⟩ none)) with
          nextObj := k.nextObj + 1
          usedDevice := ut :: k.usedDevice
          madeFrom := Function.update k.madeFrom k.nextObj (some ut) }

/-! ## Mapping -/

/-- The levels of the page table hierarchy, from the top. -/
def tableShifts : List Nat := [39, 30, 21]

def hasTables (vs : VSpaceId) (vaddr : Nat) : Bool :=
  tableShifts.all fun sh => k.tables vs sh (vaddr >>> sh)

/-- `seL4_ARM_PageTable_Map`. -/
def ptMap (c vspace : Slot) (vaddr : Nat) : Except Sel4Error Kernel :=
  match k.caps c, k.caps vspace with
  | some (.pageTable false), some (.vspace vs) =>
    match tableShifts.find? fun sh => !k.tables vs sh (vaddr >>> sh) with
    | none => .error .deleteFirst
    | some sh =>
      .ok { k.setCap c (some (.pageTable true)) with
            tables := Function.update k.tables vs
              (Function.update (k.tables vs) sh
                (Function.update (k.tables vs sh) (vaddr >>> sh) true)) }
  | some (.pageTable true), _ => .error .invalidCapability
  | _, _ => .error .invalidCapability

/-- Enter a mapping and log it. -/
def enterPage (c : Slot) (obj : Nat) (orig : Bool) (access : Access) (vs : VSpaceId)
    (vaddr : Nat) (rights : CapRights) : Kernel :=
  let e : PageEntry := ⟨obj, access.mask rights⟩
  { (k.setCap c (some (.frame obj orig access (some (vs, vaddr))))).setPage vs vaddr (some e) with
    log := k.log ++ [.map c vs vaddr e] }

/-- A mapping is refused where there is one. -/
def refuses (vs : VSpaceId) : Bool := vs == rootVSpace || !k.overmaps

/-- `seL4_ARM_Page_Map`: a mapped frame may only be mapped again where it is. -/
def frameMap (c vspace : Slot) (vaddr : Nat) (rights : CapRights) : Except Sel4Error Kernel :=
  match k.caps c, k.caps vspace with
  | some (.frame obj orig access m), some (.vspace vs) =>
    if vaddr % pageSize4K ≠ 0 then .error .alignmentError
    else
      match m with
      | some (vs', vaddr') =>
        if vs' ≠ vs then .error .invalidCapability
        else if vaddr' ≠ vaddr then .error .invalidArgument
        else .ok (k.enterPage c obj orig access vs vaddr rights)
      | none =>
        if k.userTop ≤ vaddr then .error .invalidArgument
        else if k.hasTables vs vaddr = false then .error .failedLookup
        else if (k.pages vs vaddr).isSome ∧ k.refuses vs then .error .deleteFirst
        else .ok (k.enterPage c obj orig access vs vaddr rights)
  | _, _ => .error .invalidCapability

/-! ## Threads and memory -/

/-- `seL4_TCB_BindNotification`: a thread has one bound notification. -/
def bindNotification (tcb : Slot) : Except Sel4Error Kernel :=
  match k.caps tcb with
  | some (.object obj .tcb) =>
    if obj ∈ k.boundTcbs then .error .illegalOperation
    else .ok { k with boundTcbs := obj :: k.boundTcbs }
  | _ => .error .invalidCapability

/-- `seL4_TCB_UnbindNotification`. -/
def unbindNotification (tcb : Slot) : Kernel :=
  match k.caps tcb with
  | some (.object obj .tcb) => { k with boundTcbs := k.boundTcbs.erase obj }
  | _ => k

/-- `seL4_IRQControl_GetTrigger`: an interrupt has one handler. -/
def irqControlGet (dst irq : Nat) : Except Sel4Error Kernel :=
  if irq ∈ k.irqs then .error .revokeFirst
  else if (k.caps dst).isSome then .error .deleteFirst
  else .ok { k.setCap dst (some (.irqHandler irq)) with irqs := irq :: k.irqs }

/-- `seL4_IRQHandler_SetNotification`: the notification must be writable. -/
def irqHandlerSetNotification (handler ntfn : Slot) : Except Sel4Error Kernel :=
  match k.caps handler, k.caps ntfn with
  | some (.irqHandler _), some (.badged _ .notification _ rights) =>
    if rights.write then .ok k else .error .invalidCapability
  | _, _ => .error .invalidCapability

/-- `seL4_CNode_Mint` of an endpoint into the cspace of a process. -/
def mintTo (pid : Pid) (src : Slot) (rights : CapRights) (badge : Nat) :
    Except Sel4Error Kernel :=
  match k.caps src with
  | none => .error .failedLookup
  | some (.object obj kind) =>
    .ok { k with log := k.log ++ [.grant pid (.badged obj kind badge rights)] }
  | some _ => .error .illegalOperation

/-- `seL4_CNode_Copy` of the cspace of a process into itself, which leaves no record. -/
def copyTo (src : Slot) : Except Sel4Error Kernel :=
  if (k.caps src).isSome then .ok k else .error .failedLookup

/-- A thread blocks on the reply object in `c`. -/
def block (c : Slot) (pid : Pid) : Kernel :=
  { k with waiting := (c, pid) :: k.waiting }

/-- `seL4_Send` on a reply object. -/
def replySend (c : Slot) : Kernel :=
  match k.waiting.find? fun e => e.1 == c with
  | none => k
  | some e =>
    { k with waiting := k.waiting.erase e, log := k.log ++ [.reply c e.2] }

/-- The thread of the process waits for a reply. -/
def blocked (pid : Pid) : Bool := k.waiting.any fun e => e.2 == pid

/-- Overwrite the bytes of a frame. -/
def writeMem (obj : Nat) (bytes : Nat → Nat) : Kernel :=
  { k with mem := Function.update k.mem obj bytes }

end Kernel

end Smos.RootServer
