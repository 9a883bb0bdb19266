/-
Smos.RootServer.BootMemory — how bootstrap divides the memory.

The kernel lists the untypeds of the machine in the boot info. Bootstrap
takes the memory for its own structures off one of them and that for the
DMA pool off one of them, and turns what is left into 4K untypeds, which it
records in the untyped table by physical address. `bootinfo_avail_bytes`
is its own account of what is left of each; the kernel keeps a mark in each
untyped, and a `Carving` says what lies where.

Left out is what has no influence on the addresses: mapping the frames,
moving the capabilities to the new cspace, and the bit fields of its slots
(`recordUsed` fills them in at the end).
-/
import Smos.Base.Watermark
import Smos.RootServer.Bootstrap
import Smos.RootServer.Object
import Smos.RootServer.UserCSpace
import Smos.RootServer.UtTable

namespace Smos.RootServer

open Smos.Base

/-! ## Sizes -/

/-- `DMA_RESERVATION_SIZE_BITS`. -/
def dmaReservationSizeBits : Nat := 26

/-- `DMA_RESERVATION_NUM_PAGES`; nothing should run the loops over it. -/
@[irreducible] def dmaReservationNumPages : Nat := 2 ^ dmaReservationSizeBits / pageSize4K

theorem dmaReservation_size :
    dmaReservationNumPages * 2 ^ pageBits4K = 2 ^ dmaReservationSizeBits := by
  unfold dmaReservationNumPages
  decide

/-- `INITIAL_TASK_CNODE_SIZE_BITS`. -/
def initialTaskCnodeSizeBits : Nat := 18

/-- `seL4_PageTableIndexBits`. -/
def pageTableIndexBits : Nat := 9

/-- `seL4_MaxUntypedBits`. -/
def maxUntypedBits : Nat := 47

/-- `BYTES_TO_SIZE_BITS`: the position of the highest bit. -/
def bytesToSizeBits (bytes : Nat) : Nat := Nat.log2 bytes

/-- `BYTES_TO_4K_PAGES`. -/
def bytesTo4kPages (b : Nat) : Nat := b / pageSize4K + if b % pageSize4K > 0 then 1 else 0

/-- `ROUND_UP`. -/
def roundUpBits (n b : Nat) : Nat := if n = 0 then 0 else ((n - 1) >>> b + 1) <<< b

theorem roundUpBits_eq (n b : Nat) : roundUpBits n b = alignUp n b := by
  unfold roundUpBits
  split
  · subst n
    rw [alignUp_zero]
  · have hpos : 0 < 2 ^ b := Nat.two_pow_pos b
    have hsum : n + (2 ^ b - 1) = n - 1 + 2 ^ b := by omega
    rw [alignUp, hsum, Nat.add_div_right _ hpos, Nat.shiftLeft_eq, Nat.shiftRight_eq_div_pow]

/-- `sel4::BootInfo`: the untypeds and the empty slots. -/
structure BootInfo where
  untypedList : List UntypedDesc
  emptyStart : Slot
  emptyEnd : Slot
  deriving DecidableEq, Repr

/-- `CONFIG_RETYPE_FAN_OUT_LIMIT`, the number of objects one retype may make. -/
structure KernelConfig where
  retypeFanOutLimit : Nat
  pos : 0 < retypeFanOutLimit

/-- `ut_pages_for_region`. -/
def utPagesForRegion (memory : Nat × Nat) : Nat :=
  bytesTo4kPages ((memory.2 - memory.1) / pageSize4K * utSize)

/-- `n_pts`, with a buffer of 1. -/
def nPts (utPages : Nat) : Nat := utPages >>> pageTableIndexBits + 1

/-- `n_dma_pts`. -/
def nDmaPts : Nat := dmaReservationNumPages >>> pageTableIndexBits

/-- The count of `calculate_ut_caps`. -/
def calculateUtCaps (untypedList : List UntypedDesc) (sizeBits : Nat) : Nat :=
  (untypedList.map fun untyped =>
    if untypedInRange untyped && sizeBits ≤ untyped.sizeBits then 2 ^ (untyped.sizeBits - sizeBits)
    else 0).sum

/-- What `calculate_ut_caps` leaves in `bootinfo_avail_bytes`. -/
def initialAvailBytes (untypedList : List UntypedDesc) (i : Nat) : Nat :=
  match untypedList[i]? with
  | some untyped =>
    if untypedInRange untyped && !untyped.isDevice then 2 ^ untyped.sizeBits else 0
  | none => 0

namespace BootInfo

/-- `n_slots`, where the pages of the DMA pool are counted and taken off again. -/
def nSlots (bi : BootInfo) (memory : Nat × Nat) : Nat :=
  bi.emptyStart - 1 + utPagesForRegion memory + nPts (utPagesForRegion memory) + nDmaPts + 2
    + dmaReservationNumPages + calculateUtCaps bi.untypedList pageBits4K
    - 2 ^ (dmaReservationSizeBits - pageBits4K)

/-- `n_cnodes`. -/
def nCnodes (bi : BootInfo) (memory : Nat × Nat) : Nat := bi.nSlots memory / cnodeSlots + 2 + 50

/-- `size`, the memory for the structures. -/
def structureSize (bi : BootInfo) (memory : Nat × Nat) : Nat :=
  utPagesForRegion memory * pageSize4K + nPts (utPagesForRegion memory) * 2 ^ pageBits4K
    + nDmaPts * 2 ^ pageBits4K + 2 ^ pageBits4K + 2 ^ pageBits4K
    + (bi.nCnodes memory * 2 ^ cnodeSizeBits + 2 ^ initialTaskCnodeSizeBits)

/-- The size of the untyped that is stolen for the structures. -/
def structureBits (bi : BootInfo) (memory : Nat × Nat) : Nat :=
  bytesToSizeBits (bi.structureSize memory) + 1

def sizeOf (bi : BootInfo) (i : Nat) : Nat := (bi.untypedList[i]?.map UntypedDesc.sizeBits).getD 0

def paddrOf (bi : BootInfo) (i : Nat) : Nat := (bi.untypedList[i]?.map UntypedDesc.paddr).getD 0

end BootInfo

/-! ## The state -/

/-- What bootstrap holds a capability for: the new level 1 cnode, a cnode of the 2nd level,
or an object in a slot of the new cspace. -/
inductive BootCap where
  | lvl1Cnode
  | cnode (i : Nat)
  | slot (c : Slot)
  deriving DecidableEq, Repr

structure BootMem where
  /-- `bootinfo_avail_bytes`. -/
  availBytes : Nat → Nat
  /-- What the kernel placed in each untyped. -/
  carving : Carving BootCap
  /-- The cnodes of the 2nd level that exist. -/
  nCnodes : Nat
  firstFreeSlot : Slot
  ut : UTTable

abbrev BootMemProg (α : Type) := Prog Panic BootMem Sel4Error α

def BootMem.init : BootMem where
  availBytes := fun _ => 0
  carving := .empty
  nCnodes := 0
  firstFreeSlot := 0
  ut := .new 0 0 0

/-- The slot can be reached. -/
def BootCap.Reachable (nCnodes : Nat) : BootCap → Prop
  | .lvl1Cnode => True
  | .cnode i => i < initialTaskCnodeSlots
  | .slot c => c / cnodeSlots < nCnodes

instance (nCnodes : Nat) (cap : BootCap) : Decidable (cap.Reachable nCnodes) :=
  match cap with
  | .lvl1Cnode => inferInstanceAs (Decidable True)
  | .cnode i => inferInstanceAs (Decidable (i < initialTaskCnodeSlots))
  | .slot c => inferInstanceAs (Decidable (c / cnodeSlots < nCnodes))

variable (config : KernelConfig) (bi : BootInfo)

/-- The kernel's retype of `n` objects: they go to the mark, aligned to their size. -/
def bootRetype (i bits : Nat) (key : Nat → BootCap) (n : Nat) : BootMemProg Unit := do
  let m ← Prog.get
  if ∀ k < n, (key k).Reachable m.nCnodes then
    if m.carving.Fits bi.sizeOf i bits n then
      Prog.modify fun m => { m with carving := m.carving.place i bits key n }
    else
      Prog.fail .notEnoughMemory
  else
    Prog.fail .failedLookup

/-- `paddr_from_avail_bytes`. -/
def paddrFromAvailBytes (untyped : UntypedDesc) (avail sizeBits : Nat) : Nat :=
  let taken := if untyped.isDevice then 0 else 2 ^ untyped.sizeBits - avail
  untyped.paddr + roundUpBits taken sizeBits

/-- The loop of `steal_untyped`: the first untyped with enough left. -/
def findUntyped (avail : Nat → Nat) (sizeBits : Nat) : Option (UntypedDesc × Nat) :=
  bi.untypedList.zipIdx.find? fun x => untypedInRange x.1 && 2 ^ sizeBits ≤ avail x.2

/-- `steal_untyped`: the index of the untyped, and the address bootstrap takes it to be at. -/
def stealUntyped (sizeBits : Nat) : BootMemProg (Option (Nat × Nat)) := do
  Prog.assert .assertionFailed (pageBits4K ≤ sizeBits)
  Prog.assert .assertionFailed (sizeBits ≤ maxUntypedBits)
  let avail ← Prog.gets BootMem.availBytes
  match findUntyped bi avail sizeBits with
  | some (untyped, i) =>
    let paddr := paddrFromAvailBytes untyped (avail i) sizeBits
    Prog.modify fun m =>
      { m with availBytes := Function.update m.availBytes i (avail i - 2 ^ sizeBits) }
    pure (some (i, paddr))
  | none => pure none

/-- "now create the 2nd level nodes": `total` of the `n` nodes are left. -/
def retypeCnodes (i n total : Nat) : BootMemProg Unit := do
  if total = 0 then
    pure ()
  else
    let chunk := min config.retypeFanOutLimit total
    bootRetype bi i cnodeSizeBits (fun k => .cnode (n - total + k)) chunk
    retypeCnodes i n (total - chunk)
termination_by total
decreasing_by
  have := config.pos
  omega

/-- Retype a 4K object into the first free slot, `n` times. -/
def retypeSlots (i n : Nat) : BootMemProg Unit :=
  Prog.forEach
    (fun _ => do
      let first ← Prog.gets BootMem.firstFreeSlot
      bootRetype bi i pageBits4K (fun k => .slot (first + k)) 1
      Prog.modify fun m => { m with firstFreeSlot := m.firstFreeSlot + 1 })
    (List.range n)

/-- `while n_caps > 0`: as many as fit into one 2nd level cnode. -/
def retypeCaps (i nCaps : Nat) : BootMemProg Unit := do
  if nCaps = 0 then
    pure ()
  else
    let first ← Prog.gets BootMem.firstFreeSlot
    let retype := min config.retypeFanOutLimit (min nCaps (cnodeSlots - first % cnodeSlots))
    bootRetype bi i pageBits4K (fun k => .slot (first + k)) retype
    Prog.modify fun m => { m with firstFreeSlot := m.firstFreeSlot + retype }
    retypeCaps i (nCaps - retype)
termination_by nCaps
decreasing_by
  have := config.pos
  have := Nat.mod_lt first (show 0 < cnodeSlots by decide)
  omega

/-- The `n_caps` of an untyped. -/
def nCaps (untyped : UntypedDesc) (avail : Nat) : Nat :=
  if untyped.isDevice then 2 ^ untyped.sizeBits / pageSize4K else avail / pageSize4K

/-- What is left of an untyped goes into the table and is retyped. -/
def addUntyped (x : UntypedDesc × Nat) : BootMemProg Unit := do
  if untypedInRange x.1 then
    let avail ← Prog.gets BootMem.availBytes
    let first ← Prog.gets BootMem.firstFreeSlot
    let n := nCaps x.1 (avail x.2)
    let paddr := paddrFromAvailBytes x.1 (avail x.2) pageBits4K
    if n > 0 then
      Prog.zoom BootMem.ut (fun m t => { m with ut := t })
        (UTTable.addUntypedRange ⟨paddr, first, n, x.1.isDevice⟩)
    retypeCaps config bi x.2 n

/-- One node block: its frame lies in a 4K untyped of the table. -/
def addBotLvlNode : BootMemProg Unit := do
  match ← Prog.gets fun m => m.ut.freeUntypeds pageBits4K with
  | [] => Prog.fail .notEnoughMemory
  | _ :: rest =>
    Prog.modify fun m =>
      { m with
        ut := { m.ut with freeUntypeds := Function.update m.ut.freeUntypeds pageBits4K rest } }
    let m ← Prog.get
    if m.firstFreeSlot / cnodeSlots < m.nCnodes then
      Prog.modify fun m =>
        { m with
          firstFreeSlot := m.firstFreeSlot + 1
          ut := { m.ut with nextFreeVaddr := m.ut.nextFreeVaddr + pageSize4K } }
    else
      Prog.fail .failedLookup

/-- `dma_vaddr`, which is aligned to a large page. -/
def dmaVaddr (nextFreeVaddr : Nat) : Nat := alignUp (nextFreeVaddr + pageSize4K) 21

/-- `smos_bootstrap` up to the pages of the untyped table: the bounds of the memory, and the
untyped of the structures. -/
def bootStructures : BootMemProg ((Nat × Nat) × Nat) := do
  let emptySlots ← subU bi.emptyEnd bi.emptyStart
  Prog.assert .assertionFailed (2 ≤ emptySlots)
  let _ ← subU bi.emptyStart 1
  let memory ← findMemoryBounds bi.untypedList |> Prog.unwrap .assertionFailed
  let utPages := utPagesForRegion memory
  let nCnodes := bi.nCnodes memory
  Prog.modify fun m => { m with availBytes := initialAvailBytes bi.untypedList }
  let (i, _) ← (← stealUntyped bi (bi.structureBits memory)) |> Prog.unwrap .unwrapNone
  -- the level 1 cnode, and the 2nd level nodes in it
  (bootRetype bi i initialTaskCnodeSizeBits (fun _ => .lvl1Cnode) 1).expect .retype
  retypeCnodes config bi i nCnodes nCnodes
  Prog.modify fun m => { m with nCnodes := nCnodes, firstFreeSlot := bi.emptyStart }
  -- the PUD, the PD, the PTs and the pages of the table
  retypeSlots bi i 1
  retypeSlots bi i 1
  retypeSlots bi i (nPts utPages)
  retypeSlots bi i utPages
  pure (memory, i)

/-- `smos_bootstrap`, up to the recording of the slots. -/
def smosBootstrap : BootMemProg DmaPool := do
  let (memory, i) ← bootStructures config bi
  let utPages := utPagesForRegion memory
  let (dmaUt, dmaPaddr) ← (← stealUntyped bi dmaReservationSizeBits) |> Prog.okOr .notEnoughMemory
  let dmaFirst ← Prog.gets BootMem.firstFreeSlot
  retypeSlots bi dmaUt dmaReservationNumPages
  Prog.modify fun m =>
    { m with
      ut := .new memory.1 (utPages * (pageSize4K / utSize)) (utTableVaddr + utPages * pageSize4K) }
  Prog.forEach (addUntyped config bi) bi.untypedList.zipIdx
  let first ← Prog.gets BootMem.firstFreeSlot
  Prog.forEach (fun _ => addBotLvlNode) (List.range (nBotLvl first (bi.nCnodes memory)))
  -- the page tables of the DMA region
  retypeSlots bi i nDmaPts
  Prog.modify fun m =>
    let nextFreeVaddr :=
      dmaVaddr m.ut.nextFreeVaddr + (dmaReservationNumPages + 1) * pageSize4K
    { m with ut := { m.ut with nextFreeVaddr := nextFreeVaddr } }
  pure
    { pstart := dmaPaddr
      pages := (List.range dmaReservationNumPages).map fun k => dmaFirst + k
      allocations := [] }

end Smos.RootServer
