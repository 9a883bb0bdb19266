/-
Smos.RootServer.Load — the address space of a new process.

The root server loads one image, the loader's, and gives it a stack. Each
segment gets a window, an object and a view of its own, as the stack does,
and all frames are there from the start.

The image is a build product and its parser a library: `Elf` is what the
parser answers. `insert_frame_at`, `insert_cap_at` and the copy of a frame
capability may not fail here; a missing frame or slot is an error, and what
was made so far stays.
-/
import Smos.RootServer.Vm

namespace Smos.RootServer

open Smos.Base

/-! ## Segments -/

/-- A program header, with its bytes in the file. -/
structure Segment where
  pType : Nat
  pFlags : Nat
  pVaddr : Nat
  pFilesz : Nat
  pMemsz : Nat
  /-- `segment_data`. -/
  data : Option (Nat → Nat)

/-- What `minimal_parse` answers for an image it accepts. -/
structure Elf where
  entry : Nat
  segments : Option (List Segment)

/-- `PT_LOAD`. -/
def ptLoad : Nat := 1

/-- `PT_TLS`. -/
def ptTls : Nat := 7

/-- `rights_from_elf_flags`; the bits are `PF_X`, `PF_W` and `PF_R`. -/
def rightsFromElfFlags (flags : Nat) : CapRights :=
  ⟨flags.testBit 2 || flags.testBit 0, flags.testBit 1, false, false⟩

/-- The overlap test of the loader's `overlapping_window` on one window. -/
def segmentOverlaps {ε : Type} (start size : Nat) (w : Window) : SProg ε Bool := do
  let first ← if start ≥ w.start then do
      let wend ← addU w.start w.size
      pure (decide (start < wend))
    else pure false
  if first then
    pure true
  else
    let nend ← addU start size
    if nend ≥ w.start then
      let wend ← addU w.start w.size
      pure (decide (nend < wend))
    else pure false

/-- `overlapping_window` of the loader. -/
def overlappingSegment {ε : Type} (start size : Nat) :
    List WindowRef → SProg ε (Option WindowRef)
  | [] => pure none
  | w :: ws => do
    if ← segmentOverlaps start size (← getWindow w) then pure (some w)
    else overlappingSegment start size ws

/-- `handle_overlapping_segment`. -/
def handleOverlappingSegment {ε : Type} (w : WindowRef) (segment : Segment) : SProg ε Unit := do
  let v ← (← getWindow w).boundView |> Prog.unwrap .unwrapNone
  if rightsFromElfFlags segment.pFlags ≠ (← getView v).rights then
    Prog.panic .notImplemented
  else if segment.pFilesz = 0 then
    pure ()
  else
    Prog.panic .notImplemented

/-- A window, an object and a view of the same size, linked to each other. -/
def newRegion {ε : Type} (start size : Nat) (objRights viewRights : CapRights) :
    SProg ε (WindowRef × ObjectRef × ViewRef) := do
  let w ← newWindow ⟨start, size, none⟩
  let o ← newObject (.new size objRights .default)
  let v ← newView (View.new w (some o) none viewRights 0 0)
  modifyWindow w fun window => { window with boundView := some v }
  modifyObject o fun object => { object with associatedViews := object.associatedViews ++ [v] }
  pure (w, o, v)

/-- A frame for page `i` of a region, and a copy of its capability in the region's view. -/
def addPage (o : ObjectRef) (v : ViewRef) (i : Nat) : SProg Sel4Error (Nat × Slot) := do
  let frameRef ← (onRes allocFrame).catchErr fun _ => Prog.fail .notEnoughMemory
  let origFrameCap ← onRes (frameCap frameRef)
  insertFrame o (i * pageSize4K) ⟨origFrameCap, frameRef⟩
  let loadeeFrame ← onRes allocSlot
  onRes ((copyCap loadeeFrame origFrameCap .all).expect .copyCap)
  insertCap v (i * pageSize4K) loadeeFrame
  pure (frameRef, loadeeFrame)

/-- The bytes a page of a segment gets: zeroes up to the segment's start, then the file's. -/
def segmentPage (leadingZeroes fileBytes : Nat) (data : Nat → Nat) : (Nat → Nat) → Nat → Nat :=
  fun _ i =>
    if leadingZeroes ≤ i ∧ i < leadingZeroes + fileBytes then data (i - leadingZeroes) else 0

/-- The pages of a segment from `pos` on; every turn advances, so `memsz` turns are enough. -/
def loadPages (w : WindowRef) (o : ObjectRef) (v : ViewRef) (vspace : Slot) (segment : Segment)
    (data : Nat → Nat) : Nat → Nat → Nat → Nat → SProg Sel4Error Unit
  | 0, _, _, _ => pure ()
  | fuel + 1, i, pos, currVaddr =>
    if pos < segment.pMemsz then do
      let (frameRef, loadeeFrame) ← addPage o v i
      let view ← getView v
      match ← (onRes (mapFrame loadeeFrame vspace (roundDown currVaddr) view.rights)).attempt with
      | .ok () => pure ()
      | .error .deleteFirst =>
        onRes (deleteCap loadeeFrame)
        onRes (freeSlot loadeeFrame)
        onRes (freeFrame frameRef)
      | .error e => Prog.fail e
      let leadingZeroes := currVaddr % pageSize4K
      let segmentBytes := pageSize4K - leadingZeroes
      if pos < segment.pFilesz then
        let fileBytes := min segmentBytes (segment.pFilesz - pos)
        onRes (writeFrameData frameRef (segmentPage leadingZeroes fileBytes fun j =>
          data (pos + j)))
      else
        onRes (writeFrameData frameRef fillZero)
      let pos ← addU pos segmentBytes
      let currVaddr ← addU currVaddr segmentBytes
      loadPages w o v vspace segment data fuel (i + 1) pos currVaddr
    else pure ()

/-- `load_segment_into_vspace`: the windows so far, and those after it. -/
def loadSegment (vspace : Slot) (segment : Segment) (data : Nat → Nat)
    (windows : List WindowRef) : SProg Sel4Error (List WindowRef) := do
  let lead ← addU segment.pMemsz (segment.pVaddr % pageSize4K)
  let segmentEnd ← addU segment.pVaddr segment.pMemsz
  let totalSize ← addU lead (pageSize4K - segmentEnd % pageSize4K)
  match ← overlappingSegment segment.pVaddr segment.pMemsz windows with
  | some w =>
    handleOverlappingSegment w segment
    pure windows
  | none =>
    if totalSize > maxObjSize then
      Prog.panic .notImplemented
    else
      let rights := rightsFromElfFlags segment.pFlags
      let (w, o, v) ← newRegion (roundDown segment.pVaddr) totalSize rights rights
      loadPages w o v vspace segment data segment.pMemsz 0 0 segment.pVaddr
      pure (windows ++ [w])

/-- The loop of `load_elf`. -/
def loadSegments (vspace : Slot) : List Segment → List WindowRef →
    SProg Sel4Error (List WindowRef)
  | [], windows => pure windows
  | segment :: segments, windows =>
    if segment.pType ≠ ptLoad ∧ segment.pType ≠ ptTls then
      loadSegments vspace segments windows
    else do
      let data ← segment.data |> Prog.unwrap .unwrapNone
      let windows ← loadSegment vspace segment data windows
      loadSegments vspace segments windows

/-- `load_elf`. -/
def loadElf (vspace : Slot) (elf : Elf) : SProg Sel4Error (List WindowRef) := do
  let segments ← elf.segments |> Prog.okOr .invalidArgument
  loadSegments vspace segments []

/-! ## The stack -/

def stackBottom : Nat := processStackTop - stackPages * pageSize4K

/-- `init_process_stack`; the stack's top is a constant. -/
def initProcessStack : SProg Sel4Error WindowRef := do
  let (w, o, v) ← newRegion stackBottom (stackPages * pageSize4K) .all .all
  Prog.forEach (fun i => do let _ ← addPage o v i; pure ()) (List.range stackPages)
  pure w

/-- The bytes of a frame after `bytes` were written from `offset` on. -/
def overwrite (offset : Nat) (bytes : List Nat) : (Nat → Nat) → Nat → Nat :=
  fun old i => if offset ≤ i then (bytes[i - offset]?).getD (old i) else old i

/-- The common part of `write_str_to_stack`, `write_words_to_stack` and
`write_half_words_to_stack`: the slice must lie in one frame. -/
def writeToStack {ε : Type} (stack : WindowRef) (vaddr : Nat) (bytes : List Nat) :
    SProg ε Unit := do
  let offset ← subU vaddr stackBottom
  let v ← (← getWindow stack).boundView |> Prog.unwrap .unwrapNone
  let o ← (← getView v).boundObject |> Prog.unwrap .unwrapNone
  let frame ← (← getObject o).lookupFrame offset |> Prog.unwrap .unwrapNone
  let offsetPage := vaddr % pageSize4K
  if offsetPage + bytes.length ≤ pageSize4K then
    onRes (writeFrameData frame.frameRef (overwrite offsetPage bytes))
  else
    Prog.panic .indexOutOfBounds

/-- The `n` bytes of a number, little-endian. -/
def littleEndian (n x : Nat) : List Nat := (List.range n).map fun i => x / 256 ^ i % 256

/-- `str::as_bytes`. -/
def asBytes (s : String) : List Nat := s.toByteArray.data.toList.map UInt8.toNat

def writeStrToStack {ε : Type} (stack : WindowRef) (vaddr : Nat) (s : String) : SProg ε Unit :=
  writeToStack stack vaddr (asBytes s ++ [0])

def writeWordsToStack {ε : Type} (stack : WindowRef) (vaddr : Nat) (words : List Nat) :
    SProg ε Unit :=
  writeToStack stack vaddr (words.flatMap (littleEndian 8))

def writeHalfWordsToStack {ε : Type} (stack : WindowRef) (vaddr : Nat) (words : List Nat) :
    SProg ε Unit :=
  writeToStack stack vaddr (words.flatMap (littleEndian 4))

/-- `ROUND_UP(x, seL4_PageBits)`. -/
def roundUp (x : Nat) : Nat := if x = 0 then 0 else ((x - 1) / pageSize4K + 1) * pageSize4K

/-- Write arguments downwards; the addresses they are at, first argument first. -/
def writeArgStrings {ε : Type} (stack : WindowRef) :
    List String → Nat → List Nat → SProg ε (Nat × List Nat)
  | [], vaddr, argv => pure (vaddr, argv)
  | arg :: args, vaddr, argv => do
    let next ← subU vaddr ((asBytes arg).length + 1)
    if roundUp vaddr ≠ roundUp next then
      Prog.panic .notImplemented
    else
      writeStrToStack stack next arg
      writeArgStrings stack args next (argv ++ [next])

/-- The environment of `write_args_to_stack`, downwards from the top of the stack. -/
def writeEnv {ε : Type} (stack : WindowRef) : SProg ε Nat := do
  writeWordsToStack stack (processStackTop - 8) [processStackTop]
  writeWordsToStack stack (processStackTop - 16) [processIpcBuffer]
  writeWordsToStack stack (processStackTop - 24) [processRsDataTransferPage]
  let envp := [processStackTop - 8, processStackTop - 16, processStackTop - 24, 0]
  let envpPtr := processStackTop - 24 - envp.length * 8
  writeWordsToStack stack envpPtr envp
  pure envpPtr

/-- The arguments of `write_args_to_stack` below `vaddr`: the stack pointer after them, where
their addresses are, and how many they are. -/
def writeArgv {ε : Type} (stack : WindowRef) (loaderArgs execArgs : Option (List String))
    (vaddr : Nat) : SProg ε (Nat × Nat × Nat) :=
  if loaderArgs.isSome ∨ execArgs.isSome then do
    let (vaddr, argv) ← writeArgStrings stack (loaderArgs.getD []) vaddr []
    let (vaddr, argv) ← writeArgStrings stack (execArgs.getD []) vaddr argv
    let vaddr ← subU (vaddr - vaddr % 8) (argv.length * 8)
    writeWordsToStack stack vaddr argv
    pure (vaddr, vaddr, argv.length)
  else pure (vaddr, 0, 0)

/-- `write_args_to_stack`: the initial stack pointer. -/
def writeArgsToStack {ε : Type} (stack : WindowRef) (loaderArgs execArgs : Option (List String)) :
    SProg ε Nat := do
  let envpPtr ← writeEnv stack
  let (vaddr, argvPtr, argc) ← writeArgv stack loaderArgs execArgs envpPtr
  let vaddr ← subU vaddr 8
  writeWordsToStack stack vaddr [envpPtr]
  let vaddr ← subU vaddr 8
  writeWordsToStack stack vaddr [argvPtr]
  let vaddr ← subU vaddr 4
  -- `argv.len().try_into().unwrap()`
  Prog.assert .unwrapNone (argc < 2 ^ 32)
  writeHalfWordsToStack stack vaddr [argc]
  pure vaddr

end Smos.RootServer
