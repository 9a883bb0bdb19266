/-
Smos.RootServer.Spawn — starting a process.

`start_process` takes the first free entry of the process table as the pid,
makes the objects of the process one after the other and enters the process
last. The pid is the badge of the endpoint capability the process invokes
the root server with. Every step that can fail has a closure that undoes
the steps before it; the closures are chains, each one a step longer than
the one before.

The new process's own cspace is fresh, so its slots are known: 1 for the
endpoint, 2 for the cspace itself. Some closures give that 1 back to the
root server's allocator. The endpoint capability minted into the new cspace
is recorded as a grant.

`StartAnswers` are the kernel's answers to the calls whose success does not
depend on anything here.
-/
import Smos.RootServer.Connections
import Smos.RootServer.Load
import Smos.RootServer.Proc

namespace Smos.RootServer

open Smos.Base

structure StartAnswers where
  asidPoolAssign : Except Sel4Error Unit
  tcbConfigure : Except Sel4Error Unit
  schedControlConfigureFlags : Except Sel4Error Unit
  tcbSetSchedParams : Except Sel4Error Unit
  tcbWriteRegisters : Except Sel4Error Unit

/-- A kernel call whose answer is given. -/
def answered {σ : Type} (answer : Except Sel4Error Unit) : Prog Panic σ Sel4Error Unit :=
  Prog.ofExcept fun s => answer.map fun _ => s

/-! ## The parts of a new process -/

/-- `SMOS_RootServerEP`. -/
def rootServerEpSlot : Slot := 1

/-- The capability data of a new cspace: no guard bits, a guard of 57. -/
def cnodeGuard : Nat := 57

/-- `UserCSpace::new` for one level. -/
def UserCSpace.new : RProg Sel4Error UserCSpace := do
  let untyped ← allocRetype (.other (.cnode 7))
  let rootCnode ← allocSlot
  (mintCap rootCnode untyped.1 .all cnodeGuard).expect .mintCap
  deleteCap untyped.1
  freeSlot untyped.1
  pure ⟨rootCnode, untyped.2⟩

/-- `find_free_proc`. -/
def findFreeProc (s : State) : Option Pid :=
  (List.range maxProcs).find? fun i => (s.procs i).isNone

/-- What the closures undo, with the parts made so far. -/
structure Started where
  vspace : Alloc
  ipcBuffer : Slot × Nat
  tcb : Alloc
  faultEp : Slot

section Unwind

variable {ε : Type} (x : Started)

/-- The end of every closure once there is a frame for the IPC buffer. -/
def unwindIpcFrame : RProg ε Unit := do
  freeFrame x.ipcBuffer.2
  deallocRetyped x.vspace

def unwindIpcBuffer : RProg ε Unit := do
  deleteCap x.ipcBuffer.1
  freeSlot x.ipcBuffer.1
  unwindIpcFrame x

/-- From here on the closures give the endpoint's slot to the wrong cspace. -/
def unwindProcEp : RProg ε Unit := do
  freeSlot rootServerEpSlot
  unwindIpcBuffer x

def unwindTcb : RProg ε Unit := do
  deallocRetyped x.tcb
  unwindProcEp x

def unwindFaultEp : RProg ε Unit := do
  deleteCap x.faultEp
  freeSlot x.faultEp
  unwindTcb x

end Unwind

/-- `m.map_err(|e| { undo; e })`. -/
def orUndo {σ α : Type} (m : Prog Panic σ Sel4Error α) (undo : Prog Panic σ Sel4Error Unit) :
    Prog Panic σ Sel4Error α :=
  m.catchErr fun e => do
    undo
    Prog.fail e

/-- The address space, the cspace and the IPC buffer of a new process. -/
def startSpaces (answers : StartAnswers) : RProg Sel4Error (Started × UserCSpace) := do
  let vspace ← allocRetype .vspace
  orUndo (answered answers.asidPoolAssign) (deallocRetyped vspace)
  let procCspace ← UserCSpace.new
  let ipcBufferRef ← allocFrame.catchErr fun _ => do
    deallocRetyped vspace
    Prog.fail .notEnoughMemory
  let x : Started := ⟨vspace, (0, ipcBufferRef), (0, ⟨0, 0, 0⟩), 0⟩
  let ipcBufferSlot ← orUndo allocSlot (unwindIpcFrame x)
  let origFrameCap ← frameCap ipcBufferRef
  orUndo (copyCap ipcBufferSlot origFrameCap .all) (do freeSlot ipcBufferSlot; unwindIpcFrame x)
  pure ({ x with ipcBuffer := (ipcBufferSlot, ipcBufferRef) }, procCspace)

/-- The endpoint capability of a new process and its cspace's capability of itself. -/
def startCspace (ep : Slot) (pos : Pid) (x : Started) (procCspace : UserCSpace) :
    RProg Sel4Error Unit := do
  orUndo (kcall fun k => k.mintTo pos ep .all (pos ||| invocationEpBits)) (unwindIpcBuffer x)
  orUndo (kcall fun k => k.copyTo procCspace.rootCnode) (unwindProcEp x)

/-- The thread, its scheduling context and its fault endpoint. -/
def startThread (ep : Slot) (pos : Pid) (x : Started) (answers : StartAnswers) :
    RProg Sel4Error (Started × Alloc) := do
  let tcb ← orUndo (allocRetype (.other .tcb)) (unwindProcEp x)
  let x := { x with tcb := tcb }
  orUndo (answered answers.tcbConfigure) (unwindTcb x)
  let schedContext ← orUndo (allocRetype (.other (.schedContext 7))) (unwindTcb x)
  orUndo (answered answers.schedControlConfigureFlags) (unwindTcb x)
  let faultEp ← orUndo allocSlot (unwindTcb x)
  orUndo (mintCap faultEp ep .all (pos ||| faultEpBits)) (do freeSlot faultEp; unwindTcb x)
  let x := { x with faultEp := faultEp }
  orUndo (answered answers.tcbSetSchedParams) (unwindFaultEp x)
  pure (x, schedContext)

/-- The page shared with the root server. -/
def startSharedBuffer (x : Started) : RProg Sel4Error (Slot × Nat) := do
  let sharedBufferRef ← allocFrame.catchErr fun _ => do
    unwindFaultEp x
    Prog.fail .notEnoughMemory
  let unwindFrame : RProg Sel4Error Unit := do freeFrame sharedBufferRef; unwindFaultEp x
  let sharedBufferSlot ← orUndo allocSlot unwindFrame
  let origFrameCap ← frameCap sharedBufferRef
  orUndo (copyCap sharedBufferSlot origFrameCap .all) (do freeSlot sharedBufferSlot; unwindFrame)
  orUndo (mapFrame sharedBufferSlot x.vspace.1 processRsDataTransferPage .all) (do
    deleteCap sharedBufferSlot
    freeSlot sharedBufferSlot
    unwindFrame)
  pure (sharedBufferSlot, sharedBufferRef)

/-- The image, the two pages shared with the kernel and the root server, and the stack. -/
def startMemory (x : Started) (elf : Option Elf) :
    SProg Sel4Error (Elf × (Slot × Nat) × WindowRef × List WindowRef) := do
  let elf ← orUndo (elf |> Prog.okOr .invalidArgument) (onRes (unwindFaultEp x))
  let initialWindows ← orUndo (loadElf x.vspace.1 elf) (onRes (unwindFaultEp x))
  onRes (orUndo (mapFrame x.ipcBuffer.1 x.vspace.1 processIpcBuffer .all) (unwindFaultEp x))
  let sharedBuffer ← onRes (startSharedBuffer x)
  let stackWindow ← orUndo initProcessStack (onRes (unwindFaultEp x))
  pure (elf, sharedBuffer, stackWindow, initialWindows ++ [stackWindow])

/-- `UserProcess::new`. -/
def UserProcess.new (x : Started) (pid : Pid) (schedContext : Alloc) (cspace : UserCSpace)
    (sharedBuffer : Slot × Nat) (initialWindows : List WindowRef) : UserProcess where
  tcb := x.tcb
  pid := pid
  vspace := x.vspace
  ipcBuffer := x.ipcBuffer
  sharedBuffer := sharedBuffer
  schedContext := schedContext
  cspace := cspace
  faultEp := x.faultEp
  handleTable := fun _ => none
  createdHandleCaps := []
  initialWindows := initialWindows
  windows := []
  views := []
  waiter := none

/-- `start_process`: the cell of the new process. -/
def startProcess (ep : Slot) (elf : Option Elf) (loaderArgs execArgs : Option (List String))
    (answers : StartAnswers) : SProg Sel4Error Nat := do
  let pos ← (← Prog.gets findFreeProc) |> Prog.okOr .notEnoughMemory
  let (x, procCspace) ← onRes (startSpaces answers)
  onRes (startCspace ep pos x procCspace)
  let (x, schedContext) ← onRes (startThread ep pos x answers)
  let (_, sharedBuffer, stackWindow, initialWindows) ← startMemory x elf
  let _ ← writeArgsToStack stackWindow loaderArgs execArgs
  answered answers.tcbWriteRegisters
  let proc ← newProcCell
    (.activeProcess (.new x pos schedContext procCspace sharedBuffer initialWindows))
  procsSet pos (some proc)
  pure proc

/-! ## Spawning -/

structure ProcessSpawnArgs where
  execName : String
  fsName : String
  args : Option (List String)

/-- `handle_process_spawn`; the priority is the kernel's business. -/
def handleProcessSpawn (ep : Slot) (loader : Option Elf) (p : Nat) (args : ProcessSpawnArgs)
    (answers : StartAnswers) : Handler SMOSReply := do
  let idx ← allocateHandle p
  let proc ← (startProcess ep loader (some [args.execName, args.fsName]) args.args
    answers).catchErr fun _ => Prog.fail .insufficientResources
  setHandle p idx (some (.process proc))
  pure (.processSpawn idx)

end Smos.RootServer
