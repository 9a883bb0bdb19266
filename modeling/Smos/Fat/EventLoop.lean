/-
Smos.Fat.EventLoop — the FAT server's event thread.

A client sends commands through one ring and reads completions from another.
`notified` runs the worker threads, writes a completion for each that has
finished, and gives new commands to free ones until there is nothing more to
give; then it publishes both rings. The client, which shares the rings, and
the workers take their steps in between. A client that has published a command
has still to notify the server (`unnotified`), and may publish more before it
does.

The counters of the rings have 64 bits and wrap, and 511 slots do not divide
2^64: `WithinCapacity` ends before the first wrap. What a handler does is a
parameter; a worker that waits for the block device is one that has not
finished.
-/
import Mathlib.Data.BitVec
import Mathlib.Logic.Function.Basic
import Smos.Base.SharedRing
import Smos.Fat.DiskRuns

namespace Smos.Fat

open Smos.Base

/-! ## The protocol -/

/-- `FS_QUEUE_CAPACITY`. -/
def fsQueueCapacity : Nat := 511

/-- `FS_NUM_COMMANDS`. -/
def fsNumCommands : Nat := 20

/-- The handlers, in the order of the `FS_CMD_` constants. -/
inductive Operation where
  | initialise
  | deinitialise
  | fileOpen
  | fileClose
  | stat
  | fileRead
  | fileWrite
  | fileSize
  | rename
  | fileRemove
  | fileTruncate
  | dirCreate
  | dirRemove
  | dirOpen
  | dirClose
  | fileSync
  | dirRead
  | dirSeek
  | dirTell
  | dirRewind
  deriving DecidableEq, Repr

/-- `operation_functions`. -/
def operationFunctions : List Operation :=
  [.initialise, .deinitialise, .fileOpen, .fileClose, .stat, .fileRead, .fileWrite, .fileSize,
    .rename, .fileRemove, .fileTruncate, .dirCreate, .dirRemove, .dirOpen, .dirClose, .fileSync,
    .dirRead, .dirSeek, .dirTell, .dirRewind]

/-- `fs_cmd_t`. -/
structure FsCmd (ρ : Type) where
  id : Nat
  type : Nat
  params : ρ
  deriving DecidableEq, Repr

/-- `fs_cmpl_t`. -/
structure FsCmpl (δ : Type) where
  id : Nat
  status : Nat
  data : δ
  deriving DecidableEq, Repr

/-- `fs_queue_t`. -/
abbrev FsQueue (α : Type) : Type := SharedRing 64 α

section Queue

variable {α : Type} (queue : FsQueue α)

def fsQueueLengthConsumer : Nat := queue.length.toNat
def fsQueueLengthProducer : Nat := queue.length.toNat

def fsQueueIdxFilled (index : Nat) : α :=
  queue.filled fsQueueCapacity (BitVec.ofNat 64 index)

/-- Write to `fs_queue_idx_empty`. -/
def fsQueueFillEmpty (index : Nat) (message : α) : FsQueue α :=
  queue.fill fsQueueCapacity (BitVec.ofNat 64 index) message

def fsQueuePublishConsumption (amount : Nat) : FsQueue α :=
  queue.publishConsumption (BitVec.ofNat 64 amount)

def fsQueuePublishProduction (amount : Nat) : FsQueue α :=
  queue.publishProduction (BitVec.ofNat 64 amount)

end Queue

/-- A command that has a handler. -/
def FsCmd.valid {ρ : Type} (c : FsCmd ρ) : Bool := decide (c.type < fsNumCommands)

/-! ## The server -/

inductive SpaceStatus where
  | free
  | inUse
  deriving DecidableEq, Repr

/-- `fs_request`; the handle is the entry's index. -/
structure FsRequest (ρ δ : Type) where
  cmd : Nat
  requestId : Nat
  params : ρ
  status : Nat
  result : δ
  stat : SpaceStatus

/-- Where `notified` is; `waiting` is outside of it, and `sizing` between the loads of the two
sizes. -/
inductive EventPc where
  | waiting
  | yielding
  | collecting (i : Nat)
  | popping
  | sizing
  | publishing
  | replying
  deriving DecidableEq, Repr

/--
The server with its client. `active` is the state of the cothreads; `sent` and
`received` are what the client did, `answered` pairs every completion written
so far with the command that the pool's entry had.
-/
structure FatServer (ρ δ : Type) where
  commands : FsQueue (FsCmd ρ)
  completions : FsQueue (FsCmpl δ)
  pool : Nat → FsRequest ρ δ
  active : Nat → Bool
  pc : EventPc
  newRequestPopped : Bool
  queueSizeInit : Bool
  commandQueueSize : Nat
  completionQueueSize : Nat
  dequeued : Nat
  enqueued : Nat
  notified : Bool
  /-- The client has published commands that it has not notified the server of. -/
  unnotified : Bool
  sent : List (FsCmd ρ)
  received : List (FsCmpl δ)
  answered : List (FsCmd ρ × FsCmpl δ)

inductive EventStep (ρ δ : Type) where
  | publish (c : FsCmd ρ)
  | notify
  | receive
  | interrupt
  | wake
  | finish (h status : Nat) (result : δ)
  | run (index : Nat)

section Server

variable {ρ δ : Type}

def FsRequest.command (r : FsRequest ρ δ) : FsCmd ρ := ⟨r.requestId, r.cmd, r.params⟩

/-- `fill_client_response`. -/
def fillClientResponse (r : FsRequest ρ δ) : FsCmpl δ := ⟨r.requestId, r.status, r.result⟩

namespace FatServer

variable (s : FatServer ρ δ)

/-- `microkit_cothread_free_handle_available`. -/
def freeHandleAvailable : Bool := workerThreads.any fun h => !s.active h

/-- One turn of the loop over finished threads. -/
def collect (i : Nat) : FatServer ρ δ :=
  if s.active i = false ∧ (s.pool i).stat = .inUse then
    { s with
      completions := fsQueueFillEmpty s.completions s.enqueued (fillClientResponse (s.pool i))
      enqueued := s.enqueued + 1
      pool := Function.update s.pool i { s.pool i with stat := .free }
      answered := s.answered ++ [((s.pool i).command, fillClientResponse (s.pool i))] }
  else s

/-- `setup_request`, with the bookkeeping that follows it. -/
def setupRequest (index : Nat) (message : FsCmd ρ) : FatServer ρ δ :=
  { s with
    pool := Function.update s.pool index
      { s.pool index with
        cmd := message.type, requestId := message.id, params := message.params, stat := .inUse }
    active := Function.update s.active index true
    newRequestPopped := true
    completionQueueSize := s.completionQueueSize + 1 }

/-- Take one command off; one of an unknown type is dropped. -/
def dequeue (index : Nat) : FatServer ρ δ :=
  let clientReq := fsQueueIdxFilled s.commands s.dequeued
  let s := { s with dequeued := s.dequeued + 1, commandQueueSize := s.commandQueueSize - 1 }
  if fsNumCommands ≤ clientReq.type then s else s.setupRequest index clientReq

/-- One turn of the loop over commands, with the handle that is free. The sizes of the queues are
read once a call, when a thread is free, the one of the command queue first. -/
def pop (index : Nat) : Option (FatServer ρ δ) :=
  if s.queueSizeInit = false ∧ s.freeHandleAvailable = true then
    some { s with commandQueueSize := fsQueueLengthConsumer s.commands, pc := .sizing }
  else if s.freeHandleAvailable = false ∨ s.commandQueueSize = 0 ∨
      s.completionQueueSize = fsQueueCapacity then
    some { s with pc := if s.newRequestPopped then .yielding else .publishing }
  else if index ∈ workerThreads ∧ s.active index = false then some (s.dequeue index)
  else none

/-- The event thread goes on; the counts of a call end with their publication. -/
def run (index : Nat) : Option (FatServer ρ δ) :=
  match s.pc with
  | .waiting => none
  | .yielding => some { s with pc := .collecting 1 }
  | .collecting i =>
    if i ∈ workerThreads then some { s.collect i with pc := .collecting (i + 1) }
    else some { s with pc := .popping, newRequestPopped := false }
  | .popping => s.pop index
  | .sizing =>
    some { s with
      completionQueueSize := fsQueueLengthProducer s.completions
      queueSizeInit := true
      pc := .popping }
  | .publishing =>
    some { s with
      commands := fsQueuePublishConsumption s.commands s.dequeued
      dequeued := 0
      pc := .replying }
  | .replying =>
    some { s with
      completions := fsQueuePublishProduction s.completions s.enqueued
      enqueued := 0
      pc := .waiting }

def next : EventStep ρ δ → Option (FatServer ρ δ)
  | .publish c =>
    some { s with
      commands := fsQueuePublishProduction (fsQueueFillEmpty s.commands 0 c) 1
      unnotified := true
      sent := s.sent ++ [c] }
  | .notify =>
    if s.unnotified = true then some { s with notified := true, unnotified := false } else none
  | .receive =>
    if 0 < fsQueueLengthConsumer s.completions then
      some { s with
        completions := fsQueuePublishConsumption s.completions 1
        received := s.received ++ [fsQueueIdxFilled s.completions 0] }
    else none
  | .interrupt => some { s with notified := true }
  | .wake =>
    if s.pc = .waiting ∧ s.notified = true then
      some { s with
        pc := .yielding
        notified := false
        newRequestPopped := true
        queueSizeInit := false
        dequeued := 0
        enqueued := 0 }
    else none
  | .finish h status result =>
    if s.pc = .yielding ∧ s.active h = true then
      some { s with
        active := Function.update s.active h false
        pool := Function.update s.pool h { s.pool h with status := status, result := result } }
    else none
  | .run index => s.run index

/-- The commands that worker threads have. -/
def inFlight : List (FsCmd ρ) :=
  workerThreads.flatMap fun h =>
    if (s.pool h).stat = .inUse then [(s.pool h).command] else []

/-- How many of the client's commands were taken off the ring. -/
def taken : Nat := s.commands.head.toNat + s.dequeued

/-- The server has no notification before it, and the client none to send. -/
def silent : Bool := !s.notified && !s.unnotified

end FatServer

/-- Nothing was sent, and every worker is free. -/
def ServerStart (s : FatServer ρ δ) : Prop :=
  s.commands.head = 0 ∧ s.commands.tail = 0 ∧ s.completions.head = 0 ∧ s.completions.tail = 0 ∧
    (∀ h, (s.pool h).stat = .free) ∧ (∀ h, s.active h = false) ∧ s.pc = .waiting ∧
    s.queueSizeInit = false ∧ s.dequeued = 0 ∧ s.enqueued = 0 ∧ s.notified = false ∧
    s.unnotified = false ∧ s.sent = [] ∧ s.received = [] ∧ s.answered = []

/-- The handlers: the status and result that an operation may end with. -/
abbrev Handlers (ρ δ : Type) : Type := Operation → ρ → Nat → δ → Prop

/-- The completion is one that the command's handler may give. -/
def Answers (handles : Handlers ρ δ) (c : FsCmd ρ) (r : FsCmpl δ) : Prop :=
  r.id = c.id ∧ ∃ op, operationFunctions[c.type]? = some op ∧ handles op c.params r.status r.data

/--
The client has at most as many commands outstanding as a ring has entries, and
the counters of the rings have not come to their end; a worker ends as the
handler of its command does.
-/
def WithinCapacity (handles : Handlers ρ δ) (s : FatServer ρ δ) : EventStep ρ δ → Prop
  | .publish _ =>
    s.sent.length < s.received.length + fsQueueCapacity ∧ s.sent.length + 1 < 2 ^ 64
  | .finish h status result =>
    ∃ op, operationFunctions[(s.pool h).cmd]? = some op ∧
      handles op (s.pool h).params status result
  | _ => True

instance (handles : Handlers ρ δ) [∀ op p status result, Decidable (handles op p status result)]
    (s : FatServer ρ δ) : DecidablePred (WithinCapacity handles s)
  | .publish _ => inferInstanceAs (Decidable (_ ∧ _))
  | .notify => .isTrue trivial
  | .receive => .isTrue trivial
  | .interrupt => .isTrue trivial
  | .wake => .isTrue trivial
  | .finish h status result =>
    match hop : operationFunctions[(s.pool h).cmd]? with
    | none => .isFalse fun hex => by
      obtain ⟨op, hsome, -⟩ := hex
      rw [hop] at hsome
      cases hsome
    | some op => decidable_of_iff (handles op (s.pool h).params status result) (by
      unfold WithinCapacity
      simp [hop])
  | .run _ => .isTrue trivial

end Server

end Smos.Fat
