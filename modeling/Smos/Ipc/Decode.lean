/-
Smos.Ipc.Decode — the servers' decoder of invocations.

One decoder serves all servers. It first finds out whether a capability
came to the receive slot, refuses labels that do not exist or that this
type of server does not support, and then reads the message arm by arm.
Some arms test the length of the message before they read a register and
some do not; three arms can panic.

`getWith` follows the source arm by arm. A register, a size and an index
are the same 64-bit word, so the casts between them are not written.
-/
import Smos.Base.Prog
import Smos.Ipc.Strings

namespace Smos.Ipc

open Smos.Base

/-! ## Decoded invocations -/

/-- `ServerReceivedHandleOrHandleCap`. -/
inductive ServerReceivedHandleOrHandleCap where
  | handle (idx : Word)
  | unwrappedHandleCap (idx : Word)
  | wrappedHandleCap (cptr : Word)
  deriving DecidableEq, Repr

inductive QueueType where
  | active
  | free
  | request
  | response
  | none
  deriving DecidableEq, Repr

inductive VirtType where
  | tx
  | rx
  deriving DecidableEq, Repr

def QueueType.all : List QueueType := [active, free, request, response, none]

def VirtType.all : List VirtType := [tx, rx]

/-- `QueueType as u64`. -/
def QueueType.toWord (x : QueueType) : Word := UInt64.ofNat (all.idxOf x)

def VirtType.toWord (x : VirtType) : Word := UInt64.ofNat (all.idxOf x)

def QueueType.tryFrom (x : Word) : Option QueueType := all[x.toNat]?

def VirtType.tryFrom (x : Word) : Option VirtType := all[x.toNat]?

@[simp] theorem QueueType.tryFrom_toWord (x : QueueType) : tryFrom x.toWord = some x := by
  cases x <;> decide +kernel

@[simp] theorem VirtType.tryFrom_toWord (x : VirtType) : tryFrom x.toWord = some x := by
  cases x <;> decide +kernel

/-- The word of a `sel4::CapRights`. -/
abbrev CapRights := Word

/-- The word of an `ObjAttributes`. -/
abbrev ObjAttributes := Word

/-- `SMOS_Invocation`, with the fields of its structures. -/
inductive SMOS_Invocation where
  | windowCreate (baseVaddr size : Word) (returnCap : Bool)
  | windowDestroy (hndl : ServerReceivedHandleOrHandleCap)
  | objCreate (name : Option String) (size : Word) (rights : CapRights) (attributes : ObjAttributes)
    (returnCap : Bool)
  | objOpen (name : String) (rights : CapRights) (returnCap : Bool)
  | objStat (hndl : ServerReceivedHandleOrHandleCap)
  | objClose (hndl : ServerReceivedHandleOrHandleCap)
  | objDestroy (hndl : ServerReceivedHandleOrHandleCap)
  | view (window object : ServerReceivedHandleOrHandleCap) (windowOffset objOffset size : Word)
    (rights : CapRights)
  | unview (hndl : Word)
  | connCreate (name : String)
  | connDestroy (hndl : Word)
  | connOpen (sharedBufObj : Option (ServerReceivedHandleOrHandleCap × Word))
  | connClose
  | connPublish (ntfnBuffer : Word) (name : String)
  | connRegister (publishHndl clientId : Word)
  | connDeregister (hndl : Word)
  | replyCreate
  | serverHandleCapCreate (publishHndl ident : Word)
  | processSpawn (execName fsName : String) (prio : UInt8) (args : Option (List String))
  | processWait (hndl : Word)
  | processExit
  | windowRegister (publishHndl windowHndl clientId reference : Word)
  | windowDeregister (hndl : Word)
  | pageMap (windowRegistrationHndl viewOffset contentVaddr : Word)
  | loadComplete (entryPoint sp : Word)
  | irqRegister (publishHndl irqNum : Word) (edgeTriggered : Bool)
  | sDDFChannelRegisterBidirectional (channelHndlCap : Word) (virtType : Option VirtType)
  | sDDFChannelRegisterRecvOnly (channelHndlCap : Word)
  | sDDFQueueRegister (hndlCap size : Word) (queueType : QueueType)
  | sDDFGetDataRegion
  | sDDFProvideDataRegion (hndlCap size : Word)
  | serverCreateChannel (publishHndl : Word)
  | channelOpen (hndlCap : Word)
  deriving DecidableEq, Repr

/-! ## Reading a message -/

abbrev Decoder (α : Type) := Prog Panic IpcBuffer InvocationError α

/-- `f_msg`. -/
def fMsg (i : Fin 120) : Decoder Word := Prog.gets fun b => b.msgRegs i

/-- `f_cap`. -/
def fCap (i : Fin 3) : Decoder Word := Prog.gets fun b => b.capsOrBadges i

def invalidArguments {α : Type} : Decoder α := Prog.fail .invalidArguments

/-- `rust_str_from_buffer(..)?`. -/
def readStr (buffer : List UInt8) : Decoder (String × List UInt8) :=
  match rustStrFromBuffer buffer with
  | .ok x => pure x
  | .error e => Prog.fail e

/-- The arguments of a new process, one string after the other. -/
def readArgs : Nat → List UInt8 → Decoder (List String)
  | 0, _ => pure []
  | n + 1, buffer => do
    let (arg, rest) ← readStr buffer
    let args ← readArgs n rest
    pure (arg :: args)

/-- `data_buffer.unwrap()` after the test that it is set. -/
def needBuffer (dataBuffer : Option (List UInt8)) : Decoder (List UInt8) :=
  dataBuffer |> Prog.okOr .dataBufferNotSet

/-- The handle of `WindowDestroy`, `ObjClose` and `ObjDestroy`. -/
def decodeHandle (info : MessageInfo) : Decoder ServerReceivedHandleOrHandleCap :=
  if info.extraCaps = 1 ∧ info.capsUnwrapped = 1 then do
    pure (.unwrappedHandleCap (← fCap 0))
  else if info.length = 1 then do
    pure (.handle (← fMsg 0))
  else invalidArguments

/-- The handle of `ObjStat`. -/
def decodeStatHandle (info : MessageInfo) : Decoder ServerReceivedHandleOrHandleCap :=
  if info.extraCaps = 1 then
    if info.capsUnwrapped ≠ 1 then invalidArguments
    else do
      pure (.unwrappedHandleCap (← fCap 0))
  else if info.length = 1 then do
    pure (.handle (← fMsg 0))
  else invalidArguments

/-- The bit of the `i`th capability in `caps_unwrapped`. -/
def MessageInfo.isUnwrapped (info : MessageInfo) (i : Nat) : Bool :=
  info.capsUnwrapped.val.testBit i

/-- The window of `View`, and how many capabilities it took. -/
def decodeWindow (info : MessageInfo) (recvSlot : Word) :
    Decoder (ServerReceivedHandleOrHandleCap × Fin 3) := do
  let window ← fMsg 0
  if window = UInt64.ofNat (2 ^ 64 - 1) then
    if info.extraCaps.val < 1 then invalidArguments
    else if info.isUnwrapped 0 then do
      pure (.unwrappedHandleCap (← fCap 0), 1)
    else pure (.wrappedHandleCap recvSlot, 1)
  else pure (.handle window, 0)

/-- The object of `View`, after `caps` capabilities. -/
def decodeObject (info : MessageInfo) (caps : Fin 3) : Decoder ServerReceivedHandleOrHandleCap := do
  let object ← fMsg 1
  if object = UInt64.ofNat (2 ^ 64 - 1) then
    if info.extraCaps.val < caps.val + 1 then invalidArguments
    else if info.isUnwrapped caps.val then do
      pure (.unwrappedHandleCap (← fCap caps))
    else invalidArguments
  else pure (.handle object)

/-- The shared buffer of `ConnOpen`. -/
def decodeSharedBuf (info : MessageInfo) (recvSlot : Word) :
    Decoder (Option (ServerReceivedHandleOrHandleCap × Word)) :=
  if info.length = 0 then pure none
  else if info.extraCaps = 1 then
    if info.isUnwrapped 0 then do
      let hndl ← fCap 0
      pure (some (.unwrappedHandleCap hndl, ← fMsg 1))
    else do
      pure (some (.wrappedHandleCap recvSlot, ← fMsg 1))
  else do
    let hndl ← fMsg 0
    pure (some (.handle hndl, ← fMsg 1))

/-- The one capability that an sDDF invocation needs has come to the receive slot. -/
def MessageInfo.oneWrapped (info : MessageInfo) : Prop :=
  info.extraCaps = 1 ∧ info.capsUnwrapped = 0

instance (info : MessageInfo) : Decidable info.oneWrapped := inferInstanceAs (Decidable (_ ∧ _))

/-! ## The decoder -/

/-- The arms of `get_with`. -/
def decodeArm (info : MessageInfo) (dataBuffer : Option (List UInt8)) (recvSlot : Word) :
    SMOSInvocation → Decoder SMOS_Invocation
  | .windowCreate => do
    let baseVaddr ← fMsg 0
    let size ← fMsg 1
    let returnCap ← fMsg 2
    pure (.windowCreate baseVaddr size (returnCap != 0))
  | .windowDestroy => do
    pure (.windowDestroy (← decodeHandle info))
  | .objClose => do
    pure (.objClose (← decodeHandle info))
  | .objDestroy => do
    pure (.objDestroy (← decodeHandle info))
  | .sDDFChannelRegisterBidirectional =>
    if info.length > 1 ∨ ¬ info.oneWrapped then invalidArguments
    else if info.length = 1 then do
      let kind ← fMsg 0
      let kind ← VirtType.tryFrom kind |> Prog.okOr .invalidArguments
      pure (.sDDFChannelRegisterBidirectional recvSlot (some kind))
    else pure (.sDDFChannelRegisterBidirectional recvSlot none)
  | .sDDFChannelRegisterReceiveOnly =>
    if ¬ info.oneWrapped then invalidArguments
    else pure (.sDDFChannelRegisterRecvOnly recvSlot)
  | .sDDFQueueRegister =>
    if info.length ≠ 2 ∨ ¬ info.oneWrapped then invalidArguments
    else do
      let size ← fMsg 0
      let kind ← fMsg 1
      let kind ← QueueType.tryFrom kind |> Prog.okOr .invalidArguments
      pure (.sDDFQueueRegister recvSlot size kind)
  | .sDDFProvideDataRegion =>
    if ¬ info.oneWrapped then invalidArguments
    else do
      pure (.sDDFProvideDataRegion recvSlot (← fMsg 0))
  | .sDDFGetDataRegion => pure .sDDFGetDataRegion
  | .windowRegister =>
    if info.extraCaps ≠ 1 ∨ info.capsUnwrapped ≠ 1 ∨ info.length ≠ 3 then invalidArguments
    else do
      let publishHndl ← fMsg 0
      let windowHndl ← fCap 0
      let clientId ← fMsg 1
      let reference ← fMsg 2
      pure (.windowRegister publishHndl windowHndl clientId reference)
  | .serverCreateChannel =>
    if info.length ≠ 1 then invalidArguments
    else do
      pure (.serverCreateChannel (← fMsg 0))
  | .channelOpen =>
    -- the source has `&&` here
    if info.extraCaps ≠ 1 ∧ info.capsUnwrapped ≠ 1 then invalidArguments
    else do
      pure (.channelOpen (← fCap 0))
  | .windowDeregister =>
    if info.length ≠ 1 then invalidArguments
    else do
      pure (.windowDeregister (← fMsg 0))
  | .pageMap =>
    if info.length ≠ 3 then invalidArguments
    else do
      let hndl ← fMsg 0
      let viewOffset ← fMsg 1
      let contentVaddr ← fMsg 2
      pure (.pageMap hndl viewOffset contentVaddr)
  | .connCreate => do
    let (name, _) ← readStr (← needBuffer dataBuffer)
    pure (.connCreate name)
  | .connPublish => do
    let buffer ← needBuffer dataBuffer
    let ntfnBuffer ← fMsg 0
    let (name, _) ← readStr buffer
    pure (.connPublish ntfnBuffer name)
  | .objCreate => do
    let hasName ← fMsg 0
    let name ← if hasName ≠ 0 then do
        let (name, _) ← readStr (← needBuffer dataBuffer)
        pure (some name)
      else pure none
    let size ← fMsg 1
    let rights ← fMsg 2
    let attributes ← fMsg 3
    let returnCap ← fMsg 4
    pure (.objCreate name size rights attributes (returnCap != 0))
  | .objOpen => do
    let (name, _) ← readStr (← needBuffer dataBuffer)
    let rights ← fMsg 0
    let returnCap ← fMsg 1
    pure (.objOpen name rights (returnCap != 0))
  | .objStat => do
    pure (.objStat (← decodeStatHandle info))
  | .view => do
    let (window, caps) ← decodeWindow info recvSlot
    let object ← decodeObject info caps
    let windowOffset ← fMsg 2
    let objOffset ← fMsg 3
    let size ← fMsg 4
    let rights ← fMsg 5
    pure (.view window object windowOffset objOffset size rights)
  | .unview =>
    if info.length ≠ 1 then invalidArguments
    else do
      pure (.unview (← fMsg 0))
  | .connDestroy =>
    if info.length ≠ 1 then invalidArguments
    else do
      pure (.connDestroy (← fMsg 0))
  | .connDeregister =>
    if info.length ≠ 1 then invalidArguments
    else do
      pure (.connDeregister (← fMsg 0))
  | .loadComplete =>
    if info.length ≠ 2 then invalidArguments
    else do
      let entryPoint ← fMsg 0
      pure (.loadComplete entryPoint (← fMsg 1))
  | .connOpen => do
    pure (.connOpen (← decodeSharedBuf info recvSlot))
  | .connClose => pure .connClose
  | .connRegister =>
    if info.length ≠ 2 then Prog.panic .todo
    else do
      let publishHndl ← fMsg 0
      pure (.connRegister publishHndl (← fMsg 1))
  | .irqRegister =>
    if info.length ≠ 3 then invalidArguments
    else do
      let publishHndl ← fMsg 0
      let irqNum ← fMsg 1
      let edgeTriggered ← fMsg 2
      pure (.irqRegister publishHndl irqNum (edgeTriggered != 0))
  | .replyCreate => pure .replyCreate
  | .serverHandleCapCreate =>
    if info.length ≠ 2 then invalidArguments
    else do
      let publishHndl ← fMsg 0
      pure (.serverHandleCapCreate publishHndl (← fMsg 1))
  | .procSpawn => do
    let buffer ← needBuffer dataBuffer
    if info.length ≠ 2 then invalidArguments
    else do
      let (execName, buffer) ← readStr buffer
      let (fsName, buffer) ← readStr buffer
      let argc ← fMsg 0
      let args ← if argc = 0 then pure none else do
        pure (some (← readArgs argc.toNat buffer))
      let prio ← fMsg 1
      if prio.toNat < 256 then pure (.processSpawn execName fsName prio.toUInt8 args)
      else Prog.panic .expect
  | .procWait =>
    if info.length ≠ 1 then invalidArguments
    else do
      pure (.processWait (← fMsg 0))
  | .procExit => pure .processExit
  | .testSimple => Prog.panic .testSimple
  | _ => Prog.panic .notHandled

/-- `get_with`. -/
def getWith (info : MessageInfo) (dataBuffer : Option (List UInt8)) (recvSlot : Word)
    (consumedRecvSlot : Bool) : Decoder SMOS_Invocation := do
  let label ← SMOSInvocation.tryFrom info.label |> Prog.okOr .invalidInvocation
  if !label.canContainWrappedCap && consumedRecvSlot then invalidArguments
  else decodeArm info dataBuffer recvSlot label

/-- A capability of the message was not unwrapped, so it came to the receive slot. -/
def MessageInfo.consumedRecvSlot (info : MessageInfo) : Bool :=
  decide (info.extraCaps > 0) &&
    (info.capsUnwrapped.val &&& (2 ^ info.extraCaps.val - 1)) != 2 ^ info.extraCaps.val - 1

/-- `SMOS_Invocation::new`, the first component; the second is `info.consumedRecvSlot`. -/
def SMOS_Invocation.new (server : ServerConnection) (info : MessageInfo)
    (dataBuffer : Option (List UInt8)) (recvSlot : Word) : Decoder SMOS_Invocation :=
  match SMOSInvocation.tryFrom info.label with
  | none => Prog.fail .invalidInvocation
  | some label =>
    if !server.isSupported label then Prog.fail (.unsupportedInvocation label)
    else getWith info dataBuffer recvSlot info.consumedRecvSlot

/-! ## Which messages reach an arm -/

/-- The message gets to the arm of `label`: the server supports it, and no capability came to
the receive slot that the label does not take. -/
structure Reaches (server : ServerConnection) (info : MessageInfo) (label : SMOSInvocation) :
    Prop where
  exists_label : SMOSInvocation.tryFrom info.label = some label
  supported : server.isSupported label = true
  cap : label.canContainWrappedCap = true ∨ info.consumedRecvSlot = false

theorem new_of_reaches {server : ServerConnection} {info : MessageInfo} {label : SMOSInvocation}
    {db : Option (List UInt8)} {slot : Word} (h : Reaches server info label) :
    SMOS_Invocation.new server info db slot = decodeArm info db slot label := by
  have hc : (!label.canContainWrappedCap && info.consumedRecvSlot) = false := by
    rcases h.cap with hw | hw <;> simp [hw]
  funext b
  simp only [SMOS_Invocation.new, h.exists_label, h.supported, Bool.not_true, Bool.false_eq_true,
    if_false, getWith, Prog.okOr]
  show (if (!label.canContainWrappedCap && info.consumedRecvSlot) = true then _
    else _ : Decoder _) b = _
  rw [hc]
  rfl

/-- A message that gets to no arm is answered with an error that its info decides. -/
theorem new_of_not_reaches {server : ServerConnection} {info : MessageInfo}
    (h : ∀ label, ¬ Reaches server info label) (db : Option (List UInt8)) (slot : Word) :
    ∃ e, SMOS_Invocation.new server info db slot = Prog.fail e := by
  cases hl : SMOSInvocation.tryFrom info.label with
  | none => exact ⟨.invalidInvocation, by simp [SMOS_Invocation.new, hl]⟩
  | some label =>
    cases hs : server.isSupported label with
    | false => exact ⟨.unsupportedInvocation label, by simp [SMOS_Invocation.new, hl, hs]⟩
    | true =>
      have hc : (!label.canContainWrappedCap && info.consumedRecvSlot) = true := by
        by_contra hnot
        refine h label ⟨hl, hs, ?_⟩
        cases hw : label.canContainWrappedCap <;> simp_all
      refine ⟨.invalidArguments, ?_⟩
      funext b
      simp only [SMOS_Invocation.new, hl, hs, Bool.not_true, Bool.false_eq_true, if_false, getWith,
        Prog.okOr]
      show (if (!label.canContainWrappedCap && info.consumedRecvSlot) = true then _
        else _ : Decoder _) b = _
      rw [hc]
      rfl

end Smos.Ipc
