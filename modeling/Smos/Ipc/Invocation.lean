/-
Smos.Ipc.Invocation — invocation labels, and the errors a call can answer.

Labels are numbered in the order of the enumeration. Each type of server
has its own list of supported labels.
-/
import Smos.Ipc.Message

namespace Smos.Ipc

/-! ## Labels -/

inductive SMOSInvocation where
  | windowCreate
  | windowDestroy
  | windowRegister
  | windowDeregister
  | objCreate
  | objDestroy
  | objOpen
  | objClose
  | view
  | unview
  | objStat
  | connCreate
  | connDestroy
  | connOpen
  | connClose
  | connPublish
  | connUnpublish
  | connRegister
  | connDeregister
  | testSimple
  | authorise
  | procSpawn
  | procWait
  | procExit
  | procDestroy
  | procCreateComplete
  | replyCreate
  | replyDestroy
  | serverHandleCapCreate
  | serverHandleCapDestroy
  | dirOpen
  | dirClose
  | dirRead
  | pageMap
  | pageUnmap
  | loadComplete
  | irqRegister
  | sDDFChannelRegisterBidirectional
  | sDDFChannelRegisterReceiveOnly
  | sDDFQueueRegister
  | sDDFGetDataRegion
  | sDDFProvideDataRegion
  | serverCreateChannel
  | channelOpen
  deriving DecidableEq, Repr

namespace SMOSInvocation

/-- The labels in the order of their numbers. -/
def all : List SMOSInvocation :=
  [windowCreate, windowDestroy, windowRegister, windowDeregister, objCreate, objDestroy, objOpen,
    objClose, view, unview, objStat, connCreate, connDestroy, connOpen, connClose, connPublish,
    connUnpublish, connRegister, connDeregister, testSimple, authorise, procSpawn, procWait,
    procExit, procDestroy, procCreateComplete, replyCreate, replyDestroy, serverHandleCapCreate,
    serverHandleCapDestroy, dirOpen, dirClose, dirRead, pageMap, pageUnmap, loadComplete,
    irqRegister, sDDFChannelRegisterBidirectional, sDDFChannelRegisterReceiveOnly,
    sDDFQueueRegister, sDDFGetDataRegion, sDDFProvideDataRegion, serverCreateChannel, channelOpen]

/-- `SMOSInvocation as u64`. -/
def label (x : SMOSInvocation) : Word := UInt64.ofNat (all.idxOf x)

/-- `SMOSInvocation::try_from`. -/
def tryFrom (label : Word) : Option SMOSInvocation := all[label.toNat]?

@[simp] theorem tryFrom_label (x : SMOSInvocation) : tryFrom x.label = some x := by
  cases x <;> decide +kernel

/-- `can_contain_wrapped_cap`. -/
def canContainWrappedCap : SMOSInvocation → Bool
  | sDDFChannelRegisterBidirectional | sDDFChannelRegisterReceiveOnly | sDDFQueueRegister
  | sDDFProvideDataRegion | view | connOpen => true
  | _ => false

end SMOSInvocation

/-! ## Servers -/

def rootServerInvocations : List SMOSInvocation :=
  [.connCreate, .connDestroy, .connPublish, .connRegister, .connDeregister, .testSimple,
    .windowCreate, .windowDestroy, .windowRegister, .windowDeregister, .replyCreate,
    .serverHandleCapCreate, .procSpawn, .procWait, .procExit, .pageMap, .loadComplete,
    .irqRegister, .serverCreateChannel, .channelOpen]

def objectServerInvocations : List SMOSInvocation :=
  [.objCreate, .view, .unview, .objOpen, .objClose, .objDestroy, .objStat]

def nonRootServerInvocations : List SMOSInvocation := [.connOpen, .connClose]

def sDDFInvocations : List SMOSInvocation :=
  [.sDDFChannelRegisterBidirectional, .sDDFChannelRegisterReceiveOnly, .sDDFQueueRegister,
    .sDDFGetDataRegion, .sDDFProvideDataRegion]

/-- The types that implement `ServerConnection`. -/
inductive ServerConnection where
  | rootServer
  | objectServer
  | sDDF
  deriving DecidableEq, Repr

/-- `ServerConnection::is_supported`. -/
def ServerConnection.isSupported : ServerConnection → SMOSInvocation → Bool
  | rootServer, inv => rootServerInvocations.contains inv || objectServerInvocations.contains inv
  | objectServer, inv =>
    nonRootServerInvocations.contains inv || objectServerInvocations.contains inv
  | sDDF, inv => nonRootServerInvocations.contains inv || sDDFInvocations.contains inv

/-! ## Errors -/

inductive InvocationError where
  | noError
  | invalidInvocation
  | notEnoughArgs (expected actual : Word)
  | notEnoughCaps (expected actual : Word)
  | invalidType (whichArg : Word)
  | cspaceFull
  | unsupportedInvocation (label : SMOSInvocation)
  | outOfHandles
  | outOfHandleCaps
  | alignmentError (whichArg : Word)
  | invalidArguments
  | invalidHandle (whichArg : Word)
  | invalidHandleCapability (whichArg : Word)
  | dataBufferNotSet
  | bufferTooLarge
  | insufficientResources
  | serverError
  deriving DecidableEq, Repr

/-- Where a client stub or a server panics. -/
inductive Panic where
  | todo
  | unwrap
  | expect
  | assertionFailed
  | testSimple
  | notHandled
  | unexpectedOnServerSide
  | unreachable
  deriving DecidableEq, Repr

end Smos.Ipc
