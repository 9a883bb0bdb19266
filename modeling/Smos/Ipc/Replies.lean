/-
Smos.Ipc.Replies — what a server replies and what the stub makes of it.

`handle_reply` puts handles in registers and capabilities in the
capability registers, an arm for each reply. The stub of the same
invocation tests that no error came and reads them back. A reply is sent
to no endpoint, so the kernel puts its capability into the slot that the
stub named.

`ProcessWait` has no arm in `handle_reply`, and a physical address of 0
cannot be told from none. Every other reply comes back as it was.
-/
import Smos.Ipc.Errors
import Smos.Ipc.Stubs

namespace Smos.Ipc

open Smos.Base

/-! ## Replies -/

/-- `SMOSReply`. A handle is its index, a capability its pointer. -/
inductive SMOSReply where
  | windowCreate (hndl : HandleOrHandleCap)
  | windowDestroy
  | pageMap
  | unview
  | windowDeregister
  | objClose
  | objDestroy
  | connDestroy
  | connDeregister
  | loadComplete
  | sDDFProvideDataRegion
  | processWait
  | connRegister (hndl : Word)
  | windowRegister (hndl : Word)
  | irqRegister (hndl irqHandler : Word) (badgeBit : UInt8)
  | connOpen
  | connClose
  | connCreate (hndl ep : Word)
  | serverHandleCapCreate (hndl cap : Word)
  | connPublish (hndl ep : Word)
  | replyCreate (hndl reply : Word)
  | view (hndl : Word)
  | processSpawn (hndl : Word)
  | objCreate (hndl : HandleOrHandleCap)
  | objOpen (hndl : HandleOrHandleCap)
  | objStat (size : Word) (paddr : Option Word)
  | sDDFChannelRegisterBidirectional (hndlCap : Word)
  | sDDFChannelRegisterRecvOnly
  | sDDFGetDataRegion (hndlCap : Word)
  | sDDFQueueRegister
  | serverCreateChannel (bit : UInt8) (hndlCap : Word)
  | channelOpen (ntfn : Word)
  deriving DecidableEq, Repr

section Encoder

variable {ε : Type}

/-- A capability of the reply. -/
def replyCap (cptr : Word) : Prog Panic IpcBuffer ε Unit :=
  Prog.modify fun b => b.setCap 0 cptr

/-- `match_hndl_or_hndl_cap`. -/
def matchHndlOrHndlCap : HandleOrHandleCap → Prog Panic IpcBuffer ε MessageInfo
  | .handle idx => do
    replyReg 0 idx
    pure { label := InvocationErrorLabel.noError.toWord, length := 1 }
  | .handleCap cptr => do
    replyCap cptr
    pure { label := InvocationErrorLabel.noError.toWord, extraCaps := 1 }

/-- `handle_reply`. -/
def handleReply : SMOSReply → Prog Panic IpcBuffer ε MessageInfo
  | .windowCreate hndl => matchHndlOrHndlCap hndl
  | .objCreate hndl => matchHndlOrHndlCap hndl
  | .objOpen hndl => matchHndlOrHndlCap hndl
  | .connCreate hndl ep => hndlAndCap hndl ep
  | .serverCreateChannel bit hndlCap => hndlAndCap bit.toUInt64 hndlCap
  | .sDDFChannelRegisterBidirectional hndlCap => capOnly hndlCap
  | .sDDFGetDataRegion hndlCap => capOnly hndlCap
  | .channelOpen ntfn => capOnly ntfn
  | .serverHandleCapCreate hndl cap => hndlAndCap hndl cap
  | .connPublish hndl ep => hndlAndCap hndl ep
  | .replyCreate hndl reply => hndlAndCap hndl reply
  | .view hndl => hndlOnly hndl
  | .windowRegister hndl => hndlOnly hndl
  | .irqRegister hndl irqHandler badgeBit => do
    replyReg 0 hndl
    replyReg 1 badgeBit.toUInt64
    replyCap irqHandler
    pure { label := noError, length := 2, extraCaps := 1 }
  | .connRegister hndl => hndlOnly hndl
  | .processSpawn hndl => hndlOnly hndl
  | .objStat size paddr => do
    replyReg 0 size
    replyReg 1 (paddr.getD 0)
    pure { label := noError, length := 2 }
  | .windowDestroy | .connOpen | .pageMap | .unview | .windowDeregister | .connClose | .objClose
  | .objDestroy | .connDestroy | .loadComplete | .sDDFChannelRegisterRecvOnly | .sDDFQueueRegister
  | .sDDFProvideDataRegion | .connDeregister => pure { label := noError }
  -- the arm `_`
  | .processWait => Prog.panic .notHandled
where
  noError : Word := InvocationErrorLabel.noError.toWord
  hndlOnly (hndl : Word) : Prog Panic IpcBuffer ε MessageInfo := do
    replyReg 0 hndl
    pure { label := noError, length := 1 }
  capOnly (cap : Word) : Prog Panic IpcBuffer ε MessageInfo := do
    replyCap cap
    pure { label := noError, extraCaps := 1 }
  hndlAndCap (hndl cap : Word) : Prog Panic IpcBuffer ε MessageInfo := do
    replyReg 0 hndl
    replyCap cap
    pure { label := noError, length := 1, extraCaps := 1 }

end Encoder

/-! ## The stubs after the call -/

/-- What a stub returns to its caller. -/
inductive Response where
  | unit
  | handle (idx : Word)
  | handleOrHandleCap (hndl : HandleOrHandleCap)
  /-- A connection, a reply object or a handle capability with its local handle. -/
  | handleAndCap (hndl cap : Word)
  | irq (hndl : Word) (badgeBit : UInt8) (irqHandler : Word)
  | channel (bit : UInt8) (hndlCap : Word)
  | cap (cptr : Word)
  | objStat (size : Word) (paddr : Option Word)
  deriving DecidableEq, Repr

abbrev ReplyDecoder (α : Type) := Prog Panic IpcBuffer InvocationError α

/-- One capability came, to the slot that the stub named. -/
def MessageInfo.gotCap (info : MessageInfo) : Bool :=
  info.extraCaps == 1 && info.capsUnwrapped == 0

/-- `u64::try_into::<u8>()`, with the panic of its `unwrap` or `expect`. -/
def byteOf (p : Panic) (x : Word) : ReplyDecoder UInt8 :=
  (if x.toNat < 256 then some x.toUInt8 else none) |> Prog.unwrap p

/-- The tail of `window_create`, `obj_create` and `obj_open`. -/
def optCapReply (info : MessageInfo) : Option Word → ReplyDecoder Response
  | some slot =>
    if !info.gotCap then Prog.fail .serverError
    else pure (.handleOrHandleCap (.handleCap slot))
  | none =>
    if info.length ≠ 1 then Prog.fail .serverError
    else do
      pure (.handleOrHandleCap (.handle (← gotReg 0)))

/-- The tail of `reply_create` and `server_handle_cap_create`. -/
def handleAndCapReply (info : MessageInfo) (slot : Word) : ReplyDecoder Response :=
  if !info.gotCap || info.length != 1 then Prog.fail .serverError
  else do
    pure (.handleAndCap (← gotReg 0) slot)

def handleReplyTail : ReplyDecoder Response := do
  pure (.handle (← gotReg 0))

/-- The stub from the reply on. -/
def Request.decodeReply (q : Request) (info : MessageInfo) : ReplyDecoder Response := do
  if q = .processExit then Prog.panic .unreachable
  tryUnpackError info.label
  match q with
  | .connCreate slot _ => do
    Prog.assert .assertionFailed info.gotCap
    pure (.handleAndCap (← gotReg 0) slot)
  | .connRegister _ _ => handleReplyTail
  | .irqRegister _ _ _ irqHandlerSlot => do
    Prog.assert .assertionFailed (info.extraCaps == 1)
    Prog.assert .assertionFailed (info.capsUnwrapped == 0)
    let hndl ← gotReg 0
    pure (.irq hndl (← byteOf .unwrap (← gotReg 1)) irqHandlerSlot)
  | .connPublish _ slot _ => do
    pure (.handleAndCap (← gotReg 0) slot)
  | .windowCreate _ _ returnCap => optCapReply info returnCap
  | .windowRegister _ _ _ _ => handleReplyTail
  | .replyCreate returnCap => handleAndCapReply info returnCap
  | .serverHandleCapCreate _ _ returnSlot => handleAndCapReply info returnSlot
  | .processSpawn _ _ _ _ => handleReplyTail
  | .channelOpen _ ntfnSlot => do
    Prog.assert .assertionFailed info.gotCap
    pure (.cap ntfnSlot)
  | .serverChannelCreate _ channelSlot => do
    Prog.assert .assertionFailed info.gotCap
    pure (.channel (← byteOf .expect (← gotReg 0)) channelSlot)
  | .objCreate _ _ _ _ returnCap => optCapReply info returnCap
  | .objOpen _ _ returnCap => optCapReply info returnCap
  | .objStat _ => do
    let size ← gotReg 0
    let paddr ← gotReg 1
    pure (.objStat size (if paddr = 0 then none else some paddr))
  | .view _ _ _ _ _ _ =>
    if info.length ≠ 1 then Prog.fail .serverError
    else handleReplyTail
  | .sddfChannelRegisterBidirectional _ _ slot => do
    Prog.assert .assertionFailed info.gotCap
    pure (.cap slot)
  | .sddfGetDataRegion slot => do
    Prog.assert .assertionFailed (info.length == 0 && info.gotCap)
    pure (.handleOrHandleCap (.handleCap slot))
  | _ => pure .unit

/-! ## The round trip -/

/-- A server may return the reply for the request, and the stub should then return the
response. A capability is returned when the stub asked for one, and is then in the slot that
the stub gave. -/
inductive Answers : Request → SMOSReply → Response → Prop where
  | connCreate {slot serverName hndl ep} :
    Answers (.connCreate slot serverName) (.connCreate hndl ep) (.handleAndCap hndl slot)
  | connRegister {publishHndl id hndl} :
    Answers (.connRegister publishHndl id) (.connRegister hndl) (.handle hndl)
  | irqRegister {publishHndl irqNum edgeTriggered slot hndl irqHandler badgeBit} :
    Answers (.irqRegister publishHndl irqNum edgeTriggered slot)
      (.irqRegister hndl irqHandler badgeBit) (.irq hndl badgeBit slot)
  | connDeregister {regHndl} : Answers (.connDeregister regHndl) .connDeregister .unit
  | connPublish {ntfnBuffer slot name hndl ep} :
    Answers (.connPublish ntfnBuffer slot name) (.connPublish hndl ep) (.handleAndCap hndl slot)
  | connDestroy {conn} : Answers (.connDestroy conn) .connDestroy .unit
  | windowCreate {baseVaddr size idx} :
    Answers (.windowCreate baseVaddr size none) (.windowCreate (.handle idx))
      (.handleOrHandleCap (.handle idx))
  | windowCreateCap {baseVaddr size slot cptr} :
    Answers (.windowCreate baseVaddr size (some slot)) (.windowCreate (.handleCap cptr))
      (.handleOrHandleCap (.handleCap slot))
  | windowRegister {publishHndl windowHndlCap clientId reference hndl} :
    Answers (.windowRegister publishHndl windowHndlCap clientId reference) (.windowRegister hndl)
      (.handle hndl)
  | windowDeregister {winRegHndl} : Answers (.windowDeregister winRegHndl) .windowDeregister .unit
  | pageMap {winRegHndl viewOffset contentVaddr} :
    Answers (.pageMap winRegHndl viewOffset contentVaddr) .pageMap .unit
  | windowDestroy {hndl} : Answers (.windowDestroy hndl) .windowDestroy .unit
  | replyCreate {slot hndl reply} :
    Answers (.replyCreate slot) (.replyCreate hndl reply) (.handleAndCap hndl slot)
  | serverHandleCapCreate {publishHndl ident slot hndl cap} :
    Answers (.serverHandleCapCreate publishHndl ident slot) (.serverHandleCapCreate hndl cap)
      (.handleAndCap hndl slot)
  | processSpawn {executableName fsName prio argv hndl} :
    Answers (.processSpawn executableName fsName prio argv) (.processSpawn hndl) (.handle hndl)
  | processWait {hndl} : Answers (.processWait hndl) .processWait .unit
  | loadComplete {entryPoint sp} : Answers (.loadComplete entryPoint sp) .loadComplete .unit
  | channelOpen {channelHndlCap slot ntfn} :
    Answers (.channelOpen channelHndlCap slot) (.channelOpen ntfn) (.cap slot)
  | serverCreateChannel {publishHndl slot bit hndlCap} :
    Answers (.serverChannelCreate publishHndl slot) (.serverCreateChannel bit hndlCap)
      (.channel bit slot)
  | connOpen {sharedBuf} : Answers (.connOpen sharedBuf) .connOpen .unit
  | connClose : Answers .connClose .connClose .unit
  | objCreate {nameOpt size rights attributes idx} :
    Answers (.objCreate nameOpt size rights attributes none) (.objCreate (.handle idx))
      (.handleOrHandleCap (.handle idx))
  | objCreateCap {nameOpt size rights attributes slot cptr} :
    Answers (.objCreate nameOpt size rights attributes (some slot)) (.objCreate (.handleCap cptr))
      (.handleOrHandleCap (.handleCap slot))
  | objOpen {name rights idx} :
    Answers (.objOpen name rights none) (.objOpen (.handle idx)) (.handleOrHandleCap (.handle idx))
  | objOpenCap {name rights slot cptr} :
    Answers (.objOpen name rights (some slot)) (.objOpen (.handleCap cptr))
      (.handleOrHandleCap (.handleCap slot))
  | objClose {hndl} : Answers (.objClose hndl) .objClose .unit
  | objDestroy {hndl} : Answers (.objDestroy hndl) .objDestroy .unit
  | objStat {hndl size paddr} :
    Answers (.objStat hndl) (.objStat size paddr) (.objStat size paddr)
  | view {win obj winOffset objOffset size rights hndl} :
    Answers (.view win obj winOffset objOffset size rights) (.view hndl) (.handle hndl)
  | unview {hndl} : Answers (.unview hndl) .unview .unit
  | sddfChannelRegisterBidirectional {hndlCap kind slot cap} :
    Answers (.sddfChannelRegisterBidirectional hndlCap kind slot)
      (.sDDFChannelRegisterBidirectional cap) (.cap slot)
  | sddfChannelRegisterRecvOnly {hndlCap} :
    Answers (.sddfChannelRegisterRecvOnly hndlCap) .sDDFChannelRegisterRecvOnly .unit
  | sddfQueueRegister {objHndlCap size kind} :
    Answers (.sddfQueueRegister objHndlCap size kind) .sDDFQueueRegister .unit
  | sddfGetDataRegion {slot cap} :
    Answers (.sddfGetDataRegion slot) (.sDDFGetDataRegion cap)
      (.handleOrHandleCap (.handleCap slot))
  | sddfDataRegionProvide {obj size} :
    Answers (.sddfDataRegionProvide obj size) .sDDFProvideDataRegion .unit

/-- The capability that a reply carries. -/
def SMOSReply.cap : SMOSReply → Option Word
  | .windowCreate (.handleCap cptr) | .objCreate (.handleCap cptr) | .objOpen (.handleCap cptr)
  | .irqRegister _ cptr _ | .connCreate _ cptr | .serverHandleCapCreate _ cptr
  | .connPublish _ cptr | .replyCreate _ cptr | .sDDFChannelRegisterBidirectional cptr
  | .sDDFGetDataRegion cptr | .serverCreateChannel _ cptr | .channelOpen cptr => some cptr
  | _ => none

/-- The reply is written to the server's buffer `b` without a panic, and after delivery to the
client's buffer `stale` the stub returns the response, with the reply's capability received. -/
def ReplyRoundTrips (q : Request) (r : SMOSReply) (resp : Response) (cspace : Word → Cap)
    (b stale : IpcBuffer) : Prop :=
  ∃ info b', (handleReply r : Prog Panic IpcBuffer Empty MessageInfo) b = .ok info b' ∧
    let (t, received) := deliver none cspace info b' stale true
    q.decodeReply received.1 received.2 = .ok resp received.2 ∧ t.received = r.cap.map cspace

section

variable {q : Request} {r : SMOSReply} {resp : Response} {cspace : Word → Cap}
  {b stale : IpcBuffer}

/-- A reply that carries a capability, by its message and what the stub makes of it. -/
theorem roundTrips_cap {info : MessageInfo} {b' : IpcBuffer} {cptr : Word}
    (henc : (handleReply r : Prog Panic IpcBuffer Empty MessageInfo) b = .ok info b')
    (hx : info.extraCaps = 1) (hcap : r.cap = some cptr) (hsent : b'.capsOrBadges 0 = cptr)
    (hdec : q.decodeReply { info with capsUnwrapped := 0, extraCaps := 1 }
      (receivedBuffer info b' stale stale.capsOrBadges) =
        .ok resp (receivedBuffer info b' stale stale.capsOrBadges)) :
    ReplyRoundTrips q r resp cspace b stale := by
  refine ⟨info, b', henc, ?_⟩
  rw [deliver_reply hx, hcap, ← hsent]
  exact ⟨hdec, rfl⟩

/-- The address of a physically contiguous object comes back unless it is 0. -/
theorem objStat_round_trips {hndl : HandleOrHandleCap} {size : Word} {paddr : Option Word} :
    ReplyRoundTrips (.objStat hndl) (.objStat size paddr) (.objStat size paddr) cspace b stale ↔
      paddr ≠ some 0 := by
  cases paddr with
  | none => exact iff_of_true ⟨_, _, rfl, rfl, rfl⟩ nofun
  | some paddr =>
    by_cases hzero : paddr = 0
    · subst hzero
      refine iff_of_false ?_ (not_not_intro rfl)
      intro ⟨info, b', henc, hdec, _⟩
      cases henc
      cases hdec
    · have hsome : (if paddr = 0 then none else some paddr) = some paddr := if_neg hzero
      refine iff_of_true ⟨_, _, rfl, ?_, rfl⟩ (fun heq => hzero (Option.some.inj heq))
      show Outcome.ok (Response.objStat size (if paddr = 0 then none else some paddr)) _ = _
      rw [hsome]

theorem byteOf_toUInt64 {p : Panic} (x : UInt8) : byteOf p x.toUInt64 b = .ok x b := by
  have hlt : x.toUInt64.toNat < 256 := by
    rw [UInt8.toNat_toUInt64]
    exact x.toNat_lt
  rw [byteOf, if_pos hlt, UInt8.toUInt8_toUInt64]
  rfl

/-- **Reply round trip.** A reply that a server returns for a request is written without a panic
and comes back with its payload, exactly when it is not `ProcessWait` and carries no physical
address 0. -/
theorem reply_round_trip (h : Answers q r resp) :
    ReplyRoundTrips q r resp cspace b stale ↔
      r ≠ .processWait ∧ ∀ size, r ≠ .objStat size (some 0) := by
  cases h
  case connRegister | connDeregister | connDestroy | windowCreate | windowRegister
      | windowDeregister | pageMap | windowDestroy | processSpawn | loadComplete | connOpen
      | connClose | objCreate | objOpen | objClose | objDestroy | view | unview
      | sddfChannelRegisterRecvOnly | sddfQueueRegister | sddfDataRegionProvide =>
    exact iff_of_true ⟨_, _, rfl, rfl, rfl⟩ ⟨nofun, nofun⟩
  case connCreate | connPublish | windowCreateCap | replyCreate | serverHandleCapCreate
      | channelOpen | objCreateCap | objOpenCap | sddfChannelRegisterBidirectional
      | sddfGetDataRegion =>
    exact iff_of_true (roundTrips_cap rfl rfl rfl rfl rfl) ⟨nofun, nofun⟩
  case irqRegister =>
    refine iff_of_true (roundTrips_cap rfl rfl rfl rfl ?_) ⟨nofun, nofun⟩
    refine (Prog.bind_of_ok rfl).trans ?_
    refine (Prog.bind_of_ok rfl).trans ?_
    refine (Prog.bind_of_ok rfl).trans ?_
    refine (Prog.bind_of_ok rfl).trans ?_
    refine (Prog.bind_of_ok rfl).trans ?_
    exact Prog.bind_of_ok (byteOf_toUInt64 _)
  case serverCreateChannel =>
    refine iff_of_true (roundTrips_cap rfl rfl rfl rfl ?_) ⟨nofun, nofun⟩
    refine (Prog.bind_of_ok rfl).trans ?_
    refine (Prog.bind_of_ok rfl).trans ?_
    refine (Prog.bind_of_ok rfl).trans ?_
    exact Prog.bind_of_ok (byteOf_toUInt64 _)
  case processWait =>
    refine iff_of_false ?_ (fun h => h.1 rfl)
    intro ⟨info, b', henc, _⟩
    cases henc
  case objStat hndl size paddr =>
    rw [objStat_round_trips]
    constructor
    · intro hpaddr
      refine ⟨nofun, fun size' heq => ?_⟩
      cases heq
      exact hpaddr rfl
    · intro ⟨_, hnot⟩ heq
      rw [heq] at hnot
      exact hnot size rfl

end

/-- `ObjStat` for an object at physical address 4096. -/
theorem objStat_reply_round_trip :
    ReplyRoundTrips (.objStat (.handle 3)) (.objStat 8192 (some 4096))
      (.objStat 8192 (some 4096)) (fun _ => .other 0) .blank .blank :=
  (reply_round_trip .objStat).mpr
    ⟨nofun, fun _ heq => absurd (SMOSReply.objStat.inj heq).2 (by decide)⟩

/-- The reply for which a process waits is never written. -/
theorem processWait_not_replied :
    Answers (.processWait 3) .processWait .unit ∧
      ¬ ReplyRoundTrips (.processWait 3) .processWait .unit (fun _ => .other 0) .blank .blank := by
  refine ⟨.processWait, ?_⟩
  intro ⟨info, b', henc, _⟩
  cases henc

end Smos.Ipc
