/-
Smos.Ipc.ServerLoop — the receive slot of a server over the runs of its loop.

A published server blocks in receive with one slot named in its IPC
buffer. A capability of the message that is not unwrapped goes there. The
loop decodes the message, runs a handler and cleans up: it deletes the
capability when the decoder failed and one had come, or when the decoded
invocation contains one.

The two tests are not the same. A `ConnOpen` without a shared buffer and a
`View` that names its window by a local handle are decoded although a
capability came with them, and they contain none. It stays in the slot.

Handlers call other servers through the stubs, and some stubs name a slot
for the reply. Which stubs the handlers of the published servers call is
`handlerCalls`; what the handlers do with their own data is not modelled.
-/
import Smos.Base.Run
import Smos.Ipc.DecoderStale
import Smos.Ipc.DecoderTotal
import Smos.Ipc.Replies

namespace Smos.Ipc

open Smos.Base

/-! ## The state of a server -/

/-- What the loop and the kernel see of a server: its buffers and its capability slots. -/
structure Server where
  buffers : Client
  slots : Word → Option Cap

namespace Server

def setIpc (s : Server) (b : IpcBuffer) : Server :=
  { s with buffers := { s.buffers with ipc := b } }

def setSlot (s : Server) (slot : Word) (cap : Option Cap) : Server :=
  { s with slots := Function.update s.slots slot cap }

@[simp] theorem setIpc_ipc (s : Server) (b : IpcBuffer) : (s.setIpc b).buffers.ipc = b := rfl

@[simp] theorem setIpc_slots (s : Server) (b : IpcBuffer) : (s.setIpc b).slots = s.slots := rfl

@[simp] theorem setSlot_buffers (s : Server) (slot : Word) (cap : Option Cap) :
    (s.setSlot slot cap).buffers = s.buffers := rfl

@[simp] theorem setSlot_slots (s : Server) (slot : Word) (cap : Option Cap) :
    (s.setSlot slot cap).slots slot = cap := by
  simp [setSlot]

/-- The state after a delivery. -/
def accept (s : Server) (t : Transfer) (b : IpcBuffer) : Server :=
  match t.received with
  | some cap => (s.setIpc b).setSlot s.buffers.ipc.recvSlot (some cap)
  | none => s.setIpc b

end Server

section Loop

variable {ε : Type}

/-- Work on the IPC buffer. -/
def withIpcBuffer {ε' α : Type} (m : Prog Panic IpcBuffer ε' α) : Prog Panic Server ε' α :=
  m.zoom (fun s => s.buffers.ipc) Server.setIpc

/-- The kernel delivers a message to the blocked server. -/
def receive (ep : Option Nat) (cspace : Word → Cap) (info : MessageInfo) (sent : IpcBuffer) :
    Prog Panic Server ε MessageInfo := fun s =>
  let free := (s.slots s.buffers.ipc.recvSlot).isNone
  let (t, info, b) := deliver ep cspace info sent s.buffers.ipc free
  .ok info (s.accept t b)

/-- `recv_slot.delete()`. -/
def deleteSlot (slot : Word) : Prog Panic Server ε Unit :=
  Prog.modify fun s => s.setSlot slot none

/-- `ipc_buf.set_recv_slot(&recv_slot)`. -/
def setRecvSlot (slot : Word) : Prog Panic Server ε Unit :=
  withIpcBuffer (Prog.modify fun b => b.setRecvSlot slot)

/-! ## Handlers -/

/-- A call that a handler makes, and what it is answered. -/
structure Call where
  request : Request
  reply : Except InvocationError SMOSReply
  answers : ∀ r, reply = .ok r → ∃ resp, Answers request r resp
  /-- The buffer of the called server, and its capabilities. -/
  buffer : IpcBuffer
  cspace : Word → Cap

/-- The message that answers a call. -/
def encodeReply {ε : Type} : Except InvocationError SMOSReply → Prog Panic IpcBuffer ε MessageInfo
  | .ok r => handleReply r
  | .error e => handleError e

/-- The reply comes. Without one the caller waits forever. -/
def Call.answer (c : Call) : Prog Panic Server ε Unit :=
  match (encodeReply c.reply : Prog Panic IpcBuffer ε MessageInfo) c.buffer with
  | .ok info b => do
    let _ ← receive none c.cspace info b
  | .err _ _ => pure ()
  | .panic p => Prog.panic p

/-- The stub's part of a call, and the reply. What the stub makes of it is the handler's. -/
def Call.run (c : Call) : Prog Panic Server ε Unit := do
  let sent ← (c.request.stub.zoom Server.buffers fun s b => { s with buffers := b }).attempt
  match sent with
  | .error _ => pure ()
  | .ok _ => c.answer

/-- The stubs that the handlers of the published servers call for an invocation. -/
def SMOS_Invocation.handlerCalls : SMOS_Invocation → Request → Bool
  | .connOpen _, .connRegister _ _ | .connOpen _, .connDeregister _
  | .connOpen _, .windowCreate _ _ none | .connOpen _, .view ..
  | .connOpen _, .windowDestroy _ => true
  | .connClose, .unview _ | .connClose, .windowDestroy _ | .connClose, .connDeregister _ => true
  | .view .., .windowRegister .. => true
  | .unview _, .windowDeregister _ => true
  | .sDDFChannelRegisterBidirectional _ _, .channelOpen _ _
  | .sDDFChannelRegisterBidirectional _ _, .serverChannelCreate _ _ => true
  | .sDDFChannelRegisterRecvOnly _, .channelOpen _ _ => true
  | .sDDFQueueRegister .., .windowCreate _ _ none | .sDDFQueueRegister .., .view .. => true
  | .sDDFProvideDataRegion _ _, .objStat _ | .sDDFProvideDataRegion _ _, .windowCreate _ _ none
  | .sDDFProvideDataRegion _ _, .view .. => true
  | _, _ => false

/-- The stubs that are called for a notification. -/
def notificationCalls : Request → Bool
  | .pageMap _ _ _ | .unview _ | .windowDestroy _ => true
  | _ => false

/-- What a handler does for an invocation that it is given. -/
structure Handling (inv : SMOS_Invocation) where
  calls : List Call
  called : ∀ c ∈ calls, inv.handlerCalls c.request = true
  ret : Except InvocationError SMOSReply

/-- A handler that refuses at once. -/
def refuse (inv : SMOS_Invocation) : Handling inv where
  calls := []
  called _ h := absurd h List.not_mem_nil
  ret := .error .invalidArguments

/-! ## The loop -/

/-- `SMOS_Invocation::contains_cap`. -/
def SMOS_Invocation.containsCap : SMOS_Invocation → Bool
  | .sDDFChannelRegisterBidirectional _ _ | .sDDFChannelRegisterRecvOnly _
  | .sDDFQueueRegister _ _ _ | .sDDFProvideDataRegion _ _ => true
  | .view (.wrappedHandleCap _) _ _ _ _ _ => true
  | .connOpen (some (.wrappedHandleCap _, _)) => true
  | _ => false

/-- `smos_serv_decode_invocation`. -/
def smosServDecodeInvocation (server : ServerConnection) (msg : MessageInfo) (recvSlot : Word)
    (dataBuffer : Option (List UInt8)) :
    Prog Panic Server ε (Except (Option MessageInfo) SMOS_Invocation) := do
  let invocation ← (withIpcBuffer (SMOS_Invocation.new server msg dataBuffer recvSlot)).attempt
  match invocation with
  | .ok inv => pure (.ok inv)
  | .error e => do
    if msg.consumedRecvSlot then deleteSlot recvSlot
    setRecvSlot recvSlot
    let reply ← withIpcBuffer (handleError e)
    pure (.error (some reply))

/-- `smos_serv_cleanup`. -/
def smosServCleanup (inv : SMOS_Invocation) (recvSlot : Word)
    (ret : Except InvocationError SMOSReply) : Prog Panic Server ε (Option MessageInfo) := do
  if inv.containsCap then
    deleteSlot recvSlot
    setRecvSlot recvSlot
  let reply ← withIpcBuffer (encodeReply ret)
  pure (some reply)

end Loop

/-- A message that a client sends, with its capabilities and the data buffer that the server
shares with it. -/
structure Incoming where
  info : MessageInfo
  sent : IpcBuffer
  cspace : Word → Cap
  dataBuffer : Option (List UInt8)

/-- What ends a server's wait: a message, with what its handler would do for any invocation it
may be decoded as, or a notification. -/
inductive Event where
  | message (m : Incoming) (handler : (inv : SMOS_Invocation) → Handling inv)
  | notification (calls : List Call) (called : ∀ c ∈ calls, notificationCalls c.request = true)

/-- A published server: its type, its endpoint and the slot it allocated for what it receives. -/
structure Published where
  type : ServerConnection
  ep : Nat
  recvSlot : Word

namespace Published

variable (p : Published)

/-- From the end of one receive to the start of the next. -/
def turn : Event → Prog Panic Server InvocationError Unit
  | .message m handler => do
    let msg ← receive (some p.ep) m.cspace m.info m.sent
    let invocation ← smosServDecodeInvocation p.type msg p.recvSlot m.dataBuffer
    match invocation with
    | .error _ => pure ()
    | .ok inv => do
      Prog.forEach Call.run (handler inv).calls
      let _ ← smosServCleanup inv p.recvSlot (handler inv).ret
  | .notification calls _ => Prog.forEach Call.run calls

/-- The next wait, unless the server panics or is left without a reply. -/
def next (s : Server) (e : Event) : Option Server :=
  match p.turn e s with
  | .ok _ s' => some s'
  | _ => none

/-- The IPC buffer names the server's own slot, and that is empty. -/
structure Clean (s : Server) : Prop where
  named : s.buffers.ipc.recvSlot = p.recvSlot
  empty : s.slots p.recvSlot = none

/-- What the server sees of the message. -/
def delivered (s : Server) (m : Incoming) : Transfer × MessageInfo × IpcBuffer :=
  deliver (some p.ep) m.cspace m.info m.sent s.buffers.ipc
    (s.slots s.buffers.ipc.recvSlot).isNone

end Published

/-! ## Messages that leave a capability -/

/-- The window of `View` is taken from a register or from a badge. -/
def WindowLocal (info : MessageInfo) (b : IpcBuffer) : Prop :=
  b.msgRegs 0 ≠ UInt64.ofNat (2 ^ 64 - 1) ∨ info.isUnwrapped 0 = true

/-- The arms that can decode a message with a capability as an invocation without one. -/
def ArmLeaves (info : MessageInfo) (b : IpcBuffer) : SMOSInvocation → Prop
  | .connOpen => info.length = 0 ∨ info.extraCaps ≠ 1
  | .view => WindowLocal info b ∧ ¬ ObjectFails info b
  | _ => False

/-- The message is decoded as an invocation that contains no capability, although one came. -/
def LeavesCap (server : ServerConnection) (info : MessageInfo) (b : IpcBuffer) : Prop :=
  info.consumedRecvSlot = true ∧ ∃ label, Reaches server info label ∧ ArmLeaves info b label

/-! ## What the kernel puts in the slot -/

/-- A capability was received or all were unwrapped, and the marks say which. -/
def Transfer.Marked (t : Transfer) : Prop :=
  match t.received with
  | none => t.unwrapped + 1 = 2 ^ t.count ∧ t.slotFree = true
  | some _ => t.unwrapped + 1 < 2 ^ t.count ∧ t.slotFree = false

theorem transferFrom_marked (ep : Option Nat) (caps : List Cap) (i : Nat) (t : Transfer)
    (hcount : t.count = i) (h : t.Marked) : (transferFrom ep caps i t).Marked := by
  induction caps generalizing i t with
  | nil => exact h
  | cons cap caps ih =>
    have hpow : 2 ^ (i + 1) = 2 ^ i * 2 := Nat.pow_succ ..
    unfold Transfer.Marked at h
    rw [hcount] at h
    cases hb : cap.badgeAt ep with
    | some badge =>
      simp only [transferFrom, hb]
      refine ih (i + 1) _ rfl ?_
      unfold Transfer.Marked
      cases hr : t.received with
      | none =>
        rw [hr] at h
        exact ⟨by show t.unwrapped + 2 ^ i + 1 = 2 ^ (i + 1); omega, h.2⟩
      | some cap' =>
        rw [hr] at h
        exact ⟨by show t.unwrapped + 2 ^ i + 1 < 2 ^ (i + 1); omega, h.2⟩
    | none =>
      simp only [transferFrom, hb]
      split
      · next hfree =>
          refine ih (i + 1) _ rfl ?_
          cases hr : t.received with
          | none =>
            rw [hr] at h
            exact ⟨by show t.unwrapped + 1 < 2 ^ (i + 1); omega, rfl⟩
          | some cap' =>
            rw [hr, hfree] at h
            exact absurd h.2 (by decide)
      · unfold Transfer.Marked
        rw [hcount]
        exact h

theorem consumedRecvSlot_iff {info : MessageInfo} (h : info.Delivered) :
    info.consumedRecvSlot = true ↔ info.capsUnwrapped.val + 1 < 2 ^ info.extraCaps.val := by
  unfold MessageInfo.Delivered at h
  unfold MessageInfo.consumedRecvSlot
  revert h
  generalize info.extraCaps = x
  generalize info.capsUnwrapped = u
  revert x u
  decide

/-- The decoder's test is right: it holds exactly when the kernel put a capability in the slot. -/
theorem deliver_consumed (ep : Option Nat) (cspace : Word → Cap) (info : MessageInfo)
    (sent stale : IpcBuffer) :
    (deliver ep cspace info sent stale true).2.1.consumedRecvSlot =
      (deliver ep cspace info sent stale true).1.received.isSome := by
  rw [Bool.eq_iff_iff, consumedRecvSlot_iff (deliver_delivered ..)]
  obtain ⟨hu, hcount⟩ := transferFrom_unwrapped ep ((sentCaps cspace info sent).take 3) 0
    ⟨0, 0, stale.capsOrBadges, none, true⟩ rfl Nat.one_pos
  have hmarked := transferFrom_marked ep ((sentCaps cspace info sent).take 3) 0
    ⟨0, 0, stale.capsOrBadges, none, true⟩ rfl ⟨rfl, rfl⟩
  have hlen := List.length_take_le 3 (sentCaps cspace info sent)
  show (Fin.ofNat 8 _).val + 1 < 2 ^ (Fin.ofNat 4 _).val ↔ _
  rw [Fin.val_ofNat, Fin.val_ofNat]
  unfold deliver transferCaps
  generalize transferFrom ep _ 0 _ = t at hu hcount hmarked ⊢
  have hthree : t.count ≤ 3 := by omega
  have hpow : 2 ^ t.count ≤ 2 ^ 3 := Nat.pow_le_pow_right (by decide) hthree
  rw [Nat.mod_eq_of_lt (by omega), Nat.mod_eq_of_lt (by omega)]
  unfold Transfer.Marked at hmarked
  cases hr : t.received with
  | none =>
    rw [hr] at hmarked
    exact iff_of_false (by omega) Bool.false_ne_true
  | some cap =>
    rw [hr] at hmarked
    exact iff_of_true hmarked.1 rfl

/-! ## What the decoder makes of it -/

section Decoder

variable {server : ServerConnection} {info : MessageInfo} {db : Option (List UInt8)} {slot : Word}
  {label : SMOSInvocation} {b : IpcBuffer}

theorem wp_decodeWindow {Q : ServerReceivedHandleOrHandleCap × Fin 3 → IpcBuffer → Prop}
    {E : InvocationError → IpcBuffer → Prop} {P : Panic → Prop}
    (hl : WindowLocal info b → ∀ w, (∀ c, w ≠ .wrappedHandleCap c) → Q (w, windowCaps b) b)
    (hw : ¬ WindowLocal info b → Q (.wrappedHandleCap slot, windowCaps b) b)
    (hE : WindowFails info b → E .invalidArguments b) :
    Prog.wp (decodeWindow info slot) Q E P b := by
  unfold decodeWindow
  simp only [fMsg, fCap, invalidArguments, Prog.wp_bind, Prog.wp_gets, Prog.wp_ite, Prog.wp_fail,
    Prog.wp_pure]
  constructor
  · intro hmark
    have hcaps : windowCaps b = 1 := if_pos hmark
    rw [hcaps] at hl hw
    refine ⟨fun hx => hE ⟨hmark, hx⟩, fun _ => ⟨fun hu => hl (.inr hu) _ (by simp), fun hu => ?_⟩⟩
    refine hw ?_
    intro hlocal
    exact hlocal.elim (fun hne => hne hmark) hu
  · intro hmark
    have hcaps : windowCaps b = 0 := if_neg hmark
    rw [hcaps] at hl
    exact hl (.inl hmark) _ (by simp)

theorem wp_decodeObject {Q : ServerReceivedHandleOrHandleCap → IpcBuffer → Prop}
    {E : InvocationError → IpcBuffer → Prop} {P : Panic → Prop}
    (hQ : ¬ ObjectFails info b → ∀ o, Q o b) (hE : ObjectFails info b → E .invalidArguments b) :
    Prog.wp (decodeObject info (windowCaps b)) Q E P b := by
  unfold decodeObject
  simp only [fMsg, fCap, invalidArguments, Prog.wp_bind, Prog.wp_gets, Prog.wp_ite, Prog.wp_fail,
    Prog.wp_pure]
  constructor
  · intro hmark
    refine ⟨fun hx => hE ⟨hmark, .inl hx⟩, fun hx => ⟨fun hu => hQ ?_ _, fun hu => hE ?_⟩⟩
    · intro hall
      rcases hall with ⟨-, hfails⟩
      exact hfails.elim hx (fun hno => Bool.noConfusion (hu.symm.trans hno))
    · exact ⟨hmark, .inr (Bool.eq_false_iff.mpr hu)⟩
  · intro hmark
    exact hQ (fun hfails => hmark hfails.1) _

theorem extraCaps_pos (hc : info.consumedRecvSlot = true) : 0 < info.extraCaps.val := by
  rw [MessageInfo.consumedRecvSlot, Bool.and_eq_true] at hc
  exact of_decide_eq_true hc.1

theorem not_isUnwrapped (hc : info.consumedRecvSlot = true) (hx : info.extraCaps = 1) :
    info.isUnwrapped 0 = false := by
  unfold MessageInfo.consumedRecvSlot at hc
  unfold MessageInfo.isUnwrapped
  rw [hx] at hc
  revert hc
  generalize info.capsUnwrapped = u
  revert u
  decide

/-- What an arm that takes a capability decodes, when one came: an invocation without a
capability exactly in the cases of `ArmLeaves`. -/
theorem wp_decodeArm_consumed (hc : info.consumedRecvSlot = true)
    (hw : label.canContainWrappedCap = true) :
    Prog.wp (decodeArm info db slot label)
      (fun inv b' => b' = b ∧ (inv.containsCap = false ↔ ArmLeaves info b label))
      (fun _ b' => b' = b ∧ ¬ ArmLeaves info b label) (fun _ => False) b := by
  cases label
  case sDDFChannelRegisterBidirectional | sDDFChannelRegisterReceiveOnly | sDDFQueueRegister
      | sDDFProvideDataRegion =>
    simp [decodeArm, fMsg, invalidArguments, ArmLeaves, SMOS_Invocation.containsCap]
  case connOpen =>
    simp only [decodeArm, decodeSharedBuf, fMsg, fCap, Prog.wp_bind, Prog.wp_gets, Prog.wp_ite,
      Prog.wp_pure]
    refine ⟨fun hzero => ?_, fun hpos => ⟨fun hx => ?_, fun hx => ?_⟩⟩
    · exact ⟨trivial, iff_of_true rfl (.inl hzero)⟩
    · rw [not_isUnwrapped hc hx]
      refine ⟨fun h => Bool.noConfusion h, fun _ => ⟨trivial, iff_of_false Bool.noConfusion ?_⟩⟩
      exact fun hleaves => hleaves.elim hpos (fun hne => hne hx)
    · exact ⟨trivial, iff_of_true rfl (.inr hx)⟩
  case view =>
    simp only [decodeArm, Prog.wp_bind]
    apply wp_decodeWindow
    · intro hlocal w hne
      apply wp_decodeObject
      · intro hobj o
        refine ⟨rfl, iff_of_true ?_ ⟨hlocal, hobj⟩⟩
        cases w with
        | wrappedHandleCap c => exact absurd rfl (hne c)
        | handle idx | unwrappedHandleCap idx => rfl
      · exact fun hobj => ⟨rfl, fun hleaves => hleaves.2 hobj⟩
    · intro hwrapped
      apply wp_decodeObject
      · exact fun _ _ => ⟨rfl, iff_of_false Bool.noConfusion fun hleaves => hwrapped hleaves.1⟩
      · exact fun hobj => ⟨rfl, fun hleaves => hleaves.2 hobj⟩
    · intro hfails
      have hpos : 0 < info.extraCaps.val := extraCaps_pos hc
      exact absurd hfails.2 (by omega)
  all_goals exact Bool.noConfusion hw

/-- No arm writes to the buffer. -/
theorem wp_decodeArm_unchanged :
    Prog.wp (decodeArm info db slot label) (fun _ b' => b' = b) (fun _ b' => b' = b)
      (fun _ => True) b := by
  cases label
  case procSpawn =>
    simp only [decodeArm, needBuffer, invalidArguments, fMsg, Prog.wp_bind, Prog.wp_okOr,
      Prog.wp_ite, Prog.wp_fail, Prog.wp_gets, Prog.wp_pure, wp_readStr, implies_true, and_true,
      Prog.wp_panic, true_and]
    intro buffer _ _ exec _ fs _ _
    exact wp_readArgs _ fs.2 (fun _ _ => fun _ => rfl) (fun _ => rfl)
  all_goals
    simp [decodeArm, decodeHandle, decodeStatHandle, decodeWindow, decodeObject, decodeSharedBuf,
      fMsg, fCap, invalidArguments, needBuffer, wp_readStr]

theorem leavesCap_iff (hc : info.consumedRecvSlot = true) (hr : Reaches server info label) :
    LeavesCap server info b ↔ ArmLeaves info b label := by
  constructor
  · intro ⟨_, label', hr', hleaves⟩
    cases hr.exists_label.symm.trans hr'.exists_label
    exact hleaves
  · exact fun hleaves => ⟨hc, label, hr, hleaves⟩

/-- The decoder leaves the buffer alone. When a capability came, the decoded invocation contains
none exactly in the cases of `LeavesCap`, and in these it is decoded. -/
theorem wp_new :
    Prog.wp (SMOS_Invocation.new server info db slot)
      (fun inv b' => b' = b ∧
        (info.consumedRecvSlot = true → (inv.containsCap = false ↔ LeavesCap server info b)))
      (fun _ b' => b' = b ∧ ¬ LeavesCap server info b) (fun _ => ¬ LeavesCap server info b) b := by
  by_cases hr : ∃ label, Reaches server info label
  · obtain ⟨label, hr⟩ := hr
    rw [new_of_reaches hr]
    cases hc : info.consumedRecvSlot with
    | true =>
      have hw : label.canContainWrappedCap = true :=
        hr.cap.resolve_right (by rw [hc]; decide)
      rw [leavesCap_iff hc hr]
      refine Prog.wp_mono (wp_decodeArm_consumed hc hw) ?_ (fun _ _ h => h) (fun _ h => h.elim)
      exact fun _ _ ⟨hb, hiff⟩ => ⟨hb, fun _ => hiff⟩
    | false =>
      have hnot : ¬ LeavesCap server info b := by
        intro hleaves
        exact Bool.noConfusion (hc.symm.trans hleaves.1)
      refine Prog.wp_mono wp_decodeArm_unchanged ?_ ?_ (fun _ _ => hnot)
      · exact fun _ _ hb => ⟨hb, nofun⟩
      · exact fun _ _ hb => ⟨hb, hnot⟩
  · obtain ⟨e, he⟩ := new_of_not_reaches (not_exists.mp hr) db slot
    rw [he]
    exact ⟨rfl, fun ⟨_, label, hreaches, _⟩ => hr ⟨label, hreaches⟩⟩

end Decoder

/-! ## Programs that keep the slot -/

/-- What the loop needs to know of two states: the same slot is named, and no slot changed. -/
structure SameSlots (s s' : Server) : Prop where
  named : s'.buffers.ipc.recvSlot = s.buffers.ipc.recvSlot
  slots : s'.slots = s.slots

theorem SameSlots.trans {s s' s'' : Server} (h : SameSlots s s') (h' : SameSlots s' s'') :
    SameSlots s s'' :=
  ⟨h'.named.trans h.named, h'.slots.trans h.slots⟩

/-- The stubs that name no slot, and whose replies carry no capability. -/
def Request.quiet : Request → Bool
  | .connRegister _ _ | .connDeregister _ | .windowCreate _ _ none | .windowRegister ..
  | .windowDeregister _ | .windowDestroy _ | .pageMap _ _ _ | .view .. | .unview _ => true
  | _ => false

section Calls

variable {ε : Type} {s : Server} {q : Request} {inv : SMOS_Invocation}

theorem quiet_of_handlerCalls (h : inv.handlerCalls q = true) (hc : inv.containsCap = false) :
    q.quiet = true := by
  unfold SMOS_Invocation.handlerCalls at h
  split at h <;> first | rfl | exact Bool.noConfusion hc | exact Bool.noConfusion h

theorem quiet_of_notificationCalls (h : notificationCalls q = true) : q.quiet = true := by
  unfold notificationCalls at h
  split at h <;> first | rfl | exact Bool.noConfusion h

theorem wp_handleReply (r : SMOSReply) (b : IpcBuffer) :
    Prog.wp (handleReply r : Prog Panic IpcBuffer ε MessageInfo)
      (fun _ b' => b'.recvSlot = b.recvSlot) (fun _ _ => False) (fun _ => True) b := by
  cases r
  case windowCreate hndl | objCreate hndl | objOpen hndl => cases hndl <;> exact rfl
  case processWait => trivial
  all_goals exact rfl

theorem wp_handleError (e : InvocationError) (b : IpcBuffer) :
    Prog.wp (handleError e : Prog Panic IpcBuffer ε MessageInfo)
      (fun _ b' => b'.recvSlot = b.recvSlot) (fun _ _ => False) (fun _ => True) b := by
  cases e <;> first | exact rfl | trivial

theorem wp_encodeReply (ret : Except InvocationError SMOSReply) (b : IpcBuffer) :
    Prog.wp (encodeReply ret : Prog Panic IpcBuffer ε MessageInfo)
      (fun _ b' => b'.recvSlot = b.recvSlot) (fun _ _ => False) (fun _ => True) b := by
  cases ret with
  | ok r => exact wp_handleReply r b
  | error e => exact wp_handleError e b

theorem wp_stub_quiet (hq : q.quiet = true) (c : Client) :
    Prog.wp q.stub (fun _ c' => c'.ipc.recvSlot = c.ipc.recvSlot)
      (fun _ c' => c'.ipc.recvSlot = c.ipc.recvSlot) (fun _ => False) c := by
  unfold Request.quiet at hq
  split at hq
  case h_6 hndl => cases hndl <;> exact rfl
  case h_8 win obj _ _ _ _ => cases win <;> cases obj <;> exact rfl
  case h_10 => exact Bool.noConfusion hq
  all_goals exact rfl

theorem quiet_reply {r : SMOSReply} {resp : Response} {info : MessageInfo} {b b' : IpcBuffer}
    (hq : q.quiet = true) (ha : Answers q r resp)
    (h : (handleReply r : Prog Panic IpcBuffer ε MessageInfo) b = .ok info b') :
    info.extraCaps = 0 := by
  cases ha <;> first | exact Bool.noConfusion hq | (cases h; rfl)

theorem wp_receive_plain {ep : Option Nat} {cspace : Word → Cap} {info : MessageInfo}
    {sent : IpcBuffer} (hx : info.extraCaps = 0) :
    Prog.wp (receive ep cspace info sent : Prog Panic Server ε MessageInfo)
      (fun _ s' => SameSlots s s') (fun _ _ => False) (fun _ => False) s := by
  have hnone : sentCaps cspace info sent = [] := sentCaps_zero hx
  show SameSlots s (s.accept _ _)
  rw [hnone]
  exact ⟨rfl, rfl⟩

/-- The reply to a quiet stub brings nothing into a slot. -/
theorem wp_answer_quiet {c : Call} (hq : c.request.quiet = true) :
    Prog.wp (c.answer : Prog Panic Server ε Unit) (fun _ s' => SameSlots s s')
      (fun _ _ => False) (fun _ => True) s := by
  have henc := @wp_encodeReply ε c.reply c.buffer
  unfold Call.answer
  unfold Prog.wp at henc
  cases hr : (encodeReply c.reply : Prog Panic IpcBuffer ε MessageInfo) c.buffer with
  | ok info b =>
    have hplain : info.extraCaps = 0 := by
      cases hreply : c.reply with
      | ok r =>
        obtain ⟨resp, ha⟩ := c.answers r hreply
        rw [hreply] at hr
        exact quiet_reply hq ha hr
      | error e =>
        rw [hreply] at hr
        exact handleError_extraCaps hr
    show Prog.wp (receive none c.cspace info b >>= fun _ => pure ()) _ _ _ _
    rw [Prog.wp_bind]
    exact @wp_receive_plain ε _ _ _ _ _ hplain
  | err e b =>
    rw [hr] at henc
    exact henc.elim
  | panic p => trivial

theorem wp_answer {c : Call} :
    Prog.wp (c.answer : Prog Panic Server ε Unit) (fun _ _ => True) (fun _ _ => False)
      (fun _ => True) s := by
  unfold Call.answer
  split <;> trivial

/-- A call by what its stub and its reply do. -/
theorem wp_call {c : Call} {Q : Unit → Server → Prop} {E : ε → Server → Prop} {P : Panic → Prop}
    (h : Prog.wp c.request.stub
      (fun _ b => Prog.wp c.answer Q E P { s with buffers := b })
      (fun _ b => Q () { s with buffers := b }) P s.buffers) :
    Prog.wp (c.run : Prog Panic Server ε Unit) Q E P s := by
  unfold Call.run
  rw [Prog.wp_bind, Prog.wp_attempt, Prog.wp_zoom]
  exact h

theorem wp_call_quiet {c : Call} (hq : c.request.quiet = true) :
    Prog.wp (c.run : Prog Panic Server ε Unit) (fun _ s' => SameSlots s s') (fun _ _ => False)
      (fun _ => True) s := by
  apply wp_call
  refine Prog.wp_mono (wp_stub_quiet hq s.buffers) ?_ ?_ (fun _ h => h.elim)
  · intro _ buffers hnamed
    have hsent : SameSlots s { s with buffers := buffers } := ⟨hnamed, rfl⟩
    refine Prog.wp_mono (wp_answer_quiet hq) ?_ (fun _ _ h => h) (fun _ h => h)
    exact fun _ s' h => hsent.trans h
  · intro _ buffers hnamed
    exact ⟨hnamed, rfl⟩

theorem wp_calls_quiet {calls : List Call} (hq : ∀ c ∈ calls, c.request.quiet = true) :
    Prog.wp (Prog.forEach Call.run calls : Prog Panic Server ε Unit)
      (fun _ s' => SameSlots s s') (fun _ _ => False) (fun _ => True) s := by
  refine Prog.wp_forEach ⟨rfl, rfl⟩ ?_
  intro c hc s₁ h₁
  refine Prog.wp_mono (wp_call_quiet (hq c hc)) ?_ (fun _ _ h => h) (fun _ h => h)
  exact fun _ s₂ h₂ => h₁.trans h₂

theorem wp_calls {calls : List Call} :
    Prog.wp (Prog.forEach Call.run calls : Prog Panic Server ε Unit)
      (fun _ _ => True) (fun _ _ => False) (fun _ => True) s := by
  refine Prog.wp_forEach trivial ?_
  intro c _ s₁ _
  apply wp_call
  unfold Prog.wp
  cases c.request.stub s₁.buffers with
  | ok sent buffers => exact wp_answer
  | err e buffers => trivial
  | panic q => trivial

end Calls

/-! ## A turn of the loop -/

section Turn

variable {ε : Type} {p : Published} {s : Server} {m : Incoming} {t : Transfer}
  {msg : MessageInfo} {b : IpcBuffer}

/-- A clean server as a message finds it: the buffer names the slot, and the slot holds what was
received. -/
theorem accept_slot (hs : p.Clean s) (hd : p.delivered s m = (t, msg, b)) :
    (s.accept t b).buffers.ipc = b ∧ b.recvSlot = p.recvSlot ∧
      (s.accept t b).slots p.recvSlot = t.received := by
  have hnamed : b.recvSlot = p.recvSlot := by
    cases hd
    exact hs.named
  unfold Server.accept
  cases t.received with
  | none => exact ⟨rfl, hnamed, hs.empty⟩
  | some cap =>
    refine ⟨rfl, hnamed, ?_⟩
    rw [hs.named]
    exact Server.setSlot_slots ..

theorem delivered_consumed (hs : p.Clean s) (hd : p.delivered s m = (t, msg, b)) :
    msg.consumedRecvSlot = t.received.isSome := by
  unfold Published.delivered at hd
  rw [hs.named, hs.empty] at hd
  have h := deliver_consumed (some p.ep) m.cspace m.info m.sent s.buffers.ipc
  change deliver _ _ _ _ _ true = _ at hd
  rwa [hd] at h

/-- The reply is written to the buffer, and names no slot. -/
theorem wp_reply {ret : Except InvocationError SMOSReply} :
    Prog.wp (withIpcBuffer (encodeReply ret : Prog Panic IpcBuffer ε MessageInfo) :
        Prog Panic Server ε MessageInfo)
      (fun _ s' => SameSlots s s') (fun _ _ => False) (fun _ => True) s := by
  unfold withIpcBuffer
  rw [Prog.wp_zoom]
  refine Prog.wp_mono (wp_encodeReply ret _) ?_ (fun _ _ h => h) (fun _ h => h)
  exact fun _ b hnamed => ⟨hnamed, rfl⟩

theorem Published.Clean.sameSlots {s' : Server} (hs : p.Clean s) (h : SameSlots s s') :
    p.Clean s' :=
  ⟨h.named.trans hs.named, (congrFun h.slots _).trans hs.empty⟩

theorem wp_receive {Q : MessageInfo → Server → Prop} {E : ε → Server → Prop} {P : Panic → Prop}
    (hd : p.delivered s m = (t, msg, b)) :
    Prog.wp (receive (some p.ep) m.cspace m.info m.sent) Q E P s ↔ Q msg (s.accept t b) := by
  cases hd
  exact Iff.rfl

/-- A message that is not decoded leaves the slot empty and named. -/
theorem wp_refuse
    (h : msg.consumedRecvSlot = false → s.slots p.recvSlot = none) (e : InvocationError) :
    Prog.wp (do
        if msg.consumedRecvSlot then deleteSlot p.recvSlot
        setRecvSlot p.recvSlot
        let reply ← withIpcBuffer (handleError e)
        pure (.error (some reply)) :
          Prog Panic Server ε (Except (Option MessageInfo) SMOS_Invocation))
      (fun r s' => (∃ reply, r = .error reply) ∧ p.Clean s') (fun _ _ => False) (fun _ => True)
      s := by
  have hreply : ∀ s₁, p.Clean s₁ → Prog.wp (withIpcBuffer (handleError e) >>= fun reply =>
        pure (.error (some reply)) : Prog Panic Server ε _)
      (fun (r : Except (Option MessageInfo) SMOS_Invocation) s' =>
        (∃ reply, r = .error reply) ∧ p.Clean s') (fun _ _ => False) (fun _ => True) s₁ := by
    intro s₁ h₁
    rw [Prog.wp_bind]
    refine Prog.wp_mono (@wp_reply ε s₁ (.error e)) ?_ (fun _ _ h => h) (fun _ h => h)
    exact fun reply s₂ h₂ => ⟨⟨some reply, rfl⟩, h₁.sameSlots h₂⟩
  cases hc : msg.consumedRecvSlot with
  | true => exact hreply _ ⟨rfl, Server.setSlot_slots ..⟩
  | false => exact hreply _ ⟨rfl, h hc⟩

/-- The decoding of what a clean server received. A decoding that fails cleans up; one that
succeeds does not touch the state, and contains the capability that came unless the message is
one that leaves it. -/
theorem wp_decode (hs : p.Clean s) (hd : p.delivered s m = (t, msg, b)) :
    Prog.wp (smosServDecodeInvocation p.type msg p.recvSlot m.dataBuffer :
        Prog Panic Server ε (Except (Option MessageInfo) SMOS_Invocation))
      (fun r s' => match r with
        | .ok inv => s' = s.accept t b ∧
          (t.received.isSome = true → (inv.containsCap = false ↔ LeavesCap p.type msg b))
        | .error _ => p.Clean s' ∧ ¬ LeavesCap p.type msg b)
      (fun _ _ => False) (fun _ => ¬ LeavesCap p.type msg b) (s.accept t b) := by
  obtain ⟨hipc, _, hslot⟩ := accept_slot hs hd
  have hconsumed := delivered_consumed hs hd
  generalize s.accept t b = s₁ at *
  unfold smosServDecodeInvocation withIpcBuffer
  rw [Prog.wp_bind, Prog.wp_attempt, Prog.wp_zoom, hipc]
  refine Prog.wp_mono wp_new ?_ ?_ (fun _ h => h)
  · intro inv b' ⟨hb, hiff⟩
    rw [hconsumed] at hiff
    rw [hb, ← hipc]
    exact ⟨rfl, hipc ▸ hiff⟩
  · intro e b' ⟨hb, hnot⟩
    have hempty : msg.consumedRecvSlot = false → (s₁.setIpc b').slots p.recvSlot = none := by
      intro hr
      rw [hconsumed, Option.isSome_eq_false_iff, Option.isNone_iff_eq_none] at hr
      exact hslot.trans hr
    refine Prog.wp_mono (wp_refuse hempty e) ?_ (fun _ _ h => h) (fun _ _ => hnot)
    intro r s' ⟨⟨reply, hreply⟩, hclean⟩
    rw [hreply]
    exact ⟨hclean, hnot⟩

theorem wp_cleanup_contains {inv : SMOS_Invocation} {ret : Except InvocationError SMOSReply}
    (hc : inv.containsCap = true) :
    Prog.wp (smosServCleanup inv p.recvSlot ret : Prog Panic Server ε (Option MessageInfo))
      (fun _ s' => p.Clean s') (fun _ _ => False) (fun _ => True) s := by
  unfold smosServCleanup
  rw [hc]
  have hclean : p.Clean ((s.setSlot p.recvSlot none).setIpc
      (s.buffers.ipc.setRecvSlot p.recvSlot)) := ⟨rfl, Server.setSlot_slots ..⟩
  show Prog.wp (withIpcBuffer (encodeReply ret) >>= _) _ _ _ _
  rw [Prog.wp_bind]
  refine Prog.wp_mono wp_reply ?_ (fun _ _ h => h) (fun _ h => h)
  exact fun _ s' h => hclean.sameSlots h

theorem wp_cleanup_plain {inv : SMOS_Invocation} {ret : Except InvocationError SMOSReply}
    (hc : inv.containsCap = false) :
    Prog.wp (smosServCleanup inv p.recvSlot ret : Prog Panic Server ε (Option MessageInfo))
      (fun _ s' => SameSlots s s') (fun _ _ => False) (fun _ => True) s := by
  unfold smosServCleanup
  rw [hc]
  show Prog.wp (withIpcBuffer (encodeReply ret) >>= _) _ _ _ _
  rw [Prog.wp_bind]
  exact wp_reply

theorem wp_cleanup_refused {inv : SMOS_Invocation} (hc : inv.containsCap = false) :
    Prog.wp (smosServCleanup inv p.recvSlot (.error .invalidArguments) :
        Prog Panic Server ε (Option MessageInfo))
      (fun _ s' => s'.slots = s.slots) (fun _ _ => False) (fun _ => False) s := by
  unfold smosServCleanup
  rw [hc]
  exact rfl

/-- The calls of the handler and the cleanup, for an invocation whose capability, if one came, it
contains. -/
theorem wp_handle {inv : SMOS_Invocation} (h : Handling inv) (hnamed : s.buffers.ipc.recvSlot =
      p.recvSlot) (hslot : inv.containsCap = false → s.slots p.recvSlot = none) :
    Prog.wp (do
        Prog.forEach Call.run h.calls
        let _ ← smosServCleanup inv p.recvSlot h.ret
        pure () : Prog Panic Server ε Unit)
      (fun _ s' => p.Clean s') (fun _ _ => False) (fun _ => True) s := by
  cases hc : inv.containsCap with
  | true =>
    rw [Prog.wp_bind]
    refine Prog.wp_mono wp_calls (fun _ s' _ => ?_) (fun _ _ h => h) (fun _ h => h)
    rw [Prog.wp_bind]
    exact wp_cleanup_contains hc
  | false =>
    rw [Prog.wp_bind]
    have hquiet : ∀ c ∈ h.calls, c.request.quiet = true :=
      fun c hmem => quiet_of_handlerCalls (h.called c hmem) hc
    refine Prog.wp_mono (wp_calls_quiet hquiet) ?_ (fun _ _ h => h) (fun _ h => h)
    intro _ s' hcalls
    have hclean : p.Clean s' := (⟨hnamed, hslot hc⟩ : p.Clean s).sameSlots hcalls
    rw [Prog.wp_bind]
    refine Prog.wp_mono (wp_cleanup_plain hc) ?_ (fun _ _ h => h) (fun _ h => h)
    exact fun _ s'' h => hclean.sameSlots h

/-- The step lemma: a turn from a clean server ends in one, unless its message leaves a
capability. -/
theorem wp_turn (hs : p.Clean s) (e : Event)
    (hnot : ∀ m handler, e = .message m handler →
      ¬ LeavesCap p.type (p.delivered s m).2.1 (p.delivered s m).2.2) :
    Prog.wp (p.turn e) (fun _ s' => p.Clean s') (fun _ _ => False) (fun _ => True) s := by
  cases e with
  | notification calls called =>
    have hquiet : ∀ c ∈ calls, c.request.quiet = true :=
      fun c hmem => quiet_of_notificationCalls (called c hmem)
    refine Prog.wp_mono (wp_calls_quiet hquiet) ?_ (fun _ _ h => h) (fun _ h => h)
    exact fun _ s' h => hs.sameSlots h
  | message m handler =>
    obtain ⟨⟨t, msg, b⟩, hd⟩ : ∃ d, p.delivered s m = d := ⟨_, rfl⟩
    obtain ⟨hipc, hnamed, hslot⟩ := accept_slot hs hd
    have hnot := hnot m handler rfl
    rw [hd] at hnot
    unfold Published.turn
    rw [Prog.wp_bind, wp_receive hd, Prog.wp_bind]
    refine Prog.wp_mono (wp_decode hs hd) ?_ (fun _ _ h => h) (fun _ _ => trivial)
    intro r s' hr
    cases r with
    | error reply => exact hr.1
    | ok inv =>
      obtain ⟨hs', hiff⟩ := hr
      rw [hs']
      have hown : (s.accept t b).buffers.ipc.recvSlot = p.recvSlot := by
        rw [hipc]
        exact hnamed
      apply wp_handle (handler inv) hown
      intro hc
      rw [hslot]
      cases hrec : t.received with
      | none => rfl
      | some cap => exact absurd ((hiff (by rw [hrec]; rfl)).mp hc) hnot

/-- A message that leaves a capability does so under a handler that refuses it. -/
theorem turn_leaves (hs : p.Clean s)
    (hl : LeavesCap p.type (p.delivered s m).2.1 (p.delivered s m).2.2) :
    ∃ s', p.next s (.message m refuse) = some s' ∧
      ¬ p.Clean s' := by
  obtain ⟨⟨t, msg, b⟩, hd⟩ : ∃ d, p.delivered s m = d := ⟨_, rfl⟩
  rw [hd] at hl
  obtain ⟨_, _, hslot⟩ := accept_slot hs hd
  have hcap : t.received.isSome = true := (delivered_consumed hs hd).symm.trans hl.1
  have hwp : Prog.wp (p.turn (.message m refuse))
      (fun _ s' => ¬ p.Clean s') (fun _ _ => False) (fun _ => False) s := by
    unfold Published.turn
    rw [Prog.wp_bind, wp_receive hd, Prog.wp_bind]
    refine Prog.wp_mono (wp_decode hs hd) ?_ (fun _ _ h => h) (fun _ h => h hl)
    intro r s' hr
    cases r with
    | error reply => exact absurd hl hr.2
    | ok inv =>
      obtain ⟨rfl, hiff⟩ := hr
      have hc : inv.containsCap = false := (hiff hcap).mpr hl
      rw [Prog.wp_bind]
      show Prog.wp (Prog.pure ()) _ _ _ _
      rw [Prog.wp_prog_pure, Prog.wp_bind]
      refine Prog.wp_mono (wp_cleanup_refused hc) ?_ (fun _ _ h => h) (fun _ h => h)
      intro _ s' hslots hclean
      rw [← hslot, ← hslots, hclean.empty] at hcap
      exact Bool.noConfusion hcap
  obtain ⟨_, s', hturn, hdirty⟩ := Prog.exists_ok hwp
  refine ⟨s', ?_, hdirty⟩
  unfold Published.next
  rw [hturn]

end Turn

/-! ## All runs -/

/-- The event brings no message that leaves a capability. -/
def Published.Tidy (p : Published) (s : Server) : Event → Prop
  | .message m _ => ¬ LeavesCap p.type (p.delivered s m).2.1 (p.delivered s m).2.2
  | .notification _ _ => True

theorem clean_of_next {p : Published} {s s' : Server} {e : Event} (hs : p.Clean s)
    (ht : p.Tidy s e) (hn : p.next s e = some s') : p.Clean s' := by
  have hnot : ∀ m handler, e = .message m handler →
      ¬ LeavesCap p.type (p.delivered s m).2.1 (p.delivered s m).2.2 := by
    intro m handler he
    rw [he] at ht
    exact ht
  have hwp := wp_turn hs e hnot
  unfold Published.next at hn
  split at hn
  · next r s'' hturn =>
      cases hn
      have hclean := Prog.wp_ok hwp hturn
      exact hclean
  · cases hn

/-- **Receive slot hygiene.** In every run of a server whose messages leave no capability, the
server that blocks in receive names its own slot, and the slot is empty. From such a state a
message breaks this, under some handler, exactly when it leaves one. -/
theorem receive_slot_clean (p : Published) :
    (∀ es s, Run p.Clean p.next p.Tidy es s → p.Clean s) ∧
      ∀ s, p.Clean s → ∀ m,
        (∀ handler s', p.next s (.message m handler) = some s' → p.Clean s') ↔
          ¬ LeavesCap p.type (p.delivered s m).2.1 (p.delivered s m).2.2 := by
  constructor
  · intro es s run
    exact run.invariant (fun _ h => h) fun s e s' => clean_of_next
  · intro s hs m
    constructor
    · intro hclean hleaves
      obtain ⟨s', hn, hdirty⟩ := turn_leaves hs hleaves
      exact hdirty (hclean refuse s' hn)
    · intro hnot handler s' hn
      have ht : p.Tidy s (.message m handler) := hnot
      exact clean_of_next hs ht hn

/-- A `ConnOpen` without a shared buffer and with a capability, sent to a file server that has
just started. -/
theorem connOpen_leaves_cap :
    let p : Published := ⟨.objectServer, 1, 5⟩
    let s : Server := ⟨⟨IpcBuffer.blank.setRecvSlot 5, none⟩, fun _ => none⟩
    let m : Incoming := ⟨{ label := SMOSInvocation.connOpen.label, extraCaps := 1 }, .blank,
      fun _ => .other 7, none⟩
    p.Clean s ∧ ∃ s', p.next s (.message m refuse) = some s' ∧ s'.slots 5 = some (.other 7) := by
  exact ⟨⟨rfl, rfl⟩, _, rfl, rfl⟩

end Smos.Ipc
