/-
Smos.Ipc.RequestRoundTrip — what a stub sends is what the server decodes.

The message that a stub leaves in the buffers is delivered by the kernel
and then decoded. The kernel unwraps the capabilities to the called
server's own endpoint, so what the server should see of a handle
capability depends on whose it is: the badge of its own ones, and its
receive slot for another server's.

`test_simple` has a stub but no decoded form. Every other request comes
back with its arguments, provided that its handle capabilities are ones
that the invocation takes.
-/
import Smos.Ipc.DecodeArms
import Smos.Ipc.Stubs

namespace Smos.Ipc

open Smos.Base

/-! ## What the server should see -/

/-- The capability is to the endpoint `ep`. -/
def Owned (ep : Nat) (cspace : Word → Cap) (cptr : Word) : Prop :=
  (cspace cptr).badgeAt (some ep) ≠ none

instance (ep : Nat) (cspace : Word → Cap) (cptr : Word) : Decidable (Owned ep cspace cptr) :=
  inferInstanceAs (Decidable (_ ≠ _))

/-- What the server at `ep` receives for a handle or handle capability. -/
def HandleOrHandleCap.received (ep : Nat) (cspace : Word → Cap) (slot : Word) :
    HandleOrHandleCap → ServerReceivedHandleOrHandleCap
  | .handle idx => .handle idx
  | .handleCap cptr =>
    match (cspace cptr).badgeAt (some ep) with
    | some badge => .unwrappedHandleCap badge
    | none => .wrappedHandleCap slot

theorem HandleOrHandleCap.received_own {ep : Nat} {cspace : Word → Cap} {slot cptr badge : Word}
    (h : (cspace cptr).badgeAt (some ep) = some badge) :
    (HandleOrHandleCap.handleCap cptr).received ep cspace slot = .unwrappedHandleCap badge := by
  rw [received, h]

theorem HandleOrHandleCap.received_foreign {ep : Nat} {cspace : Word → Cap} {slot cptr : Word}
    (h : (cspace cptr).badgeAt (some ep) = none) :
    (HandleOrHandleCap.handleCap cptr).received ep cspace slot = .wrappedHandleCap slot := by
  rw [received, h]

/-- A handle, or a handle capability of the server at `ep`. -/
def HandleOrHandleCap.Own (ep : Nat) (cspace : Word → Cap) : HandleOrHandleCap → Prop
  | .handle _ => True
  | .handleCap cptr => Owned ep cspace cptr

/-- The invocation of a request, where it has one: `test_simple` has none, an invocation
that is declared with an unwrapped capability has none for another server's, and one that is
declared with a wrapped capability none for the server's own. -/
def Request.invocation (ep : Nat) (cspace : Word → Cap) (slot : Word) :
    Request → Option SMOS_Invocation
  | .connCreate _ serverName => some (.connCreate serverName)
  | .connRegister publishHndl id => some (.connRegister publishHndl id)
  | .irqRegister publishHndl irqNum edgeTriggered _ =>
    some (.irqRegister publishHndl irqNum edgeTriggered)
  | .connDeregister regHndl => some (.connDeregister regHndl)
  | .connPublish ntfnBuffer _ name => some (.connPublish ntfnBuffer name)
  | .connDestroy conn => some (.connDestroy conn)
  | .testSimple _ => none
  | .windowCreate baseVaddr size returnCap =>
    some (.windowCreate baseVaddr size returnCap.isSome)
  | .windowRegister publishHndl windowHndlCap clientId reference => do
    let idx ← (cspace windowHndlCap).badgeAt (some ep)
    some (.windowRegister publishHndl idx clientId reference)
  | .windowDeregister winRegHndl => some (.windowDeregister winRegHndl)
  | .pageMap winRegHndl viewOffset contentVaddr =>
    some (.pageMap winRegHndl viewOffset contentVaddr)
  | .windowDestroy hndl => some (.windowDestroy (hndl.received ep cspace slot))
  | .replyCreate _ => some .replyCreate
  | .serverHandleCapCreate publishHndl ident _ => some (.serverHandleCapCreate publishHndl ident)
  | .processSpawn executableName fsName prio argv =>
    some (.processSpawn executableName fsName prio (if argv = some [] then none else argv))
  | .processWait hndl => some (.processWait hndl)
  | .processExit => some .processExit
  | .loadComplete entryPoint sp => some (.loadComplete entryPoint sp)
  | .channelOpen channelHndlCap _ => do
    let idx ← (cspace channelHndlCap).badgeAt (some ep)
    some (.channelOpen idx)
  | .serverChannelCreate publishHndl _ => some (.serverCreateChannel publishHndl)
  | .connOpen sharedBuf =>
    some (.connOpen (sharedBuf.map fun (hndl, size) => (hndl.received ep cspace slot, size)))
  | .connClose => some .connClose
  | .objCreate nameOpt size rights attributes returnCap =>
    some (.objCreate nameOpt size rights attributes returnCap.isSome)
  | .objOpen name rights returnCap => some (.objOpen name rights returnCap.isSome)
  | .objClose hndl => some (.objClose (hndl.received ep cspace slot))
  | .objDestroy hndl => some (.objDestroy (hndl.received ep cspace slot))
  | .objStat hndl => some (.objStat (hndl.received ep cspace slot))
  | .view win obj winOffset objOffset size rights =>
    some (.view (win.received ep cspace slot) (obj.received ep cspace slot) winOffset objOffset
      size rights)
  | .unview hndl => some (.unview hndl)
  | .sddfChannelRegisterBidirectional hndlCap kind _ =>
    if Owned ep cspace hndlCap then none
    else some (.sDDFChannelRegisterBidirectional slot kind)
  | .sddfChannelRegisterRecvOnly hndlCap =>
    if Owned ep cspace hndlCap then none else some (.sDDFChannelRegisterRecvOnly slot)
  | .sddfQueueRegister (.handleCap cptr) size kind =>
    if Owned ep cspace cptr then none else some (.sDDFQueueRegister slot size kind)
  | .sddfQueueRegister (.handle _) _ _ => none
  | .sddfGetDataRegion _ => some .sDDFGetDataRegion
  | .sddfDataRegionProvide (.handleCap cptr) size =>
    if Owned ep cspace cptr then none else some (.sDDFProvideDataRegion slot size)
  | .sddfDataRegionProvide (.handle _) _ => none

/-- The handle capabilities of a request are ones that its invocation takes. A window may be
another server's in `View`, and a buffer in `ConnOpen`; the sDDF invocations take another
server's, and everything else is the called server's own. -/
def Request.CapsFit (ep : Nat) (cspace : Word → Cap) : Request → Prop
  | .windowDestroy hndl | .objClose hndl | .objDestroy hndl | .objStat hndl => hndl.Own ep cspace
  | .view _ obj _ _ _ _ => obj.Own ep cspace
  | .windowRegister _ cptr _ _ | .channelOpen cptr _ => Owned ep cspace cptr
  | .sddfChannelRegisterBidirectional cptr _ _ | .sddfChannelRegisterRecvOnly cptr
  | .sddfQueueRegister (.handleCap cptr) _ _ | .sddfDataRegionProvide (.handleCap cptr) _ =>
    ¬ Owned ep cspace cptr
  | _ => True

/-- The index is one that a server can issue: it is not the mark of a handle capability. -/
def HandleOrHandleCap.Issued : HandleOrHandleCap → Prop
  | .handle idx => idx ≠ UInt64.ofNat (2 ^ 64 - 1)
  | .handleCap _ => True

/-- Names and arguments have no NUL, there are as many arguments as a `usize` can count, and
local handles are ones that a server can issue. -/
def Request.WellFormed : Request → Prop
  | .connCreate _ name | .connPublish _ _ name | .objOpen name _ _
  | .objCreate (some name) _ _ _ _ => NulFree name
  | .processSpawn executableName fsName _ argv =>
    NulFree executableName ∧ NulFree fsName ∧ (∀ arg ∈ argv.getD [], NulFree arg) ∧
      (argv.getD []).length < 2 ^ 64
  | .view win obj _ _ _ _ => win.Issued ∧ obj.Issued
  | _ => True

/-- The received message decodes to `inv`. -/
def Decodes (server : ServerConnection) (dataBuffer : Option (List UInt8)) (slot : Word)
    (received : MessageInfo × IpcBuffer) (inv : SMOS_Invocation) : Prop :=
  SMOS_Invocation.new server received.1 dataBuffer slot received.2 = .ok inv received.2

section Decoding

variable {server : ServerConnection} {label : SMOSInvocation}

/-! ## Interfaces and labels -/

/-- The labels of an interface. -/
def Interface.invocations : Interface → List SMOSInvocation
  | rootServer => rootServerInvocations
  | nonRootServer => nonRootServerInvocations
  | objectServer => objectServerInvocations
  | sDDF => sDDFInvocations

/-- A server supports the labels of the interfaces that its connections implement. -/
theorem supports {i : Interface} (h : server.implements i = true)
    (hl : i.invocations.contains label = true) : server.isSupported label = true := by
  cases server <;> cases i <;>
    simp_all [ServerConnection.implements, ServerConnection.isSupported, Interface.invocations]

end Decoding

/-! ## Strings -/

/-- What strings become in the buffer. -/
def terminated (ss : List String) : List UInt8 := ss.flatMap fun s => strBytes s ++ [0]

theorem copyStrings_eq {ss : List String} {buffer buffer' : List UInt8}
    (h : copyStrings ss buffer = .ok buffer') : ∃ rest, buffer' = terminated ss ++ rest := by
  induction ss generalizing buffer buffer' with
  | nil => exact ⟨buffer', rfl⟩
  | cons s ss ih =>
    simp only [copyStrings, copyTerminatedRustString] at h
    split at h
    · cases h
    · simp only [bind, Except.bind] at h
      cases hrest : copyStrings ss (buffer.drop ((strBytes s).length + 1)) with
      | error e => rw [hrest] at h; cases h
      | ok buffer₁ =>
        rw [hrest] at h
        cases h
        obtain ⟨rest, hb⟩ := ih hrest
        refine ⟨rest, ?_⟩
        rw [hb]
        simp [terminated]

/-- A stub that wrote strings left them at the start of the shared buffer. -/
theorem writeStrings_ok {ss : List String} {c c' : Client} (h : writeStrings ss c = .ok () c') :
    c'.ipc = c.ipc ∧ ∃ rest, c'.shared = some (terminated ss ++ rest) := by
  unfold writeStrings at h
  obtain ⟨shared, c₁, hget, hread⟩ := Prog.bind_ok h
  cases hget
  obtain ⟨buffer, c₂, hsome, hwrite⟩ := Prog.bind_ok hread
  have hc : c₂ = c := by
    cases hs : c.shared with
    | none => rw [hs] at hsome; cases hsome
    | some b => rw [hs] at hsome; cases hsome; rfl
  subst hc
  cases hcopy : copyStrings ss buffer with
  | error e => rw [hcopy] at hwrite; cases hwrite
  | ok buffer' =>
    rw [hcopy] at hwrite
    cases hwrite
    obtain ⟨rest, hb⟩ := copyStrings_eq hcopy
    exact ⟨rfl, rest, by rw [hb]⟩

theorem rustStr_terminated {s : String} (h : NulFree s) {ss : List String} {rest : List UInt8} :
    rustStrFromBuffer (terminated (s :: ss) ++ rest) = .ok (s, terminated ss ++ rest) := by
  have hcut : terminated (s :: ss) ++ rest = strBytes s ++ [0] ++ (terminated ss ++ rest) := by
    simp [terminated]
  rw [hcut, rustStrFromBuffer_append h]

theorem readArgs_terminated (ss : List String) (h : ∀ s ∈ ss, NulFree s) (rest : List UInt8)
    (b : IpcBuffer) : readArgs ss.length (terminated ss ++ rest) b = .ok ss b := by
  induction ss with
  | nil => rfl
  | cons s ss ih =>
    have hs : NulFree s := h s (List.mem_cons_self ..)
    have hss : ∀ s' ∈ ss, NulFree s' := fun s' hs' => h s' (List.mem_cons_of_mem s hs')
    rw [List.length_cons, readArgs]
    refine (Prog.bind_of_ok (readStr_of_ok (rustStr_terminated hs))).trans ?_
    exact (Prog.bind_of_ok (ih hss)).trans rfl

section Requests

variable {server : ServerConnection} {label : SMOSInvocation} {ep : Nat} {cspace : Word → Cap}
  {slot : Word} {info : MessageInfo} {sent stale : IpcBuffer} {db : Option (List UInt8)}
  {inv : SMOS_Invocation}

/-! ## Requests with at most one capability -/

theorem reaches_of_label (hl : info.label = label.label) (hs : server.isSupported label = true)
    (hw : label.canContainWrappedCap = true ∨ info.consumedRecvSlot = false) :
    Reaches server info label := by
  refine ⟨?_, hs, hw⟩
  rw [hl, SMOSInvocation.tryFrom_label]

theorem decodes_of_arm {d : MessageInfo × IpcBuffer} {b : IpcBuffer} (hd : d = (info, b))
    (hl : info.label = label.label) (hs : server.isSupported label = true)
    (hw : label.canContainWrappedCap = true ∨ info.consumedRecvSlot = false)
    (harm : decodeArm info db slot label b = .ok inv b) : Decodes server db slot d inv := by
  subst hd
  show SMOS_Invocation.new server info db slot b = _
  rw [new_of_reaches (reaches_of_label hl hs hw)]
  exact harm

theorem not_decodes_of_refused {d : MessageInfo × IpcBuffer} {b : IpcBuffer}
    (hd : d = (info, b)) (hl : info.label = label.label)
    (hw : label.canContainWrappedCap = false) (hc : info.consumedRecvSlot = true) :
    ¬ Decodes server db slot d inv := by
  subst hd
  intro h
  change SMOS_Invocation.new server info db slot b = _ at h
  have hnone : ∀ label', ¬ Reaches server info label' := by
    intro label' hr
    obtain ⟨ht, _, hcap⟩ := hr
    rw [hl, SMOSInvocation.tryFrom_label] at ht
    cases ht
    rw [hw, hc] at hcap
    simp at hcap
  obtain ⟨e, he⟩ := new_of_not_reaches hnone db slot
  rw [he] at h
  cases h

theorem decodes_plain (hl : info.label = label.label) (hx : info.extraCaps = 0)
    (hs : server.isSupported label = true)
    (harm : decodeArm { info with capsUnwrapped := 0, extraCaps := 0 } db slot label
      (receivedBuffer info sent stale stale.capsOrBadges) =
        .ok inv (receivedBuffer info sent stale stale.capsOrBadges)) :
    Decodes server db slot (deliver (some ep) cspace info sent stale true).2 inv := by
  exact decodes_of_arm (deliver_plain hx) hl hs (.inr rfl) harm

theorem decodes_own {badge : Word} (hl : info.label = label.label) (hx : info.extraCaps = 1)
    (hs : server.isSupported label = true)
    (hb : (cspace (sent.capsOrBadges 0)).badgeAt (some ep) = some badge)
    (harm : ∀ b, b.msgRegs = (receivedBuffer info sent stale stale.capsOrBadges).msgRegs →
      b.capsOrBadges 0 = badge →
      decodeArm { info with capsUnwrapped := 1, extraCaps := 1 } db slot label b = .ok inv b) :
    Decodes server db slot (deliver (some ep) cspace info sent stale true).2 inv := by
  exact decodes_of_arm (deliver_own hx hb) hl hs (.inr (by simp [MessageInfo.consumedRecvSlot]))
    (harm _ rfl rfl)

theorem decodes_foreign (hl : info.label = label.label) (hx : info.extraCaps = 1)
    (hs : server.isSupported label = true) (hw : label.canContainWrappedCap = true)
    (hb : (cspace (sent.capsOrBadges 0)).badgeAt (some ep) = none)
    (harm : decodeArm { info with capsUnwrapped := 0, extraCaps := 1 } db slot label
      (receivedBuffer info sent stale stale.capsOrBadges) =
        .ok inv (receivedBuffer info sent stale stale.capsOrBadges)) :
    Decodes server db slot (deliver (some ep) cspace info sent stale true).2 inv := by
  exact decodes_of_arm (deliver_foreign hx hb) hl hs (.inl hw) harm

/-- Another server's capability is refused where the label takes none. -/
theorem not_decodes_foreign (hl : info.label = label.label) (hx : info.extraCaps = 1)
    (hw : label.canContainWrappedCap = false)
    (hb : (cspace (sent.capsOrBadges 0)).badgeAt (some ep) = none) :
    ¬ Decodes server db slot (deliver (some ep) cspace info sent stale true).2 inv := by
  exact not_decodes_of_refused (deliver_foreign hx hb) hl hw
    (by simp [MessageInfo.consumedRecvSlot])

/-- The stubs with one handle of either kind: the server must be the capability's own. -/
theorem handleStub_decodes {hndl : HandleOrHandleCap} {c c' : Client}
    (mk : ServerReceivedHandleOrHandleCap → SMOS_Invocation)
    (hstub : handleStub label hndl c = .ok info c') (hs : server.isSupported label = true)
    (hw : label.canContainWrappedCap = false)
    (hlocal : ∀ b, decodeArm { label := label.label, length := 1 } db slot label b =
      .ok (mk (.handle (b.msgRegs 0))) b)
    (hown : ∀ b, decodeArm { label := label.label, capsUnwrapped := 1, extraCaps := 1 } db slot
      label b = .ok (mk (.unwrappedHandleCap (b.capsOrBadges 0))) b) :
    Decodes server db slot (deliver (some ep) cspace info c'.ipc stale true).2
      (mk (hndl.received ep cspace slot)) ↔ hndl.Own ep cspace := by
  cases hndl with
  | handle idx =>
    cases hstub
    exact ⟨fun _ => trivial, fun _ => decodes_plain rfl rfl hs (hlocal _)⟩
  | handleCap cptr =>
    cases hstub
    cases hb : (cspace cptr).badgeAt (some ep) with
    | none =>
      have hnot : ¬ HandleOrHandleCap.Own ep cspace (.handleCap cptr) := fun h => h hb
      exact iff_of_false (not_decodes_foreign rfl rfl hw hb) hnot
    | some badge =>
      have hyes : HandleOrHandleCap.Own ep cspace (.handleCap cptr) := fun h => by
        rw [hb] at h; cases h
      refine iff_of_true (decodes_own rfl rfl hs hb fun b _ hcap => ?_) hyes
      rw [hown b, hcap, HandleOrHandleCap.received, hb]

/-! ## `View` -/

/-- `caps_unwrapped` of two capabilities. -/
def unwrappedMask (fst snd : Bool) : Fin 8 := (if fst then 1 else 0) + (if snd then 2 else 0)

theorem unwrappedMask_fst (fst snd : Bool) : (unwrappedMask fst snd).val.testBit 0 = fst := by
  cases fst <;> cases snd <;> decide

theorem unwrappedMask_snd (fst snd : Bool) : (unwrappedMask fst snd).val.testBit 1 = snd := by
  cases fst <;> cases snd <;> decide

theorem deliver_two {b₀ b₁ : Option Word} (h : info.extraCaps = 2)
    (h₀ : (cspace (sent.capsOrBadges 0)).badgeAt (some ep) = b₀)
    (h₁ : (cspace (sent.capsOrBadges 1)).badgeAt (some ep) = b₁) :
    (deliver (some ep) cspace info sent stale true).2 =
      ({ info with
          capsUnwrapped := unwrappedMask b₀.isSome b₁.isSome
          extraCaps := if b₀.isSome || b₁.isSome then 2 else 1 },
        receivedBuffer info sent stale fun j =>
          if j.val = 1 then b₁.getD (stale.capsOrBadges j)
          else if j.val = 0 then b₀.getD (stale.capsOrBadges j) else stale.capsOrBadges j) := by
  simp only [deliver, sentCaps_two h, transferCaps, List.take, transferFrom, h₀, h₁]
  cases b₀ with
  | none => cases b₁ <;> simp only [Option.getD_none, Option.getD_some, ite_self] <;> rfl
  | some badge =>
    cases b₁ with
    | none =>
      -- the register of the second capability stays stale
      have hbadges : (fun j : Fin 3 => if j.val = 1 then stale.capsOrBadges j
          else if j.val = 0 then badge else stale.capsOrBadges j) =
          fun j : Fin 3 => if j.val = 0 then badge else stale.capsOrBadges j := by
        funext j
        split
        · next hj => rw [if_neg (by omega)]
        · rfl
      simp only [Option.getD_none, Option.getD_some, hbadges]
      rfl
    | some badge' => rfl

theorem not_decodes_of_arm_err {d : MessageInfo × IpcBuffer} {b : IpcBuffer}
    (hd : d = (info, b)) (hl : info.label = label.label) (hs : server.isSupported label = true)
    (hw : label.canContainWrappedCap = true) (harm : decodeArm info db slot label b = .err .invalidArguments b) :
    ¬ Decodes server db slot d inv := by
  subst hd
  intro h
  change SMOS_Invocation.new server info db slot b = _ at h
  rw [new_of_reaches (reaches_of_label hl hs (.inl hw)), harm] at h
  cases h

/-- A `View` takes any window, and an object of the called server. -/
theorem view_decodes {win obj : HandleOrHandleCap} {winOffset objOffset size rights : Word}
    {c c' : Client} (hs : server.isSupported .view = true) (hwin : win.Issued)
    (hobj : obj.Issued)
    (hstub : (Request.view win obj winOffset objOffset size rights).stub c = .ok info c') :
    Decodes server db slot (deliver (some ep) cspace info c'.ipc stale true).2
      (.view (win.received ep cspace slot) (obj.received ep cspace slot) winOffset objOffset size
        rights) ↔ obj.Own ep cspace := by
  cases win with
  | handle idx =>
    cases obj with
    | handle idx' =>
      cases hstub
      refine iff_of_true (decodes_plain rfl rfl hs ?_) trivial
      exact viewArm_ok (decodeWindow_handle hwin) (decodeObject_handle hobj)
    | handleCap cptr' =>
      cases hstub
      cases hb : (cspace cptr').badgeAt (some ep) with
      | none =>
        have hnot : ¬ HandleOrHandleCap.Own ep cspace (.handleCap cptr') := fun h => h hb
        refine iff_of_false (not_decodes_of_arm_err (deliver_foreign rfl hb) rfl hs rfl ?_) hnot
        exact viewArm_refused (decodeWindow_handle hwin)
          (decodeObject_refused rfl rfl)
      | some badge =>
        have hyes : HandleOrHandleCap.Own ep cspace (.handleCap cptr') := fun h => by
          rw [hb] at h; cases h
        refine iff_of_true (decodes_of_arm (deliver_own rfl hb) rfl hs (.inl rfl) ?_) hyes
        rw [HandleOrHandleCap.received, HandleOrHandleCap.received, hb]
        exact viewArm_ok (decodeWindow_handle hwin) (decodeObject_unwrapped rfl rfl rfl)
  | handleCap cptr =>
    cases obj with
    | handle idx' =>
      cases hstub
      refine iff_of_true ?_ trivial
      cases hb : (cspace cptr).badgeAt (some ep) with
      | none =>
        refine decodes_of_arm (deliver_foreign rfl hb) rfl hs (.inl rfl) ?_
        rw [HandleOrHandleCap.received, HandleOrHandleCap.received, hb]
        exact viewArm_ok (decodeWindow_wrapped rfl rfl rfl)
          (decodeObject_handle hobj)
      | some badge =>
        refine decodes_of_arm (deliver_own rfl hb) rfl hs (.inl rfl) ?_
        rw [HandleOrHandleCap.received, HandleOrHandleCap.received, hb]
        exact viewArm_ok (decodeWindow_unwrapped rfl rfl rfl) (decodeObject_handle hobj)
    | handleCap cptr' =>
      cases hstub
      cases hb' : (cspace cptr').badgeAt (some ep) with
      | none =>
        have hnot : ¬ HandleOrHandleCap.Own ep cspace (.handleCap cptr') := fun h => h hb'
        refine iff_of_false ?_ hnot
        cases hb : (cspace cptr).badgeAt (some ep) with
        | none =>
          refine not_decodes_of_arm_err (deliver_two rfl hb hb') rfl hs rfl ?_
          exact viewArm_refused (decodeWindow_wrapped rfl rfl (unwrappedMask_fst ..))
            (decodeObject_refused rfl (unwrappedMask_snd ..))
        | some badge =>
          refine not_decodes_of_arm_err (deliver_two rfl hb hb') rfl hs rfl ?_
          exact viewArm_refused (decodeWindow_unwrapped rfl rfl (unwrappedMask_fst ..))
            (decodeObject_refused rfl (unwrappedMask_snd ..))
      | some badge' =>
        have hyes : HandleOrHandleCap.Own ep cspace (.handleCap cptr') := fun h => by
          rw [hb'] at h; cases h
        refine iff_of_true ?_ hyes
        cases hb : (cspace cptr).badgeAt (some ep) with
        | none =>
          refine decodes_of_arm (deliver_two rfl hb hb') rfl hs (.inl rfl) ?_
          rw [HandleOrHandleCap.received, HandleOrHandleCap.received, hb, hb']
          exact viewArm_ok (decodeWindow_wrapped rfl rfl (unwrappedMask_fst ..))
            (decodeObject_unwrapped rfl rfl (unwrappedMask_snd ..))
        | some badge =>
          refine decodes_of_arm (deliver_two rfl hb hb') rfl hs (.inl rfl) ?_
          rw [HandleOrHandleCap.received, HandleOrHandleCap.received, hb, hb']
          exact viewArm_ok (decodeWindow_unwrapped rfl rfl (unwrappedMask_fst ..))
            (decodeObject_unwrapped rfl rfl (unwrappedMask_snd ..))

/-! ## Argument lists -/

section Args

variable {b : IpcBuffer} {rest : List UInt8}

theorem readArgs_ok {args : List String} (hargs : ∀ arg ∈ args, NulFree arg)
    (hlt : args.length < 2 ^ 64) :
    readArgs (UInt64.ofNat args.length).toNat (terminated args ++ rest) b = .ok args b := by
  have hcount : (UInt64.ofNat args.length).toNat = args.length := by
    rw [UInt64.toNat_ofNat']
    exact Nat.mod_eq_of_lt hlt
  rw [hcount]
  exact readArgs_terminated args hargs rest b

/-- The end of the `ProcSpawn` arm. -/
theorem prio_ok {prio : UInt8} (mk : UInt8 → SMOS_Invocation)
    (h₁ : b.msgRegs 1 = prio.toUInt64) :
    (do
      let prio ← fMsg 1
      if prio.toNat < 256 then pure (mk prio.toUInt8) else Prog.panic .expect : Decoder _) b =
        .ok (mk prio) b := by
  have hprio : prio.toUInt64.toNat < 256 := by
    rw [UInt8.toNat_toUInt64]
    exact prio.toNat_lt
  refine (Prog.bind_of_ok rfl).trans ?_
  show (if (b.msgRegs 1).toNat < 256 then _ else _ : Decoder _) b = _
  rw [h₁, if_pos hprio]
  show Outcome.ok (mk (b.msgRegs 1).toUInt8) b = _
  rw [h₁, UInt8.toUInt8_toUInt64]

theorem procSpawnArm_ok {execName fsName : String} {args : List String} {prio : UInt8}
    (hexec : NulFree execName) (hfs : NulFree fsName) (hargs : ∀ arg ∈ args, NulFree arg)
    (hlt : args.length < 2 ^ 64) (hl : info.length = 2)
    (h₀ : b.msgRegs 0 = UInt64.ofNat args.length) (h₁ : b.msgRegs 1 = prio.toUInt64) :
    decodeArm info (some (terminated (execName :: fsName :: args) ++ rest)) slot .procSpawn b =
      .ok (.processSpawn execName fsName prio (if args = [] then none else some args)) b := by
  rw [decodeArm]
  refine (Prog.bind_of_ok rfl).trans ?_
  rw [if_neg (not_not_intro hl)]
  refine (Prog.bind_of_ok (readStr_of_ok (rustStr_terminated hexec))).trans ?_
  refine (Prog.bind_of_ok (readStr_of_ok (rustStr_terminated hfs))).trans ?_
  refine (Prog.bind_of_ok rfl).trans ?_
  show (if b.msgRegs 0 = 0 then _
    else do let _ ← readArgs (b.msgRegs 0).toNat (terminated args ++ rest); _ : Decoder _) b = _
  cases args with
  | nil =>
    have hzero : b.msgRegs 0 = 0 := h₀
    rw [if_pos hzero]
    refine (Prog.bind_of_ok rfl).trans ?_
    exact prio_ok (.processSpawn execName fsName · none) h₁
  | cons arg args =>
    have hread := @readArgs_ok b rest _ hargs hlt
    have hne : b.msgRegs 0 ≠ 0 := by
      intro hzero
      rw [← h₀, hzero] at hread
      cases hread
    rw [← h₀] at hread
    rw [if_neg hne]
    refine (Prog.bind_of_ok hread).trans ?_
    refine (Prog.bind_of_ok rfl).trans ?_
    exact prio_ok (.processSpawn execName fsName · (some (arg :: args))) h₁

end Args

/-! ## The round trip -/

theorem round_trip_iff {r : Request} {P : SMOS_Invocation → Prop} {Q : Prop}
    (hinv : r.invocation ep cspace slot = some inv) (hne : ∀ msg, r ≠ .testSimple msg)
    (h : P inv ↔ Q) :
    (∃ inv', r.invocation ep cspace slot = some inv' ∧ P inv') ↔
      (∀ msg, r ≠ .testSimple msg) ∧ Q := by
  rw [hinv]
  constructor
  · intro ⟨inv', heq, hp⟩
    cases heq
    exact ⟨hne, h.mp hp⟩
  · intro ⟨_, hq⟩
    exact ⟨inv, rfl, h.mpr hq⟩

/-- An invocation that is declared with an unwrapped capability. -/
theorem owned_round_trip_iff {r : Request} {P : SMOS_Invocation → Prop} {cptr : Word}
    {f : Word → SMOS_Invocation} (hne : ∀ msg, r ≠ .testSimple msg)
    (h : ∀ badge, (cspace cptr).badgeAt (some ep) = some badge → P (f badge)) :
    (∃ inv, (do let idx ← (cspace cptr).badgeAt (some ep); some (f idx)) = some inv ∧ P inv) ↔
      (∀ msg, r ≠ .testSimple msg) ∧ Owned ep cspace cptr := by
  unfold Owned
  cases hb : (cspace cptr).badgeAt (some ep) with
  | none => exact iff_of_false (fun ⟨_, hinv, _⟩ => nomatch hinv) (fun hown => hown.2 rfl)
  | some badge => exact iff_of_true ⟨f badge, rfl, h badge hb⟩ ⟨hne, nofun⟩

/-- An invocation that is declared with a wrapped capability. -/
theorem wrapped_round_trip_iff {r : Request} {P : SMOS_Invocation → Prop} {cptr : Word}
    (hne : ∀ msg, r ≠ .testSimple msg)
    (h : (cspace cptr).badgeAt (some ep) = none → P inv) :
    (∃ inv', (if Owned ep cspace cptr then none else some inv) = some inv' ∧ P inv') ↔
      (∀ msg, r ≠ .testSimple msg) ∧ ¬ Owned ep cspace cptr := by
  by_cases hown : Owned ep cspace cptr
  · rw [if_pos hown]
    exact iff_of_false (fun ⟨_, hinv, _⟩ => nomatch hinv) (fun hnot => hnot.2 hown)
  · rw [if_neg hown]
    exact iff_of_true ⟨inv, rfl, h (not_not.mp hown)⟩ ⟨hne, hown⟩

/-- Every request except `test_simple` decodes to its invocation with its arguments, when its
handle capabilities are ones that the invocation takes; and only then. -/
theorem request_round_trip {r : Request} {c c' : Client}
    (himpl : server.implements r.interface = true) (hwf : r.WellFormed)
    (hstub : r.stub c = .ok info c') :
    (∃ inv, r.invocation ep cspace slot = some inv ∧
      Decodes server c'.shared slot (deliver (some ep) cspace info c'.ipc stale true).2 inv) ↔
    (∀ msg, r ≠ .testSimple msg) ∧ r.CapsFit ep cspace := by
  cases r
  case connRegister | connDeregister | connDestroy | windowDeregister | pageMap | replyCreate |
      serverHandleCapCreate | processWait | processExit | loadComplete | serverChannelCreate |
      connClose | unview | sddfGetDataRegion =>
    cases hstub
    refine round_trip_iff rfl nofun (iff_of_true ?_ trivial)
    exact decodes_plain rfl rfl (supports himpl rfl) rfl
  case testSimple msg =>
    exact iff_of_false (fun ⟨_, hinv, _⟩ => nomatch hinv) (fun h => h.1 msg rfl)
  case irqRegister publishHndl irqNum edgeTriggered irqHandlerSlot =>
    cases hstub
    refine round_trip_iff rfl nofun (iff_of_true ?_ trivial)
    refine decodes_plain rfl rfl (supports himpl rfl) ?_
    cases edgeTriggered <;> rfl
  case windowCreate baseVaddr size returnCap =>
    refine round_trip_iff rfl nofun (iff_of_true ?_ trivial)
    cases returnCap <;> cases hstub <;>
      exact decodes_plain rfl rfl (supports himpl rfl) rfl
  case connCreate slot' serverName =>
    obtain ⟨⟨⟩, c₁, hwrite, hrest⟩ := Prog.bind_ok hstub
    obtain ⟨-, rest, hshared⟩ := writeStrings_ok hwrite
    cases hrest
    refine round_trip_iff rfl nofun (iff_of_true ?_ trivial)
    refine decodes_plain rfl rfl (supports himpl rfl) ?_
    show decodeArm _ c₁.shared _ _ _ = _
    rw [hshared]
    exact connCreateArm_ok (rustStr_terminated hwf)
  case connPublish ntfnBuffer slot' name =>
    obtain ⟨⟨⟩, c₁, hwrite, hrest⟩ := Prog.bind_ok hstub
    obtain ⟨-, rest, hshared⟩ := writeStrings_ok hwrite
    cases hrest
    refine round_trip_iff rfl nofun (iff_of_true ?_ trivial)
    refine decodes_plain rfl rfl (supports himpl rfl) ?_
    show decodeArm _ c₁.shared _ _ _ = _
    rw [hshared]
    exact connPublishArm_ok (rustStr_terminated hwf)
  case objOpen name rights returnCap =>
    obtain ⟨⟨⟩, c₁, hwrite, hrest⟩ := Prog.bind_ok hstub
    obtain ⟨-, rest, hshared⟩ := writeStrings_ok hwrite
    refine round_trip_iff rfl nofun (iff_of_true ?_ trivial)
    cases returnCap <;> cases hrest
    · refine decodes_plain rfl rfl (supports himpl rfl) ?_
      show decodeArm _ c₁.shared _ _ _ = _
      rw [hshared]
      exact objOpenArm_ok (rustStr_terminated hwf)
    · refine decodes_plain rfl rfl (supports himpl rfl) ?_
      show decodeArm _ c₁.shared _ _ _ = _
      rw [hshared]
      exact objOpenArm_ok (rustStr_terminated hwf)
  case windowDestroy hndl | objClose hndl | objDestroy hndl | objStat hndl =>
    refine round_trip_iff rfl nofun ?_
    exact handleStub_decodes _ hstub (supports himpl rfl) rfl (fun _ => rfl) (fun _ => rfl)
  case view win obj winOffset objOffset size rights =>
    refine round_trip_iff rfl nofun ?_
    exact view_decodes (supports himpl rfl) hwf.1 hwf.2 hstub
  case objCreate nameOpt size rights attributes returnCap =>
    refine round_trip_iff rfl nofun (iff_of_true ?_ trivial)
    cases nameOpt with
    | none =>
      cases returnCap <;> cases hstub <;>
        exact decodes_plain rfl rfl (supports himpl rfl) (objCreateArm_unnamed rfl)
    | some name =>
      obtain ⟨⟨⟩, c₁, hreg, hrest⟩ := Prog.bind_ok hstub
      obtain ⟨⟨⟩, c₂, hwrite, hrest₂⟩ := Prog.bind_ok hrest
      obtain ⟨hipc, rest, hshared⟩ := writeStrings_ok hwrite
      cases hreg
      have hname : c₂.ipc.msgRegs 0 = 1 := by rw [hipc]; rfl
      cases returnCap <;> cases hrest₂
      · refine decodes_plain rfl rfl (supports himpl rfl) ?_
        show decodeArm _ c₂.shared _ _ _ = _
        rw [hshared]
        refine objCreateArm_named (rustStr_terminated hwf) fun hzero => ?_
        exact absurd (hname.symm.trans hzero) (by decide)
      · refine decodes_plain rfl rfl (supports himpl rfl) ?_
        show decodeArm _ c₂.shared _ _ _ = _
        rw [hshared]
        refine objCreateArm_named (rustStr_terminated hwf) fun hzero => ?_
        exact absurd (hname.symm.trans hzero) (by decide)
  case processSpawn executableName fsName prio argv =>
    obtain ⟨⟨⟩, c₁, hwrite, hrest⟩ := Prog.bind_ok hstub
    obtain ⟨-, rest, hshared⟩ := writeStrings_ok hwrite
    obtain ⟨hexec, hfs, hargs, hlt⟩ := hwf
    refine round_trip_iff rfl nofun (iff_of_true ?_ trivial)
    cases hrest
    refine decodes_plain rfl rfl (supports himpl rfl) ?_
    show decodeArm _ c₁.shared _ _ _ = _
    rw [hshared]
    refine (procSpawnArm_ok hexec hfs hargs hlt rfl rfl rfl).trans ?_
    rcases argv with _ | _ | _ <;> rfl
  case connOpen sharedBuf =>
    refine round_trip_iff rfl nofun (iff_of_true ?_ trivial)
    match sharedBuf with
    | none =>
      cases hstub
      exact decodes_plain rfl rfl (supports himpl rfl) rfl
    | some (.handle idx, size) =>
      cases hstub
      exact decodes_plain rfl rfl (supports himpl rfl) rfl
    | some (.handleCap cptr, size) =>
      cases hstub
      cases hb : (cspace cptr).badgeAt (some ep) with
      | none =>
        refine decodes_foreign rfl rfl (supports himpl rfl) rfl hb ?_
        show _ = Outcome.ok (SMOS_Invocation.connOpen (some (HandleOrHandleCap.received ep cspace slot _, _))) _
        rw [HandleOrHandleCap.received_foreign hb]
        rfl
      | some badge =>
        refine decodes_own rfl rfl (supports himpl rfl) hb fun b hregs hcap => ?_
        have hsize : b.msgRegs 1 = size := by rw [hregs]; rfl
        show _ = Outcome.ok (SMOS_Invocation.connOpen (some (HandleOrHandleCap.received ep cspace slot _, _))) _
        rw [HandleOrHandleCap.received_own hb, ← hcap, ← hsize]
        rfl
  case windowRegister publishHndl cptr clientId reference =>
    cases hstub
    refine owned_round_trip_iff nofun fun badge hb => ?_
    refine decodes_own rfl rfl (supports himpl rfl) hb fun b hregs hcap => ?_
    have hpublish : b.msgRegs 0 = publishHndl := by rw [hregs]; rfl
    have hclient : b.msgRegs 1 = clientId := by rw [hregs]; rfl
    have hreference : b.msgRegs 2 = reference := by rw [hregs]; rfl
    rw [← hpublish, ← hcap, ← hclient, ← hreference]
    rfl
  case channelOpen cptr ntfnSlot =>
    cases hstub
    refine owned_round_trip_iff nofun fun badge hb => ?_
    refine decodes_own rfl rfl (supports himpl rfl) hb fun b hregs hcap => ?_
    rw [← hcap]
    rfl
  case sddfChannelRegisterBidirectional cptr kind recvSlot =>
    refine wrapped_round_trip_iff nofun fun hb => ?_
    cases kind with
    | none =>
      cases hstub
      exact decodes_foreign rfl rfl (supports himpl rfl) rfl hb rfl
    | some kind =>
      cases hstub
      refine decodes_foreign rfl rfl (supports himpl rfl) rfl hb ?_
      cases kind <;> rfl
  case sddfChannelRegisterRecvOnly cptr =>
    cases hstub
    refine wrapped_round_trip_iff nofun fun hb => ?_
    exact decodes_foreign rfl rfl (supports himpl rfl) rfl hb rfl
  case sddfQueueRegister obj size kind =>
    cases obj with
    | handle idx => cases hstub
    | handleCap cptr =>
      cases hstub
      refine wrapped_round_trip_iff nofun fun hb => ?_
      refine decodes_foreign rfl rfl (supports himpl rfl) rfl hb ?_
      cases kind <;> rfl
  case sddfDataRegionProvide obj size =>
    cases obj with
    | handle idx => cases hstub
    | handleCap cptr =>
      cases hstub
      refine wrapped_round_trip_iff nofun fun hb => ?_
      exact decodes_foreign rfl rfl (supports himpl rfl) rfl hb rfl

end Requests

/-- `ObjStat` on the called server's own handle capability, which has badge 9. -/
theorem stat_round_trip :
    Decodes .objectServer none 0
      (deliver (some 1) (fun _ => .endpoint 1 9)
        { label := SMOSInvocation.objStat.label, extraCaps := 1 } (IpcBuffer.blank.setCap 0 5)
        .blank true).2
      (.objStat (.unwrappedHandleCap 9)) := by
  have hown : Owned 1 (fun _ => .endpoint 1 9) 5 := by decide
  obtain ⟨inv, hinv, hd⟩ := (@request_round_trip .objectServer 1 (fun _ => .endpoint 1 9) 0 _
    .blank (.objStat (.handleCap 5)) ⟨.blank, none⟩ _ rfl trivial rfl).mpr ⟨nofun, hown⟩
  cases hinv
  exact hd

/-- The root server's decoder panics on what the `test_simple` stub sends. -/
theorem test_simple_not_decoded :
    ∃ info c', (Request.testSimple 7).stub ⟨.blank, none⟩ = .ok info c' ∧
      ServerConnection.rootServer.implements (Request.testSimple 7).interface = true ∧
      ∀ inv, ¬ Decodes .rootServer c'.shared 0
        (deliver (some 1) (fun _ => .other 0) info c'.ipc .blank true).2 inv := by
  refine ⟨_, _, rfl, rfl, fun inv h => ?_⟩
  cases h

end Smos.Ipc
