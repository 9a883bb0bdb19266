/-
Smos.Ipc.HandleCaps — which badge a decoder takes for a handle capability.

A capability to the server's own endpoint is unwrapped, and the decoder
finds its badge in a capability register. Where an invocation takes a
handle capability the decoder takes that badge as the index of the entry,
whatever the badge was made for: `accepts_iff` says that every server
accepts every badge, as the index that has the same number.
-/
import Smos.Ipc.DecodeArms

namespace Smos.Ipc

open Smos.Base

/-- A capability argument: the index of a handle capability, or none for a wrapped one. -/
def ServerReceivedHandleOrHandleCap.capArgs : ServerReceivedHandleOrHandleCap → List (Option Word)
  | .handle _ => []
  | .unwrappedHandleCap idx => [some idx]
  | .wrappedHandleCap _ => [none]

/-- The capability arguments of an invocation, in the order of the capabilities of its message. -/
def SMOS_Invocation.capArgs : SMOS_Invocation → List (Option Word)
  | .windowDestroy hndl | .objStat hndl | .objClose hndl | .objDestroy hndl => hndl.capArgs
  | .view window object _ _ _ _ => window.capArgs ++ object.capArgs
  | .connOpen (some (hndl, _)) => hndl.capArgs
  | .windowRegister _ windowHndl _ _ => [some windowHndl]
  | .channelOpen hndlCap => [some hndlCap]
  | .sDDFChannelRegisterBidirectional _ _ | .sDDFChannelRegisterRecvOnly _
  | .sDDFQueueRegister _ _ _ | .sDDFProvideDataRegion _ _ => [none]
  | _ => []

/-- A server's decoder takes the unwrapped badge for the handle capability with index `i`: there
is a message with the badge in one of its capability registers, and the decoded invocation has
`i` as the handle capability of that register. -/
def Accepts (server : ServerConnection) (badge i : Word) : Prop :=
  ∃ (info : MessageInfo) (db : Option (List UInt8)) (slot : Word) (b b' : IpcBuffer)
    (inv : SMOS_Invocation) (j : Fin 3),
    SMOS_Invocation.new server info db slot b = .ok inv b' ∧ j.val < info.extraCaps.val ∧
      info.isUnwrapped j.val = true ∧ b.capsOrBadges j = badge ∧ inv.capArgs[j.val]? = some (some i)

section Arms

variable {info : MessageInfo} {db : Option (List UInt8)} {slot : Word} {label : SMOSInvocation}
  {b : IpcBuffer}

/-- The handle capabilities of an invocation are what the capability registers hold. -/
def FromRegisters (b : IpcBuffer) (args : List (Option Word)) : Prop :=
  ∀ (j : Fin 3) (i : Word), args[j.val]? = some (some i) → i = b.capsOrBadges j

theorem fromRegisters_nil : FromRegisters b [] := by
  intro j i h
  simp at h

theorem fromRegisters_wrapped : FromRegisters b [none] := by
  intro j i h
  cases List.mem_singleton.mp (List.mem_of_getElem? h)

theorem fromRegisters_first : FromRegisters b [some (b.capsOrBadges 0)] := by
  intro j i h
  obtain ⟨hj, hi⟩ := List.getElem?_eq_some_iff.mp h
  have hzero : j = 0 := Fin.ext (by simpa using hj)
  subst hzero
  cases hi
  rfl

/-- The object of a `View` stands in the register after the window's. -/
theorem fromRegisters_append {w : List (Option Word)} {c : Fin 3} (hw : FromRegisters b w)
    (hlen : w.length = c.val) : FromRegisters b (w ++ [some (b.capsOrBadges c)]) := by
  intro j i h
  rw [List.getElem?_append] at h
  split at h
  · exact hw j i h
  · next hnot =>
    obtain ⟨hj, hi⟩ := List.getElem?_eq_some_iff.mp h
    have hlt : j.val - w.length < 1 := by simpa using hj
    have hjc : j = c := Fin.ext (by omega)
    rw [hjc]
    simpa using hi.symm

/-- An invocation, decoded from the registers of `b`. -/
def DecodesFrom (b : IpcBuffer) {α : Type} (args : α → List (Option Word)) (m : Decoder α) : Prop :=
  m.wp (fun a _ => FromRegisters b (args a)) (fun _ _ => True) (fun _ => True) b

theorem decodeHandle_registers :
    DecodesFrom b ServerReceivedHandleOrHandleCap.capArgs (decodeHandle info) := by
  simp [DecodesFrom, decodeHandle, fCap, fMsg, invalidArguments, fromRegisters_nil,
    fromRegisters_first, ServerReceivedHandleOrHandleCap.capArgs]

theorem decodeStatHandle_registers :
    DecodesFrom b ServerReceivedHandleOrHandleCap.capArgs (decodeStatHandle info) := by
  simp [DecodesFrom, decodeStatHandle, fCap, fMsg, invalidArguments, fromRegisters_nil,
    fromRegisters_first, ServerReceivedHandleOrHandleCap.capArgs]

theorem decodeSharedBuf_registers :
    DecodesFrom b (fun buf => (SMOS_Invocation.connOpen buf).capArgs)
      (decodeSharedBuf info slot) := by
  simp [DecodesFrom, decodeSharedBuf, fCap, fMsg, fromRegisters_nil, fromRegisters_first,
    fromRegisters_wrapped, SMOS_Invocation.capArgs, ServerReceivedHandleOrHandleCap.capArgs]

/-- The window of a `View` takes as many registers as `decodeWindow` counts. -/
theorem decodeWindow_registers :
    (decodeWindow info slot).wp
      (fun x b' => b' = b ∧ FromRegisters b x.1.capArgs ∧ x.1.capArgs.length = x.2.val)
      (fun _ _ => True) (fun _ => True) b := by
  simp [decodeWindow, fCap, fMsg, invalidArguments, fromRegisters_nil, fromRegisters_first,
    fromRegisters_wrapped, ServerReceivedHandleOrHandleCap.capArgs]

theorem decodeObject_registers {w : List (Option Word)} {caps : Fin 3} (hw : FromRegisters b w)
    (hlen : w.length = caps.val) :
    DecodesFrom b (fun o => w ++ o.capArgs) (decodeObject info caps) := by
  simp [DecodesFrom, decodeObject, fCap, fMsg, invalidArguments, fromRegisters_append hw hlen, hw,
    ServerReceivedHandleOrHandleCap.capArgs]

theorem decodeView_registers :
    DecodesFrom b SMOS_Invocation.capArgs (decodeArm info db slot .view) := by
  unfold DecodesFrom
  simp only [decodeArm, Prog.wp_bind]
  refine Prog.wp_mono decodeWindow_registers ?_ (fun _ _ h => h) fun _ h => h
  intro x b' hpost
  rcases x with ⟨window, caps⟩
  rcases hpost with ⟨hb, hw, hlen⟩
  rw [hb]
  refine Prog.wp_mono (decodeObject_registers hw hlen) ?_ (fun _ _ h => h) fun _ h => h
  intro object b' ho
  simpa [fMsg, SMOS_Invocation.capArgs] using ho

/-- Every arm takes its handle capabilities from the capability registers. -/
theorem decodeArm_registers (hlabel : label ≠ .view) :
    DecodesFrom b SMOS_Invocation.capArgs (decodeArm info db slot label) := by
  have hbind : ∀ {α : Type} {args : α → List (Option Word)} {m : Decoder α}
      (f : α → SMOS_Invocation), DecodesFrom b args m → (∀ a, (f a).capArgs = args a) →
      DecodesFrom b SMOS_Invocation.capArgs (do pure (f (← m))) := by
    intro α args m f hm hf
    refine Prog.wp_bind.mpr (Prog.wp_mono hm ?_ (fun _ _ h => h) fun _ h => h)
    intro a b' ha
    rw [Prog.wp_pure, hf a]
    exact ha
  cases label
  case view => exact absurd rfl hlabel
  case windowDestroy => exact hbind .windowDestroy decodeHandle_registers fun _ => rfl
  case objClose => exact hbind .objClose decodeHandle_registers fun _ => rfl
  case objDestroy => exact hbind .objDestroy decodeHandle_registers fun _ => rfl
  case objStat => exact hbind .objStat decodeStatHandle_registers fun _ => rfl
  case connOpen => exact hbind .connOpen decodeSharedBuf_registers fun _ => rfl
  all_goals
    simp [DecodesFrom, decodeArm, fCap, fMsg, invalidArguments, needBuffer, Prog.wp_trivial,
      SMOS_Invocation.capArgs, fromRegisters_nil, fromRegisters_first, fromRegisters_wrapped]

end Arms

/-! ## Every badge is accepted -/

/-- The message with one unwrapped capability that a server of a type takes. -/
def handleCapMessage : ServerConnection → MessageInfo
  | .rootServer | .objectServer =>
    { label := SMOSInvocation.objStat.label, capsUnwrapped := 1, extraCaps := 1 }
  | .sDDF =>
    { label := SMOSInvocation.connOpen.label, capsUnwrapped := 1, extraCaps := 1, length := 2 }

/-- Every badge is taken for an index, and no other number is. -/
theorem accepts_iff {server : ServerConnection} {badge i : Word} :
    Accepts server badge i ↔ i = badge := by
  constructor
  · intro ⟨info, db, slot, b, b', inv, j, hnew, hj, hu, hbadge, hi⟩
    rw [← hbadge]
    have hr : ∃ label, Reaches server info label := by
      by_contra hnot
      obtain ⟨e, he⟩ := new_of_not_reaches (not_exists.mp hnot) db slot
      rw [he] at hnew
      cases hnew
    obtain ⟨label, hr⟩ := hr
    rw [new_of_reaches hr] at hnew
    by_cases hlabel : label = .view
    · subst hlabel
      have hregs := Prog.wp_ok decodeView_registers hnew
      exact hregs j i hi
    · have hregs := Prog.wp_ok (decodeArm_registers hlabel) hnew
      exact hregs j i hi
  · intro hi
    subst hi
    let b : IpcBuffer := { IpcBuffer.blank with capsOrBadges := fun _ => i }
    cases server with
    | rootServer =>
      exact ⟨handleCapMessage .rootServer, none, 0, b, b, .objStat (.unwrappedHandleCap i), 0,
        rfl, by decide, by decide, rfl, rfl⟩
    | objectServer =>
      exact ⟨handleCapMessage .objectServer, none, 0, b, b, .objStat (.unwrappedHandleCap i), 0,
        rfl, by decide, by decide, rfl, rfl⟩
    | sDDF =>
      exact ⟨handleCapMessage .sDDF, none, 0, b, b,
        .connOpen (some (.unwrappedHandleCap i, 0)), 0, rfl, by decide, by decide, rfl, rfl⟩

end Smos.Ipc
