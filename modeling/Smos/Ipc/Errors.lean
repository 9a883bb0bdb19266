/-
Smos.Ipc.Errors — how an error gets to the client.

The server's `handle_error` and the client's `try_unpack_error` are
written separately, an arm for each error. The label of the reply says
which error it is, and the payload is in its first registers. Three errors
are not for a server to return, and the encoder panics on them.

`InvalidType` has an arm on both sides, and neither is right: the encoder
writes the label and the length of `NotEnoughCaps`, and the decoder's arm
is unfinished. All other errors come back with their payload.
-/
import Smos.Base.Prog
import Smos.Ipc.Invocation

namespace Smos.Ipc

open Smos.Base

/-! ## Labels of errors -/

inductive InvocationErrorLabel where
  | noError
  | invalidInvocation
  | notEnoughArgs
  | notEnoughCaps
  | invalidType
  | cspaceFull
  | unsupportedInvocation
  | outOfHandles
  | outOfHandleCaps
  | alignmentError
  | invalidArguments
  | invalidHandle
  | invalidHandleCapability
  | dataBufferNotSet
  | bufferTooLarge
  | insufficientResources
  | serverError
  deriving DecidableEq, Repr

namespace InvocationErrorLabel

/-- The labels in the order of their numbers. -/
def all : List InvocationErrorLabel :=
  [noError, invalidInvocation, notEnoughArgs, notEnoughCaps, invalidType, cspaceFull,
    unsupportedInvocation, outOfHandles, outOfHandleCaps, alignmentError, invalidArguments,
    invalidHandle, invalidHandleCapability, dataBufferNotSet, bufferTooLarge,
    insufficientResources, serverError]

/-- `InvocationErrorLabel as u64`. -/
def toWord (x : InvocationErrorLabel) : Word := UInt64.ofNat (all.idxOf x)

/-- `InvocationErrorLabel::try_from`. -/
def tryFrom (label : Word) : Option InvocationErrorLabel := all[label.toNat]?

@[simp] theorem tryFrom_toWord (x : InvocationErrorLabel) : tryFrom x.toWord = some x := by
  cases x <;> decide +kernel

end InvocationErrorLabel

/-! ## The encoder and the decoder -/

section Encoder

variable {ε : Type}

/-- Write a register of the reply. -/
def replyReg (i : Fin 120) (x : Word) : Prog Panic IpcBuffer ε Unit :=
  Prog.modify fun b => b.setReg i x

/-- `handle_error`. -/
def handleError : InvocationError → Prog Panic IpcBuffer ε MessageInfo
  | .noError => Prog.panic .unexpectedOnServerSide
  | .invalidInvocation => labelOnly .invalidInvocation
  | .notEnoughArgs expected actual => do
    replyReg 0 expected
    replyReg 1 actual
    pure { label := InvocationErrorLabel.notEnoughArgs.toWord, length := 2 }
  | .notEnoughCaps expected actual => do
    replyReg 0 expected
    replyReg 1 actual
    pure { label := InvocationErrorLabel.notEnoughCaps.toWord, length := 2 }
  | .invalidType whichArg => do
    replyReg 0 whichArg
    -- label and length are those of another error in the source
    pure { label := InvocationErrorLabel.notEnoughCaps.toWord, length := 2 }
  | .cspaceFull => Prog.panic .unexpectedOnServerSide
  | .unsupportedInvocation label => do
    replyReg 0 label.label
    pure { label := InvocationErrorLabel.unsupportedInvocation.toWord, length := 1 }
  | .outOfHandles => labelOnly .outOfHandles
  | .outOfHandleCaps => labelOnly .outOfHandleCaps
  | .alignmentError whichArg => which .alignmentError whichArg
  | .invalidArguments => labelOnly .invalidArguments
  | .invalidHandle whichArg => which .invalidHandle whichArg
  | .invalidHandleCapability whichArg => which .invalidHandleCapability whichArg
  | .dataBufferNotSet => labelOnly .dataBufferNotSet
  | .bufferTooLarge => labelOnly .bufferTooLarge
  | .insufficientResources => labelOnly .insufficientResources
  | .serverError => Prog.panic .unexpectedOnServerSide
where
  /-- An error without a payload. -/
  labelOnly (label : InvocationErrorLabel) : Prog Panic IpcBuffer ε MessageInfo :=
    pure { label := label.toWord }
  /-- An error that names an argument. -/
  which (label : InvocationErrorLabel) (whichArg : Word) : Prog Panic IpcBuffer ε MessageInfo := do
    replyReg 0 whichArg
    pure { label := label.toWord, length := 1 }

end Encoder

/-- A register of the reply. -/
def gotReg {ε : Type} (i : Fin 120) : Prog Panic IpcBuffer ε Word := Prog.gets fun b => b.msgRegs i

/-- `try_unpack_error`. -/
def tryUnpackError (label : Word) : Prog Panic IpcBuffer InvocationError Unit := do
  match ← InvocationErrorLabel.tryFrom label |> Prog.unwrap .expect with
  | .noError => pure ()
  | .invalidInvocation => Prog.fail .invalidInvocation
  | .notEnoughArgs => do
    let expected ← gotReg 0
    Prog.fail (.notEnoughArgs expected (← gotReg 1))
  | .notEnoughCaps => do
    let expected ← gotReg 0
    Prog.fail (.notEnoughCaps expected (← gotReg 1))
  | .invalidType => Prog.panic .todo
  | .cspaceFull => Prog.fail .cspaceFull
  | .unsupportedInvocation => do
    let label ← SMOSInvocation.tryFrom (← gotReg 0) |> Prog.unwrap .unwrap
    Prog.fail (.unsupportedInvocation label)
  | .outOfHandles => Prog.fail .outOfHandles
  | .outOfHandleCaps => Prog.fail .outOfHandleCaps
  | .alignmentError => do
    Prog.fail (.alignmentError (← gotReg 0))
  | .invalidArguments => Prog.fail .invalidArguments
  | .invalidHandle => do
    Prog.fail (.invalidHandle (← gotReg 0))
  | .invalidHandleCapability => do
    Prog.fail (.invalidHandleCapability (← gotReg 0))
  | .dataBufferNotSet => Prog.fail .dataBufferNotSet
  | .bufferTooLarge => Prog.fail .bufferTooLarge
  | .insufficientResources => Prog.fail .insufficientResources
  | .serverError => Prog.fail .serverError

/-! ## The round trip -/

/-- The errors that a server returns: the encoder calls the others unexpected. -/
def InvocationError.Returned : InvocationError → Prop
  | .noError | .cspaceFull | .serverError => False
  | _ => True

def InvocationError.IsInvalidType : InvocationError → Prop
  | .invalidType _ => True
  | _ => False

/-- The message that the error is sent as: its info and its registers. -/
def InvocationError.encoding (e : InvocationError) (b : IpcBuffer) :
    Option (MessageInfo × (Fin 120 → Option Word)) :=
  match (handleError e : Prog Panic IpcBuffer Empty MessageInfo) b with
  | .ok info b' =>
    some (info, fun i => if i.val < info.length.val then some (b'.msgRegs i) else none)
  | _ => none

/-- Encoded in the server's buffer `b`, delivered into the client's buffer `stale` and decoded
there, the error comes back. -/
def InvocationError.RoundTrips (e : InvocationError) (cspace : Word → Cap) (b stale : IpcBuffer) :
    Prop :=
  ∃ info b', (handleError e : Prog Panic IpcBuffer Empty MessageInfo) b = .ok info b' ∧
    let received := (deliver none cspace info b' stale true).2
    tryUnpackError received.1.label received.2 = .err e received.2

variable {e e' : InvocationError} {cspace : Word → Cap} {b b' stale stale' : IpcBuffer}

theorem roundTrips_of_valid (he : e.Returned) (hv : ¬ e.IsInvalidType) :
    e.RoundTrips cspace b stale := by
  cases e with
  | noError | cspaceFull | serverError => exact he.elim
  | invalidType whichArg => exact (hv trivial).elim
  | unsupportedInvocation label =>
    refine ⟨_, _, rfl, ?_⟩
    rw [deliver_plain rfl]
    refine (Prog.bind_of_ok rfl).trans ?_
    refine (Prog.bind_of_ok rfl).trans ?_
    show Prog.bind (Prog.unwrap Panic.unwrap (SMOSInvocation.tryFrom label.label)) _ _ = _
    rw [SMOSInvocation.tryFrom_label]
    rfl
  | notEnoughArgs | notEnoughCaps | invalidInvocation | outOfHandles | outOfHandleCaps
  | alignmentError | invalidArguments | invalidHandle | invalidHandleCapability
  | dataBufferNotSet | bufferTooLarge | insufficientResources =>
    refine ⟨_, _, rfl, ?_⟩
    rw [deliver_plain rfl]
    rfl

/-- `InvalidType` is decoded as `NotEnoughCaps`, with the second number from whatever was left
in the server's buffer. -/
theorem invalidType_decoded (whichArg : Word) :
    ∃ info b', (handleError (.invalidType whichArg) : Prog Panic IpcBuffer Empty _) b =
        .ok info b' ∧
      let received := (deliver none cspace info b' stale true).2
      tryUnpackError received.1.label received.2 =
        .err (.notEnoughCaps whichArg (b.msgRegs 1)) received.2 := by
  refine ⟨_, _, rfl, ?_⟩
  rw [deliver_plain rfl]
  rfl

theorem not_roundTrips_of_invalidType (hv : e.IsInvalidType) :
    ¬ e.RoundTrips cspace b stale := by
  cases e with
  | invalidType whichArg =>
    intro ⟨info, b₁, henc, hdec⟩
    obtain ⟨info', b₂, henc', hdec'⟩ := @invalidType_decoded cspace b stale whichArg
    rw [henc] at henc'
    cases henc'
    cases hdec.symm.trans hdec'
  | _ => exact hv.elim

/-- No error carries a capability. -/
theorem handleError_extraCaps {ε : Type} {info : MessageInfo} {b₁ : IpcBuffer}
    (h : (handleError e : Prog Panic IpcBuffer ε _) b = .ok info b₁) : info.extraCaps = 0 := by
  cases e <;> cases h <;> rfl

/-- What is decoded depends on the encoding alone. -/
theorem eq_of_encoding_eq (h : e.RoundTrips cspace b stale) (h' : e'.RoundTrips cspace b' stale)
    (heq : e.encoding b = e'.encoding b') : e = e' := by
  obtain ⟨info, b₁, henc, hdec⟩ := h
  obtain ⟨info', b₂, henc', hdec'⟩ := h'
  unfold InvocationError.encoding at heq
  rw [henc, henc'] at heq
  obtain ⟨rfl, hregs⟩ := Prod.mk.inj (Option.some.inj heq)
  have hsame : receivedBuffer info b₁ stale stale.capsOrBadges =
      receivedBuffer info b₂ stale stale.capsOrBadges := by
    unfold receivedBuffer
    congr 1
    funext i
    have hi := congrFun hregs i
    split
    · next hlt =>
        rw [if_pos hlt, if_pos hlt] at hi
        exact Option.some.inj hi
    · rfl
  have hd : (deliver none cspace info b₁ stale true).2 =
      (deliver none cspace info b₂ stale true).2 := by
    have hx : info.extraCaps = 0 := handleError_extraCaps henc
    rw [deliver_plain hx, deliver_plain hx, hsame]
  rw [hd] at hdec
  cases hdec.symm.trans hdec'
  rfl

/-- **Error round trip.** Any two errors that a server may return are decoded as they were
encoded, and have distinct encodings when they are distinct, exactly when neither is
`InvalidType`. -/
theorem error_round_trip (he : e.Returned) (he' : e'.Returned) :
    (e.RoundTrips cspace b stale ∧ e'.RoundTrips cspace b' stale' ∧
      (e ≠ e' → e.encoding b ≠ e'.encoding b')) ↔ ¬ e.IsInvalidType ∧ ¬ e'.IsInvalidType := by
  constructor
  · intro ⟨h, h', _⟩
    exact ⟨fun hv => not_roundTrips_of_invalidType hv h,
      fun hv => not_roundTrips_of_invalidType hv h'⟩
  · intro ⟨hv, hv'⟩
    refine ⟨roundTrips_of_valid he hv, roundTrips_of_valid he' hv', ?_⟩
    intro hne heq
    have h : e.RoundTrips cspace b stale := roundTrips_of_valid he hv
    have h' : e'.RoundTrips cspace b' stale := roundTrips_of_valid he' hv'
    exact hne (eq_of_encoding_eq h h' heq)

theorem error_round_trip_handles :
    InvocationError.RoundTrips (.invalidHandle 3) (fun _ => .other 0) .blank .blank ∧
      (InvocationError.invalidHandle 3).encoding .blank ≠
        (InvocationError.invalidHandleCapability 3).encoding .blank := by
  have h := (@error_round_trip (.invalidHandle 3) (.invalidHandleCapability 3)
    (fun _ => .other 0) .blank .blank .blank .blank trivial trivial).mpr ⟨id, id⟩
  exact ⟨h.1, h.2.2 (by decide)⟩

/-- `InvalidType` for argument 1 comes out as `NotEnoughCaps`, and has its encoding. -/
theorem invalidType_not_round_trip :
    ¬ InvocationError.RoundTrips (.invalidType 1) (fun _ => .other 0) .blank .blank ∧
      (InvocationError.invalidType 1).encoding .blank =
        (InvocationError.notEnoughCaps 1 0).encoding .blank := by
  refine ⟨not_roundTrips_of_invalidType trivial, ?_⟩
  have hregs : IpcBuffer.blank.setReg 0 1 = (IpcBuffer.blank.setReg 0 1).setReg 1 0 := by
    simp only [IpcBuffer.setReg, IpcBuffer.blank]
    congr 1
    funext i
    simp only [Function.update_apply]
    split <;> split <;> simp_all
  show some (_, _) = some (_, _)
  simp only [← hregs]

end Smos.Ipc
