/-
Smos.Ipc.DecodeArms — what the longer arms of the decoder return.

`View` marks a handle capability by a register of all ones and counts the
capabilities it takes, and the invocations with a name read it from the
shared data buffer. Each arm is stated by what its parts return, on any
message.
-/
import Smos.Ipc.Decode

namespace Smos.Ipc

open Smos.Base

section Arms

variable {info : MessageInfo} {db : Option (List UInt8)} {slot : Word} {b : IpcBuffer}
  {w o : ServerReceivedHandleOrHandleCap} {caps : Fin 3}

/-! ## `View` -/

/-- A first register that is not all ones is a handle, and no capability is taken. -/
theorem decodeWindow_handle (h : b.msgRegs 0 ≠ UInt64.ofNat (2 ^ 64 - 1)) :
    decodeWindow info slot b = .ok (.handle (b.msgRegs 0), 0) b := by
  show (if b.msgRegs 0 = _ then _ else _ : Decoder _) b = _
  rw [if_neg h]
  rfl

/-- With the register all ones, the first capability is the window's. One of the receiver's own is
unwrapped to its badge. -/
theorem decodeWindow_unwrapped (h : b.msgRegs 0 = UInt64.ofNat (2 ^ 64 - 1))
    (hx : decide (info.extraCaps.val < 1) = false) (hu : info.isUnwrapped 0 = true) :
    decodeWindow info slot b = .ok (.unwrappedHandleCap (b.capsOrBadges 0), 1) b := by
  show (if b.msgRegs 0 = _ then _ else _ : Decoder _) b = _
  rw [if_pos h, if_neg (of_decide_eq_false hx), if_pos hu]
  rfl

/-- A capability of another server is left in the receive slot, and has been taken all the same.
-/
theorem decodeWindow_wrapped (h : b.msgRegs 0 = UInt64.ofNat (2 ^ 64 - 1))
    (hx : decide (info.extraCaps.val < 1) = false) (hu : info.isUnwrapped 0 = false) :
    decodeWindow info slot b = .ok (.wrappedHandleCap slot, 1) b := by
  show (if b.msgRegs 0 = _ then _ else _ : Decoder _) b = _
  rw [if_pos h, if_neg (of_decide_eq_false hx), if_neg (Bool.eq_false_iff.mp hu)]
  rfl

/-- A second register that is not all ones is a handle. -/
theorem decodeObject_handle (h : b.msgRegs 1 ≠ UInt64.ofNat (2 ^ 64 - 1)) :
    decodeObject info caps b = .ok (.handle (b.msgRegs 1)) b := by
  show (if b.msgRegs 1 = _ then _ else _ : Decoder _) b = _
  rw [if_neg h]
  rfl

/-- The object's capability is the one after those the window took. -/
theorem decodeObject_unwrapped (h : b.msgRegs 1 = UInt64.ofNat (2 ^ 64 - 1))
    (hx : decide (info.extraCaps.val < caps.val + 1) = false) (hu : info.isUnwrapped caps.val = true) :
    decodeObject info caps b = .ok (.unwrappedHandleCap (b.capsOrBadges caps)) b := by
  show (if b.msgRegs 1 = _ then _ else _ : Decoder _) b = _
  rw [if_pos h, if_neg (of_decide_eq_false hx), if_pos hu]
  rfl

/-- The object may not be another server's. A missing capability counts as one, so the check for
it adds nothing. -/
theorem decodeObject_refused (h : b.msgRegs 1 = UInt64.ofNat (2 ^ 64 - 1))
    (hu : info.isUnwrapped caps.val = false) :
    decodeObject info caps b = .err .invalidArguments b := by
  show (if b.msgRegs 1 = _ then (if _ then invalidArguments else _) else _ : Decoder _) b = _
  rw [if_pos h, if_neg (Bool.eq_false_iff.mp hu), ite_self]
  rfl

/-- Where both names decode, the four numbers after them are read as they are. -/
theorem viewArm_ok (hwin : decodeWindow info slot b = .ok (w, caps) b)
    (hobj : decodeObject info caps b = .ok o b) :
    decodeArm info db slot .view b =
      .ok (.view w o (b.msgRegs 2) (b.msgRegs 3) (b.msgRegs 4) (b.msgRegs 5)) b := by
  show Prog.bind (decodeWindow info slot) _ b = _
  simp only [Prog.bind, hwin]
  show Prog.bind (decodeObject info caps) _ b = _
  simp only [Prog.bind, hobj]
  rfl

/-- A refused object refuses the invocation, whatever the window is. -/
theorem viewArm_refused (hwin : decodeWindow info slot b = .ok (w, caps) b)
    (hobj : decodeObject info caps b = .err .invalidArguments b) :
    decodeArm info db slot .view b = .err .invalidArguments b := by
  show Prog.bind (decodeWindow info slot) _ b = _
  simp only [Prog.bind, hwin]
  show Prog.bind (decodeObject info caps) _ b = _
  simp only [Prog.bind, hobj]

/-! ## Names -/

section Names

variable {buffer : List UInt8} {name : String} {rest : List UInt8}

/-- Reading a name changes no register. -/
theorem readStr_of_ok {x : String × List UInt8} (h : rustStrFromBuffer buffer = .ok x) :
    readStr buffer b = .ok x b := by
  rw [readStr, h]
  rfl

/-- A name that is no string is the error of the arm. -/
theorem readStr_of_error {e : InvocationError} (h : rustStrFromBuffer buffer = .error e) :
    readStr buffer b = .err e b := by
  rw [readStr, h]
  rfl

/-- Behind the name nothing is read. -/
theorem connCreateArm_ok (h : rustStrFromBuffer buffer = .ok (name, rest)) :
    decodeArm info (some buffer) slot .connCreate b = .ok (.connCreate name) b := by
  rw [decodeArm]
  refine (Prog.bind_of_ok rfl).trans ?_
  exact Prog.bind_of_ok (readStr_of_ok h)

/-- The address of the ring buffer comes with the name. -/
theorem connPublishArm_ok (h : rustStrFromBuffer buffer = .ok (name, rest)) :
    decodeArm info (some buffer) slot .connPublish b =
      .ok (.connPublish (b.msgRegs 0) name) b := by
  rw [decodeArm]
  refine (Prog.bind_of_ok rfl).trans ?_
  refine (Prog.bind_of_ok rfl).trans ?_
  exact Prog.bind_of_ok (readStr_of_ok h)

/-- The last register says whether a handle capability is wanted, and any value but 0 does. -/
theorem objOpenArm_ok (h : rustStrFromBuffer buffer = .ok (name, rest)) :
    decodeArm info (some buffer) slot .objOpen b =
      .ok (.objOpen name (b.msgRegs 0) (b.msgRegs 1 != 0)) b := by
  rw [decodeArm]
  refine (Prog.bind_of_ok rfl).trans ?_
  exact Prog.bind_of_ok (readStr_of_ok h)

/-- A first register that is not 0 says that there is a name in the buffer. -/
theorem objCreateArm_named (h : rustStrFromBuffer buffer = .ok (name, rest))
    (hn : b.msgRegs 0 ≠ 0) :
    decodeArm info (some buffer) slot .objCreate b =
      .ok (.objCreate (some name) (b.msgRegs 1) (b.msgRegs 2) (b.msgRegs 3)
        (b.msgRegs 4 != 0)) b := by
  rw [decodeArm]
  refine (Prog.bind_of_ok rfl).trans ?_
  rw [if_pos hn]
  refine (Prog.bind_of_ok rfl).trans ?_
  refine (Prog.bind_of_ok (readStr_of_ok h)).trans ?_
  rfl

/-- Without a name the buffer is not looked at, so there need be none. -/
theorem objCreateArm_unnamed (hn : b.msgRegs 0 = 0) :
    decodeArm info db slot .objCreate b =
      .ok (.objCreate none (b.msgRegs 1) (b.msgRegs 2) (b.msgRegs 3) (b.msgRegs 4 != 0)) b := by
  rw [decodeArm]
  refine (Prog.bind_of_ok rfl).trans ?_
  rw [if_neg (not_not_intro hn)]
  rfl

end Names

end Arms

end Smos.Ipc
