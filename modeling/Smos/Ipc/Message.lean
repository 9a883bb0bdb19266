/-
Smos.Ipc.Message — messages, IPC buffers, and what the kernel does with them.

A message is a message info word, its first `length` registers and up to
three capabilities. The kernel copies the registers and leaves the later
ones of the receiver as they were. A capability to the endpoint that the
message is sent to is unwrapped: only its badge is delivered. The first
capability that is not goes to the receive slot, if that is empty; a second
one ends the transfer. A reply is sent to no endpoint, so nothing in it is
unwrapped.
-/
import Mathlib.Data.BitVec
import Mathlib.Logic.Function.Basic
import Mathlib.Tactic.Common

namespace Smos.Ipc

/-- A machine word; also what a capability pointer is. -/
abbrev Word := UInt64

/-! Numerals stand for the counts of a message info word and for register numbers. -/

instance neZero_capsUnwrapped : NeZero 8 := ⟨by decide⟩
instance neZero_extraCaps : NeZero 4 := ⟨by decide⟩
instance neZero_length : NeZero 128 := ⟨by decide⟩
instance neZero_msgRegs : NeZero 120 := ⟨by decide⟩
instance neZero_capsOrBadges : NeZero 3 := ⟨by decide⟩

/-- `seL4_MessageInfo`. -/
structure MessageInfo where
  label : Word
  capsUnwrapped : Fin 8 := 0
  extraCaps : Fin 4 := 0
  length : Fin 128 := 0
  deriving DecidableEq, Repr

/-- The `seL4_MsgMaxLength` message registers and the capability registers of an IPC buffer,
and its receive slot. -/
structure IpcBuffer where
  msgRegs : Fin 120 → Word
  capsOrBadges : Fin 3 → Word
  recvSlot : Word

namespace IpcBuffer

/-- A buffer that nothing was written to. -/
def blank : IpcBuffer := ⟨fun _ => 0, fun _ => 0, 0⟩

def setReg (b : IpcBuffer) (i : Fin 120) (x : Word) : IpcBuffer :=
  { b with msgRegs := Function.update b.msgRegs i x }

def setCap (b : IpcBuffer) (i : Fin 3) (x : Word) : IpcBuffer :=
  { b with capsOrBadges := Function.update b.capsOrBadges i x }

def setRecvSlot (b : IpcBuffer) (slot : Word) : IpcBuffer := { b with recvSlot := slot }

@[simp] theorem setReg_msgRegs (b : IpcBuffer) (i j : Fin 120) (x : Word) :
    (b.setReg i x).msgRegs j = if j = i then x else b.msgRegs j := by
  simp [setReg, Function.update_apply]

@[simp] theorem setReg_capsOrBadges (b : IpcBuffer) (i : Fin 120) (x : Word) :
    (b.setReg i x).capsOrBadges = b.capsOrBadges := rfl

@[simp] theorem setCap_capsOrBadges (b : IpcBuffer) (i j : Fin 3) (x : Word) :
    (b.setCap i x).capsOrBadges j = if j = i then x else b.capsOrBadges j := by
  simp [setCap, Function.update_apply]

@[simp] theorem setCap_msgRegs (b : IpcBuffer) (i : Fin 3) (x : Word) :
    (b.setCap i x).msgRegs = b.msgRegs := rfl

@[simp] theorem setRecvSlot_msgRegs (b : IpcBuffer) (x : Word) :
    (b.setRecvSlot x).msgRegs = b.msgRegs := rfl

@[simp] theorem setRecvSlot_capsOrBadges (b : IpcBuffer) (x : Word) :
    (b.setRecvSlot x).capsOrBadges = b.capsOrBadges := rfl

end IpcBuffer

/-! ## Capability transfer -/

/-- What the kernel sees of a capability that is sent. -/
inductive Cap where
  | endpoint (ep : Nat) (badge : Word)
  | other (obj : Nat)
  deriving DecidableEq, Repr

/-- The badge of a capability to the endpoint `ep`. -/
def Cap.badgeAt (ep : Option Nat) : Cap → Option Word
  | .endpoint e badge => if ep = some e then some badge else none
  | .other _ => none

/-- What has been transferred of the capabilities of a message. -/
structure Transfer where
  count : Nat
  unwrapped : Nat
  badges : Fin 3 → Word
  /-- The capability in the receive slot, when one was put there. -/
  received : Option Cap
  slotFree : Bool

/-- `transferCaps`, from the `i`th capability on. -/
def transferFrom (ep : Option Nat) : List Cap → Nat → Transfer → Transfer
  | [], _, t => t
  | cap :: caps, i, t =>
    match cap.badgeAt ep with
    | some badge => transferFrom ep caps (i + 1) { t with
        count := i + 1
        unwrapped := t.unwrapped + 2 ^ i
        badges := fun j => if j.val = i then badge else t.badges j }
    | none =>
      if t.slotFree then
        transferFrom ep caps (i + 1)
          { t with count := i + 1, received := some cap, slotFree := false }
      else t

/-- `transferCaps` for a message sent to `ep`, or for a reply. -/
def transferCaps (ep : Option Nat) (caps : List Cap) (stale : IpcBuffer) (slotFree : Bool) :
    Transfer :=
  transferFrom ep (caps.take 3) 0 ⟨0, 0, stale.capsOrBadges, none, slotFree⟩

/-! ## Delivery -/

/-- The message info that the receiver of `info` sees after the transfer. -/
def Transfer.info (t : Transfer) (info : MessageInfo) : MessageInfo :=
  { info with capsUnwrapped := Fin.ofNat 8 t.unwrapped, extraCaps := Fin.ofNat 4 t.count }

/-- The receiver's buffer: the registers of the message, and stale ones after them. -/
def Transfer.buffer (t : Transfer) (info : MessageInfo) (sent stale : IpcBuffer) : IpcBuffer where
  msgRegs i := if i.val < info.length.val then sent.msgRegs i else stale.msgRegs i
  capsOrBadges := t.badges
  recvSlot := stale.recvSlot

/-- The capabilities that the sender's capability registers name. -/
def sentCaps (cspace : Word → Cap) (info : MessageInfo) (sent : IpcBuffer) : List Cap :=
  (List.finRange 3).filterMap fun i =>
    if i.val < info.extraCaps.val then some (cspace (sent.capsOrBadges i)) else none

/-- The kernel delivers a message: what was transferred of its capabilities, and the
info and buffer that the receiver sees. -/
def deliver (ep : Option Nat) (cspace : Word → Cap) (info : MessageInfo) (sent stale : IpcBuffer)
    (slotFree : Bool) : Transfer × MessageInfo × IpcBuffer :=
  let t := transferCaps ep (sentCaps cspace info sent) stale slotFree
  (t, t.info info, t.buffer info sent stale)

section Delivery

variable {ep : Option Nat} {cspace : Word → Cap} {info : MessageInfo} {sent stale : IpcBuffer}

/-! ## Delivery by the number of capabilities -/

/-- A received buffer with these capability registers. -/
def receivedBuffer (info : MessageInfo) (sent stale : IpcBuffer) (caps : Fin 3 → Word) :
    IpcBuffer where
  msgRegs i := if i.val < info.length.val then sent.msgRegs i else stale.msgRegs i
  capsOrBadges := caps
  recvSlot := stale.recvSlot

theorem sentCaps_zero (h : info.extraCaps = 0) : sentCaps cspace info sent = [] := by
  simp [sentCaps, h]

theorem sentCaps_one (h : info.extraCaps = 1) :
    sentCaps cspace info sent = [cspace (sent.capsOrBadges 0)] := by
  simp [sentCaps, h, List.finRange]

theorem sentCaps_two (h : info.extraCaps = 2) :
    sentCaps cspace info sent = [cspace (sent.capsOrBadges 0), cspace (sent.capsOrBadges 1)] := by
  simp [sentCaps, h, List.finRange]

theorem deliver_plain (h : info.extraCaps = 0) {free : Bool} :
    (deliver ep cspace info sent stale free).2 =
      ({ info with capsUnwrapped := 0, extraCaps := 0 },
        receivedBuffer info sent stale stale.capsOrBadges) := by
  simp only [deliver, sentCaps_zero h]
  rfl

theorem deliver_own (h : info.extraCaps = 1) {badge : Word} {free : Bool}
    (hb : (cspace (sent.capsOrBadges 0)).badgeAt ep = some badge) :
    (deliver ep cspace info sent stale free).2 =
      ({ info with capsUnwrapped := 1, extraCaps := 1 },
        receivedBuffer info sent stale
          fun j => if j.val = 0 then badge else stale.capsOrBadges j) := by
  simp only [deliver, sentCaps_one h, transferCaps, List.take, transferFrom, hb]
  rfl

theorem deliver_foreign (h : info.extraCaps = 1)
    (hb : (cspace (sent.capsOrBadges 0)).badgeAt ep = none) :
    (deliver ep cspace info sent stale true).2 =
      ({ info with capsUnwrapped := 0, extraCaps := 1 },
        receivedBuffer info sent stale stale.capsOrBadges) := by
  simp only [deliver, sentCaps_one h, transferCaps, List.take, transferFrom, hb]
  rfl

/-- A reply is sent to no endpoint, so its capability goes to the receive slot. -/
theorem deliver_reply (h : info.extraCaps = 1) :
    deliver none cspace info sent stale true =
      (⟨1, 0, stale.capsOrBadges, some (cspace (sent.capsOrBadges 0)), false⟩,
        { info with capsUnwrapped := 0, extraCaps := 1 },
        receivedBuffer info sent stale stale.capsOrBadges) := by
  have hb : (cspace (sent.capsOrBadges 0)).badgeAt none = none := by
    cases cspace (sent.capsOrBadges 0) <;> rfl
  simp only [deliver, sentCaps_one h, transferCaps, List.take, transferFrom, hb]
  rfl

end Delivery

end Smos.Ipc
