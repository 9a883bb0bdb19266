/-
Smos.Ipc.DecoderStale — which messages are decoded from what was sent.

The receiver's buffer holds the registers of the message and, after them,
whatever earlier messages left there. Most arms test the length before
they read. Seven do not, or not well enough: on a message that is too
short for them the result depends on stale registers, unless the arm fails
before it gets to one.

Which bit patterns `caps_unwrapped` can have is the kernel's doing: it
marks transferred capabilities only. Without that, `ChannelOpen` could be
made to read a stale badge.
-/
import Smos.Ipc.DecodeArms

namespace Smos.Ipc

open Smos.Base

/-! ## Equal in what was sent -/

/-- The kernel marks only capabilities that it transferred. -/
def MessageInfo.Delivered (info : MessageInfo) : Prop :=
  info.capsUnwrapped.val < 2 ^ info.extraCaps.val

instance (info : MessageInfo) : Decidable info.Delivered := inferInstanceAs (Decidable (_ < _))

/-- The buffers agree on the registers of the message and on the badges of the capabilities
that were unwrapped. -/
structure Agrees (info : MessageInfo) (b b' : IpcBuffer) : Prop where
  regs : ∀ i : Fin 120, i.val < info.length.val → b.msgRegs i = b'.msgRegs i
  badges : ∀ i : Fin 3, i.val < info.extraCaps.val → info.isUnwrapped i.val = true →
    b.capsOrBadges i = b'.capsOrBadges i

/-- No name is read: there is no buffer, or it holds no string. -/
def NameFails (dataBuffer : Option (List UInt8)) : Prop :=
  ∀ buffer, dataBuffer = some buffer → ∀ x, rustStrFromBuffer buffer ≠ .ok x

/-- The window of `View` is marked as a capability, and none came. -/
def WindowFails (info : MessageInfo) (b : IpcBuffer) : Prop :=
  b.msgRegs 0 = UInt64.ofNat (2 ^ 64 - 1) ∧ info.extraCaps.val < 1

/-- How many capabilities the window of `View` takes. -/
def windowCaps (b : IpcBuffer) : Fin 3 :=
  if b.msgRegs 0 = UInt64.ofNat (2 ^ 64 - 1) then 1 else 0

/-- The object of `View` is marked as a capability, and none of this server came. -/
def ObjectFails (info : MessageInfo) (b : IpcBuffer) : Prop :=
  b.msgRegs 1 = UInt64.ofNat (2 ^ 64 - 1) ∧
    (info.extraCaps.val < (windowCaps b).val + 1 ∨ info.isUnwrapped (windowCaps b).val = false)

/-- The message is long enough for its arm, or too bad for the arm to get to a stale register. -/
def ArmReadsSent (info : MessageInfo) (dataBuffer : Option (List UInt8)) (b : IpcBuffer) :
    SMOSInvocation → Prop
  | .windowCreate => info.length.val ≥ 3
  | .sDDFProvideDataRegion => ¬ info.oneWrapped ∨ info.length.val ≥ 1
  | .connPublish => NameFails dataBuffer ∨ info.length.val ≥ 1
  | .objCreate =>
    info.length.val ≥ 1 ∧ (b.msgRegs 0 ≠ 0 ∧ NameFails dataBuffer ∨ info.length.val ≥ 5)
  | .objOpen => NameFails dataBuffer ∨ info.length.val ≥ 2
  | .view =>
    info.length.val ≥ 1 ∧ (WindowFails info b ∨
      info.length.val ≥ 2 ∧ (ObjectFails info b ∨ info.length.val ≥ 6))
  | .connOpen => info.length.val ≠ 1
  | _ => True

/-! ## What the kernel delivers -/

/-- A transfer marks only what it counted, and counts no more than there is. -/
theorem transferFrom_unwrapped (ep : Option Nat) (caps : List Cap) (i : Nat) (t : Transfer)
    (hcount : t.count = i) (hu : t.unwrapped < 2 ^ t.count) :
    (transferFrom ep caps i t).unwrapped < 2 ^ (transferFrom ep caps i t).count ∧
      (transferFrom ep caps i t).count ≤ i + caps.length := by
  induction caps generalizing i t with
  | nil => exact ⟨hu, Nat.le_of_eq hcount⟩
  | cons cap caps ih =>
    have hlow : t.unwrapped < 2 ^ i := hcount ▸ hu
    have hpow : 2 ^ (i + 1) = 2 ^ i * 2 := Nat.pow_succ ..
    rw [List.length_cons]
    cases hb : cap.badgeAt ep with
    | some badge =>
      simp only [transferFrom, hb]
      have hnext : t.unwrapped + 2 ^ i < 2 ^ (i + 1) := by omega
      obtain ⟨h, hle⟩ := ih (i + 1) { t with
        count := i + 1
        unwrapped := t.unwrapped + 2 ^ i
        badges := fun j => if j.val = i then badge else t.badges j } rfl hnext
      exact ⟨h, Nat.le_trans hle (by omega)⟩
    | none =>
      simp only [transferFrom, hb]
      split
      · have hnext : t.unwrapped < 2 ^ (i + 1) := by omega
        obtain ⟨h, hle⟩ := ih (i + 1)
          { t with count := i + 1, received := some cap, slotFree := false } rfl hnext
        exact ⟨h, Nat.le_trans hle (by omega)⟩
      · exact ⟨hu, by omega⟩

theorem deliver_delivered (ep : Option Nat) (cspace : Word → Cap) (info : MessageInfo)
    (sent stale : IpcBuffer) (free : Bool) :
    (deliver ep cspace info sent stale free).2.1.Delivered := by
  show (Fin.ofNat 8 _).val < 2 ^ (Fin.ofNat 4 _).val
  rw [Fin.val_ofNat, Fin.val_ofNat]
  unfold transferCaps
  obtain ⟨hu, hcount⟩ := transferFrom_unwrapped ep ((sentCaps cspace info sent).take 3) 0
    ⟨0, 0, stale.capsOrBadges, none, free⟩ rfl Nat.one_pos
  have hlen := List.length_take_le 3 (sentCaps cspace info sent)
  generalize transferFrom ep _ 0 _ = t at hu hcount ⊢
  have hthree : t.count ≤ 3 := by omega
  have hpow : 2 ^ t.count ≤ 2 ^ 3 := Nat.pow_le_pow_right (by decide) hthree
  rw [Nat.mod_eq_of_lt (by omega), Nat.mod_eq_of_lt (by omega)]
  exact hu

section Arms

variable {info : MessageInfo} {db : Option (List UInt8)} {slot : Word} {label : SMOSInvocation}
  {b b' b₀ : IpcBuffer} {w : ServerReceivedHandleOrHandleCap} {caps : Fin 3}

/-! ## Arms that read what was sent -/

theorem same_fMsg (h : Agrees info b b') {i : Fin 120} (hi : i.val < info.length.val) :
    Prog.Same (fMsg i) b b' :=
  Prog.same_gets (h.regs i hi)

theorem same_fCap (h : Agrees info b b') {i : Fin 3} (hi : i.val < info.extraCaps.val)
    (hu : info.isUnwrapped i.val = true) : Prog.Same (fCap i) b b' :=
  Prog.same_gets (h.badges i hi hu)

theorem same_readStr {buffer : List UInt8} : Prog.Same (readStr buffer) b b' := by
  unfold readStr
  cases rustStrFromBuffer buffer <;> simp

theorem same_readArgs (n : Nat) (buffer : List UInt8) : Prog.Same (readArgs n buffer) b b' := by
  induction n generalizing buffer with
  | zero => exact Prog.same_pure
  | succ n ih =>
    rw [readArgs]
    refine Prog.same_bind same_readStr ?_
    intro (s, rest) _
    refine Prog.same_bind (ih rest) ?_
    intro args _
    exact Prog.same_pure

theorem same_needBuffer : Prog.Same (needBuffer db) b b' := Prog.same_okOr

/-- An arm that tests for its exact length first. -/
theorem same_length {α : Type} {n : Fin 128} {m : Decoder α}
    (h : info.length.val = n.val → Prog.Same m b b') :
    Prog.Same (if info.length ≠ n then invalidArguments else m) b b' := by
  refine Prog.same_ite (fun _ => Prog.same_fail) ?_
  intro hl
  exact h (congrArg Fin.val (not_not.mp hl))

theorem same_decodeHandle (h : Agrees info b b') : Prog.Same (decodeHandle info) b b' := by
  unfold decodeHandle
  refine Prog.same_ite ?_ fun _ => Prog.same_ite ?_ fun _ => Prog.same_fail
  · intro hall
    rcases hall with ⟨hx, hu⟩
    refine Prog.same_bind (same_fCap h ?_ ?_) fun _ _ => Prog.same_pure
    · rw [hx]; decide
    · rw [MessageInfo.isUnwrapped, hu]; decide
  · intro hl
    refine Prog.same_bind (same_fMsg h ?_) fun _ _ => Prog.same_pure
    rw [hl]; decide

theorem same_decodeStatHandle (h : Agrees info b b') :
    Prog.Same (decodeStatHandle info) b b' := by
  unfold decodeStatHandle
  refine Prog.same_ite ?_ fun _ => Prog.same_ite ?_ fun _ => Prog.same_fail
  · intro hx
    refine Prog.same_ite (fun _ => Prog.same_fail) ?_
    intro hu
    refine Prog.same_bind (same_fCap h ?_ ?_) fun _ _ => Prog.same_pure
    · rw [hx]; decide
    · rw [MessageInfo.isUnwrapped, not_not.mp hu]; decide
  · intro hl
    refine Prog.same_bind (same_fMsg h ?_) fun _ _ => Prog.same_pure
    rw [hl]; decide

theorem same_decodeWindow (h : Agrees info b b') (hlen : info.length.val ≥ 1) :
    Prog.Same (decodeWindow info slot) b b' := by
  unfold decodeWindow
  refine Prog.same_bind (same_fMsg h hlen) fun window _ => ?_
  refine Prog.same_ite (fun _ => ?_) fun _ => Prog.same_pure
  refine Prog.same_ite (fun _ => Prog.same_fail) fun hx => ?_
  refine Prog.same_ite (fun hu => ?_) fun _ => Prog.same_pure
  exact Prog.same_bind (same_fCap h (Nat.not_lt.mp hx) hu) fun _ _ => Prog.same_pure

theorem same_decodeObject (h : Agrees info b b') (hlen : info.length.val ≥ 2) {caps : Fin 3} :
    Prog.Same (decodeObject info caps) b b' := by
  unfold decodeObject
  refine Prog.same_bind (same_fMsg h hlen) fun object _ => ?_
  refine Prog.same_ite (fun _ => ?_) fun _ => Prog.same_pure
  refine Prog.same_ite (fun _ => Prog.same_fail) fun hx => ?_
  refine Prog.same_ite (fun hu => ?_) fun _ => Prog.same_fail
  exact Prog.same_bind (same_fCap h (Nat.not_lt.mp hx) hu) fun _ _ => Prog.same_pure

theorem same_decodeSharedBuf (h : Agrees info b b') (hlen : info.length.val ≠ 1) :
    Prog.Same (decodeSharedBuf info slot) b b' := by
  unfold decodeSharedBuf
  refine Prog.same_ite (fun _ => Prog.same_pure) fun hzero => ?_
  have hpos : info.length.val ≠ 0 := fun hl => hzero (Fin.ext hl)
  have hsize : Prog.Same (fMsg 1) b b' := same_fMsg h (by show 1 < _; omega)
  refine Prog.same_ite (fun hx => ?_) fun _ => ?_
  · have hcap : (0 : Fin 3).val < info.extraCaps.val := by rw [hx]; decide
    refine Prog.same_ite (fun hu => ?_) fun _ => ?_
    · refine Prog.same_bind (same_fCap h hcap hu) fun _ _ => ?_
      exact Prog.same_bind hsize fun _ _ => Prog.same_pure
    · exact Prog.same_bind hsize fun _ _ => Prog.same_pure
  · refine Prog.same_bind (same_fMsg h (by show 0 < _; omega)) fun _ _ => ?_
    exact Prog.same_bind hsize fun _ _ => Prog.same_pure

/-- Where no name can be read, the rest of the arm does not matter. -/
theorem same_of_nameFails {α : Type} {f : List UInt8 → Decoder α} (h : NameFails db)
    (hf : ∀ buffer e, rustStrFromBuffer buffer = .error e → Prog.Same (f buffer) b b') :
    Prog.Same (needBuffer db >>= f) b b' := by
  cases db with
  | none => exact ⟨rfl, rfl, rfl⟩
  | some buffer =>
    cases hread : rustStrFromBuffer buffer with
    | ok x => exact absurd hread (h buffer rfl x)
    | error e => exact hf buffer e hread

theorem same_readStr_error {α : Type} {buffer : List UInt8} {e : InvocationError}
    {f : String × List UInt8 → Decoder α} (h : rustStrFromBuffer buffer = .error e) :
    Prog.Same (readStr buffer >>= f) b b' := by
  refine Prog.same_bind same_readStr fun x hx => ?_
  rw [readStr_of_error h] at hx
  cases hx

/-- The end of the `ProcSpawn` arm. -/
theorem same_prio (h : Agrees info b b') (hlen : info.length.val = 2)
    (mk : UInt8 → SMOS_Invocation) :
    Prog.Same (do
      let prio ← fMsg 1
      if prio.toNat < 256 then pure (mk prio.toUInt8) else Prog.panic .expect : Decoder _)
      b b' := by
  refine Prog.same_bind (same_fMsg h (by show 1 < _; omega)) fun _ _ => ?_
  exact Prog.same_ite (fun _ => Prog.same_pure) fun _ => Prog.same_panic

theorem decodeWindow_fails (h : WindowFails info b) :
    decodeWindow info slot b = .err .invalidArguments b := by
  show (if b.msgRegs 0 = _ then _ else _ : Decoder _) b = _
  rw [if_pos h.1, if_pos h.2]
  rfl

theorem decodeWindow_caps (h : decodeWindow info slot b = .ok (w, caps) b') :
    caps = windowCaps b := by
  change (if b.msgRegs 0 = _ then _ else _ : Decoder _) b = _ at h
  unfold windowCaps
  split at h
  · next hmark =>
      rw [if_pos hmark]
      split at h
      · cases h
      · split at h <;> cases h <;> rfl
  · next hmark =>
      rw [if_neg hmark]
      cases h
      rfl

theorem decodeObject_fails (h : ObjectFails info b) :
    decodeObject info (windowCaps b) b = .err .invalidArguments b := by
  obtain ⟨hmark, hx | hu⟩ := h
  · show (if b.msgRegs 1 = _ then _ else _ : Decoder _) b = _
    rw [if_pos hmark, if_pos hx]
    rfl
  · exact decodeObject_refused hmark hu

/-- What the kernel delivers without a wrapped capability and passes the test of `ChannelOpen`. -/
theorem one_unwrapped (hd : info.Delivered) (hc : info.consumedRecvSlot = false)
    (hnot : ¬ (info.extraCaps ≠ 1 ∧ info.capsUnwrapped ≠ 1)) :
    info.extraCaps = 1 ∧ info.capsUnwrapped = 1 := by
  unfold MessageInfo.Delivered at hd
  unfold MessageInfo.consumedRecvSlot at hc
  revert hd hc hnot
  generalize info.extraCaps = x
  generalize info.capsUnwrapped = u
  revert x u
  decide

theorem same_decodeArm (hd : info.Delivered) (hr : label.canContainWrappedCap = true ∨
      info.consumedRecvSlot = false) (hs : ArmReadsSent info db b label) (h : Agrees info b b') :
    Prog.Same (decodeArm info db slot label) b b' := by
  cases label
  all_goals try exact Prog.same_panic
  all_goals try exact Prog.same_pure
  case windowCreate =>
    have hlen : info.length.val ≥ 3 := hs
    refine Prog.same_bind (same_fMsg h (by show 0 < _; omega)) fun _ _ => ?_
    refine Prog.same_bind (same_fMsg h (by show 1 < _; omega)) fun _ _ => ?_
    refine Prog.same_bind (same_fMsg h (by show 2 < _; omega)) fun _ _ => ?_
    exact Prog.same_pure
  case windowDestroy | objClose | objDestroy =>
    exact Prog.same_bind (same_decodeHandle h) fun _ _ => Prog.same_pure
  case objStat =>
    exact Prog.same_bind (same_decodeStatHandle h) fun _ _ => Prog.same_pure
  case serverCreateChannel | windowDeregister | unview | connDestroy | connDeregister | procWait =>
    refine same_length fun hlen => ?_
    exact Prog.same_bind (same_fMsg h (by show 0 < _; omega)) fun _ _ => Prog.same_pure
  case loadComplete | serverHandleCapCreate =>
    refine same_length fun hlen => ?_
    refine Prog.same_bind (same_fMsg h (by show 0 < _; omega)) fun _ _ => ?_
    exact Prog.same_bind (same_fMsg h (by show 1 < _; omega)) fun _ _ => Prog.same_pure
  case pageMap | irqRegister =>
    refine same_length fun hlen => ?_
    refine Prog.same_bind (same_fMsg h (by show 0 < _; omega)) fun _ _ => ?_
    refine Prog.same_bind (same_fMsg h (by show 1 < _; omega)) fun _ _ => ?_
    exact Prog.same_bind (same_fMsg h (by show 2 < _; omega)) fun _ _ => Prog.same_pure
  case connRegister =>
    refine Prog.same_ite (fun _ => Prog.same_panic) fun hl => ?_
    have hlen : info.length.val = 2 := congrArg Fin.val (not_not.mp hl)
    refine Prog.same_bind (same_fMsg h (by show 0 < _; omega)) fun _ _ => ?_
    exact Prog.same_bind (same_fMsg h (by show 1 < _; omega)) fun _ _ => Prog.same_pure
  case windowRegister =>
    refine Prog.same_ite (fun _ => Prog.same_fail) fun hnot => ?_
    obtain ⟨hx, hu, hl⟩ : info.extraCaps = 1 ∧ info.capsUnwrapped = 1 ∧ info.length = 3 := by
      simpa only [not_or, not_not] using hnot
    have hlen : info.length.val = 3 := congrArg Fin.val hl
    refine Prog.same_bind (same_fMsg h (by show 0 < _; omega)) fun _ _ => ?_
    refine Prog.same_bind (same_fCap h ?_ ?_) fun _ _ => ?_
    · rw [hx]; decide
    · rw [MessageInfo.isUnwrapped, hu]; decide
    refine Prog.same_bind (same_fMsg h (by show 1 < _; omega)) fun _ _ => ?_
    exact Prog.same_bind (same_fMsg h (by show 2 < _; omega)) fun _ _ => Prog.same_pure
  case channelOpen =>
    refine Prog.same_ite (fun _ => Prog.same_fail) fun hnot => ?_
    obtain ⟨hx, hu⟩ := one_unwrapped hd (hr.resolve_left (by decide)) hnot
    refine Prog.same_bind (same_fCap h ?_ ?_) fun _ _ => Prog.same_pure
    · rw [hx]; decide
    · rw [MessageInfo.isUnwrapped, hu]; decide
  case connOpen =>
    exact Prog.same_bind (same_decodeSharedBuf h hs) fun _ _ => Prog.same_pure
  case view =>
    obtain ⟨hlen, hrest⟩ := hs
    refine Prog.same_bind (same_decodeWindow h hlen) ?_
    intro (window, caps) hwindow
    rcases hrest with hfails | ⟨hlen2, hrest⟩
    · rw [decodeWindow_fails hfails] at hwindow
      cases hwindow
    refine Prog.same_bind (same_decodeObject h hlen2) ?_
    intro object hobject
    rcases hrest with hfails | hlen6
    · rw [show caps = windowCaps b from decodeWindow_caps hwindow, decodeObject_fails hfails]
        at hobject
      cases hobject
    refine Prog.same_bind (same_fMsg h (by show 2 < _; omega)) fun _ _ => ?_
    refine Prog.same_bind (same_fMsg h (by show 3 < _; omega)) fun _ _ => ?_
    refine Prog.same_bind (same_fMsg h (by show 4 < _; omega)) fun _ _ => ?_
    exact Prog.same_bind (same_fMsg h (by show 5 < _; omega)) fun _ _ => Prog.same_pure
  case connCreate =>
    refine Prog.same_bind same_needBuffer fun buffer _ => ?_
    exact Prog.same_bind same_readStr fun _ _ => Prog.same_pure
  case connPublish =>
    rcases hs with hname | hlen
    · refine same_of_nameFails hname fun buffer e he => ?_
      refine Prog.same_of_err e ?_ ?_ <;>
        exact (Prog.bind_of_ok rfl).trans (Prog.bind_of_err (readStr_of_error he))
    · refine Prog.same_bind same_needBuffer fun buffer _ => ?_
      refine Prog.same_bind (same_fMsg h hlen) fun _ _ => ?_
      exact Prog.same_bind same_readStr fun _ _ => Prog.same_pure
  case objCreate =>
    obtain ⟨hlen, hrest⟩ := hs
    refine Prog.same_bind (same_fMsg h hlen) fun hasName hread => ?_
    cases hread
    have htail : ∀ name : Option String, info.length.val ≥ 5 → Prog.Same (do
        let size ← fMsg 1
        let rights ← fMsg 2
        let attributes ← fMsg 3
        let returnCap ← fMsg 4
        pure (.objCreate name size rights attributes (returnCap != 0))
          : Decoder SMOS_Invocation) b b' := by
      intro name hlong
      refine Prog.same_bind (same_fMsg h (by show 1 < _; omega)) fun _ _ => ?_
      refine Prog.same_bind (same_fMsg h (by show 2 < _; omega)) fun _ _ => ?_
      refine Prog.same_bind (same_fMsg h (by show 3 < _; omega)) fun _ _ => ?_
      exact Prog.same_bind (same_fMsg h (by show 4 < _; omega)) fun _ _ => Prog.same_pure
    rcases hrest with ⟨hne, hname⟩ | hlong
    · refine Prog.same_ite (fun _ => ?_) fun hzero => absurd hne hzero
      exact same_of_nameFails hname fun buffer e he => same_readStr_error he
    · refine Prog.same_ite (fun _ => ?_) fun _ => ?_
      · refine Prog.same_bind same_needBuffer fun buffer _ => ?_
        refine Prog.same_bind same_readStr fun _ _ => ?_
        exact Prog.same_bind Prog.same_pure fun name _ => htail name hlong
      · exact Prog.same_bind Prog.same_pure fun name _ => htail name hlong
  case objOpen =>
    rcases hs with hname | hlen
    · exact same_of_nameFails hname fun buffer e he => same_readStr_error he
    · refine Prog.same_bind same_needBuffer fun buffer _ => ?_
      refine Prog.same_bind same_readStr fun _ _ => ?_
      refine Prog.same_bind (same_fMsg h (by show 0 < _; omega)) fun _ _ => ?_
      exact Prog.same_bind (same_fMsg h (by show 1 < _; omega)) fun _ _ => Prog.same_pure
  case procSpawn =>
    refine Prog.same_bind same_needBuffer fun buffer _ => ?_
    refine same_length fun hlen => ?_
    refine Prog.same_bind same_readStr fun (execName, _) _ => ?_
    refine Prog.same_bind same_readStr fun (fsName, _) _ => ?_
    refine Prog.same_bind (same_fMsg h (by show 0 < _; omega)) fun argc _ => ?_
    refine Prog.same_ite (fun _ => ?_) fun _ => ?_
    · refine Prog.same_bind Prog.same_pure fun args _ => ?_
      exact same_prio h hlen (.processSpawn execName fsName · args)
    · refine Prog.same_bind (same_readArgs _ _) fun args _ => ?_
      refine Prog.same_bind Prog.same_pure fun args _ => ?_
      exact same_prio h hlen (.processSpawn execName fsName · args)
  case sDDFChannelRegisterBidirectional =>
    refine Prog.same_ite (fun _ => Prog.same_fail) fun _ => ?_
    refine Prog.same_ite (fun hl => ?_) fun _ => Prog.same_pure
    refine Prog.same_bind (same_fMsg h (by rw [hl]; decide)) fun _ _ => ?_
    exact Prog.same_bind Prog.same_okOr fun _ _ => Prog.same_pure
  case sDDFChannelRegisterReceiveOnly =>
    exact Prog.same_ite (fun _ => Prog.same_fail) fun _ => Prog.same_pure
  case sDDFQueueRegister =>
    refine Prog.same_ite (fun _ => Prog.same_fail) fun hnot => ?_
    have hlen : info.length.val = 2 := congrArg Fin.val (not_not.mp (not_or.mp hnot).1)
    refine Prog.same_bind (same_fMsg h (by show 0 < _; omega)) fun _ _ => ?_
    refine Prog.same_bind (same_fMsg h (by show 1 < _; omega)) fun _ _ => ?_
    exact Prog.same_bind Prog.same_okOr fun _ _ => Prog.same_pure
  case sDDFProvideDataRegion =>
    refine Prog.same_ite (fun _ => Prog.same_fail) fun hone => ?_
    have hlen : info.length.val ≥ 1 := hs.resolve_left hone
    exact Prog.same_bind (same_fMsg h hlen) fun _ _ => Prog.same_pure

/-! ## Arms that read stale registers -/

theorem Agrees.refl (info : MessageInfo) (b : IpcBuffer) : Agrees info b b :=
  ⟨fun _ _ => rfl, fun _ _ _ => rfl⟩

/-- A register after the message may hold anything. -/
theorem Agrees.setReg (h : Agrees info b b₀) {k : Fin 120} (hk : info.length.val ≤ k.val)
    (x : Word) : Agrees info b (b₀.setReg k x) := by
  refine ⟨?_, h.badges⟩
  intro i hi
  have hne : i ≠ k := by
    intro heq
    rw [heq] at hi
    omega
  rw [IpcBuffer.setReg_msgRegs, if_neg hne]
  exact h.regs i hi

/-- A register that the result depends on was sent. -/
theorem sent_of_varies {m : Decoder SMOS_Invocation} (k : Fin 120) (f : Word → SMOS_Invocation)
    (hsame : ∀ b', Agrees info b b' → Prog.Same m b b') (hb₀ : Agrees info b b₀)
    (hok : ∀ x, m (b₀.setReg k x) = .ok (f x) (b₀.setReg k x)) (hf : f 0 ≠ f 1) :
    k.val < info.length.val := by
  by_contra hstale
  have hk : info.length.val ≤ k.val := Nat.not_lt.mp hstale
  have h₀ := hsame _ (hb₀.setReg hk 0)
  have h₁ := hsame _ (hb₀.setReg hk 1)
  exact hf ((h₀.left h₁).ok (hok 0) (hok 1))

theorem exists_name (h : ¬ NameFails db) :
    ∃ buffer name rest, db = some buffer ∧ rustStrFromBuffer buffer = .ok (name, rest) := by
  simp only [NameFails, ne_eq, not_forall, not_not] at h
  obtain ⟨buffer, hdb, ⟨name, rest⟩, hread⟩ := h
  exact ⟨buffer, name, rest, hdb, hread⟩

theorem windowCreate_reads
    (hsame : ∀ b', Agrees info b b' → Prog.Same (decodeArm info db slot .windowCreate) b b') :
    ArmReadsSent info db b .windowCreate := by
  have hsent : (2 : Fin 120).val < info.length.val :=
    sent_of_varies 2 (fun x => .windowCreate (b.msgRegs 0) (b.msgRegs 1) (x != 0)) hsame
      (.refl info b) (fun x => rfl) (fun h => by cases h)
  exact hsent

theorem provideDataRegion_reads
    (hsame : ∀ b', Agrees info b b' →
      Prog.Same (decodeArm info db slot .sDDFProvideDataRegion) b b') :
    ArmReadsSent info db b .sDDFProvideDataRegion := by
  by_cases hone : info.oneWrapped
  · right
    refine sent_of_varies 0 (fun x => .sDDFProvideDataRegion slot x) hsame (.refl info b) ?_ ?_
    · intro x
      rw [decodeArm, if_neg (not_not_intro hone)]
      rfl
    · intro h
      cases h
  · exact .inl hone

theorem connPublish_reads
    (hsame : ∀ b', Agrees info b b' → Prog.Same (decodeArm info db slot .connPublish) b b') :
    ArmReadsSent info db b .connPublish := by
  by_cases hname : NameFails db
  · exact .inl hname
  · obtain ⟨buffer, name, rest, rfl, hread⟩ := exists_name hname
    right
    exact sent_of_varies 0 (fun x => .connPublish x name) hsame (.refl info b)
      (fun x => connPublishArm_ok hread) (fun h => by cases h)

theorem objOpen_reads
    (hsame : ∀ b', Agrees info b b' → Prog.Same (decodeArm info db slot .objOpen) b b') :
    ArmReadsSent info db b .objOpen := by
  by_cases hname : NameFails db
  · exact .inl hname
  · obtain ⟨buffer, name, rest, rfl, hread⟩ := exists_name hname
    right
    exact sent_of_varies 1 (fun x => .objOpen name (b.msgRegs 0) (x != 0)) hsame (.refl info b)
      (fun x => objOpenArm_ok hread) (fun h => by cases h)

theorem objCreate_reads
    (hsame : ∀ b', Agrees info b b' → Prog.Same (decodeArm info db slot .objCreate) b b') :
    ArmReadsSent info db b .objCreate := by
  have hunnamed : ∀ b₀, Agrees info b b₀ → b₀.msgRegs 0 = 0 →
      (4 : Fin 120).val < info.length.val := by
    intro b₀ hb₀ hzero
    exact sent_of_varies 4 (fun x => .objCreate none (b₀.msgRegs 1) (b₀.msgRegs 2) (b₀.msgRegs 3)
      (x != 0)) hsame hb₀ (fun x => objCreateArm_unnamed hzero) (fun h => by cases h)
  have hlen : info.length.val ≥ 1 := by
    by_contra hstale
    have hlt := hunnamed (b.setReg 0 0) (Agrees.setReg (.refl info b) (by omega) 0) rfl
    omega
  refine ⟨hlen, ?_⟩
  by_cases hzero : b.msgRegs 0 = 0
  · exact .inr (hunnamed b (.refl info b) hzero)
  · by_cases hname : NameFails db
    · exact .inl ⟨hzero, hname⟩
    · obtain ⟨buffer, name, rest, rfl, hread⟩ := exists_name hname
      right
      exact sent_of_varies 4 (fun x => .objCreate (some name) (b.msgRegs 1) (b.msgRegs 2)
        (b.msgRegs 3) (x != 0)) hsame (.refl info b) (fun x => objCreateArm_named hread hzero)
        (fun h => by cases h)

theorem connOpen_reads
    (hsame : ∀ b', Agrees info b b' → Prog.Same (decodeArm info db slot .connOpen) b b') :
    ArmReadsSent info db b .connOpen := by
  intro hone
  have hlen : info.length ≠ 0 := fun h => by rw [h] at hone; cases hone
  have hshort : ∀ f : Word → SMOS_Invocation, f 0 ≠ f 1 →
      ¬ ∀ x, decodeArm info db slot .connOpen (b.setReg 1 x) = .ok (f x) (b.setReg 1 x) := by
    intro f hf hok
    have hlt := sent_of_varies 1 f hsame (.refl info b) hok hf
    change 1 < info.length.val at hlt
    omega
  by_cases hx : info.extraCaps = 1
  · by_cases hu : info.isUnwrapped 0 = true
    · refine hshort (fun x => .connOpen (some (.unwrappedHandleCap (b.capsOrBadges 0), x)))
        (fun h => by cases h) fun x => ?_
      rw [decodeArm, decodeSharedBuf, if_neg hlen, if_pos hx, if_pos hu]
      rfl
    · refine hshort (fun x => .connOpen (some (.wrappedHandleCap slot, x)))
        (fun h => by cases h) fun x => ?_
      rw [decodeArm, decodeSharedBuf, if_neg hlen, if_pos hx, if_neg hu]
      rfl
  · refine hshort (fun x => .connOpen (some (.handle (b.msgRegs 0), x)))
      (fun h => by cases h) fun x => ?_
    rw [decodeArm, decodeSharedBuf, if_neg hlen, if_neg hx]
    rfl

theorem decodeWindow_of_not_fails (h : ¬ WindowFails info b) :
    ∃ w, ∀ b', b'.msgRegs 0 = b.msgRegs 0 → b'.capsOrBadges = b.capsOrBadges →
      decodeWindow info slot b' = .ok (w, windowCaps b) b' := by
  by_cases hmark : b.msgRegs 0 = UInt64.ofNat (2 ^ 64 - 1)
  · have hx : decide (info.extraCaps.val < 1) = false := by
      rw [decide_eq_false_iff_not]
      exact fun hx => h ⟨hmark, hx⟩
    rw [windowCaps, if_pos hmark]
    cases hu : info.isUnwrapped 0 with
    | true =>
      refine ⟨.unwrappedHandleCap (b.capsOrBadges 0), fun b' hreg hcap => ?_⟩
      rw [← hcap]
      exact decodeWindow_unwrapped (hreg.trans hmark) hx hu
    | false =>
      exact ⟨.wrappedHandleCap slot, fun b' hreg _ => decodeWindow_wrapped (hreg.trans hmark) hx hu⟩
  · rw [windowCaps, if_neg hmark]
    refine ⟨.handle (b.msgRegs 0), fun b' hreg _ => ?_⟩
    rw [← hreg]
    exact decodeWindow_handle (fun heq => hmark (hreg.symm.trans heq))

theorem decodeObject_of_not_fails (h : ¬ ObjectFails info b) :
    ∃ o, ∀ b', b'.msgRegs 1 = b.msgRegs 1 → b'.capsOrBadges = b.capsOrBadges →
      decodeObject info (windowCaps b) b' = .ok o b' := by
  by_cases hmark : b.msgRegs 1 = UInt64.ofNat (2 ^ 64 - 1)
  · have hx : decide (info.extraCaps.val < (windowCaps b).val + 1) = false := by
      rw [decide_eq_false_iff_not]
      exact fun hx => h ⟨hmark, .inl hx⟩
    have hu : info.isUnwrapped (windowCaps b).val = true := by
      by_contra hu
      exact h ⟨hmark, .inr (Bool.eq_false_iff.mpr hu)⟩
    refine ⟨.unwrappedHandleCap (b.capsOrBadges (windowCaps b)), fun b' hreg hcap => ?_⟩
    rw [← hcap]
    exact decodeObject_unwrapped (hreg.trans hmark) hx hu
  · refine ⟨.handle (b.msgRegs 1), fun b' hreg _ => ?_⟩
    rw [← hreg]
    exact decodeObject_handle (fun heq => hmark (hreg.symm.trans heq))

theorem view_reads
    (hsame : ∀ b', Agrees info b b' → Prog.Same (decodeArm info db slot .view) b b') :
    ArmReadsSent info db b .view := by
  -- whenever both handles can be read, the rights are returned
  have hrights : ∀ b₀, Agrees info b b₀ → ¬ WindowFails info b₀ → ¬ ObjectFails info b₀ →
      5 < info.length.val := by
    intro b₀ hb₀ hwindow hobject
    obtain ⟨w, hw⟩ := @decodeWindow_of_not_fails _ slot _ hwindow
    obtain ⟨o, ho⟩ := decodeObject_of_not_fails hobject
    refine sent_of_varies 5 (fun x => .view w o (b₀.msgRegs 2) (b₀.msgRegs 3) (b₀.msgRegs 4) x)
      hsame hb₀ (fun x => ?_) (fun h => by cases h)
    exact viewArm_ok (hw _ rfl rfl) (ho _ rfl rfl)
  have hmark : (0 : Word) ≠ UInt64.ofNat (2 ^ 64 - 1) := by decide
  have hlen : info.length.val ≥ 1 := by
    by_contra hstale
    have h₁ : Agrees info b (b.setReg 0 0) := Agrees.setReg (.refl info b) (by omega) 0
    have h₂ : Agrees info b ((b.setReg 0 0).setReg 1 0) := h₁.setReg (by omega) 0
    have hlt := hrights _ h₂ (fun h => hmark h.1) (fun h => hmark h.1)
    omega
  refine ⟨hlen, ?_⟩
  by_cases hwindow : WindowFails info b
  · exact .inl hwindow
  have hlen2 : info.length.val ≥ 2 := by
    by_contra hstale
    have h₁ : Agrees info b (b.setReg 1 0) := by
      refine Agrees.setReg (.refl info b) ?_ 0
      show info.length.val ≤ 1
      omega
    have hlt := hrights _ h₁ hwindow (fun h => hmark h.1)
    omega
  refine .inr ⟨hlen2, ?_⟩
  by_cases hobject : ObjectFails info b
  · exact .inl hobject
  · exact .inr (hrights b (.refl info b) hwindow hobject)

theorem armReadsSent_of_same
    (hsame : ∀ b', Agrees info b b' → Prog.Same (decodeArm info db slot label) b b') :
    ArmReadsSent info db b label := by
  cases label
  case windowCreate => exact windowCreate_reads hsame
  case sDDFProvideDataRegion => exact provideDataRegion_reads hsame
  case connPublish => exact connPublish_reads hsame
  case objCreate => exact objCreate_reads hsame
  case objOpen => exact objOpen_reads hsame
  case connOpen => exact connOpen_reads hsame
  case view => exact view_reads hsame
  all_goals trivial

end Arms

/-! ## All messages -/

/-- **What is decoded depends on what was sent.** Two buffers that agree on a delivered message
give the same result, exactly when the message gets to no arm, is long enough for its arm, or
makes the arm fail before it reads a stale register. -/
theorem decoder_reads_sent_iff {server : ServerConnection} {info : MessageInfo}
    {db : Option (List UInt8)} {slot : Word} {b : IpcBuffer} (hd : info.Delivered) :
    (∀ b', Agrees info b b' → Prog.Same (SMOS_Invocation.new server info db slot) b b') ↔
      ∀ label, Reaches server info label → ArmReadsSent info db b label := by
  constructor
  · intro hsame label hr
    rw [new_of_reaches hr] at hsame
    exact armReadsSent_of_same hsame
  · intro hreads b' hagrees
    by_cases hr : ∃ label, Reaches server info label
    · obtain ⟨label, hr⟩ := hr
      rw [new_of_reaches hr]
      exact same_decodeArm hd hr.cap (hreads label hr) hagrees
    · obtain ⟨e, he⟩ := new_of_not_reaches (not_exists.mp hr) db slot
      rw [he]
      exact Prog.same_fail

/-- A `WindowCreate` of three registers is decoded from them. -/
theorem windowCreate_reads_sent :
    Prog.Same (SMOS_Invocation.new .rootServer
      { label := SMOSInvocation.windowCreate.label, length := 3 } none 0)
      .blank (IpcBuffer.blank.setReg 3 1) := by
  refine (decoder_reads_sent_iff (by decide)).mpr ?_ _ (Agrees.setReg (.refl _ _) (by decide) 1)
  intro label hr
  have hlabel := hr.exists_label
  rw [SMOSInvocation.tryFrom_label] at hlabel
  cases hlabel
  show (3 : Fin 128).val ≥ 3
  decide

/-- A `WindowCreate` of two registers takes the third argument from an earlier message. -/
theorem windowCreate_reads_stale :
    Agrees { label := SMOSInvocation.windowCreate.label, length := 2 } .blank
        (IpcBuffer.blank.setReg 2 1) ∧
      ¬ Prog.Same (SMOS_Invocation.new .rootServer
        { label := SMOSInvocation.windowCreate.label, length := 2 } none 0)
        .blank (IpcBuffer.blank.setReg 2 1) := by
  refine ⟨Agrees.setReg (.refl _ _) (by decide) 1, fun h => ?_⟩
  have heq := h.ok rfl rfl
  cases heq

end Smos.Ipc
