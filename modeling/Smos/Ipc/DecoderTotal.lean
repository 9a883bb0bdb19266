/-
Smos.Ipc.DecoderTotal — the messages that kill a server in its decoder.

Almost every arm of the decoder answers a bad message with an error. Three
do not, and only the root server supports their labels: `ConnRegister`
with a length that is not 2, `ProcSpawn` with a priority that is no byte,
and `TestSimple`. The message that does it must come without a capability
for the receive slot, since that is refused before.
-/
import Smos.Ipc.DecodeArms

namespace Smos.Ipc

open Smos.Base

/-! ## The condition -/

/-- The buffer starts with `n` terminated strings. -/
def StartsWithStrings : Nat → List UInt8 → Prop
  | 0, _ => True
  | n + 1, buffer =>
    ∃ s rest, rustStrFromBuffer buffer = .ok (s, rest) ∧ StartsWithStrings n rest

/-- A `ProcSpawn` that is in order but for its priority. -/
def BadPriority (info : MessageInfo) (dataBuffer : Option (List UInt8)) (b : IpcBuffer) : Prop :=
  info.length = 2 ∧ (b.msgRegs 1).toNat > 255 ∧
    ∃ buffer, dataBuffer = some buffer ∧ StartsWithStrings ((b.msgRegs 0).toNat + 2) buffer

/-- The arms that panic, and when. -/
def ArmPanics (info : MessageInfo) (dataBuffer : Option (List UInt8)) (b : IpcBuffer) :
    SMOSInvocation → Prop
  | .testSimple => True
  | .connRegister => info.length ≠ 2
  | .procSpawn => BadPriority info dataBuffer b
  | _ => False

/-- The messages on which the decoder of `server` panics. -/
def KillsDecoder (server : ServerConnection) (info : MessageInfo)
    (dataBuffer : Option (List UInt8)) (b : IpcBuffer) : Prop :=
  server = .rootServer ∧ info.consumedRecvSlot = false ∧
    ∃ label, SMOSInvocation.tryFrom info.label = some label ∧ ArmPanics info dataBuffer b label

section Arms

variable {info : MessageInfo} {db : Option (List UInt8)} {slot : Word} {label : SMOSInvocation}
  {b : IpcBuffer}

/-! ## Arms that answer -/

theorem wp_readStr {Q : String × List UInt8 → IpcBuffer → Prop}
    {E : InvocationError → IpcBuffer → Prop} {P : Panic → Prop} {buffer : List UInt8} :
    Prog.wp (readStr buffer) Q E P b ↔
      (∀ x, rustStrFromBuffer buffer = .ok x → Q x b) ∧
        (∀ e, rustStrFromBuffer buffer = .error e → E e b) := by
  unfold readStr
  cases rustStrFromBuffer buffer <;> simp

theorem wp_readArgs {Q : List String → IpcBuffer → Prop} {E : InvocationError → IpcBuffer → Prop}
    {P : Panic → Prop} (n : Nat) (buffer : List UInt8)
    (hQ : ∀ args, StartsWithStrings n buffer → Q args b) (hE : ∀ e, E e b) :
    Prog.wp (readArgs n buffer) Q E P b := by
  induction n generalizing buffer Q with
  | zero => exact hQ [] trivial
  | succ n ih =>
    rw [readArgs, Prog.wp_bind, wp_readStr]
    refine ⟨?_, fun e _ => hE e⟩
    intro (s, rest) hs
    rw [Prog.wp_bind]
    apply ih rest
    intro args hrest
    exact hQ (s :: args) ⟨s, rest, hs, hrest⟩

/-- The labels that no server supports are the ones without an arm of their own. -/
theorem supported_handled {server : ServerConnection} (hs : server.isSupported label = true) :
    label ∉ [.connUnpublish, .authorise, .procDestroy, .procCreateComplete, .replyDestroy,
      .serverHandleCapDestroy, .dirOpen, .dirClose, .dirRead, .pageUnmap] := by
  cases server <;> cases label <;> first | exact Bool.noConfusion hs | decide

/-- A supported arm panics under its condition only. -/
theorem wp_decodeArm {server : ServerConnection} (hs : server.isSupported label = true) :
    Prog.wp (decodeArm info db slot label) (fun _ _ => True) (fun _ _ => True)
      (fun _ => ArmPanics info db b label) b := by
  have hhandled := supported_handled hs
  cases label
  case testSimple => trivial
  case connRegister => simp [decodeArm, fMsg, ArmPanics]
  case procSpawn =>
    simp only [decodeArm, needBuffer, invalidArguments, fMsg, Prog.wp_bind, Prog.wp_okOr,
      Prog.wp_ite, Prog.wp_fail, Prog.wp_gets, Prog.wp_pure, wp_readStr, implies_true, and_true,
      Prog.wp_panic, true_and]
    intro buffer hbuffer hlen exec hexec fs hfs
    rcases exec with ⟨execName, rest⟩
    rcases fs with ⟨fsName, rest'⟩
    have hlen : info.length = 2 := not_not.mp hlen
    -- the priority is read after the arguments
    have hpanics : StartsWithStrings (b.msgRegs 0).toNat rest' → ¬ (b.msgRegs 1).toNat < 256 →
        ArmPanics info db b .procSpawn := by
      intro hargs hprio
      refine ⟨hlen, by omega, buffer, hbuffer, ?_⟩
      exact ⟨execName, rest, hexec, fsName, rest', hfs, hargs⟩
    constructor
    · intro hzero hprio
      apply hpanics ?_ hprio
      rw [hzero]
      trivial
    · intro hne
      exact wp_readArgs _ rest' (fun _ hargs => hpanics hargs) (fun _ => trivial)
  all_goals first
    | exact absurd hhandled (by decide)
    | simp [decodeArm, decodeHandle, decodeStatHandle, decodeWindow, decodeObject, decodeSharedBuf,
        fMsg, fCap, invalidArguments, needBuffer, wp_readStr]

/-! ## Arms that panic -/

theorem readArgs_of_startsWith {n : Nat} {buffer : List UInt8} (h : StartsWithStrings n buffer) :
    ∃ args, readArgs n buffer b = .ok args b := by
  induction n generalizing buffer with
  | zero => exact ⟨[], rfl⟩
  | succ n ih =>
    obtain ⟨s, rest, hs, hrest⟩ := h
    obtain ⟨args, hargs⟩ := ih hrest
    refine ⟨s :: args, ?_⟩
    rw [readArgs]
    refine (Prog.bind_of_ok (readStr_of_ok hs)).trans ?_
    exact (Prog.bind_of_ok hargs).trans rfl

theorem decodeArm_panics (slot : Word) (h : ArmPanics info db b label) :
    ∃ p, decodeArm info db slot label b = .panic p := by
  cases label
  case testSimple => exact ⟨.testSimple, rfl⟩
  case connRegister =>
    have hlen : info.length ≠ 2 := h
    refine ⟨.todo, ?_⟩
    rw [decodeArm, if_pos hlen]
    rfl
  case procSpawn =>
    obtain ⟨hlen, hprio, buffer, rfl, execName, rest, hexec, fsName, rest', hfs, hargs⟩ := h
    obtain ⟨args, hread⟩ := readArgs_of_startsWith (b := b) hargs
    have hlate : ∀ args : Option (List String), (do
        let prio ← fMsg 1
        if prio.toNat < 256 then pure (.processSpawn execName fsName prio.toUInt8 args)
        else Prog.panic .expect : Decoder SMOS_Invocation) b = .panic .expect := by
      intro args
      refine (Prog.bind_of_ok rfl).trans ?_
      show (if (b.msgRegs 1).toNat < 256 then _ else _ : Decoder _) b = _
      rw [if_neg (by omega)]
      rfl
    refine ⟨.expect, ?_⟩
    rw [decodeArm]
    refine (Prog.bind_of_ok rfl).trans ?_
    rw [if_neg (not_not_intro hlen)]
    refine (Prog.bind_of_ok (readStr_of_ok hexec)).trans ?_
    refine (Prog.bind_of_ok (readStr_of_ok hfs)).trans ?_
    refine (Prog.bind_of_ok rfl).trans ?_
    show (if b.msgRegs 0 = 0 then _
      else do let _ ← readArgs (b.msgRegs 0).toNat rest'; _ : Decoder _) b = _
    by_cases hzero : b.msgRegs 0 = 0
    · rw [if_pos hzero]
      exact (Prog.bind_of_ok rfl).trans (hlate none)
    · rw [if_neg hzero]
      refine (Prog.bind_of_ok hread).trans ?_
      exact (Prog.bind_of_ok rfl).trans (hlate (some args))
  all_goals exact h.elim

end Arms

/-! ## All messages -/

/-- The arms that panic belong to the root server, and take no capability. -/
theorem armPanics_label {server : ServerConnection} {info : MessageInfo}
    {db : Option (List UInt8)} {b : IpcBuffer} {label : SMOSInvocation}
    (h : ArmPanics info db b label) :
    label.canContainWrappedCap = false ∧
      (server.isSupported label = true ↔ server = .rootServer) := by
  cases label
  case testSimple | connRegister | procSpawn => cases server <;> decide
  all_goals exact h.elim

/-- **Decoder totality.** The decoder of a server returns an invocation or an error, exactly when
the message is not one of those that kill it. -/
theorem decoder_total_iff {server : ServerConnection} {info : MessageInfo}
    {db : Option (List UInt8)} {slot : Word} {b : IpcBuffer} :
    ((∃ inv b', SMOS_Invocation.new server info db slot b = .ok inv b') ∨
      ∃ e b', SMOS_Invocation.new server info db slot b = .err e b') ↔
    ¬ KillsDecoder server info db b := by
  constructor
  · intro h ⟨hserver, hcap, label, hlabel, hpanics⟩
    obtain ⟨_, hsupported⟩ := armPanics_label hpanics
    have hr : Reaches server info label := ⟨hlabel, hsupported.mpr hserver, .inr hcap⟩
    obtain ⟨p, hp⟩ := decodeArm_panics slot hpanics
    rw [new_of_reaches hr, hp] at h
    rcases h with ⟨_, _, h⟩ | ⟨_, _, h⟩ <;> cases h
  · intro hnot
    by_cases hr : ∃ label, Reaches server info label
    · obtain ⟨label, hr⟩ := hr
      rw [new_of_reaches hr]
      have hwp : Prog.wp (decodeArm info db slot label) _ _ _ b := wp_decodeArm hr.supported
      cases hm : decodeArm info db slot label b with
      | ok inv b' => exact .inl ⟨inv, b', rfl⟩
      | err e b' => exact .inr ⟨e, b', rfl⟩
      | panic p =>
        have hpanics := Prog.wp_panic_of hwp hm
        obtain ⟨hcap, hsupported⟩ := armPanics_label hpanics
        refine (hnot ⟨hsupported.mp hr.supported, ?_, label, hr.exists_label, hpanics⟩).elim
        exact hr.cap.resolve_left (by rw [hcap]; decide)
    · obtain ⟨e, he⟩ := new_of_not_reaches (not_exists.mp hr) db slot
      exact .inr ⟨e, b, by rw [he]; rfl⟩

/-- `ConnRegister` without arguments is not answered. -/
theorem connRegister_kills :
    ¬ ((∃ inv b', SMOS_Invocation.new .rootServer { label := SMOSInvocation.connRegister.label }
        none 0 .blank = .ok inv b') ∨
      ∃ e b', SMOS_Invocation.new .rootServer { label := SMOSInvocation.connRegister.label }
        none 0 .blank = .err e b') := by
  intro h
  rcases h with ⟨_, _, h⟩ | ⟨_, _, h⟩ <;> cases h

end Smos.Ipc
