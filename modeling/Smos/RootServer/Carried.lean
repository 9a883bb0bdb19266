/-
Smos.RootServer.Carried — the capability in a reply.

The slot that a reply names has been filled in the same turn, so what the
reply carries depends little on the state before: a connection is an
endpoint with all rights, a server's handle capability has the number the
server chose and no rights, and publishing answers an endpoint that did not
exist before (`Confined`). A channel is opened from a slot that was filled
earlier; nothing is said about it.
-/
import Smos.RootServer.Allocators
import Smos.RootServer.Answers
import Smos.RootServer.Effects

namespace Smos.RootServer

open Smos.Base

/-- The endpoint a capability is of. -/
def Cap.endpoint : Cap → Option Nat
  | .object obj .endpoint | .badged obj .endpoint _ _ => some obj
  | _ => none

/-- What the reply to an invocation can carry, when objects below `n` existed before it. -/
def Carries (setup : Setup) (n : Nat) : Invocation → Cap → Prop
  | .windowCreate _, cap | .objCreate _ _, cap | .serverCreateChannel _, cap =>
    ∃ idx, setup.rootCap idx = some cap
  | .connCreate _, cap => ∃ obj kind badge, cap = .badged obj kind badge .all
  | .serverHandleCapCreate args, cap => ∃ obj kind, cap = .badged obj kind args.ident .none
  | .connPublish _, cap => ∀ e, cap.endpoint = some e → n ≤ e
  | .replyCreate, cap | .irqRegister _, cap => cap.endpoint = none
  | .channelOpen _, _ => True
  | _, _ => False

/-! ## Endpoints that existed before -/

/-- A capability to an endpoint below `n` is nowhere where it was not in `k₁`. -/
structure Confined (n : Nat) (k₁ k : Kernel) : Prop where
  nextObj : n ≤ k.nextObj
  caps : ∀ c cap e, k.caps c = some cap → cap.endpoint = some e → e < n → k₁.caps c = some cap

namespace Confined

variable {n : Nat} {k k' k₁ : Kernel}

theorem start (h : n ≤ k.nextObj) : Confined n k k := ⟨h, fun _ _ _ hc _ _ => hc⟩

/-- No slot has got a capability. -/
theorem fewer (h : Confined n k₁ k) (hnext : k.nextObj ≤ k'.nextObj)
    (hcaps : ∀ c cap, k'.caps c = some cap → k.caps c = some cap) : Confined n k₁ k' :=
  ⟨Nat.le_trans h.nextObj hnext, fun c cap e hc => h.caps c cap e (hcaps c cap hc)⟩

/-- One slot has got a capability, but not to an old endpoint. -/
theorem update (h : Confined n k₁ k) {c : Slot} {cap : Cap} (hnext : k.nextObj ≤ k'.nextObj)
    (hcap : ∀ e, cap.endpoint = some e → n ≤ e)
    (hcaps : k'.caps = Function.update k.caps c (some cap)) : Confined n k₁ k' := by
  refine ⟨Nat.le_trans h.nextObj hnext, fun c' cap' e hc' he hlt => ?_⟩
  rw [hcaps] at hc'
  by_cases heq : c' = c
  · rw [heq, Function.update_self] at hc'
    cases hc'
    have hle := hcap e he
    omega
  · rw [Function.update_of_ne heq] at hc'
    exact h.caps c' cap' e hc' he hlt

end Confined

theorem delete_nextObj (k : Kernel) (c : Slot) : (k.delete c).nextObj = k.nextObj := by
  unfold Kernel.delete
  split
  · rfl
  · unfold Kernel.unmap
    split
    · rfl
    · split <;> rfl
  all_goals rfl

theorem untypedRetype_caps {k k' : Kernel} {bp : ObjectBlueprint} {c : Slot}
    (hk : k.untypedRetype bp c = .ok k') : k'.nextObj = k.nextObj + 1 ∧
      ∃ cap, k'.caps = Function.update k.caps c (some cap) ∧
        (∀ e, cap.endpoint = some e → e = k.nextObj) ∧
        ∀ kind, bp = .other kind → cap = .object k.nextObj kind := by
  obtain ⟨-, rfl⟩ := Kernel.untypedRetype_ok hk
  refine ⟨rfl, bp.newCap k.nextObj, rfl, fun e he => ?_, fun kind h => by rw [h]; rfl⟩
  cases bp with
  | other kind =>
    cases kind <;> cases he
    rfl
  | _ => cases he

instance stable_confined {n : Nat} {k₁ : Kernel} : Stable (Confined n k₁) where
  delete {k} h c := by
    refine h.fewer (Nat.le_of_eq (delete_nextObj k c).symm) fun c' cap hc' => ?_
    rw [Kernel.delete_caps] at hc'
    by_cases heq : c' = c
    · rw [heq, Function.update_self] at hc'
      cases hc'
    · rwa [Function.update_of_ne heq] at hc'
  untypedRetype {k k' bp c} h hk := by
    obtain ⟨hnext, cap, hcaps, he, -⟩ := untypedRetype_caps hk
    refine h.update (c := c) (by omega) (fun e hcap => ?_) hcaps
    rw [he e hcap]
    exact h.nextObj
  ptMap {k k' c vspace vaddr} h hk := by
    unfold Kernel.ptMap at hk
    split at hk
    · split at hk <;> cases hk
      exact h.update (Nat.le_refl _) (by simp [Cap.endpoint]) rfl
    all_goals cases hk
  frameMap {k k' c vspace vaddr rights} h hk := by
    obtain ⟨obj, orig, access, m, vs, -, -, -, -, rfl⟩ := Kernel.frameMap_ok hk
    exact h.update (Nat.le_refl _) (by simp [Cap.endpoint]) (Kernel.enterPage_caps ..)
  writeMem h obj bytes := h.fewer (Nat.le_refl _) fun _ _ hc => hc

/-! ## Objects and badges -/

section Slots

variable {n : Nat} {k₁ : Kernel} {p : Nat}

/-- The capability in a slot is one of these. -/
def Holds (c : Slot) (Q : Cap → Prop) (k : Kernel) : Prop := ∃ cap, k.caps c = some cap ∧ Q cap

theorem kcall_gives {P Q : Kernel → Prop} {f : Kernel → Except Sel4Error Kernel}
    (h : ∀ k k', P k → f k = .ok k' → Q k') :
    (kcall f).Gives (fun r => P r.kernel) fun _ r => Q r.kernel := by
  refine .zoom (P := P) (Q := fun _ k => Q k) ?_ (fun _ h => h) fun _ _ _ h => h
  intro k u k' hP hk
  unfold Prog.ofExcept at hk
  split at hk <;> cases hk
  exact h k _ hP ‹_›

/-- Allocating an object: its slot has the capability, and the object is new. -/
theorem allocRetype_gives (kind : ObjectKind) :
    (allocRetype (.other kind)).Gives (fun r => Confined n k₁ r.kernel) fun x r =>
      Confined n k₁ r.kernel ∧
        Holds x.1 (fun cap => ∃ obj, n ≤ obj ∧ cap = .object obj kind) r.kernel := by
  unfold allocRetype
  refine .bind ((Prog.Gives.kept (utAlloc_keeps _)).catchErr fun _ => .fail _) fun ut => ?_
  refine .bind ((Prog.Gives.kept allocSlot_keeps).catchErr fun _ => .skip fun _ => .fail _) ?_
  intro cptr
  have hretype : (untypedRetype (.other kind) cptr).Gives (fun r => Confined n k₁ r.kernel)
      fun _ r => Confined n k₁ r.kernel ∧
        Holds cptr (fun cap => ∃ obj, n ≤ obj ∧ cap = .object obj kind) r.kernel := by
    refine kcall_gives (P := Confined n k₁) (Q := fun k => Confined n k₁ k ∧
      Holds cptr (fun cap => ∃ obj, n ≤ obj ∧ cap = .object obj kind) k) fun k k' h hk => ?_
    obtain ⟨-, cap, hcaps, -, hkind⟩ := untypedRetype_caps hk
    refine ⟨Stable.untypedRetype h hk, cap, ?_, k.nextObj, h.nextObj, hkind kind rfl⟩
    rw [hcaps, Function.update_self]
  exact .bind (hretype.catchErr fun _ => .skip fun _ => .skip fun _ => .fail _) fun _ =>
    .pure fun _ h => h

/-- What has just been minted. -/
def Minted (badge : Nat) (rights : CapRights) (cap : Cap) : Prop :=
  ∃ obj kind, cap = .badged obj kind badge rights

theorem mintCap_gives (dst src : Slot) (rights : CapRights) (badge : Nat) :
    (mintCap dst src rights badge).Gives (fun _ => True) fun _ r =>
      Holds dst (Minted badge rights) r.kernel := by
  refine kcall_gives (P := fun _ => True) fun k k' _ hk => ?_
  obtain ⟨obj, kind, -, -, rfl⟩ := Kernel.mint_ok hk
  exact ⟨_, Kernel.setCap_caps_self _, obj, kind, rfl⟩

/-- Minting does not overwrite a capability. -/
theorem mintCap_keeps {c : Slot} {Q : Cap → Prop} (dst src : Slot) (rights : CapRights)
    (badge : Nat) : KernelProg (Holds c Q) (mintCap dst src rights badge) := by
  refine kcall_keeps fun k k' ⟨cap, hcap, hQ⟩ hk => ?_
  obtain ⟨obj, kind, -, hnone, rfl⟩ := Kernel.mint_ok hk
  have hne : c ≠ dst := by
    intro heq
    rw [heq, hnone] at hcap
    cases hcap
  exact ⟨cap, (Kernel.setCap_caps_of_ne hne _).trans hcap, hQ⟩

/-! ## What is outside the kernel -/

section Outside

variable {ε : Type} {I : Kernel → Prop}

/-- The program keeps what `I` says about the kernel. -/
abbrev StateProg (I : Kernel → Prop) {ε α : Type} (m : SProg ε α) : Prop :=
  m.Keeps (fun s => I s.res.kernel) fun _ => True

theorem onRes_keeps {α : Type} {m : RProg ε α} (h : KernelProg I m) : StateProg I (onRes m) :=
  Prog.Keeps.zoom h (fun _ hs => hs) fun _ _ _ hr => hr

theorem onRes_gives {α : Type} {Q : α → Kernel → Prop} {m : RProg ε α}
    (h : m.Gives (fun r => I r.kernel) fun a r => Q a r.kernel) :
    (onRes m).Gives (fun s => I s.res.kernel) fun a s => Q a s.res.kernel :=
  h.zoom (fun _ hs => hs) fun _ _ _ hr => hr

/-- A step on the tables of the root server. -/
theorem outside_keeps {f : State → State} (h : ∀ s, (f s).res = s.res) :
    StateProg I (Prog.modify f : SProg ε Unit) :=
  .modify trivial fun s hs => by rw [h s]; exact hs

/-- Making an entry of a heap. -/
theorem new_keeps {α : Type} {m : SProg ε α} (h : ∀ s, ∃ a s', m s = .ok a s' ∧ s'.res = s.res) :
    StateProg I m := by
  intro s hs
  obtain ⟨a, s', hm, hres⟩ := h s
  unfold Prog.wp
  rw [hm]
  refine ⟨trivial, ?_⟩
  show I s'.res.kernel
  rw [hres]
  exact hs

theorem getProc_keeps : StateProg I (getProc p : SProg ε UserProcess) := by
  refine .bind .gets_any fun x _ => ?_
  cases x with
  | activeProcess u => exact .pure trivial
  | zombieProcess pid => exact .panic _

theorem allocateHandle_keeps : StateProg I (allocateHandle p) :=
  .bind getProc_keeps fun _ _ => .okOr fun _ _ => trivial

theorem setHandle_keeps (idx : Nat) (h : Option RootServerResource) :
    StateProg I (setHandle p idx h : SProg ε Unit) := outside_keeps fun _ => rfl

theorem insertFrame_keeps (o : ObjectRef) (offset : Nat) (frame : ObjectFrame) :
    StateProg I (insertFrame o offset frame : SProg ε Unit) := by
  refine .bind .gets_any fun object _ => ?_
  split
  · exact outside_keeps fun _ => rfl
  · exact .panic _

end Outside

/-! ## The handlers -/

/-- A reply made this way carries a capability with `Q`. -/
def InSlot (reply : Nat → Slot → SMOSReply) (Q : Cap → Prop) (r : SMOSReply) (s : State) : Prop :=
  ∃ hndl slot, r = reply hndl slot ∧ Holds slot Q s.res.kernel

theorem handleConnCreate_gives (name : String) :
    (handleConnCreate p name).Gives (fun _ => True)
      (InSlot .connCreate fun cap => ∃ badge, Minted badge .all cap) := by
  unfold handleConnCreate
  refine .skip fun u => .skip fun found => .skip fun srv => .skip fun server => ?_
  refine .ite (.fail _) (.skip fun slot => ?_)
  refine .bind (onRes_gives (I := fun _ => True) (mintCap_gives slot _ _ _).expect) fun _ => ?_
  refine .next (new_keeps fun _ => ⟨_, _, rfl, rfl⟩) fun conn _ => ?_
  refine .next (outside_keeps fun _ => rfl) fun _ _ => .next allocateHandle_keeps fun idx _ => ?_
  refine .next (setHandle_keeps _ _) fun _ _ => .pure fun s hs => ?_
  obtain ⟨cap, hcap, hminted⟩ := hs
  exact ⟨idx, slot, rfl, cap, hcap, _, hminted⟩

theorem handleServerHandleCapCreate_gives (args : ServerHandleCapCreateArgs) :
    (handleServerHandleCapCreate p args).Gives (fun _ => True)
      (InSlot .serverHandleCapCreate (Minted args.ident .none)) := by
  unfold handleServerHandleCapCreate
  refine .skip fun publishHndl => .skip fun resource => ?_
  split
  case h_2 => exact .fail _
  refine .skip fun server => .skip fun badgedCap => ?_
  refine .bind ((onRes_gives (I := fun _ => True) (mintCap_gives badgedCap _ _ _)).catchErr
    fun _ => .skip fun _ => .fail _) fun _ => ?_
  refine .bind ((Prog.Gives.kept allocateHandle_keeps).catchErr fun _ =>
    .skip fun _ => .skip fun _ => .fail _) fun idx => ?_
  exact .next (setHandle_keeps _ _) fun _ _ => .pure fun s hs => ⟨idx, badgedCap, rfl, hs⟩

theorem irqControlGet_gives (handler irq : Nat) :
    (Smos.RootServer.irqControlGet handler irq).Gives (fun _ => True) fun _ r =>
      Holds handler (· = .irqHandler irq) r.kernel := by
  have hget : (kcall fun k => k.irqControlGet handler irq).Gives (fun _ => True) fun _ r =>
      Holds handler (· = .irqHandler irq) r.kernel := by
    refine kcall_gives (P := fun _ => True) fun k k' _ hk => ⟨.irqHandler irq, ?_, rfl⟩
    rw [Kernel.irqControlGet_ok hk, Function.update_self]
  exact .ite hget.expect (.ite (hget.catchErr fun _ => .fail _) (.fail _))

theorem irqRegister_gives (srv : ServerRef) (irqNum : Nat) :
    (irqRegister srv irqNum).Gives (fun _ => True) fun x s =>
      Holds x.2 (· = .irqHandler irqNum) s.res.kernel := by
  unfold irqRegister
  refine .skip fun identBit => .skip fun handler => .skip fun ntfn => ?_
  refine .bind ((onRes_gives (I := fun _ => True) (irqControlGet_gives handler _)).catchErr
    fun _ => .skip fun _ => .skip fun _ => .skip fun _ => .fail _) fun _ => ?_
  have hmint : StateProg (Holds handler (· = .irqHandler irqNum))
      (mintNtfn srv ntfn identBit : SProg InvocationError Unit) :=
    .bind .gets_any fun _ _ => onRes_keeps (mintCap_keeps _ _ _ _).expect
  have hset : KernelProg (Holds handler (· = .irqHandler irqNum))
      (kcall fun k => k.irqHandlerSetNotification handler ntfn) :=
    kcall_keeps fun k k' h hk => Kernel.irqHandlerSetNotification_ok hk ▸ h
  refine .next hmint fun _ _ => ?_
  refine .bind ((Prog.Gives.kept (onRes_keeps hset)).catchErr fun _ =>
    .skip fun _ => .skip fun _ => .skip fun _ => .skip fun _ => .skip fun _ => .fail _) fun _ => ?_
  exact .next (outside_keeps fun _ => rfl) fun _ _ => .pure fun _ hs => hs

theorem handleIrqRegister_gives (args : IRQRegisterArgs) :
    (handleIrqRegister p args).Gives (fun _ => True) fun r s =>
      ∃ bit, InSlot (fun hndl slot => .irqRegister hndl slot bit)
        (· = .irqHandler args.irqNum) r s := by
  unfold handleIrqRegister
  refine .skip fun publishHndl => .skip fun resource => ?_
  split
  case h_2 => exact .fail _
  refine .bind (irqRegister_gives _ _) fun (bit, slot) => .next allocateHandle_keeps fun idx _ => ?_
  refine .next (new_keeps fun _ => ⟨_, _, rfl, rfl⟩) fun irq _ => ?_
  exact .next (setHandle_keeps _ _) fun _ _ => .pure fun s hs => ⟨bit, idx, slot, rfl, hs⟩

theorem handleReplyCreate_gives :
    (handleReplyCreate p).Gives (fun _ => True)
      (InSlot .replyCreate fun cap => ∃ obj, cap = .object obj .reply) := by
  have halloc : (allocRetype (.other .reply)).Gives (fun _ => True) fun x r =>
      Holds x.1 (fun cap => ∃ obj, cap = .object obj .reply) r.kernel := by
    intro r x r' _ hr
    obtain ⟨-, cap, hcap, obj, -, hobj⟩ := allocRetype_gives .reply r x r' (.start (Nat.le_refl _)) hr
    exact ⟨cap, hcap, obj, hobj⟩
  unfold handleReplyCreate
  refine .bind ((onRes_gives (I := fun _ => True) halloc).catchErr fun _ => .fail _) fun x => ?_
  refine .next allocateHandle_keeps fun idx _ => ?_
  exact .next (setHandle_keeps _ _) fun _ _ => .pure fun s hs => ⟨idx, x.1, rfl, hs⟩

/-! ## Publishing -/

/-- The badged notification of a new dispatcher is minted from a notification. -/
theorem ntfnRegister_gives {ntfn : Slot} :
    (ntfnRegister ntfn).Gives
      (fun r => Confined n k₁ r.kernel ∧
        Holds ntfn (fun cap => ∃ obj, cap = .object obj .notification) r.kernel)
      fun _ r => Confined n k₁ r.kernel := by
  unfold ntfnRegister
  refine .bind (R := fun _ r => Confined n k₁ r.kernel ∧
    Holds ntfn (fun cap => ∃ obj, cap = .object obj .notification) r.kernel) ?_ fun slot => ?_
  · refine .catchErr (fun r c r' h hr => ?_) fun _ => .fail _
    obtain ⟨hcspace, -, -⟩ := Prog.wp_ok (allocSlot_cspace r) hr
    rw [hcspace]
    exact h
  refine .bind (Prog.Gives.expect (kcall_gives (P := fun k => Confined n k₁ k ∧
    Holds ntfn (fun cap => ∃ obj, cap = .object obj .notification) k)
    (Q := Confined n k₁) fun k k' ⟨h, hntfn⟩ hk => ?_)) fun _ => .pure fun _ h => h
  obtain ⟨obj, kind, hcap, -, rfl⟩ := Kernel.mint_ok hk
  obtain ⟨_, hsrc, ntfnObj, rfl⟩ := hntfn
  rw [hsrc] at hcap
  cases hcap
  exact h.update (Nat.le_refl _) (by simp [Cap.endpoint]) rfl

/-- The endpoint of a new server did not exist before, and nothing else has got an old one. -/
theorem publishResources_gives (tcb : Slot) :
    (publishResources tcb).Gives (fun r => n ≤ r.kernel.nextObj) fun x r => ∃ k,
      Confined n k r.kernel ∧
        Holds x.1.1 (fun cap => ∃ obj, n ≤ obj ∧ cap = .object obj .endpoint) k := by
  have hep : (allocRetype (.other .endpoint)).Gives (fun r => n ≤ r.kernel.nextObj) fun x r =>
      n ≤ r.kernel.nextObj ∧
        Holds x.1 (fun cap => ∃ obj, n ≤ obj ∧ cap = .object obj .endpoint) r.kernel := by
    intro r x r' h hr
    obtain ⟨hconf, hslot⟩ := allocRetype_gives .endpoint r x r' (.start h) hr
    exact ⟨hconf.nextObj, hslot⟩
  unfold publishResources
  refine .bind (hep.catchErr fun _ => .fail _) fun ep => .start fun r₁ ⟨hn, hslot⟩ => ?_
  -- from here on nothing gets a capability that the kernel did not have at this point
  refine Prog.Gives.weaken (P := fun r => Confined n r₁.kernel r.kernel) ?_
    fun r hr => by rw [hr]; exact .start hn
  refine .bind ((allocRetype_gives .notification).catchErr fun _ => .skip fun _ => .fail _) ?_
  intro ntfn
  have hbind : (kcall fun k => k.bindNotification tcb).Gives
      (fun r => Confined n r₁.kernel r.kernel ∧
        Holds ntfn.1 (fun cap => ∃ obj, n ≤ obj ∧ cap = .object obj .notification) r.kernel)
      fun _ r => Confined n r₁.kernel r.kernel ∧
        Holds ntfn.1 (fun cap => ∃ obj, cap = .object obj .notification) r.kernel := by
    refine kcall_gives (P := fun k => Confined n r₁.kernel k ∧
      Holds ntfn.1 (fun cap => ∃ obj, n ≤ obj ∧ cap = .object obj .notification) k)
      (Q := fun k => Confined n r₁.kernel k ∧
        Holds ntfn.1 (fun cap => ∃ obj, cap = .object obj .notification) k) ?_
    intro k k' ⟨h, cap, hcap, obj, _, hobj⟩ hk
    obtain ⟨hcaps, hnext⟩ := Kernel.bindNotification_ok hk
    refine ⟨h.fewer (Nat.le_of_eq hnext.symm) fun _ _ hc => hcaps ▸ hc, cap, ?_, obj, hobj⟩
    rw [hcaps]
    exact hcap
  refine .bind (hbind.catchErr fun _ => .skip fun _ => .skip fun _ => .fail _) fun _ => ?_
  refine .bind (ntfnRegister_gives.catchErr fun _ =>
    .skip fun _ => .skip fun _ => .skip fun _ => .fail _) fun rsBadged => ?_
  refine .bind ((Prog.Gives.kept allocFrame_keeps).catchErr fun _ =>
    .skip fun _ => .skip fun _ => .skip fun _ => .skip fun _ => .fail _) fun frameRef => ?_
  exact .pure fun r hr => ⟨r₁.kernel, hr, hslot⟩

theorem overlappingWindow_keeps {I : State → Prop} {ε : Type} (start size : Nat)
    (ws : List WindowRef) :
    (overlappingWindow start size ws : SProg ε (Option WindowRef)).Keeps I fun _ => True := by
  intro s hs
  refine Prog.wp_mono (overlappingWindow_spec s start size ws) ?_ (fun _ _ h => h.elim)
    fun _ _ => trivial
  intro x s' ⟨hs', _⟩
  rw [hs']
  exact ⟨trivial, hs⟩

theorem handleConnPublish_gives (args : ConnPublishArgs) :
    (handleConnPublish p args).Gives (fun s => n ≤ s.res.kernel.nextObj)
      fun r s => ∃ hndl slot, r = .connPublish hndl slot ∧
        ∀ cap e, s.res.kernel.caps slot = some cap → cap.endpoint = some e → n ≤ e := by
  unfold handleConnPublish
  refine .next .gets_any fun found _ => .ite (.fail _) (.ite (.fail _) ?_)
  refine .next .gets_any fun top _ => .ite (.fail _) ?_
  refine .next (getProc_keeps (I := fun k => n ≤ k.nextObj)) fun u _ => ?_
  refine .next (overlappingWindow_keeps _ _ _) fun overlap _ => ?_
  cases overlap with
  | some w => exact .fail _
  | none =>
  refine .bind (onRes_gives (I := fun k => n ≤ k.nextObj) (Q := fun x k' => ∃ k, Confined n k k' ∧
    Holds x.1.1 (fun cap => ∃ obj, n ≤ obj ∧ cap = .object obj .endpoint) k)
    (publishResources_gives _)) fun (ep, ntfn, rsBadged, frameRef) => ?_
  refine .start fun s ⟨k, hk, hep⟩ => ?_
  refine Prog.Gives.weaken (P := fun s => Confined n k s.res.kernel) ?_
    fun t ht => by rw [ht]; exact hk
  refine .next (onRes_keeps (frameCap_keeps _)) fun cap _ => ?_
  refine .next (new_keeps fun _ => ⟨_, _, rfl, rfl⟩) fun w _ => .next (new_keeps fun _ => ⟨_, _, rfl, rfl⟩) fun o _ => ?_
  refine .next (new_keeps fun _ => ⟨_, _, rfl, rfl⟩) fun v _ => .next (outside_keeps fun _ => rfl) fun _ _ => ?_
  refine .next (outside_keeps fun _ => rfl) fun _ _ => .next (insertFrame_keeps _ _ _) fun _ _ => ?_
  refine .next (outside_keeps fun _ => rfl) fun _ _ => .next (outside_keeps fun _ => rfl) fun _ _ => ?_
  refine .next .gets_any fun _ _ => .next (onRes_keeps (writeFrameData_keeps _ _)) fun _ _ => ?_
  refine .next allocateHandle_keeps fun idx _ => .next (new_keeps fun _ => ⟨_, _, rfl, rfl⟩) fun srv _ => ?_
  refine .next (outside_keeps fun _ => rfl) fun _ _ => .next (setHandle_keeps _ _) fun _ _ => ?_
  refine .pure fun t ht => ⟨idx, ep.1, rfl, fun cap e hcap he => ?_⟩
  by_contra hlt
  obtain ⟨_, hslot, obj, hobj, rfl⟩ := hep
  rw [ht.caps ep.1 cap e hcap he (Nat.lt_of_not_le hlt)] at hslot
  cases hslot
  cases he
  exact hlt hobj

/-! ## All replies -/

/-- What the reply to an invocation carries. -/
theorem handleSyscall_carries {setup : Setup} {inv : Invocation} {s s' : State} {r : SMOSReply}
    {cap : Cap} (h : handleSyscall setup p inv s = .ok (some r) s')
    (hcap : replyCap setup s'.res.kernel r = some cap) :
    Carries setup s.res.kernel.nextObj inv cap := by
  have hans : Answers inv r := handleSyscall_answers inv s _ s' h r rfl
  have hrun : ∀ {m : Handler SMOSReply}, (some <$> m : Handler (Option SMOSReply)) s =
      .ok (some r) s' → m s = .ok r s' := by
    intro m hm
    obtain ⟨r', s₁, hr, heq⟩ := Prog.bind_ok (f := fun r => Pure.pure (some r)) hm
    cases heq
    exact hr
  have hnone : r.handleCapIndex = none → r.capSlot = none → False := by
    intro hidx hslot
    simp [replyCap, hidx, hslot] at hcap
  cases inv
  case windowCreate args =>
    obtain ⟨idx, rfl⟩ := hans
    cases hret : args.returnCap with
    | false => exact (hnone (by simp [SMOSReply.handleCapIndex, newHandle, hret])
        (by simp [SMOSReply.capSlot])).elim
    | true => exact ⟨idx, by simpa [replyCap, SMOSReply.handleCapIndex, newHandle, hret] using hcap⟩
  case objCreate args dmaAnswer =>
    obtain ⟨idx, rfl⟩ := hans
    cases hret : args.returnCap with
    | false => exact (hnone (by simp [SMOSReply.handleCapIndex, newHandle, hret])
        (by simp [SMOSReply.capSlot])).elim
    | true => exact ⟨idx, by simpa [replyCap, SMOSReply.handleCapIndex, newHandle, hret] using hcap⟩
  case serverCreateChannel publishHndl =>
    obtain ⟨bit, idx, rfl⟩ := hans
    exact ⟨idx, hcap⟩
  case connCreate name =>
    obtain ⟨hndl, slot, rfl, cap', hslot, badge, obj, kind, rfl⟩ :=
      handleConnCreate_gives name s r s' trivial (hrun h)
    exact ⟨obj, kind, badge, Option.some.inj (hcap.symm.trans hslot)⟩
  case serverHandleCapCreate args =>
    obtain ⟨hndl, slot, rfl, cap', hslot, obj, kind, rfl⟩ :=
      handleServerHandleCapCreate_gives args s r s' trivial (hrun h)
    exact ⟨obj, kind, Option.some.inj (hcap.symm.trans hslot)⟩
  case connPublish args =>
    obtain ⟨hndl, slot, rfl, hnew⟩ := handleConnPublish_gives args s r s' (Nat.le_refl _) (hrun h)
    exact fun e he => hnew cap e hcap he
  case replyCreate =>
    obtain ⟨hndl, slot, rfl, cap', hslot, obj, rfl⟩ := handleReplyCreate_gives s r s' trivial (hrun h)
    rw [Option.some.inj (hcap.symm.trans hslot)]
    rfl
  case irqRegister args =>
    obtain ⟨bit, hndl, slot, rfl, cap', hslot, rfl⟩ :=
      handleIrqRegister_gives args s r s' trivial (hrun h)
    rw [Option.some.inj (hcap.symm.trans hslot)]
    rfl
  case channelOpen hndlCap => trivial
  all_goals exact (hnone hans.1 hans.2).elim

end Slots

end Smos.RootServer
