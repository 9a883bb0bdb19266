/-
Smos.Drivers.Regions — the queues, data regions and channels that an sDDF
component sets up.

Each is made by a chain of calls. The first that fails ends the chain with
`?`, and what the earlier ones acquired is not given back: a window at the
region's fixed address, an object, a bit, a slot. `setup_atomic_iff` says
for each constructor when this does not show.
-/
import Smos.Drivers.Component

namespace Smos.Drivers

open Smos.Base
open Smos.RootServer (InvocationError HandleOrHandleCap pageSize4K usizeBound)
open Smos.Ipc (VirtType)

/-! ## The constructors -/

structure Queue where
  vaddr : Nat
  size : Nat
  winHndl : Nat
  objHndlCap : Option HandleOrHandleCap
  viewHndl : Nat
  deriving DecidableEq

structure DMARegion where
  vaddr : Nat
  paddr : Nat
  size : Nat
  winHndl : Nat
  objHndl : HandleOrHandleCap
  viewHndl : Nat
  deriving DecidableEq

structure DeviceRegion where
  vaddr : Nat
  paddr : Nat
  size : Nat
  winHndl : Nat
  objHndl : HandleOrHandleCap
  viewHndl : Nat
  deriving DecidableEq

/-- A channel, with the slot of the notification that `to_channel` holds. -/
structure NotificationChannel where
  fromBit : Option Nat
  fromHndlCap : Option Nat
  toChannel : Option Nat
  deriving DecidableEq

structure IrqChannel where
  bit : Nat
  irqHandler : Nat
  deriving DecidableEq

section Constructors

variable (ans : Answers)

/-- `Queue::new`. -/
def Queue.new (vaddr size : Nat) : SddfProg Queue := do
  let winHndl ← windowCreate ans vaddr size
  let objSlot ← allocSlot ans
  let objHndlCap ← objCreate ans none size .default (some objSlot)
  let viewHndl ← view ans winHndl objHndlCap 0 0 size
  pure ⟨vaddr, size, winHndl, some objHndlCap, viewHndl⟩

/-- `Queue::open`. -/
def Queue.open (vaddr size : Nat) (objHndlCap : HandleOrHandleCap) : SddfProg Queue := do
  let winHndl ← windowCreate ans vaddr size
  let viewHndl ← view ans winHndl objHndlCap 0 0 size
  pure ⟨vaddr, size, winHndl, none, viewHndl⟩

/-- `DMARegion::new`. -/
def DMARegion.new (vaddr size : Nat) (allocCap : Bool) : SddfProg DMARegion := do
  let winHndl ← windowCreate ans vaddr size
  let capArg ← if allocCap then some <$> allocSlot ans else pure none
  let objHndl ← objCreate ans none size .contiguous capArg
  let viewHndl ← view ans winHndl objHndl 0 0 size
  let stat ← objStat ans objHndl
  let paddr ← stat.paddr |> Prog.unwrap .paddr
  pure ⟨vaddr, paddr, size, winHndl, objHndl, viewHndl⟩

/-- `DMARegion::open`. -/
def DMARegion.open (objHndl : HandleOrHandleCap) (vaddr expectedSize : Nat) :
    SddfProg DMARegion := do
  let stat ← objStat ans objHndl
  if stat.size ≠ expectedSize ∨ stat.paddr.isNone then
    Prog.fail .invalidArguments
  else
    let winHndl ← windowCreate ans vaddr stat.size
    let viewHndl ← view ans winHndl objHndl 0 0 stat.size
    let paddr ← stat.paddr |> Prog.unwrap .unwrapNone
    pure ⟨vaddr, paddr, stat.size, winHndl, objHndl, viewHndl⟩

/-- `DeviceRegion::new`. -/
def DeviceRegion.new (vaddr size paddr : Nat) : SddfProg DeviceRegion := do
  let winHndl ← windowCreate ans vaddr size
  let objHndl ← objCreate ans (some paddr) size .device none
  let viewHndl ← view ans winHndl objHndl 0 0 size
  pure ⟨vaddr, paddr, size, winHndl, objHndl, viewHndl⟩

/-- `IrqChannel::new`. -/
def IrqChannel.new (irqNumber : Nat) : SddfProg IrqChannel := do
  let irqHandlerSlot ← allocSlot ans
  let bit ← irqRegister ans irqNumber irqHandlerSlot
  pure ⟨bit, irqHandlerSlot⟩

/-- `NotificationChannel::<BidirectionalChannel, T>::new`. -/
def NotificationChannel.newBidirectional (virtType : Option VirtType) :
    SddfProg NotificationChannel := do
  let fromHndlCapSlot ← allocSlot ans
  let (bit, fromHndlCap) ← serverChannelCreate ans fromHndlCapSlot
  let toHndlCapSlot ← allocSlot ans
  let toHndlCap ← registerBidirectional ans fromHndlCap virtType toHndlCapSlot
  let toChannelSlot ← allocSlot ans
  let toChannel ← channelOpen ans toHndlCap toChannelSlot
  pure ⟨some bit, some fromHndlCap, some toChannel⟩

/-- `NotificationChannel::<BidirectionalChannel, T>::open`. -/
def NotificationChannel.openBidirectional (toHndlCap : Nat) : SddfProg NotificationChannel := do
  let toSlot ← allocSlot ans
  let toChannel ← channelOpen ans toHndlCap toSlot
  let fromHndlCapSlot ← allocSlot ans
  let (bit, fromHndlCap) ← serverChannelCreate ans fromHndlCapSlot
  pure ⟨some bit, some fromHndlCap, some toChannel⟩

/-- `NotificationChannel::<SendOnlyChannel, T>::open`. -/
def NotificationChannel.openSendOnly (toHndlCap : Nat) : SddfProg NotificationChannel := do
  let toSlot ← allocSlot ans
  let toChannel ← channelOpen ans toHndlCap toSlot
  pure ⟨none, none, some toChannel⟩

/-- `NotificationChannel::<RecieveOnlyChannel, PPCAllowed>::new`. -/
def NotificationChannel.newRecvOnly : SddfProg NotificationChannel := do
  let fromHndlCapSlot ← allocSlot ans
  let (bit, fromHndlCap) ← serverChannelCreate ans fromHndlCapSlot
  registerRecvOnly ans fromHndlCap
  pure ⟨some bit, some fromHndlCap, none⟩

end Constructors

/-! ## When nothing is left behind -/

/-- The root server makes the window. -/
structure Granted (ans : Answers) (c : Component) (start size : Nat) : Prop where
  fits : start + size < usizeBound
  admits : c.held.Admits start size
  answer : (ans.windowCreate c.calls).isOk

/-- A call of one of the constructors. -/
inductive Setup where
  | queueNew (vaddr size : Nat)
  | queueOpen (vaddr size : Nat) (objHndlCap : HandleOrHandleCap)
  | dmaNew (vaddr size : Nat) (allocCap : Bool)
  | dmaOpen (objHndl : HandleOrHandleCap) (vaddr expectedSize : Nat)
  | channelNew (virtType : Option VirtType)
  | channelOpen (toHndlCap : Nat)
  | sendOnlyOpen (toHndlCap : Nat)
  | recvOnlyNew

/-- A returned error leaves the component's holdings as they were. -/
def Setup.Atomic (ans : Answers) (c : Component) : Setup → Prop
  | .queueNew vaddr size => Prog.Atomic Component.held (Queue.new ans vaddr size) c
  | .queueOpen vaddr size cap => Prog.Atomic Component.held (Queue.open ans vaddr size cap) c
  | .dmaNew vaddr size allocCap =>
    Prog.Atomic Component.held (DMARegion.new ans vaddr size allocCap) c
  | .dmaOpen hndl vaddr expectedSize =>
    Prog.Atomic Component.held (DMARegion.open ans hndl vaddr expectedSize) c
  | .channelNew virtType =>
    Prog.Atomic Component.held (NotificationChannel.newBidirectional ans virtType) c
  | .channelOpen cap => Prog.Atomic Component.held (NotificationChannel.openBidirectional ans cap) c
  | .sendOnlyOpen cap => Prog.Atomic Component.held (NotificationChannel.openSendOnly ans cap) c
  | .recvOnlyNew => Prog.Atomic Component.held (NotificationChannel.newRecvOnly ans) c

/-- Once the first thing has been acquired, no later call fails. -/
def Setup.LaterSucceed (ans : Answers) (c : Component) : Setup → Prop
  | .queueNew vaddr size => Granted ans c vaddr size →
    (ans.allocSlot (c.calls + 1)).isSome ∧ (ans.objCreate (c.calls + 2)).isOk ∧
      (ans.view (c.calls + 3)).isOk
  | .queueOpen vaddr size _ => Granted ans c vaddr size → (ans.view (c.calls + 1)).isOk
  | .dmaNew vaddr size true => Granted ans c vaddr size →
    (ans.allocSlot (c.calls + 1)).isSome ∧ (ans.objCreate (c.calls + 2)).isOk ∧
      (ans.view (c.calls + 3)).isOk ∧ (ans.objStat (c.calls + 4)).isOk
  | .dmaNew vaddr size false => Granted ans c vaddr size →
    (ans.objCreate (c.calls + 1)).isOk ∧ (ans.view (c.calls + 2)).isOk ∧
      (ans.objStat (c.calls + 3)).isOk
  | .dmaOpen _ vaddr expectedSize => ∀ stat, ans.objStat c.calls = .ok stat →
    stat.size = expectedSize → stat.paddr.isSome → Granted ans c.called vaddr expectedSize →
      (ans.view (c.calls + 2)).isOk
  | .channelNew _ => (ans.allocSlot c.calls).isSome →
    (ans.serverChannelCreate (c.calls + 1)).isOk ∧ (ans.allocSlot (c.calls + 2)).isSome ∧
      (ans.registerBidirectional (c.calls + 3)).isOk ∧ (ans.allocSlot (c.calls + 4)).isSome ∧
        (ans.channelOpen (c.calls + 5)).isOk
  | .channelOpen _ => (ans.allocSlot c.calls).isSome →
    (ans.channelOpen (c.calls + 1)).isOk ∧ (ans.allocSlot (c.calls + 2)).isSome ∧
      (ans.serverChannelCreate (c.calls + 3)).isOk
  | .sendOnlyOpen _ => (ans.allocSlot c.calls).isSome → (ans.channelOpen (c.calls + 1)).isOk
  | .recvOnlyNew => (ans.allocSlot c.calls).isSome →
    (ans.serverChannelCreate (c.calls + 1)).isOk ∧ (ans.registerRecvOnly (c.calls + 2)).isOk

/-! ## The calls of a chain -/

section Chains

variable {ans : Answers} {c : Component} {β : Type}

theorem addHandleCap_size (slot : Nat) (h : Holdings) :
    (h.addHandleCap slot).size = h.size + 1 := by
  simp only [Holdings.size, Holdings.addHandleCap, List.length_cons]
  omega

theorem addSlot_size (slot : Nat) (h : Holdings) : (h.addSlot slot).size = h.size + 1 := by
  simp only [Holdings.size, Holdings.addSlot, List.length_cons]
  omega

theorem addWindow_size (hndl : Nat) (w : Window) (h : Holdings) :
    (h.addWindow hndl w).size = h.size + 1 := by
  simp only [Holdings.size, Holdings.addWindow, List.length_cons]
  omega

theorem addView_size (hndl : Nat) (v : View) (h : Holdings) :
    (h.addView hndl v).size = h.size + 1 := by
  simp only [Holdings.size, Holdings.addView, List.length_cons]
  omega

theorem addBit_size (bit : Nat) (h : Holdings) : (h.addBit bit).size = h.size + 1 := by
  simp only [Holdings.size, Holdings.addBit, List.length_cons]
  omega

theorem addObject_size (hndl : HandleOrHandleCap) (h : Holdings) :
    h.size < (h.addObject hndl).size := by
  cases hndl <;> simp only [Holdings.size, Holdings.addObject, List.length_cons] <;> omega

theorem allocSlot_grows : Prog.Grows Component.size (allocSlot ans) :=
  ask_grows fun slot h => Nat.le_of_lt (by rw [addSlot_size]; omega)

theorem view_grows {w woff ooff size : Nat} {o : HandleOrHandleCap} :
    Prog.Grows Component.size (view ans w o woff ooff size) :=
  ask_grows fun hndl h => Nat.le_of_lt (by rw [addView_size]; omega)

theorem objStat_grows {o : HandleOrHandleCap} : Prog.Grows Component.size (objStat ans o) :=
  ask_grows fun _ _ => Nat.le_refl _

theorem objCreate_grows {paddr : Option Nat} {size : Nat} {attributes : ObjAttributes}
    {returnCap : Option Nat} :
    Prog.Grows Component.size (objCreate ans paddr size attributes returnCap) := by
  intro c
  unfold Prog.wp objCreate
  cases ans.objCreate c.calls with
  | ok idx => exact Nat.le_of_lt (addObject_size _ c.held)
  | error e => exact Nat.le_refl _

theorem serverChannelCreate_grows {slot : Nat} :
    Prog.Grows Component.size (serverChannelCreate ans slot) :=
  (ask_grows fun bit h => by rw [addHandleCap_size, addBit_size]; omega).bind fun _ => .pure _

theorem channelOpen_grows {cap slot : Nat} : Prog.Grows Component.size (channelOpen ans cap slot) :=
  (ask_grows fun _ _ => Nat.le_refl _).bind fun _ => .pure _

theorem registerBidirectional_grows {cap slot : Nat} {virtType : Option VirtType} :
    Prog.Grows Component.size (registerBidirectional ans cap virtType slot) :=
  (ask_grows fun _ h => by rw [addHandleCap_size]; omega).bind fun _ => .pure _

theorem registerRecvOnly_grows {cap : Nat} : Prog.Grows Component.size (registerRecvOnly ans cap) :=
  ask_grows fun _ _ => Nat.le_refl _

theorem succeeds_objCreate {f : HandleOrHandleCap → SddfProg β} {paddr : Option Nat} {size : Nat}
    {attributes : ObjAttributes} {returnCap : Option Nat} {P : Prop}
    (hf : ∀ hndl, Prog.Succeeds (f hndl) (c.called.hold (Holdings.addObject hndl)) ↔ P) :
    Prog.Succeeds (objCreate ans paddr size attributes returnCap >>= f) c ↔
      (ans.objCreate c.calls).isOk ∧ P := by
  cases h : ans.objCreate c.calls with
  | ok idx =>
    rw [Prog.succeeds_bind_of_ok (by unfold objCreate; rw [h]), hf]
    simp [Except.isOk, Except.toBool]
  | error e =>
    have herr : objCreate ans paddr size attributes returnCap c = .err e c.called := by
      unfold objCreate
      rw [h]
    simp [Prog.succeeds_bind_of_err herr, Except.isOk, Except.toBool]

/-- `alloc_slot` answers a slot. -/
theorem allocSlot_isOk {n : Nat} :
    ((ans.allocSlot n).elim (.error InvocationError.insufficientResources) Except.ok).isOk =
      (ans.allocSlot n).isSome := by
  cases ans.allocSlot n <;> rfl

theorem succeeds_allocSlot {f : Nat → SddfProg β} {P : Prop}
    (hf : ∀ slot, Prog.Succeeds (f slot) (c.called.hold (Holdings.addSlot slot)) ↔ P) :
    Prog.Succeeds (allocSlot ans >>= f) c ↔ (ans.allocSlot c.calls).isSome ∧ P := by
  unfold allocSlot
  rw [succeeds_ask hf, allocSlot_isOk]

/-- A chain that starts with a slot. -/
theorem atomic_allocSlot {f : Nat → SddfProg β} {P : Prop}
    (hgrows : ∀ slot, Prog.Grows Component.size (f slot))
    (hf : ∀ slot, Prog.Succeeds (f slot) (c.called.hold (Holdings.addSlot slot)) ↔ P) :
    Prog.Atomic Component.held (allocSlot ans >>= f) c ↔ ((ans.allocSlot c.calls).isSome → P) := by
  unfold allocSlot
  rw [atomic_ask (fun slot h => by rw [addSlot_size]; omega) hgrows hf, allocSlot_isOk]

theorem windowCreate_admitted {start size : Nat} (hfits : start + size < usizeBound)
    (hadm : c.held.Admits start size) :
    windowCreate ans start size c =
      ask ans.windowCreate (fun hndl => Holdings.addWindow hndl ⟨start, size⟩) c := by
  unfold windowCreate
  rw [Prog.gets_bind, if_neg (not_not.mpr hadm.1), if_neg (Nat.not_le_of_lt hfits), if_pos hadm.2]

/-- A window that the root server does not let through is an error, or the end of the server. -/
theorem windowCreate_refused (ans : Answers) {start size : Nat}
    (h : start + size < usizeBound → ¬ c.held.Admits start size) :
    (∃ e, windowCreate ans start size c = .err e c) ∨
      windowCreate ans start size c = .panic .rootServer := by
  unfold windowCreate
  rw [Prog.gets_bind]
  by_cases halign : start % pageSize4K = 0
  · rw [if_neg (not_not.mpr halign)]
    by_cases hfits : usizeBound ≤ start + size
    · rw [if_pos hfits]
      exact .inr rfl
    · have hover : ¬ ∀ w ∈ c.held.windows, ¬ w.2.overlaps start size :=
        fun hall => h (Nat.lt_of_not_le hfits) ⟨halign, hall⟩
      rw [if_neg hfits, if_neg hover]
      exact .inl ⟨_, rfl⟩
  · rw [if_pos halign]
    exact .inl ⟨_, rfl⟩

/-- A chain that starts with a window. -/
theorem atomic_windowCreate {f : Nat → SddfProg β} {start size : Nat} {P : Prop}
    (hgrows : ∀ hndl, Prog.Grows Component.size (f hndl))
    (hf : ∀ hndl, Prog.Succeeds (f hndl)
      (c.called.hold (Holdings.addWindow hndl ⟨start, size⟩)) ↔ P) :
    Prog.Atomic Component.held (windowCreate ans start size >>= f) c ↔
      (Granted ans c start size → P) := by
  by_cases hadmitted : start + size < usizeBound ∧ c.held.Admits start size
  · -- the answer decides
    obtain ⟨hfits, hadm⟩ := hadmitted
    have hask : Prog.Atomic Component.held (ask ans.windowCreate
        (fun hndl => Holdings.addWindow hndl ⟨start, size⟩) >>= f) c ↔ _ :=
      atomic_ask (fun hndl h => by rw [addWindow_size]; omega) hgrows hf
    have hsame : (windowCreate ans start size >>= f) c = _ :=
      Prog.bind_congr_at (windowCreate_admitted hfits hadm)
    unfold Prog.Atomic at hask ⊢
    rw [hsame, hask]
    exact ⟨fun h hg => h hg.answer, fun h hok => h ⟨hfits, hadm, hok⟩⟩
  · refine ⟨fun _ hg => absurd ⟨hg.fits, hg.admits⟩ hadmitted, fun _ => ?_⟩
    rcases windowCreate_refused ans (not_and.mp hadmitted) with ⟨e, herr⟩ | hpanic
    · exact Prog.atomic_bind_of_err herr rfl
    · exact Prog.atomic_bind_of_panic hpanic

theorem succeeds_serverChannelCreate {f : Nat × Nat → SddfProg β} {slot : Nat} {P : Prop}
    (hf : ∀ bit, Prog.Succeeds (f (bit, slot))
      (c.called.hold fun h => (h.addBit bit).addHandleCap slot) ↔ P) :
    Prog.Succeeds (serverChannelCreate ans slot >>= f) c ↔
      (ans.serverChannelCreate c.calls).isOk ∧ P := by
  unfold serverChannelCreate
  rw [Prog.bind_assoc]
  exact succeeds_ask hf

theorem succeeds_channelOpen {f : Nat → SddfProg β} {cap slot : Nat} {P : Prop}
    (hf : Prog.Succeeds (f slot) (c.called.hold id) ↔ P) :
    Prog.Succeeds (channelOpen ans cap slot >>= f) c ↔ (ans.channelOpen c.calls).isOk ∧ P := by
  unfold channelOpen
  rw [Prog.bind_assoc]
  exact succeeds_ask fun _ => hf

theorem succeeds_registerBidirectional {f : Nat → SddfProg β} {cap slot : Nat}
    {virtType : Option VirtType} {P : Prop}
    (hf : Prog.Succeeds (f slot) (c.called.hold (Holdings.addHandleCap slot)) ↔ P) :
    Prog.Succeeds (registerBidirectional ans cap virtType slot >>= f) c ↔
      (ans.registerBidirectional c.calls).isOk ∧ P := by
  unfold registerBidirectional
  rw [Prog.bind_assoc]
  exact succeeds_ask fun _ => hf

/-- The end of a chain. -/
theorem succeeds_end {α : Type} (a : α) : Prog.Succeeds (pure a : SddfProg α) c ↔ True :=
  iff_true_intro (Prog.succeeds_pure a)

end Chains

/-! ## Each constructor -/

section Each

variable {ans : Answers} {c : Component}

theorem queueOpen_atomic_iff (vaddr size : Nat) (cap : HandleOrHandleCap) :
    Prog.Atomic Component.held (Queue.open ans vaddr size cap) c ↔
      (Granted ans c vaddr size → (ans.view (c.calls + 1)).isOk ∧ True) :=
  atomic_windowCreate (fun _ => .bind view_grows fun _ => .pure _)
    fun _ => succeeds_ask fun _ => succeeds_end _

theorem queueNew_atomic_iff (vaddr size : Nat) :
    Prog.Atomic Component.held (Queue.new ans vaddr size) c ↔
      (Granted ans c vaddr size → (ans.allocSlot (c.calls + 1)).isSome ∧
        (ans.objCreate (c.calls + 2)).isOk ∧ (ans.view (c.calls + 3)).isOk ∧ True) := by
  refine atomic_windowCreate (fun _ => ?_) fun _ => ?_
  · exact .bind allocSlot_grows fun _ => .bind objCreate_grows fun _ =>
      .bind view_grows fun _ => .pure _
  · exact succeeds_allocSlot fun _ => succeeds_objCreate fun _ => succeeds_ask fun _ =>
      succeeds_end _

/-- The end of `DMARegion::new`, once it has its window and knows its slot. -/
theorem dmaNew_rest (vaddr size winHndl : Nat) (capArg : Option Nat) (c : Component) :
    Prog.Succeeds (do
      let objHndl ← objCreate ans none size .contiguous capArg
      let viewHndl ← view ans winHndl objHndl 0 0 size
      let stat ← objStat ans objHndl
      let paddr ← stat.paddr |> Prog.unwrap .paddr
      pure (⟨vaddr, paddr, size, winHndl, objHndl, viewHndl⟩ : DMARegion)) c ↔
    (ans.objCreate c.calls).isOk ∧ (ans.view (c.calls + 1)).isOk ∧
      (ans.objStat (c.calls + 2)).isOk ∧ True :=
  succeeds_objCreate fun _ => succeeds_ask fun _ => succeeds_ask fun stat =>
    iff_true_intro (Prog.succeeds_unwrap_bind _ stat.paddr fun _ => Prog.succeeds_pure _)

theorem dmaNew_rest_grows {vaddr size winHndl : Nat} {capArg : Option Nat} :
    Prog.Grows Component.size (do
      let objHndl ← objCreate ans none size .contiguous capArg
      let viewHndl ← view ans winHndl objHndl 0 0 size
      let stat ← objStat ans objHndl
      let paddr ← stat.paddr |> Prog.unwrap .paddr
      pure (⟨vaddr, paddr, size, winHndl, objHndl, viewHndl⟩ : DMARegion)) :=
  .bind objCreate_grows fun _ => .bind view_grows fun _ => .bind objStat_grows fun _ =>
    .bind (.unwrap _ _) fun _ => .pure _

theorem dmaNew_atomic_iff (vaddr size : Nat) (allocCap : Bool) :
    Prog.Atomic Component.held (DMARegion.new ans vaddr size allocCap) c ↔
      (Setup.dmaNew vaddr size allocCap).LaterSucceed ans c := by
  unfold DMARegion.new
  cases allocCap with
  | false =>
    refine (atomic_windowCreate (P := (ans.objCreate (c.calls + 1)).isOk ∧
      (ans.view (c.calls + 2)).isOk ∧ (ans.objStat (c.calls + 3)).isOk ∧ True)
      (fun _ => ?_) fun _ => ?_).trans ?_
    · exact .bind (.pure _) fun _ => dmaNew_rest_grows
    · exact dmaNew_rest ..
    · simp only [Setup.LaterSucceed, and_true]
  | true =>
    refine (atomic_windowCreate (P := (ans.allocSlot (c.calls + 1)).isSome ∧
      (ans.objCreate (c.calls + 2)).isOk ∧ (ans.view (c.calls + 3)).isOk ∧
        (ans.objStat (c.calls + 4)).isOk ∧ True) (fun _ => ?_) fun _ => ?_).trans ?_
    · simp only [if_true, Prog.map_bind]
      exact .bind allocSlot_grows fun _ => dmaNew_rest_grows
    · simp only [if_true, Prog.map_bind]
      exact succeeds_allocSlot fun _ => dmaNew_rest ..
    · simp only [Setup.LaterSucceed, and_true]

theorem dmaOpen_atomic_iff (hndl : HandleOrHandleCap) (vaddr expectedSize : Nat) :
    Prog.Atomic Component.held (DMARegion.open ans hndl vaddr expectedSize) c ↔
      ∀ stat, ans.objStat c.calls = .ok stat → stat.size = expectedSize → stat.paddr.isSome →
        Granted ans c.called vaddr expectedSize → (ans.view (c.calls + 2)).isOk := by
  unfold DMARegion.open objStat
  cases hstat : ans.objStat c.calls with
  | error e =>
    refine iff_of_true (Prog.atomic_bind_of_err (ask_err hstat) rfl) ?_
    intro stat h
    cases h
  | ok stat =>
    rw [Prog.atomic_bind_kept (ask_ok hstat) rfl]
    split
    · next hbad =>
      refine iff_of_true (Prog.atomic_fail _) ?_
      intro _ h hsize hpaddr
      obtain rfl := Except.ok.inj h
      rcases hbad with hne | hnone
      · exact absurd hsize hne
      · rw [Option.isNone_iff_eq_none.mp hnone] at hpaddr
        cases hpaddr
    · next hgood =>
      simp only [not_or, not_not] at hgood
      obtain ⟨rfl, hpaddr⟩ := hgood
      refine (atomic_windowCreate (P := (ans.view (c.calls + 2)).isOk ∧ True)
        (fun _ => ?_) fun _ => ?_).trans ?_
      · exact .bind view_grows fun _ => .bind (.unwrap _ _) fun _ => .pure _
      · exact succeeds_ask fun _ =>
          iff_true_intro (Prog.succeeds_unwrap_bind _ stat.paddr fun _ => Prog.succeeds_pure _)
      · constructor
        · intro h _ hs _ _ hg
          obtain rfl := Except.ok.inj hs
          exact (h hg).1
        · intro h hg
          refine ⟨h stat rfl rfl ?_ hg, trivial⟩
          cases hp : stat.paddr with
          | none => simp [hp] at hpaddr
          | some _ => rfl

theorem channelNew_atomic_iff (virtType : Option VirtType) :
    Prog.Atomic Component.held (NotificationChannel.newBidirectional ans virtType) c ↔
      ((ans.allocSlot c.calls).isSome → (ans.serverChannelCreate (c.calls + 1)).isOk ∧
        (ans.allocSlot (c.calls + 2)).isSome ∧ (ans.registerBidirectional (c.calls + 3)).isOk ∧
          (ans.allocSlot (c.calls + 4)).isSome ∧ (ans.channelOpen (c.calls + 5)).isOk ∧ True) := by
  refine atomic_allocSlot (fun _ => ?_) fun _ => ?_
  · exact .bind serverChannelCreate_grows fun _ => .bind allocSlot_grows fun _ =>
      .bind registerBidirectional_grows fun _ => .bind allocSlot_grows fun _ =>
        .bind channelOpen_grows fun _ => .pure _
  · exact succeeds_serverChannelCreate fun _ => succeeds_allocSlot fun _ =>
      succeeds_registerBidirectional (succeeds_allocSlot fun _ =>
        succeeds_channelOpen (succeeds_end _))

theorem channelOpen_atomic_iff (cap : Nat) :
    Prog.Atomic Component.held (NotificationChannel.openBidirectional ans cap) c ↔
      ((ans.allocSlot c.calls).isSome → (ans.channelOpen (c.calls + 1)).isOk ∧
        (ans.allocSlot (c.calls + 2)).isSome ∧
          (ans.serverChannelCreate (c.calls + 3)).isOk ∧ True) := by
  refine atomic_allocSlot (fun _ => ?_) fun _ => ?_
  · exact .bind channelOpen_grows fun _ => .bind allocSlot_grows fun _ =>
      .bind serverChannelCreate_grows fun _ => .pure _
  · exact succeeds_channelOpen (succeeds_allocSlot fun _ =>
      succeeds_serverChannelCreate fun _ => succeeds_end _)

theorem sendOnlyOpen_atomic_iff (cap : Nat) :
    Prog.Atomic Component.held (NotificationChannel.openSendOnly ans cap) c ↔
      ((ans.allocSlot c.calls).isSome → (ans.channelOpen (c.calls + 1)).isOk ∧ True) :=
  atomic_allocSlot (fun _ => .bind channelOpen_grows fun _ => .pure _)
    fun _ => succeeds_channelOpen (succeeds_end _)

theorem recvOnlyNew_atomic_iff :
    Prog.Atomic Component.held (NotificationChannel.newRecvOnly ans) c ↔
      ((ans.allocSlot c.calls).isSome → (ans.serverChannelCreate (c.calls + 1)).isOk ∧
        (ans.registerRecvOnly (c.calls + 2)).isOk ∧ True) := by
  refine atomic_allocSlot (fun _ => ?_) fun _ => ?_
  · exact .bind serverChannelCreate_grows fun _ => .bind registerRecvOnly_grows fun _ =>
      .pure _
  · exact succeeds_serverChannelCreate fun _ => succeeds_ask fun _ => succeeds_end _

end Each

/-- A constructor that returns an error leaves nothing behind exactly when its first acquisition
fails, or no later call does. -/
theorem setup_atomic_iff (ans : Answers) (c : Component) (setup : Setup) :
    setup.Atomic ans c ↔ setup.LaterSucceed ans c := by
  cases setup with
  | queueNew vaddr size =>
    simpa only [Setup.Atomic, Setup.LaterSucceed, and_true] using queueNew_atomic_iff vaddr size
  | queueOpen vaddr size cap =>
    simpa only [Setup.Atomic, Setup.LaterSucceed, and_true] using
      queueOpen_atomic_iff vaddr size cap
  | dmaNew vaddr size allocCap => exact dmaNew_atomic_iff vaddr size allocCap
  | dmaOpen hndl vaddr expectedSize => exact dmaOpen_atomic_iff hndl vaddr expectedSize
  | channelNew virtType =>
    simpa only [Setup.Atomic, Setup.LaterSucceed, and_true] using channelNew_atomic_iff virtType
  | channelOpen cap =>
    simpa only [Setup.Atomic, Setup.LaterSucceed, and_true] using channelOpen_atomic_iff cap
  | sendOnlyOpen cap =>
    simpa only [Setup.Atomic, Setup.LaterSucceed, and_true] using sendOnlyOpen_atomic_iff cap
  | recvOnlyNew =>
    simpa only [Setup.Atomic, Setup.LaterSucceed, and_true] using recvOnlyNew_atomic_iff

/-! ## What a retry runs into -/

/-- A window at the region's address refuses every other one there. -/
theorem overlaps_again {h : Holdings} {hndl : Nat} {w : Window} (hw : (hndl, w) ∈ h.windows)
    (hsize : 0 < w.size) (size : Nat) : ¬ ∀ w' ∈ h.windows, ¬ w'.2.overlaps w.start size := by
  intro hall
  refine hall _ hw ?_
  have hlt : w.start < w.start + w.size := Nat.lt_add_of_pos_right hsize
  simp [Window.overlaps, hlt]

/-- A failed `Queue::open` that got its window makes every retry at the address fail. -/
theorem queueOpen_retry (ans : Answers) (c c' : Component) (vaddr size : Nat)
    (cap : HandleOrHandleCap) (e : InvocationError) (hsize : 0 < size)
    (hg : Granted ans c vaddr size) (he : Queue.open ans vaddr size cap c = .err e c')
    (ans' : Answers) (cap' : HandleOrHandleCap) :
    Queue.open ans' vaddr size cap' c' = .err .invalidArguments c' := by
  obtain ⟨hndl, hw⟩ := isOk_iff.mp hg.answer
  have hwin : windowCreate ans vaddr size c = _ := windowCreate_admitted hg.fits hg.admits
  rw [ask_ok hw] at hwin
  unfold Queue.open view at he
  rw [Prog.bind_of_ok hwin] at he
  -- the error is that of the view
  have hc' : (hndl, (⟨vaddr, size⟩ : Window)) ∈ c'.held.windows := by
    cases hv : ans.view (c.calls + 1) with
    | ok v =>
      rw [Prog.bind_of_ok (ask_ok hv)] at he
      cases he
    | error e' =>
      rw [Prog.bind_of_err (ask_err (c := c.called.hold _) hv)] at he
      obtain ⟨rfl, rfl⟩ := Outcome.err.inj he
      exact List.mem_cons_self ..
  refine Prog.bind_of_err (m := windowCreate ans' vaddr size) ?_
  unfold windowCreate
  rw [Prog.gets_bind, if_neg (not_not.mpr hg.admits.1), if_neg (Nat.not_le_of_lt hg.fits),
    if_neg (overlaps_again hc' hsize size)]
  rfl

/-- Every call succeeds but the first `view`. -/
def viewRefused : Answers where
  allocSlot n := some n
  windowCreate n := .ok n
  objCreate n := .ok n
  view n := if n = 1 then .error .insufficientResources else .ok n
  objStat _ := .ok ⟨0x1000, some 0x60000000⟩
  serverChannelCreate n := .ok n
  channelOpen _ := .ok ()
  registerBidirectional _ := .ok ()
  registerRecvOnly _ := .ok ()
  peer _ := .ok ()
  irqRegister n := .ok n
  connRegister n := .ok n

/-- A component that holds nothing but the window of its notification buffer. -/
def published : Component := ⟨⟨[(0, ⟨0xB0000, 0x1000⟩)], [], [], [], [], []⟩, 0⟩

/-- The window of a queue whose view was refused is left, and so is every retry. -/
theorem setup_not_atomic :
    ¬ (Setup.queueOpen 0xC000000 0x200000 (.handleCap 7)).Atomic viewRefused published ∧
      ∃ e c', Queue.open viewRefused 0xC000000 0x200000 (.handleCap 7) published = .err e c' ∧
        ∀ ans cap, Queue.open ans 0xC000000 0x200000 cap c' = .err .invalidArguments c' := by
  have hg : Granted viewRefused published 0xC000000 0x200000 :=
    ⟨by decide, by decide, by decide⟩
  constructor
  · intro h
    exact absurd ((queueOpen_atomic_iff ..).mp h hg).1 (by decide)
  · refine ⟨_, _, rfl, fun ans cap => ?_⟩
    exact queueOpen_retry viewRefused published _ _ _ (.handleCap 7) _ (by decide) hg rfl ans cap

end Smos.Drivers
