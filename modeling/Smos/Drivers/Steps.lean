/-
Smos.Drivers.Steps — what one invocation does to a client.

`Grown` says how a component's holdings change while it runs: nothing is
given back, and every new window starts at one of the addresses the
component reserves. `ClientStep` lists what a handler can do to its client:
nothing, record a channel, open a queue or the data region at the address
reserved for it, or set the flag. Where a component keeps its regions and
what it asks for before it opens them is its `Layout`; `handler_step` has
one proof for each component.
-/
import Smos.Drivers.Virtualizers

namespace Smos.Drivers

open Smos.Base
open Smos.RootServer (InvocationError HandleOrHandleCap)
open Smos.Ipc (QueueType VirtType)

/-! ## Holdings that grow -/

/-- Windows and views stay, and new windows start at `lo` or above. -/
structure Grown (lo : Nat) (h h' : Holdings) : Prop where
  windows : ∀ w ∈ h.windows, w ∈ h'.windows
  views : ∀ v ∈ h.views, v ∈ h'.views
  fresh : ∀ w ∈ h'.windows, w ∈ h.windows ∨ lo ≤ w.2.start

/-- The window and the view of a region are there, and are all of it. -/
structure Holdings.Maps (h : Holdings) (winHndl viewHndl vaddr size : Nat) : Prop where
  window : (winHndl, ⟨vaddr, size⟩) ∈ h.windows
  view : (viewHndl, ⟨winHndl, 0, size⟩) ∈ h.views

def Queue.MappedIn (q : Queue) (h : Holdings) : Prop := h.Maps q.winHndl q.viewHndl q.vaddr q.size

def DMARegion.MappedIn (r : DMARegion) (h : Holdings) : Prop :=
  h.Maps r.winHndl r.viewHndl r.vaddr r.size

/-- The region's window is the only new one, and does not start or end in one that was there. -/
structure DMARegion.Opened (r : DMARegion) (h h' : Holdings) : Prop where
  apart : ∀ w ∈ h.windows, w.2.overlaps r.vaddr r.size = false
  windows : h'.windows = (r.winHndl, ⟨r.vaddr, r.size⟩) :: h.windows

namespace Grown

variable {lo : Nat} {h h' h'' : Holdings}

theorem refl (lo : Nat) (h : Holdings) : Grown lo h h :=
  ⟨fun _ hw => hw, fun _ hv => hv, fun _ hw => .inl hw⟩

theorem trans (h₁ : Grown lo h h') (h₂ : Grown lo h' h'') : Grown lo h h'' where
  windows w hw := h₂.windows w (h₁.windows w hw)
  views v hv := h₂.views v (h₁.views v hv)
  fresh w hw := by
    rcases h₂.fresh w hw with hold | hnew
    · exact h₁.fresh w hold
    · exact .inr hnew

theorem mono {lo' : Nat} (hle : lo' ≤ lo) (hg : Grown lo h h') : Grown lo' h h' where
  windows := hg.windows
  views := hg.views
  fresh w hw := (hg.fresh w hw).imp_right fun hlo => Nat.le_trans hle hlo

theorem maps {win vh vaddr size : Nat} (hg : Grown lo h h') (hm : h.Maps win vh vaddr size) :
    h'.Maps win vh vaddr size :=
  ⟨hg.windows _ hm.window, hg.views _ hm.view⟩

/-- A change that leaves windows and views alone. -/
theorem of_eq (hw : h'.windows = h.windows) (hv : h'.views = h.views) : Grown lo h h' where
  windows _ hmem := hw ▸ hmem
  views _ hmem := hv ▸ hmem
  fresh _ hmem := .inl (hw ▸ hmem)

theorem addWindow (hndl : Nat) (w : Window) (hlo : lo ≤ w.start) :
    Grown lo h (h.addWindow hndl w) where
  windows _ hw := List.mem_cons_of_mem _ hw
  views _ hv := hv
  fresh x hx := by
    rcases List.mem_cons.mp hx with rfl | hold
    · exact .inr hlo
    · exact .inl hold

theorem addView (hndl : Nat) (v : View) : Grown lo h (h.addView hndl v) where
  windows _ hw := hw
  views _ hv := List.mem_cons_of_mem _ hv
  fresh _ hx := .inl hx

theorem addObject (hndl : HandleOrHandleCap) : Grown lo h (h.addObject hndl) := by
  cases hndl <;> exact of_eq rfl rfl

end Grown

/-! ## The calls -/

/-- A program after which the holdings have grown, and that returns what `Q` says. -/
def Makes (lo : Nat) {ε α : Type} (Q : α → Holdings → Prop) (m : Prog SddfPanic Component ε α) :
    Prop :=
  ∀ c, m.wp (fun a c' => Grown lo c.held c'.held ∧ Q a c'.held)
    (fun _ c' => Grown lo c.held c'.held) (fun _ => True) c

namespace Makes

variable {lo : Nat} {ε ε' α β : Type} {Q : α → Holdings → Prop} {R : β → Holdings → Prop}

theorem pure {a : α} (ha : ∀ h, Q a h) : Makes lo Q (pure a : Prog SddfPanic Component ε α) :=
  fun c => ⟨.refl lo c.held, ha c.held⟩

theorem fail (e : ε) : Makes lo Q (Prog.fail e : Prog SddfPanic Component ε α) :=
  fun c => .refl lo c.held

theorem unwrap (p : SddfPanic) (o : Option α) (ho : ∀ a h, o = some a → Q a h) :
    Makes lo Q (Prog.unwrap p o : Prog SddfPanic Component ε α) := by
  cases o with
  | some a => exact pure fun h => ho a h rfl
  | none => exact fun _ => trivial

theorem ask {answers : Nat → Except InvocationError α} {add : α → Holdings → Holdings}
    (hadd : ∀ a h, Grown lo h (add a h) ∧ Q a (add a h)) : Makes lo Q (ask answers add) := by
  intro c
  unfold Prog.wp Drivers.ask
  cases answers c.calls with
  | ok a => exact hadd a c.held
  | error e => exact .refl lo c.held

theorem expect {m : Prog SddfPanic Component ε' α} (p : SddfPanic) (hm : Makes lo Q m) :
    Makes lo Q (m.expect p : Prog SddfPanic Component ε α) := by
  intro c
  rw [Prog.wp_expect]
  exact Prog.wp_mono (hm c) (fun _ _ h => h) (fun _ _ _ => trivial) fun _ h => h

/-- The second program starts where the first one left what it returned. -/
theorem bind {m : Prog SddfPanic Component ε α} {f : α → Prog SddfPanic Component ε β}
    (hm : Makes lo Q m)
    (hf : ∀ a c, Q a c.held → (f a).wp (fun b c' => Grown lo c.held c'.held ∧ R b c'.held)
      (fun _ c' => Grown lo c.held c'.held) (fun _ => True) c) :
    Makes lo R (m >>= f) := by
  intro c
  rw [Prog.wp_bind]
  refine Prog.wp_mono (hm c) ?_ (fun _ _ h => h) fun _ h => h
  rintro a c₁ ⟨hg, hq⟩
  refine Prog.wp_mono (hf a c₁ hq) ?_ ?_ fun _ h => h
  · rintro b c₂ ⟨hg', hr⟩
    exact ⟨hg.trans hg', hr⟩
  · intro _ c₂ hg'
    exact hg.trans hg'

/-- What the first program returned does not matter to the second. -/
theorem then_ {m : Prog SddfPanic Component ε α} {f : α → Prog SddfPanic Component ε β}
    (hm : Makes lo (fun _ _ => True) m) (hf : ∀ a, Makes lo R (f a)) : Makes lo R (m >>= f) :=
  hm.bind fun a c _ => hf a c

theorem mono {Q' : α → Holdings → Prop} {m : Prog SddfPanic Component ε α} (hm : Makes lo Q m)
    (hQ : ∀ a h, Q a h → Q' a h) : Makes lo Q' m := by
  intro c
  refine Prog.wp_mono (hm c) ?_ (fun _ _ h => h) fun _ h => h
  rintro a c' ⟨hg, hq⟩
  exact ⟨hg, hQ a _ hq⟩

end Makes

section Constructors

variable {lo : Nat} (ans : Answers)

theorem allocSlot_makes : Makes lo (fun _ _ => True) (allocSlot ans) :=
  .ask fun _ _ => ⟨.of_eq rfl rfl, trivial⟩

theorem windowCreate_makes {start : Nat} (size : Nat) (hlo : lo ≤ start) :
    Makes lo (fun hndl h => (hndl, ⟨start, size⟩) ∈ h.windows) (windowCreate ans start size) := by
  intro c
  unfold windowCreate
  rw [Prog.wp_bind, Prog.wp_gets, Prog.wp_ite, Prog.wp_ite, Prog.wp_ite]
  refine ⟨fun _ => .refl lo c.held, fun _ =>
    ⟨fun _ => trivial, fun _ => ⟨fun _ => ?_, fun _ => .refl lo c.held⟩⟩⟩
  exact Makes.ask (Q := fun hndl h => (hndl, ⟨start, size⟩) ∈ h.windows)
    (fun hndl h => ⟨.addWindow hndl ⟨start, size⟩ hlo, List.mem_cons_self ..⟩) c

theorem objCreate_makes (paddr : Option Nat) (size : Nat) (attributes : ObjAttributes)
    (returnCap : Option Nat) :
    Makes lo (fun hndl _ => ∀ slot, returnCap = some slot → hndl = .handleCap slot)
      (objCreate ans paddr size attributes returnCap) := by
  intro c
  unfold Prog.wp objCreate
  cases ans.objCreate c.calls with
  | ok idx =>
    refine ⟨.addObject _, ?_⟩
    rintro slot rfl
    rfl
  | error e => exact .refl lo c.held

theorem view_makes (win : Nat) (object : HandleOrHandleCap) (winOff objOff size : Nat) :
    Makes lo (fun vh h => (vh, ⟨win, winOff, size⟩) ∈ h.views)
      (view ans win object winOff objOff size) :=
  .ask fun hndl _ => ⟨.addView hndl _, List.mem_cons_self ..⟩

theorem objStat_makes (object : HandleOrHandleCap) :
    Makes lo (fun _ _ => True) (objStat ans object) :=
  .ask fun _ h => ⟨.refl lo h, trivial⟩

theorem serverChannelCreate_makes (slot : Nat) :
    Makes lo (fun _ _ => True) (serverChannelCreate ans slot) :=
  .then_ (.ask fun _ _ => ⟨.of_eq rfl rfl, trivial⟩) fun _ => .pure fun _ => trivial

theorem channelOpen_makes (cap slot : Nat) :
    Makes lo (fun _ _ => True) (channelOpen ans cap slot) :=
  .then_ (.ask fun _ h => ⟨.refl lo h, trivial⟩) fun _ => .pure fun _ => trivial

theorem registerBidirectional_makes (cap : Nat) (virtType : Option VirtType) (slot : Nat) :
    Makes lo (fun _ _ => True) (registerBidirectional ans cap virtType slot) :=
  .then_ (.ask fun _ _ => ⟨.of_eq rfl rfl, trivial⟩) fun _ => .pure fun _ => trivial

theorem peerCall_makes : Makes lo (fun _ _ => True) (peerCall ans) :=
  .ask fun _ h => ⟨.refl lo h, trivial⟩

/-- A window and then the view over all of it. -/
theorem mapped_makes {α : Type} {vaddr : Nat} (size : Nat) (object : HandleOrHandleCap)
    {f : Nat → Nat → SddfProg α} {Q : α → Holdings → Prop} (hlo : lo ≤ vaddr)
    (hf : ∀ win vh c, c.held.Maps win vh vaddr size →
      (f win vh).wp (fun a c' => Grown lo c.held c'.held ∧ Q a c'.held)
        (fun _ c' => Grown lo c.held c'.held) (fun _ => True) c) :
    Makes lo Q (do
      let win ← windowCreate ans vaddr size
      let vh ← view ans win object 0 0 size
      f win vh) := by
  refine (windowCreate_makes ans size hlo).bind fun win c hw => ?_
  rw [Prog.wp_bind]
  refine Prog.wp_mono (view_makes ans win object 0 0 size c) ?_ (fun _ _ h => h) fun _ h => h
  rintro vh c₁ ⟨hg, hv⟩
  refine Prog.wp_mono (hf win vh c₁ ⟨hg.windows _ hw, hv⟩) ?_ ?_ fun _ h => h
  · rintro a c₂ ⟨hg', hq⟩
    exact ⟨hg.trans hg', hq⟩
  · intro _ c₂ hg'
    exact hg.trans hg'

theorem queueOpen_makes {vaddr : Nat} (size : Nat) (cap : HandleOrHandleCap) (hlo : lo ≤ vaddr) :
    Makes lo (fun q h => q.vaddr = vaddr ∧ q.size = size ∧ q.MappedIn h)
      (Queue.open ans vaddr size cap) :=
  mapped_makes ans size cap hlo fun _ _ c hm => ⟨.refl lo c.held, rfl, rfl, hm⟩

theorem dmaOpen_makes (hndl : HandleOrHandleCap) {vaddr : Nat} (expectedSize : Nat)
    (hlo : lo ≤ vaddr) :
    Makes lo (fun r h => r.vaddr = vaddr ∧ r.size = expectedSize ∧ r.MappedIn h)
      (DMARegion.open ans hndl vaddr expectedSize) := by
  refine .then_ (objStat_makes ans hndl) fun stat => ?_
  split
  · exact .fail _
  · next hgood =>
    simp only [not_or, not_not] at hgood
    obtain ⟨rfl, -⟩ := hgood
    refine mapped_makes ans stat.size hndl hlo fun win vh c hm => ?_
    rw [Prog.wp_bind, Prog.wp_unwrap]
    exact ⟨fun _ _ => ⟨.refl lo c.held, rfl, rfl, hm⟩, fun _ => trivial⟩

/-! ### What a call does to the windows -/

theorem objStat_wp (object : HandleOrHandleCap) (c : Component) :
    (objStat ans object).wp (fun _ c' => c'.held = c.held) (fun _ _ => True) (fun _ => True) c := by
  unfold Prog.wp objStat ask
  cases ans.objStat c.calls <;> trivial

theorem view_wp (win : Nat) (object : HandleOrHandleCap) (winOff objOff size : Nat)
    (c : Component) :
    (view ans win object winOff objOff size).wp (fun _ c' => c'.held.windows = c.held.windows)
      (fun _ _ => True) (fun _ => True) c := by
  unfold Prog.wp view ask
  cases ans.view c.calls <;> trivial

theorem windowCreate_wp (start size : Nat) (c : Component) :
    (windowCreate ans start size).wp
      (fun win c' => c.held.Admits start size ∧
        c'.held.windows = (win, ⟨start, size⟩) :: c.held.windows)
      (fun _ _ => True) (fun _ => True) c := by
  unfold windowCreate
  rw [Prog.wp_bind, Prog.wp_gets, Prog.wp_ite, Prog.wp_ite, Prog.wp_ite]
  refine ⟨fun _ => trivial, fun halign => ⟨fun _ => trivial, fun _ =>
    ⟨fun hover => ?_, fun _ => trivial⟩⟩⟩
  have hadmits : c.held.Admits start size := ⟨not_not.mp halign, hover⟩
  unfold Prog.wp ask
  cases ans.windowCreate c.calls with
  | ok win => exact ⟨hadmits, rfl⟩
  | error e => trivial

theorem dmaOpen_opened (hndl : HandleOrHandleCap) (vaddr expectedSize : Nat) (c : Component) :
    (DMARegion.open ans hndl vaddr expectedSize).wp (fun r c' => r.Opened c.held c'.held)
      (fun _ _ => True) (fun _ => True) c := by
  unfold DMARegion.open
  rw [Prog.wp_bind]
  refine Prog.wp_mono (objStat_wp ans hndl c) ?_ (fun _ _ h => h) fun _ h => h
  intro stat c₁ hheld
  split
  · trivial
  · rw [Prog.wp_bind]
    refine Prog.wp_mono (windowCreate_wp ans vaddr stat.size c₁) ?_ (fun _ _ h => h) fun _ h => h
    rintro win c₂ ⟨hadmits, hwin⟩
    rw [Prog.wp_bind]
    refine Prog.wp_mono (view_wp ans win hndl 0 0 stat.size c₂) ?_ (fun _ _ h => h) fun _ h => h
    intro vh c₃ hview
    rw [Prog.wp_bind, Prog.wp_unwrap]
    refine ⟨fun _ _ => ⟨fun w hw => ?_, ?_⟩, fun _ => trivial⟩
    · exact Bool.eq_false_iff.mpr (hadmits.2 w (hheld ▸ hw))
    · rw [hview, hwin, hheld]

/-- Both ends of the channel are there. -/
theorem openBidirectional_makes (cap : Nat) :
    Makes lo (fun ch _ => ch.fromBit.isSome ∧ ch.fromHndlCap.isSome)
      (NotificationChannel.openBidirectional ans cap) :=
  .then_ (allocSlot_makes ans) fun _ => .then_ (channelOpen_makes ans cap _) fun _ =>
    .then_ (allocSlot_makes ans) fun _ => .then_ (serverChannelCreate_makes ans _) fun _ =>
      .pure fun _ => ⟨rfl, rfl⟩

end Constructors

/-! ## The client -/

/-- Where a component keeps its clients' regions, and what it asks of a client before it opens
them. -/
structure Layout where
  /-- No region is below it. -/
  lowest : Nat
  queueReady : Client → Bool
  /-- The address of a queue, if the component has it. -/
  queueAt : Client → QueueSlot → Option Nat
  queueSize : Nat
  dataReady : Client → Bool
  dataAt : Client → Nat
  /-- The size of the data region, from the one that the client names. -/
  dataSize : Nat → Nat
  flagReady : Client → Bool

/-- What an invocation can do to its client. -/
inductive ClientStep (l : Layout) (inv : Invocation) (t t' : Turn) : Prop
  | unchanged (hc : t'.client = t.client) (hr : t'.virtReg = t.virtReg)
  | channel (ch : NotificationChannel) (virtType : Option VirtType) (hbit : ch.fromBit.isSome)
    (hcap : ch.fromHndlCap.isSome) (hfresh : ∀ k, virtType = some k → k ∉ t.virtReg)
    (hc : t'.client =
      { t.client with channel := some ch, virtType := virtType.or t.client.virtType })
    (hr : t'.virtReg = virtType.toList ++ t.virtReg)
  | queue (slot : QueueSlot) (q : Queue) (hready : l.queueReady t.client = true)
    (hat : l.queueAt t.client slot = some q.vaddr) (hsize : q.size = l.queueSize)
    (hnone : t.client.queue slot = none) (hm : q.MappedIn t'.component.held)
    (hc : t'.client = t.client.setQueue slot q) (hr : t'.virtReg = t.virtReg)
  | data (cap size : Nat) (r : DMARegion) (hinv : inv = .provideDataRegion cap size)
    (hready : l.dataReady t.client = true) (hat : r.vaddr = l.dataAt t.client)
    (hsize : r.size = l.dataSize size) (hm : r.MappedIn t'.component.held)
    (hw : r.Opened t.component.held t'.component.held)
    (hc : t'.client = { t.client with data := some r }) (hr : t'.virtReg = t.virtReg)
  | flagged (hready : l.flagReady t.client = true)
    (hc : t'.client = { t.client with initialized := true }) (hr : t'.virtReg = t.virtReg)

/-- What an invocation can do altogether. -/
structure Layout.Step (l : Layout) (inv : Invocation) (t t' : Turn) : Prop where
  grown : Grown l.lowest t.component.held t'.component.held
  client : ClientStep l inv t t'

/-- However it ends, the handler makes a step. -/
def Layout.Handles (l : Layout) (inv : Invocation) (m : TurnProg Reply) (t : Turn) : Prop :=
  m.wp (fun _ t' => l.Step inv t t') (fun _ t' => l.Step inv t t') (fun _ => True) t

section Pieces

variable {ans : Answers} {l : Layout} {inv : Invocation} {t : Turn}

theorem Layout.Step.refl (t : Turn) : l.Step inv t t := ⟨.refl _ _, .unchanged rfl rfl⟩

theorem handles_fail (e : InvocationError) : l.Handles inv (Prog.fail e) t := .refl t

theorem handles_panic (p : SddfPanic) : l.Handles inv (Prog.panic p) t := trivial

/-- A call of the component, in a handler. -/
theorem wp_onComponent {α : Type} {m : SddfProg α} {Q : α → Holdings → Prop}
    {R : α → Turn → Prop} (hm : Makes l.lowest Q m)
    (hok : ∀ a c', Grown l.lowest t.component.held c'.held → Q a c'.held →
      R a { t with component := c' }) :
    (onComponent m).wp R (fun _ t' => l.Step inv t t') (fun _ => True) t := by
  unfold onComponent
  rw [Prog.wp_zoom]
  refine Prog.wp_mono (hm t.component) ?_ ?_ fun _ h => h
  · rintro a c' ⟨hg, hq⟩
    exact hok a c' hg hq
  · intro _ c' hg
    exact ⟨hg, .unchanged rfl rfl⟩

theorem recordChannel_wp {cap : Nat} {R : Unit → Turn → Prop}
    (hok : ∀ ch c', Grown l.lowest t.component.held c'.held → ch.fromBit.isSome →
      ch.fromHndlCap.isSome →
      R () { t with component := c', client := { t.client with channel := some ch } }) :
    (recordChannel ans cap).wp R (fun _ t' => l.Step inv t t') (fun _ => True) t := by
  unfold recordChannel
  rw [Prog.wp_bind]
  refine wp_onComponent (openBidirectional_makes ans cap) fun ch c' hg hch => ?_
  exact hok ch c' hg hch.1 hch.2

theorem replyChannel_wp {R : Reply → Turn → Prop} {E : InvocationError → Turn → Prop}
    (hok : ∀ a, R a t) : replyChannel.wp R E (fun _ => True) t := by
  simp only [replyChannel, Prog.wp_bind, Prog.wp_gets, Prog.wp_unwrap, Prog.wp_pure]
  exact ⟨fun _ _ => ⟨fun _ _ => hok _, fun _ => trivial⟩, fun _ => trivial⟩

theorem registerVirt_handles (cap : Nat) (virtType : Option VirtType) :
    l.Handles inv (registerVirt ans cap virtType) t := by
  cases virtType with
  | none => exact handles_fail _
  | some k =>
    unfold Layout.Handles registerVirt
    simp only [Prog.wp_bind, Prog.wp_gets]
    rw [Prog.wp_ite]
    refine ⟨fun _ => handles_fail _, fun hfresh => ?_⟩
    simp only [Prog.wp_bind]
    refine recordChannel_wp fun ch c' hg hbit hcap => ?_
    refine replyChannel_wp fun _ => ⟨hg, ?_⟩
    refine .channel ch (some k) hbit hcap ?_ rfl rfl
    rintro _ ⟨⟩
    exact hfresh

/-- A channel that is recorded without a kind. -/
theorem recordOnly_handles (cap : Nat) :
    l.Handles inv (recordChannel ans cap >>= fun _ => replyChannel) t := by
  unfold Layout.Handles
  rw [Prog.wp_bind]
  refine recordChannel_wp fun ch c' hg hbit hcap => ?_
  exact replyChannel_wp fun _ => ⟨hg, .channel ch none hbit hcap nofun rfl rfl⟩

theorem registerClient_handles (cap : Nat) (virtType : Option VirtType) :
    l.Handles inv (registerClient ans cap virtType) t := by
  unfold registerClient
  split
  · exact handles_fail _
  · exact recordOnly_handles cap

theorem registerAny_handles (cap : Nat) (virtType : Option VirtType) :
    l.Handles inv (registerAny ans cap virtType) t := recordOnly_handles cap

theorem openQueue_handles {slot : QueueSlot} {vaddr : Client → Option Nat} {size cap : Nat}
    (hready : l.queueReady t.client = true) (hsize : size = l.queueSize)
    (hat : ∀ v, vaddr t.client = some v → l.queueAt t.client slot = some v ∧ l.lowest ≤ v) :
    l.Handles inv (openQueue ans slot vaddr size cap) t := by
  unfold Layout.Handles openQueue
  rw [Prog.wp_bind, Prog.wp_gets, Prog.wp_ite]
  refine ⟨fun _ => handles_fail _, fun hnone => ?_⟩
  rw [Prog.wp_bind, Prog.wp_unwrap]
  refine ⟨fun v hv => ?_, fun _ => trivial⟩
  obtain ⟨hslot, hlo⟩ := hat v hv
  rw [Prog.wp_bind]
  refine wp_onComponent (queueOpen_makes ans size _ hlo) ?_
  rintro q c' hg ⟨rfl, hqs, hm⟩
  refine ⟨hg, .queue slot q hready hslot (hqs.trans hsize) ?_ hm rfl rfl⟩
  exact Option.not_isSome_iff_eq_none.mp hnone

theorem openData_handles {vaddr : Client → Nat} {expectedSize cap size : Nat}
    (hinv : inv = .provideDataRegion cap size) (hready : l.dataReady t.client = true)
    (hsize : expectedSize = l.dataSize size) (hat : vaddr t.client = l.dataAt t.client)
    (hlo : l.lowest ≤ vaddr t.client) :
    l.Handles inv (openData ans vaddr expectedSize cap) t := by
  unfold Layout.Handles openData onComponent
  rw [Prog.wp_bind, Prog.wp_gets, Prog.wp_bind, Prog.wp_zoom]
  have hopen := Prog.wp_and
    (dmaOpen_makes ans (.handleCap cap) expectedSize hlo t.component)
    (dmaOpen_opened ans (.handleCap cap) (vaddr t.client) expectedSize t.component)
  refine Prog.wp_mono hopen ?_ ?_ fun _ _ => trivial
  · rintro r c' ⟨⟨hg, hv, hs, hm⟩, hw⟩
    exact ⟨hg, .data cap size r hinv hready (hv.trans hat) (hs.trans hsize) hm hw rfl rfl⟩
  · rintro _ c' ⟨hg, -⟩
    exact ⟨hg, .unchanged rfl rfl⟩

end Pieces

end Smos.Drivers
