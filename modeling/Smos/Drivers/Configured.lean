/-
Smos.Drivers.Configured — the clients that the start-up loop returns have
all that the configuration unwraps.

`Ready` is what every client has at any time: a region is only there when
the component's precondition for it holds, a kind only with a channel. With
it a component's `initialized` gives every `Option` that is unwrapped later,
except in the block driver, which asks for no channel at any point.
-/
import Smos.Drivers.Loop

namespace Smos.Drivers

open Smos.Base
open Smos.RootServer (InvocationError HandleOrHandleCap)
open Smos.Ipc (QueueType VirtType)

/-! ## What a client keeps -/

/-- A client has all that it had. -/
structure Client.Le (c c' : Client) : Prop where
  queue : ∀ slot, (c.queue slot).isSome → (c'.queue slot).isSome
  virtType : c.virtType.isSome → c'.virtType.isSome
  channel : c.channel.isSome → c'.channel.isSome

/-- The preconditions of a layout are kept by a client that gains something. -/
structure Layout.Monotone (l : Layout) : Prop where
  queueReady : ∀ c c' : Client, c.Le c' → l.queueReady c = true → l.queueReady c' = true
  dataReady : ∀ c c' : Client, c.Le c' → l.dataReady c = true → l.dataReady c' = true
  flagReady : ∀ c c' : Client, c.Le c' → l.flagReady c = true → l.flagReady c' = true

/-- A client has what the component asks for before it gives it a region. -/
structure Client.Ready (l : Layout) (c : Client) : Prop where
  queue : ∀ slot, (c.queue slot).isSome → l.queueReady c = true
  data : c.data.isSome → l.dataReady c = true
  flag : c.initialized = true → l.flagReady c = true
  kind : c.virtType.isSome → c.channel.isSome
  channel : ∀ ch, c.channel = some ch → ch.fromBit.isSome ∧ ch.fromHndlCap.isSome

theorem setQueue_isSome (c : Client) (slot : QueueSlot) (q : Queue) (slot' : QueueSlot)
    (h : (c.queue slot').isSome) : ((c.setQueue slot q).queue slot').isSome := by
  by_cases hs : slot' = slot
  · rw [hs, setQueue_self]
    rfl
  · rwa [setQueue_of_ne c hs]

theorem ClientStep.le {l : Layout} {inv : Invocation} {t t' : Turn} (h : ClientStep l inv t t') :
    t.client.Le t'.client := by
  cases h with
  | unchanged hc hr => exact hc ▸ ⟨fun _ h => h, fun h => h, fun h => h⟩
  | channel ch virtType hbit hcap hfresh hc hr =>
    rw [hc]
    refine ⟨fun _ h => h, fun h => ?_, fun _ => rfl⟩
    cases virtType <;> simp_all
  | queue slot q hready hat hsize hnone hm hc hr =>
    rw [hc]
    exact ⟨setQueue_isSome _ slot q, fun h => h, fun h => h⟩
  | data cap size r hinv hready hat hsize hm hw hc hr =>
    exact hc ▸ ⟨fun _ h => h, fun h => h, fun h => h⟩
  | flagged hready hc hr => exact hc ▸ ⟨fun _ h => h, fun h => h, fun h => h⟩

theorem ready_new (l : Layout) (id hndl : Nat) : (Client.new id hndl).Ready l :=
  ⟨nofun, nofun, nofun, nofun, nofun⟩

/-- Every step keeps a client ready. -/
theorem ready_step {l : Layout} (hl : l.Monotone) {inv : Invocation} {t t' : Turn}
    (hr : t.client.Ready l) (h : ClientStep l inv t t') : t'.client.Ready l := by
  have hle := h.le
  have hqueue := hl.queueReady _ _ hle
  have hdata := hl.dataReady _ _ hle
  have hflag := hl.flagReady _ _ hle
  cases h with
  | unchanged hc _ => exact hc ▸ hr
  | channel ch virtType hbit hcap hfresh hc _ =>
    rw [hc] at hqueue hdata hflag ⊢
    refine ⟨fun slot h => hqueue (hr.queue slot h), fun h => hdata (hr.data h),
      fun h => hflag (hr.flag h), fun _ => rfl, ?_⟩
    rintro _ ⟨⟩
    exact ⟨hbit, hcap⟩
  | queue slot q hready hat hsize hnone hm hc _ =>
    rw [hc] at hqueue hdata hflag ⊢
    exact ⟨fun _ _ => hqueue hready, fun h => hdata (hr.data h), fun h => hflag (hr.flag h),
      hr.kind, hr.channel⟩
  | data cap size r hinv hready hat hsize hm hw hc _ =>
    rw [hc] at hqueue hdata hflag ⊢
    exact ⟨fun slot h => hqueue (hr.queue slot h), fun _ => hdata hready,
      fun h => hflag (hr.flag h), hr.kind, hr.channel⟩
  | flagged hready hc _ =>
    rw [hc] at hqueue hdata hflag ⊢
    exact ⟨fun slot h => hqueue (hr.queue slot h), fun h => hdata (hr.data h),
      fun _ => hflag hready, hr.kind, hr.channel⟩

/-! ## The components -/

def Kind.layout : Kind → Layout
  | .ethDriver => EthDriver.layout
  | .serialDriver => SerialDriver.layout
  | .blkDriver => BlkDriver.layout
  | .ethVirtRx => EthVirtRx.layout
  | .ethVirtTx => EthVirtTx.layout
  | .serialVirtRx | .serialVirtTx => SerialVirt.layout

theorem Kind.handles (kind : Kind) (ans : Answers) (own : kind.component.Own) (inv : Invocation)
    (t : Turn) :
    kind.layout.Handles inv ((kind.component.handlers ans own).handler inv) t := by
  cases kind with
  | ethDriver => exact EthDriver.handler_step ans inv t
  | serialDriver => exact SerialDriver.handler_step ans inv t
  | blkDriver => exact BlkDriver.handler_step ans inv t
  | ethVirtRx => exact EthVirtRx.handler_step ans own.rcvDmaRegion inv t
  | ethVirtTx => exact EthVirtTx.handler_step ans inv t
  | serialVirtRx => exact SerialVirt.handler_step ans inv t
  | serialVirtTx => exact SerialVirt.handler_step ans inv t

theorem Kind.waits (kind : Kind) (ans : Answers) (own : kind.component.Own) :
    (kind.component.handlers ans own).Waits kind.component.slots := by
  cases kind <;> rfl

theorem Kind.monotone (kind : Kind) : kind.layout.Monotone := by
  have hboth : ∀ (c c' : Client) (a b : QueueSlot), c.Le c' →
      ((c.queue a).isSome && (c.queue b).isSome) = true →
      ((c'.queue a).isSome && (c'.queue b).isSome) = true := by
    intro c c' a b hle h
    simp only [Bool.and_eq_true] at h ⊢
    exact ⟨hle.queue a h.1, hle.queue b h.2⟩
  cases kind with
  | ethDriver => exact ⟨fun _ _ hle h => hle.virtType h, fun _ _ _ h => h, fun _ _ _ h => h⟩
  | serialDriver =>
    exact ⟨fun _ _ hle h => hle.virtType h, fun _ _ hle h => hle.queue _ h, fun _ _ _ h => h⟩
  | blkDriver => exact ⟨fun _ _ _ h => h, fun c c' => hboth c c' _ _, fun _ _ _ h => h⟩
  | ethVirtRx =>
    exact ⟨fun _ _ hle h => hle.channel h, fun _ _ _ h => h, fun c c' => hboth c c' _ _⟩
  | ethVirtTx =>
    exact ⟨fun _ _ hle h => hle.channel h, fun c c' => hboth c c' _ _, fun _ _ _ h => h⟩
  | serialVirtRx =>
    exact ⟨fun _ _ hle h => hle.channel h, fun _ _ hle h => hle.queue _ h, fun _ _ _ h => h⟩
  | serialVirtTx =>
    exact ⟨fun _ _ hle h => hle.channel h, fun _ _ hle h => hle.queue _ h, fun _ _ _ h => h⟩

/-! ## What the configuration unwraps -/

theorem wp_ask {α : Type} {answers : Nat → Except InvocationError α}
    {add : α → Holdings → Holdings} {Q : α → Component → Prop}
    {E : InvocationError → Component → Prop} {P : SddfPanic → Prop} {c : Component} :
    (ask answers add).wp Q E P c ↔
      (∀ a, answers c.calls = .ok a → Q a (c.called.hold (add a))) ∧
        ∀ e, answers c.calls = .error e → E e c.called := by
  unfold Prog.wp ask
  cases answers c.calls <;> simp

theorem expect_ok {ε α : Type} {m : SddfProg α} {p : SddfPanic} {c c' : Component} {a : α}
    (h : (m.expect p : Prog SddfPanic Component ε α) c = .ok a c') : m c = .ok a c' := by
  unfold Prog.expect Prog.catchErr at h
  split at h
  · next hm =>
    cases h
    exact hm
  · cases h
  · cases h

theorem unwrap_ok {ε α : Type} {p : SddfPanic} {o : Option α} {c c' : Component} {a : α}
    (h : (Prog.unwrap p o : Prog SddfPanic Component ε α) c = .ok a c') : o = some a := by
  cases o with
  | none => cases h
  | some x =>
    cases h
    rfl

/-- Every panic satisfies `P`, and every returned value `Q`. -/
def Ends {ε α : Type} (P : SddfPanic → Prop) (Q : α → Prop) (m : Prog SddfPanic Component ε α) :
    Prop :=
  ∀ c, m.wp (fun a _ => Q a) (fun _ _ => True) P c

namespace Ends

variable {ε ε' α β : Type} {P : SddfPanic → Prop} {Q : α → Prop} {R : β → Prop}

theorem pure {a : α} (h : Q a) : Ends P Q (pure a : Prog SddfPanic Component ε α) := fun _ => h

theorem fail (e : ε) : Ends P Q (Prog.fail e : Prog SddfPanic Component ε α) := fun _ => trivial

theorem bind {m : Prog SddfPanic Component ε α} {f : α → Prog SddfPanic Component ε β}
    (hm : Ends P Q m) (hf : ∀ a, Q a → Ends P R (f a)) : Ends P R (m >>= f) := by
  intro c
  rw [Prog.wp_bind]
  exact Prog.wp_mono (hm c) (fun a c₁ ha => hf a ha c₁) (fun _ _ h => h) fun _ h => h

theorem expect {m : Prog SddfPanic Component ε' α} (hp : P .callFailed) (hm : Ends P Q m) :
    Ends P Q (m.expect .callFailed : Prog SddfPanic Component ε α) := by
  intro c
  rw [Prog.wp_expect]
  exact Prog.wp_mono (hm c) (fun _ _ h => h) (fun _ _ _ => hp) fun _ h => h

theorem ask {answers : Nat → Except InvocationError α} {add : α → Holdings → Holdings} :
    Ends P (fun _ => True) (ask answers add) :=
  fun _ => wp_ask.mpr ⟨fun _ _ => trivial, fun _ _ => trivial⟩

/-- An `unwrap` of something that is there. -/
theorem unwrap {o : Option α} {p : SddfPanic} (ho : o.isSome) (hq : ∀ a, o = some a → Q a) :
    Ends P Q (Prog.unwrap p o : Prog SddfPanic Component ε α) := by
  cases o with
  | none => cases ho
  | some a => exact pure (hq a rfl)

end Ends

/-- The program unwraps no `None`, and what it returns satisfies `Q`. -/
abbrev Unwraps {ε α : Type} (Q : α → Prop) (m : Prog SddfPanic Component ε α) : Prop :=
  Ends (fun p => p ≠ .unwrapNone) Q m

namespace Unwraps

variable {ε ε' α : Type} {Q : α → Prop}

theorem expect {m : Prog SddfPanic Component ε' α} (hm : Unwraps Q m) :
    Unwraps Q (m.expect .callFailed : Prog SddfPanic Component ε α) := Ends.expect nofun hm

/-- Another `expect` than those of `unwrap`. -/
theorem other {o : Option α} : Unwraps (fun _ => True)
    (Prog.unwrap .callFailed o : Prog SddfPanic Component ε α) := by
  cases o with
  | none => exact fun _ => nofun
  | some a => exact .pure trivial

end Unwraps

/-- What a client's channel needs. -/
def Client.Connected (c : Client) : Prop := ∃ ch, c.channel = some ch ∧ ch.fromBit.isSome

theorem connected_of_ready {l : Layout} {c : Client} (hr : c.Ready l) (hc : c.channel.isSome) :
    c.Connected := by
  obtain ⟨ch, hch⟩ := Option.isSome_iff_exists.mp hc
  exact ⟨ch, hch, (hr.channel ch hch).1⟩

theorem channelBit_unwraps {c : Client} (hc : c.Connected) :
    Unwraps (fun _ => True) (channelBit c) := by
  obtain ⟨ch, hch, hbit⟩ := hc
  refine .bind (Q := fun x => x = ch) (.unwrap (by rw [hch]; rfl) fun a ha => ?_) ?_
  · exact Option.some.inj (ha.symm.trans hch)
  · rintro _ rfl
    exact .unwrap hbit fun _ _ => trivial

theorem setChannel_unwraps (b : Bindings) (id : Nat) (ppcId : Option Nat) (ch : SddfChannel) :
    Unwraps (fun _ => True) (setChannel b id ppcId ch) := .other

theorem setClientChannel_unwraps (b : Bindings) {c : Client} (hc : c.Connected) :
    Unwraps (fun _ => True) (setClientChannel b c) := by
  refine .bind (channelBit_unwraps hc) fun bit _ => ?_
  obtain ⟨ch, hch, -⟩ := hc
  refine .bind (Q := fun _ => True) (.unwrap (by rw [hch]; rfl) fun _ _ => trivial) fun _ _ => ?_
  exact setChannel_unwraps _ _ _ _

theorem allocSlot_unwraps (ans : Answers) : Unwraps (fun _ => True) (allocSlot ans) := .ask

theorem newBidirectional_unwraps (ans : Answers) (virtType : Option VirtType) :
    Unwraps (fun ch => ch.fromBit.isSome) (NotificationChannel.newBidirectional ans virtType) := by
  refine .bind (allocSlot_unwraps ans) fun _ _ => ?_
  refine .bind (Q := fun _ => True) (.bind .ask fun _ _ => .pure trivial) fun x _ => ?_
  refine .bind (allocSlot_unwraps ans) fun _ _ => ?_
  refine .bind (Q := fun _ => True) (.bind .ask fun _ _ => .pure trivial) fun _ _ => ?_
  refine .bind (allocSlot_unwraps ans) fun _ _ => ?_
  refine .bind (Q := fun _ => True) (.bind .ask fun _ _ => .pure trivial) fun _ _ => ?_
  exact .pure rfl

theorem connectDriver_unwraps (ans : Answers) (virtType : Option VirtType) :
    Unwraps (fun ch => ch.fromBit.isSome) (connectDriver ans virtType) := by
  refine .bind (allocSlot_unwraps ans).expect fun _ _ => ?_
  refine .bind (Q := fun _ => True) (Unwraps.expect .ask) fun _ _ => ?_
  refine .bind (Q := fun _ => True) (Unwraps.expect .ask) fun _ _ => ?_
  exact (newBidirectional_unwraps ans virtType).expect

theorem registerQueue_unwraps (ans : Answers) {q : Queue} (hq : q.objHndlCap.isSome) :
    Unwraps (fun _ => True) (registerQueue ans q) := by
  refine .bind (Q := fun _ => True) (.unwrap hq fun _ _ => trivial) fun _ _ => ?_
  exact Unwraps.expect .ask

theorem setDriverChannel_unwraps (b : Bindings) {ch : NotificationChannel}
    (hch : ch.fromBit.isSome) : Unwraps (fun _ => True) (setDriverChannel b ch) := by
  refine .bind (Q := fun _ => True) (.unwrap hch fun _ _ => trivial) fun _ _ => ?_
  exact setChannel_unwraps _ _ _ _

/-! ## What the components use of their clients -/

/-- What a component unwraps of the clients in its first entries. -/
structure Demands where
  clients : Nat
  kind : Bool
  queues : List QueueSlot
  data : Bool

def Kind.demands : Kind → Demands
  | .ethDriver => ⟨2, true, [.free, .active], false⟩
  | .serialDriver => ⟨2, true, [.serial], true⟩
  | .blkDriver => ⟨1, false, [.request, .response], true⟩
  | .ethVirtRx => ⟨1, false, [.free, .active], false⟩
  | .ethVirtTx => ⟨1, false, [.free, .active], true⟩
  | .serialVirtRx | .serialVirtTx => ⟨1, false, [.serial], true⟩

structure Demands.MetBy (d : Demands) (c : Client) : Prop where
  connected : c.Connected
  kind : d.kind = true → c.virtType.isSome
  queues : ∀ slot ∈ d.queues, (c.queue slot).isSome
  data : d.data = true → c.data.isSome

/-- Each of the first entries has a client with everything. -/
def Demands.Met (d : Demands) (clients : List (Option Client)) : Prop :=
  ∀ k < d.clients, ∃ c, clients[k]? = some (some c) ∧ d.MetBy c

/-- The queues that a component made itself. -/
def Kind.ownQueues : (kind : Kind) → kind.component.Own → List Queue
  | .ethVirtRx, own => [own.drvQueues.active, own.drvQueues.free]
  | .ethVirtTx, own => [own.active, own.free]
  | .serialVirtRx, own | .serialVirtTx, own => [own.drvQueue]
  | .ethDriver, _ | .serialDriver, _ | .blkDriver, _ => []

theorem windowCreate_unwraps (ans : Answers) (start size : Nat) :
    Unwraps (fun _ => True) (windowCreate ans start size) := by
  intro c
  unfold windowCreate
  rw [Prog.wp_bind, Prog.wp_gets, Prog.wp_ite, Prog.wp_ite, Prog.wp_ite]
  exact ⟨fun _ => trivial, fun _ => ⟨fun _ => nofun, fun _ => ⟨fun _ => Ends.ask c, fun _ => trivial⟩⟩⟩

theorem queueNew_unwraps (ans : Answers) (vaddr size : Nat) :
    Unwraps (fun q => q.objHndlCap.isSome) (Queue.new ans vaddr size) := by
  refine .bind (windowCreate_unwraps ans vaddr size) fun _ _ => ?_
  refine .bind (allocSlot_unwraps ans) fun _ _ => ?_
  refine .bind (Q := fun _ => True) (fun c => ?_) fun _ _ => ?_
  · unfold Prog.wp objCreate
    cases ans.objCreate c.calls <;> trivial
  · exact .bind (Q := fun _ => True) .ask fun _ _ => .pure rfl

theorem queuePairNew_unwraps (ans : Answers) (active free size : Nat) :
    Unwraps (fun q => q.active.objHndlCap.isSome ∧ q.free.objHndlCap.isSome)
      (QueuePair.new ans active free size) := by
  refine .bind (queueNew_unwraps ans active size) fun _ ha => ?_
  exact .bind (queueNew_unwraps ans free size) fun _ hf => .pure ⟨ha, hf⟩

/-- A component that has set itself up can name its own queues to its driver. -/
theorem ownQueues_isSome {kind : Kind} {ans : Answers} {own : kind.component.Own}
    {c c' : Component} (hrun : kind.component.setUp ans c = .ok own c') :
    ∀ q ∈ kind.ownQueues own, q.objHndlCap.isSome := by
  cases kind with
  | ethDriver => nofun
  | serialDriver => nofun
  | blkDriver => nofun
  | ethVirtRx =>
    obtain ⟨pair, c₁, hpair, hrest⟩ := Prog.bind_ok hrun
    obtain ⟨ring, c₂, -, hrest⟩ := Prog.bind_ok hrest
    obtain ⟨win, c₃, -, hrest⟩ := Prog.bind_ok hrest
    obtain ⟨obj, c₄, -, hrest⟩ := Prog.bind_ok hrest
    obtain ⟨_, c₅, -, hrest⟩ := Prog.bind_ok hrest
    cases hrest
    have hq := Prog.wp_ok ((queuePairNew_unwraps ans _ _ _).expect c) hpair
    simpa [Kind.ownQueues] using hq
  | ethVirtTx =>
    have hq := Prog.wp_ok ((queuePairNew_unwraps ans _ _ _).expect c) hrun
    simpa [Kind.ownQueues] using hq
  | serialVirtRx =>
    obtain ⟨q, c₁, hq, hrest⟩ := Prog.bind_ok hrun
    obtain ⟨_, c₂, -, hrest⟩ := Prog.bind_ok hrest
    cases hrest
    have hq := Prog.wp_ok ((queueNew_unwraps ans _ _).expect c) hq
    simpa [Kind.ownQueues] using hq
  | serialVirtTx =>
    obtain ⟨q, c₁, hq, hrest⟩ := Prog.bind_ok hrun
    obtain ⟨_, c₂, -, hrest⟩ := Prog.bind_ok hrest
    cases hrest
    have hq := Prog.wp_ok ((queueNew_unwraps ans _ _).expect c) hq
    simpa [Kind.ownQueues] using hq

theorem clientAt_unwraps {clients : List (Option Client)} {k : Nat} {c : Client}
    (h : clients[k]? = some (some c)) : Unwraps (fun x => x = c) (clientAt clients k) := by
  unfold clientAt
  rw [h]
  exact .pure rfl

/-- A client that the component uses. -/
theorem clientAt_met {d : Demands} {clients : List (Option Client)} {k : Nat}
    (hd : d.Met clients) (hk : k < d.clients) : Unwraps d.MetBy (clientAt clients k) := by
  obtain ⟨c, hc, hmet⟩ := hd k hk
  intro s
  refine Prog.wp_mono (clientAt_unwraps hc s) ?_ (fun _ _ h => h) fun _ h => h
  rintro _ _ rfl
  exact hmet

theorem assignVirts_unwraps {d : Demands} {clients : List (Option Client)} (hd : d.Met clients)
    (htwo : d.clients = 2) (hkind : d.kind = true) :
    Unwraps (fun x => d.MetBy x.1 ∧ d.MetBy x.2) (assignVirts clients) := by
  refine .bind (clientAt_met hd (by omega)) fun first hfirst => ?_
  refine .bind (Q := fun _ => True) (.unwrap (hfirst.kind hkind) fun _ _ => trivial) ?_
  intro virtType _
  cases virtType with
  | rx => exact .bind (clientAt_met hd (by omega)) fun _ hsecond => .pure ⟨hfirst, hsecond⟩
  | tx => exact .bind (clientAt_met hd (by omega)) fun _ hsecond => .pure ⟨hsecond, hfirst⟩

/-- An `unwrap` of one of the client's regions. -/
theorem queue_unwraps {d : Demands} {c : Client} (hc : d.MetBy c) {slot : QueueSlot}
    (hslot : slot ∈ d.queues) :
    Unwraps (fun _ => True) (Prog.unwrap .unwrapNone (c.queue slot) : MainProg Queue) :=
  .unwrap (hc.queues slot hslot) fun _ _ => trivial

theorem data_unwraps {d : Demands} {c : Client} (hc : d.MetBy c) (hdata : d.data = true) :
    Unwraps (fun _ => True) (Prog.unwrap .unwrapNone c.data : MainProg DMARegion) :=
  .unwrap (hc.data hdata) fun _ _ => trivial

theorem EthDriver.connection_unwraps {c : Client} (hc : Kind.ethDriver.demands.MetBy c) :
    Unwraps (fun _ => True) (connection c) := by
  refine .bind (queue_unwraps hc (by decide)) fun _ _ => ?_
  refine .bind (queue_unwraps hc (by decide)) fun _ _ => ?_
  exact .bind (channelBit_unwraps hc.connected) fun _ _ => .pure trivial

theorem EthDriver.configure_unwraps (device : Device) {clients : List (Option Client)}
    (hd : Kind.ethDriver.demands.Met clients) :
    Unwraps (fun _ => True) (configure device clients) := by
  refine .bind (assignVirts_unwraps hd rfl rfl) ?_
  rintro ⟨rxVirt, txVirt⟩ ⟨hrx, htx⟩
  refine .bind (setChannel_unwraps _ _ _ _) fun _ _ => ?_
  refine .bind (setClientChannel_unwraps _ htx.connected) fun _ _ => ?_
  refine .bind (setClientChannel_unwraps _ hrx.connected) fun _ _ => ?_
  refine .bind (connection_unwraps hrx) fun _ _ => ?_
  exact .bind (connection_unwraps htx) fun _ _ => .pure trivial

theorem SerialDriver.connection_unwraps {c : Client} (hc : Kind.serialDriver.demands.MetBy c) :
    Unwraps (fun _ => True) (connection c) := by
  refine .bind (queue_unwraps hc (by decide)) fun _ _ => ?_
  refine .bind (data_unwraps hc rfl) fun _ _ => ?_
  exact .bind (channelBit_unwraps hc.connected) fun _ _ => .pure trivial

theorem SerialDriver.configure_unwraps (device : Device) {clients : List (Option Client)}
    (hd : Kind.serialDriver.demands.Met clients) :
    Unwraps (fun _ => True) (configure device clients) := by
  refine .bind (assignVirts_unwraps hd rfl rfl) ?_
  rintro ⟨rxVirt, txVirt⟩ ⟨hrx, htx⟩
  refine .bind (setChannel_unwraps _ _ _ _) fun _ _ => ?_
  refine .bind (setClientChannel_unwraps _ htx.connected) fun _ _ => ?_
  refine .bind (setClientChannel_unwraps _ hrx.connected) fun _ _ => ?_
  refine .bind (connection_unwraps hrx) fun _ _ => ?_
  exact .bind (connection_unwraps htx) fun _ _ => .pure trivial

theorem BlkDriver.configure_unwraps (device : Device) {clients : List (Option Client)}
    (hd : Kind.blkDriver.demands.Met clients) :
    Unwraps (fun _ => True) (configure device clients) := by
  refine .bind (setChannel_unwraps _ _ _ _) fun _ _ => ?_
  refine .bind (clientAt_met hd (by decide)) fun virt hvirt => ?_
  refine .bind (setClientChannel_unwraps _ hvirt.connected) fun _ _ => ?_
  refine .bind (data_unwraps hvirt rfl) fun _ _ => ?_
  refine .bind (queue_unwraps hvirt (by decide)) fun _ _ => ?_
  refine .bind (queue_unwraps hvirt (by decide)) fun _ _ => ?_
  exact .bind (channelBit_unwraps hvirt.connected) fun _ _ => .pure trivial

/-- The connection over a network client's queues, which the network virtualizers share. -/
theorem netConnection_unwraps {d : Demands} {c : Client} (hc : d.MetBy c)
    (hqueues : d.queues = [.free, .active]) : Unwraps (fun _ => True) (netConnection c) := by
  refine .bind (queue_unwraps hc (by simp [hqueues])) fun _ _ => ?_
  refine .bind (queue_unwraps hc (by simp [hqueues])) fun _ _ => ?_
  exact .bind (channelBit_unwraps hc.connected) fun _ _ => .pure trivial

theorem connection_unwraps (q : QueuePair) {ch : NotificationChannel} (hch : ch.fromBit.isSome) :
    Unwraps (fun _ => True) (q.connection ch) :=
  .bind (Q := fun _ => True) (.unwrap hch fun _ _ => trivial) fun _ _ => .pure trivial

theorem EthVirtRx.configure_unwraps (ans : Answers) (regions : Regions)
    {clients : List (Option Client)} (hactive : regions.drvQueues.active.objHndlCap.isSome)
    (hfree : regions.drvQueues.free.objHndlCap.isSome)
    (hd : Kind.ethVirtRx.demands.Met clients) :
    Unwraps (fun _ => True) (configure ans regions clients) := by
  refine .bind (clientAt_met hd (by decide)) fun copier hcopier => ?_
  refine .bind (connectDriver_unwraps ans _) fun drvChannel hch => ?_
  refine .bind (registerQueue_unwraps ans hactive) fun _ _ => ?_
  refine .bind (registerQueue_unwraps ans hfree) fun _ _ => ?_
  refine .bind (setDriverChannel_unwraps _ hch) fun _ _ => ?_
  refine .bind (setClientChannel_unwraps _ hcopier.connected) fun _ _ => ?_
  refine .bind (netConnection_unwraps hcopier rfl) fun _ _ => ?_
  exact .bind (connection_unwraps _ hch) fun _ _ => .pure trivial

theorem EthVirtTx.configure_unwraps (ans : Answers) (drvQueues : QueuePair)
    {clients : List (Option Client)} (hactive : drvQueues.active.objHndlCap.isSome)
    (hfree : drvQueues.free.objHndlCap.isSome) (hd : Kind.ethVirtTx.demands.Met clients) :
    Unwraps (fun _ => True) (configure ans drvQueues clients) := by
  refine .bind (clientAt_met hd (by decide)) fun client hclient => ?_
  refine .bind (connectDriver_unwraps ans _) fun drvChannel hch => ?_
  refine .bind (registerQueue_unwraps ans hactive) fun _ _ => ?_
  refine .bind (registerQueue_unwraps ans hfree) fun _ _ => ?_
  refine .bind (setDriverChannel_unwraps _ hch) fun _ _ => ?_
  refine .bind (setClientChannel_unwraps _ hclient.connected) fun _ _ => ?_
  refine .bind (netConnection_unwraps hclient rfl) fun _ _ => ?_
  refine .bind (data_unwraps hclient rfl) fun _ _ => ?_
  exact .bind (connection_unwraps _ hch) fun _ _ => .pure trivial

theorem SerialVirt.configure_unwraps (ans : Answers) (virtType : VirtType) (regions : Regions)
    {clients : List (Option Client)} (hqueue : regions.drvQueue.objHndlCap.isSome)
    (hd : Kind.serialVirtRx.demands.Met clients) :
    Unwraps (fun _ => True) (configure ans virtType regions clients) := by
  refine .bind (clientAt_met hd (by decide)) fun client hclient => ?_
  refine .bind (connectDriver_unwraps ans _) fun drvChannel hch => ?_
  refine .bind (registerQueue_unwraps ans hqueue) fun _ _ => ?_
  refine .bind (Unwraps.expect .ask) fun _ _ => ?_
  refine .bind (setDriverChannel_unwraps _ hch) fun _ _ => ?_
  refine .bind (setClientChannel_unwraps _ hclient.connected) fun _ _ => ?_
  refine .bind (queue_unwraps hclient (by decide)) fun _ _ => ?_
  refine .bind (data_unwraps hclient rfl) fun _ _ => ?_
  refine .bind (channelBit_unwraps hclient.connected) fun _ _ => ?_
  exact .bind (Q := fun _ => True) (.unwrap hch fun _ _ => trivial) fun _ _ => .pure trivial

/-- With clients that have everything, the configuration unwraps no `None`. -/
theorem configure_unwraps {kind : Kind} (ans : Answers) {own : kind.component.Own}
    {clients : List (Option Client)} (hown : ∀ q ∈ kind.ownQueues own, q.objHndlCap.isSome)
    (hd : kind.demands.Met clients) :
    Unwraps (fun _ => True) (kind.component.configure ans own clients) := by
  cases kind with
  | ethDriver => exact EthDriver.configure_unwraps own hd
  | serialDriver => exact SerialDriver.configure_unwraps own hd
  | blkDriver => exact BlkDriver.configure_unwraps own hd
  | ethVirtRx =>
    exact EthVirtRx.configure_unwraps ans own (hown _ (by simp [Kind.ownQueues]))
      (hown _ (by simp [Kind.ownQueues])) hd
  | ethVirtTx =>
    exact EthVirtTx.configure_unwraps ans own (hown _ (by simp [Kind.ownQueues]))
      (hown _ (by simp [Kind.ownQueues])) hd
  | serialVirtRx =>
    exact SerialVirt.configure_unwraps ans .rx own (hown _ (by simp [Kind.ownQueues])) hd
  | serialVirtTx =>
    exact SerialVirt.configure_unwraps ans .tx own (hown _ (by simp [Kind.ownQueues])) hd

/-! ## Every run -/

/-- The first client of the block driver has its channel by the time it has both its queues and
provides its data region. -/
def Kind.registersFirst (kind : Kind) (s : PreInit) (ev : Event) : Bool :=
  match kind, ev, s.clients with
  | .blkDriver, .invocation id (.provideDataRegion _ _), some c :: _ =>
    !(c.id == id && (c.queue .request).isSome && (c.queue .response).isSome) || c.channel.isSome
  | _, _, _ => true

theorem findClientFromId_id {id k : Nat} {clients : List (Option Client)} {c : Client}
    (hid : findClientFromId id clients = some k) (hk : clients[k]? = some (some c)) :
    c.id = id := by
  obtain ⟨hlt, hp, -⟩ := List.findIdx?_eq_some_iff_getElem.mp hid
  rw [List.getElem?_eq_getElem hlt] at hk
  rw [Option.some.inj hk] at hp
  simpa using hp

/-- The client in entry 0 of the block driver. -/
def Kind.FirstConnected (kind : Kind) (k : Nat) (c : Client) : Prop :=
  kind = .blkDriver → k = 0 → c.data.isSome → c.channel.isSome

theorem firstConnected_step {kind : Kind} {s : PreInit} {k id : Nat} {inv : Invocation}
    {client : Client} {t : Turn} (hguard : kind.registersFirst s (.invocation id inv) = true)
    (hk : s.clients[k]? = some (some client)) (hid : findClientFromId id s.clients = some k)
    (hf : kind.FirstConnected k client)
    (hstep : ClientStep kind.layout inv ⟨s.component, client, s.virtReg⟩ t) :
    kind.FirstConnected k t.client := by
  rintro rfl rfl
  have hold := hf rfl rfl
  cases hstep with
  | unchanged hc _ => exact hc ▸ hold
  | channel ch virtType hbit hcap hfresh hc _ => exact fun _ => hc ▸ rfl
  | queue slot q hready hat hsize hnone hm hc _ => exact hc ▸ hold
  | data cap size r hinv hready hat hsize hm hw hc _ =>
    rintro -
    rw [hc]
    have hqueues : (client.queue .request).isSome && (client.queue .response).isSome := hready
    obtain ⟨rest, hrest⟩ : ∃ rest, s.clients = some client :: rest := by
      cases hs : s.clients with
      | nil => simp [hs] at hk
      | cons x rest => exact ⟨rest, by simpa [hs] using hk⟩
    have hsame := findClientFromId_id hid hk
    simp only [Bool.and_eq_true] at hqueues
    simpa [Kind.registersFirst, hinv, hrest, hsame, hqueues.1, hqueues.2] using hguard
  | flagged hready hc _ => exact hc ▸ hold

/-- What every client has, at any time. -/
def Kind.Prepared (kind : Kind) (k : Nat) (_ : Holdings) (c : Client) : Prop :=
  c.Ready kind.layout ∧ kind.FirstConnected k c

theorem prepared_step (kind : Kind) (s : PreInit) (ev : Event) (s' : PreInit)
    (hs : EachClient kind.Prepared s) (hg : kind.registersFirst s ev = true)
    (hstep : LoopStep kind.layout ev s s') : EachClient kind.Prepared s' := by
  refine EachClient.step (fun _ _ _ _ _ h => h)
    (fun _ _ id hndl => ⟨ready_new _ id hndl, fun _ _ => nofun⟩) ?_ hs hstep
  intro k id inv client t hev hk hid hp hst
  exact ⟨ready_step kind.monotone hp.1 hst.client,
    firstConnected_step (hev ▸ hg) hk hid hp.2 hst.client⟩

theorem checkBoth_true {f : Client → Bool} {clients : List (Option Client)}
    (h : checkBoth f clients = true) :
    ∃ a b, clients = [some a, some b] ∧ f a = true ∧ f b = true := by
  unfold checkBoth at h
  split at h
  · next a b =>
    obtain ⟨ha, hb⟩ := (Bool.and_eq_true _ _).mp h
    exact ⟨a, b, rfl, ha, hb⟩
  · cases h

theorem checkFirst_true {f : Client → Bool} {clients : List (Option Client)}
    (h : checkFirst f clients = true) : ∃ a rest, clients = some a :: rest ∧ f a = true := by
  unfold checkFirst at h
  split at h
  · next a rest => exact ⟨a, rest, rfl, h⟩
  · cases h

/-- Two clients with everything are all that a driver with two virtualizers uses. -/
theorem met_both {d : Demands} {a b : Client} (htwo : d.clients = 2) (ha : d.MetBy a)
    (hb : d.MetBy b) : d.Met [some a, some b] := by
  intro k hk
  rw [htwo] at hk
  match k, hk with
  | 0, _ => exact ⟨a, rfl, ha⟩
  | 1, _ => exact ⟨b, rfl, hb⟩

theorem met_first {d : Demands} {a : Client} {rest : List (Option Client)}
    (hone : d.clients = 1) (ha : d.MetBy a) : d.Met (some a :: rest) := by
  intro k hk
  obtain rfl : k = 0 := by omega
  exact ⟨a, rfl, ha⟩

/-- `initialized` of each component's client record. -/
def Kind.initialized : Kind → Client → Bool
  | .ethDriver => EthDriver.initialized
  | .serialDriver => SerialDriver.initialized
  | .blkDriver => BlkDriver.initialized
  | .ethVirtRx => EthVirtRx.initialized
  | .ethVirtTx => EthVirtTx.initialized
  | .serialVirtRx | .serialVirtTx => SerialVirt.initialized

/-- What `initialized` does not ask for, every client has anyway, but for the block driver's. -/
theorem metBy_of_initialized {kind : Kind} {k : Nat} {h : Holdings} {c : Client}
    (hp : kind.Prepared k h c) (hfirst : kind = .blkDriver → k = 0)
    (hi : kind.initialized c = true) : kind.demands.MetBy c := by
  have hr := hp.1
  cases kind with
  | ethDriver =>
    obtain ⟨hfree, hactive⟩ := (Bool.and_eq_true _ _).mp hi
    have hkind : c.virtType.isSome := hr.queue .free hfree
    exact ⟨connected_of_ready hr (hr.kind hkind), fun _ => hkind,
      by simp [Kind.demands, hfree, hactive], nofun⟩
  | serialDriver =>
    obtain ⟨hqueue, hdata⟩ := (Bool.and_eq_true _ _).mp hi
    have hkind : c.virtType.isSome := hr.queue .serial hqueue
    exact ⟨connected_of_ready hr (hr.kind hkind), fun _ => hkind,
      by simp [Kind.demands, hqueue], fun _ => hdata⟩
  | blkDriver =>
    simp only [Kind.initialized, BlkDriver.initialized, Bool.and_eq_true] at hi
    obtain ⟨⟨hdata, hreq⟩, hresp⟩ := hi
    exact ⟨connected_of_ready hr (hp.2 rfl (hfirst rfl) hdata), nofun,
      by simp [Kind.demands, hreq, hresp], fun _ => hdata⟩
  | ethVirtRx =>
    obtain ⟨hactive, hfree⟩ := (Bool.and_eq_true _ _).mp (hr.flag hi)
    have hch : c.channel.isSome := hr.queue .active hactive
    exact ⟨connected_of_ready hr hch, nofun, by simp [Kind.demands, hfree, hactive], nofun⟩
  | ethVirtTx =>
    simp only [Kind.initialized, EthVirtTx.initialized, Bool.and_eq_true] at hi
    obtain ⟨⟨⟨hch, hfree⟩, hactive⟩, hdata⟩ := hi
    exact ⟨connected_of_ready hr hch, nofun, by simp [Kind.demands, hfree, hactive],
      fun _ => hdata⟩
  | serialVirtRx | serialVirtTx =>
    simp only [Kind.initialized, SerialVirt.initialized, Bool.and_eq_true] at hi
    obtain ⟨⟨hch, hqueue⟩, hdata⟩ := hi
    exact ⟨connected_of_ready hr hch, nofun, by simp [Kind.demands, hqueue], fun _ => hdata⟩

theorem metBy_of_two {kind : Kind} {h : Holdings} {a b : Client}
    (hblk : kind ≠ .blkDriver) (htwo : kind.demands.clients = 2)
    (hp : ∀ k c, [some a, some b][k]? = some (some c) → kind.Prepared k h c)
    (ha : kind.initialized a = true) (hb : kind.initialized b = true) :
    kind.demands.Met [some a, some b] :=
  met_both htwo (metBy_of_initialized (hp 0 a rfl) (fun h => absurd h hblk) ha)
    (metBy_of_initialized (hp 1 b rfl) (fun h => absurd h hblk) hb)

theorem metBy_of_one {kind : Kind} {h : Holdings} {a : Client} {rest : List (Option Client)}
    (hone : kind.demands.clients = 1)
    (hp : ∀ k c, (some a :: rest)[k]? = some (some c) → kind.Prepared k h c)
    (ha : kind.initialized a = true) : kind.demands.Met (some a :: rest) :=
  met_first hone (metBy_of_initialized (hp 0 a rfl) (fun _ => rfl) ha)

/-- When the check succeeds, the clients have what the component uses. -/
theorem met_of_done {kind : Kind} (ans : Answers) (own : kind.component.Own) {s : PreInit}
    (hs : EachClient kind.Prepared s)
    (hdone : (kind.component.handlers ans own).checkDone s.clients = true) :
    kind.demands.Met s.clients := by
  cases kind with
  | ethDriver =>
    obtain ⟨a, b, hab, ha, hb⟩ := checkBoth_true hdone
    rw [hab]
    exact metBy_of_two nofun rfl (fun k c hk => hs k c (hab ▸ hk)) ha hb
  | serialDriver =>
    obtain ⟨a, b, hab, ha, hb⟩ := checkBoth_true hdone
    rw [hab]
    exact metBy_of_two nofun rfl (fun k c hk => hs k c (hab ▸ hk)) ha hb
  | blkDriver | ethVirtRx | ethVirtTx | serialVirtRx | serialVirtTx =>
    obtain ⟨a, rest, hab, ha⟩ := checkFirst_true hdone
    rw [hab]
    exact metBy_of_one rfl (fun k c hk => hs k c (hab ▸ hk)) ha

/-- What the loop leaves to the configuration is complete. -/
structure Configured (kind : Kind) (ans : Answers) (own : kind.component.Own) (c : Component)
    (events : List Event) : Prop where
  /-- When the check succeeds, there is a reply to send. -/
  reply : ∀ ev s s',
    (sddfDriverPreInit ans (kind.component.handlers ans own) events : PreInitProg Empty _)
        (PreInit.start kind.component.slots c) = .ok none s →
      (receive ans (kind.component.handlers ans own) ev : PreInitProg Empty Bool) s = .ok true s' →
      (kind.component.handlers ans own).checkDone s'.clients = true → s'.replyMsgInfo.isSome
  /-- The clients have what is unwrapped of them. -/
  complete : ∀ clients c', preInit ans (kind.component.handlers ans own) kind.component.slots
    events c = .ok (some clients) c' → kind.demands.Met clients
  /-- Whatever the later calls answer, no `None` is unwrapped. -/
  unwraps : ∀ clients c', preInit ans (kind.component.handlers ans own) kind.component.slots
    events c = .ok (some clients) c' → ∀ ans' c'',
      kind.component.configure ans' own clients c'' ≠ .panic .unwrapNone

theorem preInit_ok {ans : Answers} {hs : Handlers} {n : Nat} {events : List Event}
    {c c' : Component} {r : Option (List (Option Client))}
    (h : preInit ans hs n events c = .ok r c') :
    ∃ s, (sddfDriverPreInit ans hs events : PreInitProg Empty _) (PreInit.start n c) = .ok r s ∧
      s.component = c' := by
  unfold preInit at h
  split at h
  · next hrun =>
    cases h
    exact ⟨_, hrun, rfl⟩
  · next e _ _ => cases e
  · cases h

/-- In every component but the block driver, the configuration is complete after every run. In the
block driver it is when its first client registers a channel before the last of its regions. -/
theorem preInit_configured (kind : Kind) (ans : Answers) (own : kind.component.Own)
    (c₀ c : Component) (events : List Event)
    (hown : kind.component.setUp ans c₀ = .ok own c)
    (hfirst : Meets ans (kind.component.handlers ans own)
      (fun s ev => kind.registersFirst s ev = true) (PreInit.start kind.component.slots c)
      events) :
    Configured kind ans own c events := by
  have hwp := sddfDriverPreInit_wp (kind.handles ans own)
    (fun s ev s' hs => prepared_step kind s ev s' hs.1) events
    (PreInit.start kind.component.slots c) ⟨.start _ _ c, kind.waits ans own⟩ hfirst
  have hmet : ∀ clients c', preInit ans (kind.component.handlers ans own) kind.component.slots
      events c = .ok (some clients) c' → kind.demands.Met clients := by
    intro clients c' hrun
    obtain ⟨s, hloop, -⟩ := preInit_ok hrun
    obtain ⟨hprep, rfl, hdone⟩ := Prog.wp_ok hwp hloop
    exact met_of_done ans own hprep hdone
  refine ⟨?_, hmet, ?_⟩
  · intro ev s s' hrun hrecv hdone
    exact reply_of_done (kind.handles ans own) (kind.waits ans own) hrun hrecv hdone
  · intro clients c' hrun ans' c'' hpanic
    have hun := configure_unwraps ans' (ownQueues_isSome hown) (hmet clients c' hrun)
    exact Prog.wp_panic_of (hun c'') hpanic rfl

/-- Every call succeeds. -/
def granted : Answers := { viewRefused with view := fun n => .ok n }

/-- A client of the block driver that registers its regions, and no channel. -/
def blkWithoutChannel : List Event := [
  .invocation 7 (.connOpen none),
  .invocation 7 (.queueRegister 1 0x1000 .request),
  .invocation 7 (.queueRegister 2 0x1000 .response),
  .invocation 7 (.provideDataRegion 3 0x1000)]

/-- What a component's loop returns. -/
def returned (ans : Answers) (m : SddfComponent) (own : m.Own) (c : Component)
    (events : List Event) : Option (List (Option Client)) :=
  (preInit ans (m.handlers ans own) m.slots events c).toOption.bind Prod.fst

theorem returned_some {ans : Answers} {m : SddfComponent} {own : m.Own} {c : Component}
    {events : List Event} {clients : List (Option Client)}
    (h : returned ans m own c events = some clients) :
    ∃ c', preInit ans (m.handlers ans own) m.slots events c = .ok (some clients) c' := by
  obtain ⟨⟨r, c'⟩, hrun, hr⟩ := Option.bind_eq_some_iff.mp h
  obtain rfl : r = some clients := hr
  exact ⟨c', Outcome.toOption_eq_some.mp hrun⟩

/-- The block driver's check succeeds, and its configuration then unwraps the missing channel. -/
theorem preInit_not_configured :
    ∃ own c, BlkDriver.setUp granted published = .ok own c ∧
      ¬ Configured .blkDriver granted own c blkWithoutChannel ∧
      BlkDriver.component.main granted blkWithoutChannel published = .panic .unwrapNone := by
  have hrun : (BlkDriver.setUp granted published).toOption.bind (fun x =>
      (returned granted BlkDriver.component x.1 x.2 blkWithoutChannel).bind fun clients =>
        (BlkDriver.configure x.1 clients published).toPanic) = some .unwrapNone := by
    decide +kernel
  obtain ⟨⟨own, c⟩, hown, hrun⟩ := Option.bind_eq_some_iff.mp hrun
  obtain ⟨clients, hclients, hpanic⟩ := Option.bind_eq_some_iff.mp hrun
  obtain ⟨c', hc'⟩ := returned_some hclients
  refine ⟨own, c, Outcome.toOption_eq_some.mp hown, fun h => ?_, ?_⟩
  · exact h.unwraps clients c' hc' granted published (Outcome.toPanic_eq_some.mp hpanic)
  · exact Outcome.toPanic_eq_some.mp (by decide +kernel)

/-- The same client, with a channel first. -/
def blkWithChannel : List Event :=
  blkWithoutChannel.take 1 ++ [.invocation 7 (.channelRegisterBidirectional 4 none)] ++
    blkWithoutChannel.drop 1

theorem preInit_configured_blkWithChannel :
    ∃ own c, BlkDriver.setUp granted published = .ok own c ∧
      Configured .blkDriver granted own c blkWithChannel ∧
      (returned granted BlkDriver.component own c blkWithChannel).isSome := by
  have hrun : (BlkDriver.setUp granted published).toOption.any (fun x => decide
      (Meets granted (BlkDriver.handlers granted)
        (fun s ev => Kind.blkDriver.registersFirst s ev = true) (PreInit.start 2 x.2)
        blkWithChannel ∧
      (returned granted BlkDriver.component x.1 x.2 blkWithChannel).isSome)) = true := by
    decide +kernel
  obtain ⟨⟨own, c⟩, hown, hok⟩ := (Option.any_eq_true _ _).mp hrun
  obtain ⟨hmeets, hsome⟩ := of_decide_eq_true hok
  have hown := Outcome.toOption_eq_some.mp hown
  exact ⟨own, c, hown, preInit_configured .blkDriver granted own published c _ hown hmeets, hsome⟩

end Smos.Drivers
