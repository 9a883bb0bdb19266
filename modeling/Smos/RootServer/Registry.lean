/-
Smos.RootServer.Registry — the invocations that are not about memory.

Interrupts, connections, channels, handle capabilities and reply objects
are entered in the servers, the connections and the handle tables. What
such an invocation changes is a list of small entries (`Entered`) and
resources that are quiet (`Beside`): no window, view or object is touched,
and no frame is taken or given back.
-/
import Smos.RootServer.ConnectionSpecs
import Smos.RootServer.Machine

namespace Smos.RootServer

open Smos.Base

variable {s s' s₁ : State} {p : Nat}

/-! ## Entries -/

/-- The handle is of nothing that lies in memory, and of no server. -/
def RootServerResource.OfRegistry : RootServerResource → Prop
  | .window _ | .windowRegistration _ | .object _ | .view _ | .server _ => False
  | _ => True

/-- Entries, one after the other. A server keeps its ring and the frame of it. -/
inductive Entered (s : State) : State → Prop
  | refl : Entered s s
  | lists {s₁ : State} (h : Entered s s₁) (servers : Heap Server)
    (connections : Heap Connection) (irqs : Heap IRQRegistration)
    (next : servers.next = s₁.servers.next)
    (rings : ∀ srv, (servers srv).ntfnBufferView = (s₁.servers srv).ntfnBufferView ∧
      (servers srv).ntfnBufferFrame = (s₁.servers srv).ntfnBufferFrame) :
    Entered s { s₁ with servers := servers, connections := connections, irqs := irqs }
  | handle {s₁ : State} (h : Entered s s₁) (loc : HandleLoc) (x : Option RootServerResource)
    (valid : s₁.ValidLoc loc) (new : ∀ y, x = some y → y.OfRegistry) :
    Entered s (s₁.setHandleAt loc x)
  | created {s₁ : State} (h : Entered s s₁) (p idx : Nat) :
    Entered s (s₁.updProc p fun u => { u with createdHandleCaps := u.createdHandleCaps ++ [idx] })

namespace Entered

/-- The windows, the views and the objects are never entered anew. -/
theorem windows (h : Entered s s') : s'.windows = s.windows := by
  induction h with
  | refl => rfl
  | lists | created => assumption
  | handle _ loc x _ _ ih => rw [State.setHandleAt_windows, ih]

theorem views (h : Entered s s') : s'.views = s.views := by
  induction h with
  | refl => rfl
  | lists | created => assumption
  | handle _ loc x _ _ ih => rw [State.setHandleAt_views, ih]

theorem objects (h : Entered s s') : s'.objects = s.objects := by
  induction h with
  | refl => rfl
  | lists | created => assumption
  | handle _ loc x _ _ ih => rw [State.setHandleAt_objects, ih]

theorem dma (h : Entered s s') : s'.dma = s.dma := by
  induction h with
  | refl => rfl
  | lists | created => assumption
  | handle _ loc x _ _ ih => rw [State.setHandleAt_dma, ih]

theorem reply (h : Entered s s') : s'.reply = s.reply := by
  induction h with
  | refl => rfl
  | lists | created => assumption
  | handle _ loc x _ _ ih => rw [State.setHandleAt_reply, ih]

end Entered

/-- Entries, and new slots and objects. -/
structure Beside (s s' : State) : Prop where
  entered : Entered s { s' with res := s.res }
  quiet : Quiet s.res s'.res

namespace Beside

protected theorem refl (s : State) : Beside s s := ⟨.refl, .refl _⟩

/-- The resources may go on quietly. -/
theorem withRes (h : Beside s s₁) {r : Res} (hq : Quiet s.res r) :
    Beside s { s₁ with res := r } := ⟨h.entered, hq⟩

theorem lists (h : Beside s s₁) (servers : Heap Server) (connections : Heap Connection)
    (irqs : Heap IRQRegistration) (next : servers.next = s₁.servers.next)
    (rings : ∀ srv, (servers srv).ntfnBufferView = (s₁.servers srv).ntfnBufferView ∧
      (servers srv).ntfnBufferFrame = (s₁.servers srv).ntfnBufferFrame) :
    Beside s { s₁ with servers := servers, connections := connections, irqs := irqs } :=
  ⟨.lists h.entered servers connections irqs next rings, h.quiet⟩

/-- A server's lists and its dispatcher may change. -/
theorem server (h : Beside s s₁) (srv : ServerRef) {f : Server → Server}
    (hf : ∀ x, (f x).ntfnBufferView = x.ntfnBufferView ∧
      (f x).ntfnBufferFrame = x.ntfnBufferFrame) :
    Beside s { s₁ with servers := s₁.servers.update srv f } := by
  refine h.lists _ s₁.connections s₁.irqs rfl fun srv' => ?_
  rw [Heap.update_apply]
  split
  · next heq =>
    rw [heq]
    exact hf _
  · exact ⟨rfl, rfl⟩

/-- A handle is given back, or given for something of the registry. -/
theorem handle (h : Beside s s₁) {loc : HandleLoc} {x : Option RootServerResource}
    (valid : s₁.ValidLoc loc) (new : ∀ y, x = some y → y.OfRegistry) :
    Beside s (s₁.setHandleAt loc x) := by
  have hentered := h.entered.handle loc x ((State.validLoc_congr (s := s₁) rfl).mpr valid) new
  cases loc <;> exact ⟨hentered, h.quiet⟩

theorem created (h : Beside s s₁) (p idx : Nat) : Beside s
    (s₁.updProc p fun u => { u with createdHandleCaps := u.createdHandleCaps ++ [idx] }) :=
  ⟨h.entered.created p idx, h.quiet⟩

end Beside

/-! ## Slots that hold no memory -/

/-- A capability of memory or of an address space. -/
def Cap.ofMemory : Cap → Bool
  | .frame _ _ _ _ | .pageTable _ | .vspace _ => true
  | _ => false

/-- The slot holds none of them. -/
def Aloof (k : Kernel) (c : Slot) : Prop := ∀ cap, k.caps c = some cap → cap.ofMemory = false

section Slots

variable {ε : Type} {r r₁ : Res} {c c' : Slot}

/-- Another capability in another slot does not matter. -/
theorem Aloof.setCap {k : Kernel} {cap : Cap} (h : c' ≠ c → Aloof k c')
    (hcap : cap.ofMemory = false) : Aloof (k.setCap c (some cap)) c' := by
  intro cap' hc'
  by_cases heq : c' = c
  · rw [heq, Kernel.setCap_caps_self] at hc'
    cases hc'
    exact hcap
  · rw [Kernel.setCap_caps_of_ne heq] at hc'
    exact h heq cap' hc'

/-- Deleting it touches no page table and no mapping. -/
theorem Aloof.delete_eq {k : Kernel} (h : Aloof k c) :
    k.delete c = { k.setCap c none with irqs := (k.delete c).irqs } := by
  unfold Kernel.delete
  cases hc : k.caps c with
  | none =>
    have hcaps : Function.update k.caps c none = k.caps := Function.update_eq_self_iff.mpr hc.symm
    simp only [Kernel.setCap, hcaps]
  | some cap =>
    have hmemory := h cap hc
    cases cap with
    | frame | pageTable | vspace => cases hmemory
    | _ => rfl

/-- A new slot may be emptied again. -/
theorem deleteCap_quiet (h : Quiet r r₁) (hc : ¬ r.cspace.Allocated c)
    (hp : Aloof r₁.kernel c) :
    (deleteCap c : RProg ε Unit).wp
      (fun _ r₂ => Quiet r r₂ ∧ r₂.kernel.caps = Function.update r₁.kernel.caps c none)
      (fun _ _ => False) Panic.Low r₁ := by
  simp only [deleteCap, kmodify, Prog.wp_modify]
  refine ⟨?_, Kernel.delete_caps _ _⟩
  have hg := h.grow.setCap hc none (by simp)
  rw [hp.delete_eq]
  exact h.kernel { hg with }

/-- A badged capability in a new slot. -/
theorem mintCap_quiet (h : Quiet r r₁) (hc : ¬ r.cspace.Allocated c) (src : Slot)
    (rights : CapRights) (badge : Nat) :
    (mintCap c src rights badge).wp
      (fun _ r₂ => Quiet r r₂ ∧ ∃ cap : Cap, cap.ofMemory = false ∧
        r₂.kernel = r₁.kernel.setCap c (some cap))
      (fun _ r₂ => r₂ = r₁) Panic.Low r₁ := by
  simp only [mintCap, kcall, Prog.wp_zoom, Prog.wp_ofExcept]
  refine ⟨fun k hk => ?_, fun _ _ => trivial⟩
  obtain ⟨obj, kind, -, -, rfl⟩ := Kernel.mint_ok hk
  exact ⟨h.kernel (h.grow.setCap hc _ (by simp)), _, rfl, rfl⟩

/-- The handler of an interrupt in a new slot. -/
theorem irqControlGet_quiet (h : Quiet r r₁) (hc : ¬ r.cspace.Allocated c) (irq : Nat) :
    (irqControlGet c irq).wp
      (fun _ r₂ => Quiet r r₂ ∧ Aloof r₂.kernel c)
      (fun _ r₂ => r₂ = r₁) Panic.Low r₁ := by
  have hget : ∀ k, r₁.kernel.irqControlGet c irq = .ok k →
      Quiet r { r₁ with kernel := k } ∧ Aloof k c := by
    intro k hk
    unfold Kernel.irqControlGet at hk
    split at hk
    · cases hk
    split at hk <;> cases hk
    have hg := h.grow.setCap hc (some (.irqHandler irq)) (by simp)
    refine ⟨h.kernel { hg with }, fun cap hcap => ?_⟩
    have hself := (Kernel.setCap_caps_self (k := r₁.kernel) (c := c) _).symm.trans hcap
    cases hself
    rfl
  simp only [irqControlGet, Prog.wp_ite, Prog.wp_fail, Prog.wp_expect, Prog.wp_catchErr, kcall,
    Prog.wp_zoom, Prog.wp_ofExcept]
  exact ⟨fun _ => ⟨hget, fun _ _ => by decide⟩, fun _ => ⟨fun _ => ⟨hget, fun _ _ => trivial⟩,
    fun _ => trivial⟩⟩

end Slots

/-! ## Notification bits -/

section Handlers

variable {ε : Type}

/-- The bit is taken in the dispatcher of the server. -/
theorem allocNtfnBit_beside (h : Beside s s₁) (srv : ServerRef) :
    (allocNtfnBit srv).wp (fun _ s' => Beside s s' ∧ s'.res = s₁.res)
      (fun _ s' => s' = s₁) Panic.Low s₁ := by
  simp only [allocNtfnBit, Prog.wp_bind, wp_getServer, Prog.wp_okOr, Prog.wp_unwrap,
    modifyDispatch, wp_modifyServer, Prog.wp_pure]
  exact ⟨fun _ _ => ⟨fun _ _ => ⟨h.server srv fun _ => ⟨rfl, rfl⟩, trivial⟩, fun _ => by decide⟩,
    fun _ => trivial⟩

theorem freeNtfnBit_beside (h : Beside s s₁) (srv : ServerRef) (bit : Nat) :
    (freeNtfnBit srv bit : SProg ε Unit).wp (fun _ s' => Beside s s') (fun _ _ => False)
      Panic.Low s₁ := by
  simp only [freeNtfnBit, Prog.wp_bind, wp_getServer, Prog.wp_unwrap, modifyDispatch,
    wp_modifyServer]
  exact ⟨fun _ _ => h.server srv fun _ => ⟨rfl, rfl⟩, fun _ => by decide⟩

/-- The notification's capability is badged with the bit, so it is not of memory. -/
theorem mintNtfn_beside (h : Beside s s₁) (srv : ServerRef) {c : Slot}
    (hc : ¬ s.res.cspace.Allocated c) (bit : Nat) :
    (mintNtfn srv c bit : SProg ε Unit).wp
      (fun _ s' => Beside s s' ∧ ∃ cap : Cap, cap.ofMemory = false ∧
        s'.res.kernel = s₁.res.kernel.setCap c (some cap))
      (fun _ _ => False) Panic.Low s₁ := by
  simp only [mintNtfn, Prog.wp_bind, wp_getServer, wp_onRes, Prog.wp_expect]
  refine Prog.wp_mono (mintCap_quiet h.quiet hc _ _ _) ?_ (fun _ _ _ => by decide) fun _ hp => hp
  rintro _ r ⟨hq, hcap⟩
  exact ⟨h.withRes hq, hcap⟩

/-- Without a slot for the notification the bit is given back. -/
theorem dispatchNtfnRegister_beside (h : Beside s s₁) (srv : ServerRef) :
    (dispatchNtfnRegister srv).wp (fun _ s' => Beside s s') (fun _ s' => Beside s s')
      Panic.Low s₁ := by
  simp only [dispatchNtfnRegister, Prog.wp_bind, Prog.wp_catchErr, Prog.wp_fail]
  refine Prog.wp_mono (allocNtfnBit_beside h srv) ?_ (fun _ _ he => he ▸ h) fun _ hp => hp
  rintro bit s₂ ⟨h₂, -⟩
  rw [wp_onRes]
  refine Prog.wp_mono (allocSlot_spec h₂.quiet) ?_ ?_ fun _ hp => hp
  · rintro c r ⟨hq, hfresh, -⟩
    refine Prog.wp_mono (mintNtfn_beside (h₂.withRes hq) srv hfresh bit) ?_
      (fun _ _ => False.elim) fun _ hp => hp
    rintro _ s₃ ⟨h₃, -⟩
    simp only [modifyDispatch, wp_modifyServer, Prog.wp_pure]
    exact h₃.server srv fun _ => ⟨rfl, rfl⟩
  · rintro _ r ⟨hq, -⟩
    exact Prog.wp_mono (freeNtfnBit_beside (h₂.withRes hq) srv bit) (fun _ _ hs => hs)
      (fun _ _ => False.elim) fun _ hp => hp

theorem freeSlot_beside (h : Beside s s₁) {c : Slot} (hc : ¬ s.res.cspace.Allocated c) :
    (onRes (freeSlot c) : SProg ε Unit).wp (fun _ s' => Beside s s') (fun _ _ => False)
      Panic.Low s₁ := by
  rw [wp_onRes]
  exact Prog.wp_mono (freeSlot_spec h.quiet hc) (fun _ _ hs => h.withRes hs.1)
    (fun _ _ => False.elim) fun _ hp => hp

/-- What `irq_register` gives back when it fails. -/
theorem irqUndo_beside {α : Type} (h : Beside s s₁) (srv : ServerRef) {ntfn handler : Slot}
    (hn : ¬ s.res.cspace.Allocated ntfn) (hh : ¬ s.res.cspace.Allocated handler) (bit : Nat)
    (e : InvocationError) :
    (do
      onRes (freeSlot ntfn)
      onRes (freeSlot handler)
      freeNtfnBit srv bit
      Prog.fail e : Handler α).wp (fun _ s' => Beside s s') (fun _ s' => Beside s s')
      Panic.Low s₁ := by
  simp only [Prog.wp_bind, Prog.wp_fail]
  refine Prog.wp_mono (freeSlot_beside h hn) ?_ (fun _ _ => False.elim) fun _ hp => hp
  intro _ s₂ h₂
  refine Prog.wp_mono (freeSlot_beside h₂ hh) ?_ (fun _ _ => False.elim) fun _ hp => hp
  intro _ s₃ h₃
  exact Prog.wp_mono (freeNtfnBit_beside h₃ srv bit) (fun _ _ hs => hs) (fun _ _ => False.elim)
    fun _ hp => hp

/-- Each step that fails undoes those before it: the bit, the two slots and what is in them. -/
theorem irqRegister_beside (h : Beside s s₁) (srv : ServerRef) (irqNum : Nat) :
    (irqRegister srv irqNum).wp (fun _ s' => Beside s s') (fun _ s' => Beside s s')
      Panic.Low s₁ := by
  simp only [irqRegister, Prog.wp_bind, Prog.wp_catchErr, Prog.wp_fail]
  refine Prog.wp_mono (allocNtfnBit_beside h srv) ?_ (fun _ _ he => he ▸ h) fun _ hp => hp
  rintro bit s₂ ⟨h₂, -⟩
  rw [wp_onRes]
  refine Prog.wp_mono (allocSlot_spec h₂.quiet) ?_ ?_ fun _ hp => hp
  swap
  · rintro _ r ⟨hq, -⟩
    exact Prog.wp_mono (freeNtfnBit_beside (h₂.withRes hq) srv bit) (fun _ _ hs => hs)
      (fun _ _ => False.elim) fun _ hp => hp
  rintro handler r₃ ⟨hq₃, hhandler, -⟩
  rw [wp_onRes]
  refine Prog.wp_mono (allocSlot_spec hq₃) ?_ ?_ fun _ hp => hp
  swap
  · rintro _ r ⟨hq, -⟩
    refine Prog.wp_mono (freeSlot_beside (h₂.withRes hq) hhandler) ?_ (fun _ _ => False.elim)
      fun _ hp => hp
    intro _ s₄ h₄
    exact Prog.wp_mono (freeNtfnBit_beside h₄ srv bit) (fun _ _ hs => hs)
      (fun _ _ => False.elim) fun _ hp => hp
  rintro ntfn r₄ ⟨hq₄, hntfn, -⟩
  rw [wp_onRes]
  refine Prog.wp_mono (irqControlGet_quiet hq₄ hhandler irqNum) ?_ ?_ fun _ hp => hp
  swap
  · rintro _ _ rfl
    have hundo := irqUndo_beside (α := Unit) (h₂.withRes hq₄) srv hntfn hhandler bit
      .insufficientResources
    simpa only [Prog.wp_bind, Prog.wp_fail] using hundo
  rintro _ r₅ ⟨hq₅, haloof⟩
  refine Prog.wp_mono (mintNtfn_beside (h₂.withRes hq₅) srv hntfn bit) ?_
    (fun _ _ => False.elim) fun _ hp => hp
  rintro _ s₆ ⟨h₆, cap, hcap, hk⟩
  have hslots : Aloof s₆.res.kernel ntfn ∧ Aloof s₆.res.kernel handler := by
    rw [hk]
    exact ⟨.setCap (fun hne => absurd rfl hne) hcap, .setCap (fun _ => haloof) hcap⟩
  simp only [wp_onRes, kcall, Prog.wp_zoom, Prog.wp_ofExcept]
  refine ⟨fun k hset => ?_, fun _ _ => ?_⟩
  · rw [Kernel.irqHandlerSetNotification_ok hset]
    simp only [modifyDispatch, wp_modifyServer, Prog.wp_pure]
    exact h₆.server srv fun _ => ⟨rfl, rfl⟩
  · refine Prog.wp_mono (deleteCap_quiet h₆.quiet hntfn hslots.1) ?_ (fun _ _ => False.elim)
      fun _ hp => hp
    rintro _ r₇ ⟨hq₇, hcaps₇⟩
    have haloof₇ : Aloof r₇.kernel handler := by
      intro cap' hc'
      rw [hcaps₇] at hc'
      by_cases heq : handler = ntfn
      · rw [heq, Function.update_self] at hc'
        cases hc'
      · rw [Function.update_of_ne heq] at hc'
        exact hslots.2 cap' hc'
    refine Prog.wp_mono (deleteCap_quiet hq₇ hhandler haloof₇) ?_ (fun _ _ => False.elim)
      fun _ hp => hp
    rintro _ r₈ ⟨hq₈, -⟩
    have hundo := irqUndo_beside (α := Unit) (h₆.withRes hq₈) srv hntfn hhandler bit
      .invalidArguments
    simpa only [Prog.wp_bind, Prog.wp_fail, wp_onRes] using hundo

/-! ## The handlers -/

/-- A new handle, for something of the registry. -/
theorem newHandle_beside {α : Type} (h : Beside s s₁) {x : RootServerResource}
    (hx : x.OfRegistry) (r : Nat → α) :
    (do
      let idx ← allocateHandle p
      setHandle p idx (some x)
      pure (r idx) : Handler α).wp (fun _ s' => Beside s s') (fun _ s' => Beside s s')
      Panic.Low s₁ := by
  simp only [Prog.wp_bind]
  refine Prog.wp_mono (allocateHandle_spec s₁ p) ?_ (fun _ _ he => he ▸ h) fun _ hp => hp
  rintro idx _ ⟨rfl, hvalid, -⟩
  simp only [wp_setHandle, Prog.wp_pure]
  exact h.handle hvalid fun y hy => Option.some.inj hy ▸ hx

theorem handleIrqRegister_beside (s : State) (p : Nat) (args : IRQRegisterArgs) :
    (handleIrqRegister p args).wp (fun _ s' => Beside s s') (fun _ s' => Beside s s')
      Panic.Low s := by
  simp only [handleIrqRegister, Prog.wp_bind, Prog.wp_catchErr, Prog.wp_fail]
  refine Prog.wp_mono (getHandle_spec s p args.publishHndl) ?_ (fun _ _ he => he ▸ .refl s)
    fun _ hp => hp
  rintro x s ⟨rfl, -, -⟩
  simp only [Prog.wp_unwrap]
  refine ⟨fun y _ => ?_, fun _ => by decide⟩
  cases y with
  | server srv =>
    simp only [Prog.wp_bind]
    refine Prog.wp_mono (irqRegister_beside (.refl s) srv args.irqNum) ?_ (fun _ _ hs => hs)
      fun _ hp => hp
    rintro ⟨bit, handler⟩ s₁ h₁
    refine Prog.wp_mono (allocateHandle_spec s₁ p) ?_ (fun _ _ he => he ▸ h₁) fun _ hp => hp
    rintro idx s₁ ⟨rfl, hvalid, -⟩
    have h₂ := h₁.lists s₁.servers s₁.connections (s₁.irqs.alloc ⟨args.irqNum, bit⟩) rfl
      fun _ => ⟨rfl, rfl⟩
    refine h₂.handle ((State.validLoc_congr (s := s₁) rfl).mpr hvalid) ?_
    rintro _ ⟨⟩
    trivial
  | _ => exact .refl s

/-- The endpoint minted for the client is in a new slot, and the server has one connection more.
-/
theorem handleConnCreate_beside (s : State) (p : Nat) (name : String) :
    (handleConnCreate p name).wp (fun _ s' => Beside s s') (fun _ s' => Beside s s')
      Panic.Low s := by
  simp only [handleConnCreate, Prog.wp_bind, wp_getProc, Prog.wp_gets, Prog.wp_okOr]
  refine ⟨fun u _ => ⟨fun srv _ => ?_, fun _ => .refl s⟩, fun _ _ => by decide⟩
  simp only [wp_getServer, Prog.wp_ite, Prog.wp_fail, Prog.wp_bind, Prog.wp_catchErr, wp_onRes,
    Prog.wp_expect]
  refine ⟨fun _ => .refl s, fun _ => ?_⟩
  refine Prog.wp_mono (allocSlot_spec (.refl s.res)) ?_
    (fun _ _ hr => (Beside.refl s).withRes hr.1) fun _ hp => hp
  rintro slot r ⟨hq, hfresh, -⟩
  refine Prog.wp_mono (mintCap_quiet hq hfresh _ _ _) ?_ (fun _ _ _ => by decide) fun _ hp => hp
  rintro _ r₁ ⟨hq₁, -⟩
  simp only [wp_newConnection, wp_modifyServer]
  have h₁ := ((Beside.refl s).withRes hq₁).lists s.servers
    (s.connections.alloc ⟨u.pid, srv, slot, false⟩) s.irqs rfl fun _ => ⟨rfl, rfl⟩
  have h₂ := h₁.server srv
    (f := fun server => { server with connections := server.connections ++ [s.connections.next] })
    fun _ => ⟨rfl, rfl⟩
  have h₃ := newHandle_beside (p := p) h₂ (x := .connection s.connections.next) trivial
    fun idx => SMOSReply.connCreate idx slot
  simpa only [Prog.wp_bind] using h₃

/-- The server finds the client's connection in its list and marks it. -/
theorem handleConnRegister_beside (s : State) (p : Nat) (args : ConnRegisterArgs) :
    (handleConnRegister p args).wp (fun _ s' => Beside s s') (fun _ s' => Beside s s')
      Panic.Low s := by
  simp only [handleConnRegister, Prog.wp_bind, Prog.wp_catchErr, Prog.wp_fail]
  refine Prog.wp_mono (getHandle_spec s p args.publishHndl) ?_ (fun _ _ he => he ▸ .refl s)
    fun _ hp => hp
  rintro x s ⟨rfl, -, -⟩
  simp only [Prog.wp_unwrap]
  refine ⟨fun y _ => ?_, fun _ => by decide⟩
  cases y with
  | server srv =>
    simp only [Prog.wp_bind, wp_getServer]
    refine Prog.wp_mono (findConnection_spec _ s args.clientId _) ?_ (fun _ _ => False.elim)
      fun _ => False.elim
    rintro found s ⟨rfl, -⟩
    cases found with
    | none => exact .refl s
    | some conn =>
      simp only [Prog.wp_bind, wp_modifyConnection]
      have h₁ := (Beside.refl s).lists s.servers
        (s.connections.update conn fun connection => { connection with registered := true }) s.irqs
        rfl fun _ => ⟨rfl, rfl⟩
      have h₂ := newHandle_beside (p := p) h₁ (x := .connRegistration conn) trivial
        fun idx => SMOSReply.connRegister idx
      simpa only [Prog.wp_bind] using h₂
  | _ => exact .refl s

theorem handleConnDeregister_beside (s : State) (p hndl : Nat) :
    (handleConnDeregister p hndl).wp (fun _ s' => Beside s s') (fun _ s' => Beside s s')
      Panic.Low s := by
  simp only [handleConnDeregister, Prog.wp_bind, Prog.wp_catchErr, Prog.wp_fail]
  refine Prog.wp_mono (getHandle_spec s p hndl) ?_ (fun _ _ he => he ▸ .refl s) fun _ hp => hp
  rintro x s ⟨rfl, hvalid, -⟩
  simp only [Prog.wp_unwrap]
  refine ⟨fun y _ => ?_, fun _ => by decide⟩
  cases y with
  | connRegistration conn =>
    simp only [Prog.wp_bind, wp_modifyConnection, Prog.wp_expect]
    have h₁ := (Beside.refl s).lists s.servers
      (s.connections.update conn fun connection => { connection with registered := false }) s.irqs
      rfl fun _ => ⟨rfl, rfl⟩
    refine Prog.wp_mono (cleanupHandle_spec _ p hndl) ?_ (fun _ _ _ => by decide) fun _ hp => hp
    rintro _ _ rfl
    exact h₁.handle ((State.validLoc_congr (s := s) rfl).mpr hvalid) (by simp)
  | _ => exact .refl s

theorem handleObjStat_beside (s : State) (p : Nat) (hndl : HandleArg) :
    (handleObjStat p hndl).wp (fun _ s' => Beside s s') (fun _ s' => Beside s s')
      Panic.Low s := by
  simp only [handleObjStat, Prog.wp_bind]
  refine Prog.wp_mono (genericGetHandle_spec s p hndl 0) ?_ (fun _ _ he => he ▸ .refl s)
    fun _ hp => hp
  rintro x s ⟨rfl, -⟩
  simp only [Prog.wp_unwrap]
  refine ⟨fun y _ => ?_, fun _ => by decide⟩
  cases y with
  | object o => exact .refl s
  | _ =>
    exact Prog.wp_mono (genericInvalidHandleError_spec s hndl 0 (Q := fun _ _ => False))
      (fun _ _ => False.elim) (fun _ _ he => he ▸ .refl s) fun _ hp => hp

/-- Without a handle the minted capability is deleted and its slot freed. -/
theorem handleServerHandleCapCreate_beside (s : State) (p : Nat)
    (args : ServerHandleCapCreateArgs) :
    (handleServerHandleCapCreate p args).wp (fun _ s' => Beside s s') (fun _ s' => Beside s s')
      Panic.Low s := by
  simp only [handleServerHandleCapCreate, Prog.wp_bind, Prog.wp_catchErr, Prog.wp_fail]
  refine Prog.wp_mono (getHandle_spec s p args.publishHndl) ?_ (fun _ _ he => he ▸ .refl s)
    fun _ hp => hp
  rintro x s ⟨rfl, -, -⟩
  simp only [Prog.wp_unwrap]
  refine ⟨fun y _ => ?_, fun _ => by decide⟩
  cases y with
  | server srv =>
    simp only [Prog.wp_bind, wp_getServer, Prog.wp_catchErr, Prog.wp_fail]
    rw [wp_onRes]
    refine Prog.wp_mono (allocSlot_spec (.refl s.res)) ?_
      (fun _ _ hr => (Beside.refl s).withRes hr.1) fun _ hp => hp
    rintro slot r ⟨hq, hfresh, -⟩
    rw [wp_onRes]
    refine Prog.wp_mono (mintCap_quiet hq hfresh _ _ _) ?_ ?_ fun _ hp => hp
    swap
    · rintro _ _ rfl
      exact Prog.wp_mono (freeSlot_beside ((Beside.refl s).withRes hq) hfresh) (fun _ _ hs => hs)
        (fun _ _ => False.elim) fun _ hp => hp
    rintro _ r₁ ⟨hq₁, cap, hcap, hk⟩
    have h₁ := (Beside.refl s).withRes hq₁
    have haloof : Aloof r₁.kernel slot := by
      rw [hk]
      exact .setCap (fun hne => absurd rfl hne) hcap
    refine Prog.wp_mono (allocateHandle_spec _ p) ?_ ?_ fun _ hp => hp
    · rintro idx _ ⟨rfl, hvalid, -⟩
      simp only [wp_setHandle, Prog.wp_pure]
      refine h₁.handle hvalid ?_
      rintro _ ⟨⟩
      trivial
    · rintro e _ rfl
      rw [wp_onRes]
      refine Prog.wp_mono (deleteCap_quiet hq₁ hfresh haloof) ?_ (fun _ _ => False.elim)
        fun _ hp => hp
      rintro _ r₂ ⟨hq₂, -⟩
      exact Prog.wp_mono (freeSlot_beside (h₁.withRes hq₂) hfresh) (fun _ _ hs => hs)
        (fun _ _ => False.elim) fun _ hp => hp
  | _ => exact .refl s

/-- The channel's handle is in the table of handle capabilities, and the server notes its index.
-/
theorem handleServerCreateChannel_beside (s : State) (p publishHndl : Nat) :
    (handleServerCreateChannel p publishHndl).wp (fun _ s' => Beside s s')
      (fun _ s' => Beside s s') Panic.Low s := by
  simp only [handleServerCreateChannel, Prog.wp_bind, Prog.wp_catchErr, Prog.wp_fail]
  refine Prog.wp_mono (getHandle_spec s p publishHndl) ?_ (fun _ _ he => he ▸ .refl s)
    fun _ hp => hp
  rintro x s ⟨rfl, -, -⟩
  simp only [Prog.wp_unwrap]
  refine ⟨fun y _ => ?_, fun _ => by decide⟩
  cases y with
  | server srv =>
    simp only [Prog.wp_bind]
    have halloc := genericAllocateHandle_spec s p true
    refine Prog.wp_mono halloc ?_ (fun _ _ he => he ▸ .refl s) fun _ hp => hp
    rintro idx s ⟨rfl, hvalid, -⟩
    have hlt : idx < maxHandleCaps := hvalid
    refine Prog.wp_mono (dispatchNtfnRegister_beside (.refl s) srv) ?_ (fun _ _ hs => hs)
      fun _ hp => hp
    rintro ⟨bit, ntfn⟩ s₁ h₁
    simp only [wp_setHandleCap, wp_modifyProc, Prog.wp_pure]
    have hvalid₁ : s₁.ValidLoc (.cap idx) := hlt
    refine (h₁.handle (x := some (.channelAuthority ntfn bit)) hvalid₁ ?_).created p idx
    rintro _ ⟨⟩
    trivial
  | _ => exact .refl s

theorem handleChannelOpen_beside (s : State) (hndlCap : Nat) :
    (handleChannelOpen hndlCap).wp (fun _ s' => Beside s s') (fun _ s' => Beside s s')
      Panic.Low s := by
  simp only [handleChannelOpen, Prog.wp_bind, Prog.wp_catchErr, Prog.wp_fail]
  refine Prog.wp_mono (getHandleCap_spec s hndlCap) ?_ (fun _ _ he => he ▸ .refl s) fun _ hp => hp
  rintro x s ⟨rfl, -, -⟩
  simp only [Prog.wp_unwrap]
  refine ⟨fun y _ => ?_, fun _ => by decide⟩
  cases y <;> exact .refl s

theorem handleReplyCreate_beside (hr : Rooted s.res) (p : Nat) :
    (handleReplyCreate p).wp (fun _ s' => Beside s s') (fun _ s' => Beside s s')
      Panic.Low s := by
  simp only [handleReplyCreate, Prog.wp_bind, Prog.wp_catchErr, Prog.wp_fail]
  rw [wp_onRes]
  refine Prog.wp_mono (allocRetype_spec hr _) ?_ (fun _ _ hq => (Beside.refl s).withRes hq)
    fun _ hp => hp
  rintro reply r ⟨hq, -⟩
  have h₁ := newHandle_beside (p := p) ((Beside.refl s).withRes hq) (x := .reply reply.1) trivial
    fun idx => SMOSReply.replyCreate idx reply.1
  simpa only [Prog.wp_bind] using h₁

/-- None of them is about memory. -/
theorem handleRegistry_beside (hr : Rooted s.res) (p : Nat) (inv : RegistryInvocation) :
    (handleRegistry p inv).wp (fun _ s' => Beside s s') (fun _ s' => Beside s s')
      Panic.Low s := by
  cases inv with
  | irqRegister args => exact handleIrqRegister_beside s p args
  | connCreate name => exact handleConnCreate_beside s p name
  | connRegister args => exact handleConnRegister_beside s p args
  | connDeregister hndl => exact handleConnDeregister_beside s p hndl
  | objStat hndl => exact handleObjStat_beside s p hndl
  | replyCreate => exact handleReplyCreate_beside hr p
  | serverHandleCapCreate args => exact handleServerHandleCapCreate_beside s p args
  | serverCreateChannel publishHndl => exact handleServerCreateChannel_beside s p publishHndl
  | channelOpen hndlCap => exact handleChannelOpen_beside s hndlCap

/-- A connection is ended: the capabilities made of its endpoint are revoked, its server is told,
and the handle is given back. -/
structure Severed (s s' : State) : Prop where
  entered : Entered s { s' with res := s.res }
  res : ∃ c, s'.res = { s.res with kernel := s.res.kernel.revoke c }

/-- The server of a registered connection gets a message, one of an unregistered one does not. -/
theorem handleConnDestroy_severed (s : State) (p hndl : Nat) :
    (handleConnDestroy p hndl).wp (fun _ s' => Severed s s') (fun _ s' => s' = s)
      Panic.Low s := by
  simp only [handleConnDestroy, Prog.wp_bind, Prog.wp_catchErr, Prog.wp_fail]
  refine Prog.wp_mono (getHandle_spec s p hndl) ?_ (fun _ _ he => he) fun _ hp => hp
  rintro x s ⟨rfl, hvalid, -⟩
  simp only [Prog.wp_unwrap]
  refine ⟨fun y _ => ?_, fun _ => by decide⟩
  cases y with
  | connection conn =>
    simp only [Prog.wp_bind, wp_getConnection, wp_onRes, revokeCap, kmodify, Prog.wp_modify]
    -- the handle goes, from wherever the lists have come to
    have hend : ∀ s₁, Entered s { s₁ with res := s.res } → s₁.procCells = s.procCells →
        s₁.res = { s.res with kernel := s.res.kernel.revoke (s.connections conn).badgedEp } →
        (do
          (cleanupHandle p hndl).expect .unwrapNone
          pure SMOSReply.connDestroy : Handler SMOSReply).wp
          (fun _ s' => Severed s s') (fun _ s' => s' = s) Panic.Low s₁ := by
      intro s₁ hentered hcells hres
      simp only [Prog.wp_bind, Prog.wp_expect]
      refine Prog.wp_mono (cleanupHandle_spec s₁ p hndl) ?_ (fun _ _ _ => by decide) fun _ hp => hp
      rintro _ _ rfl
      have hvalid₁ : State.ValidLoc { s₁ with res := s.res } (.table p hndl) :=
        (State.validLoc_congr (s := s) hcells).mpr hvalid
      exact ⟨hentered.handle _ none hvalid₁ (by simp), _, hres⟩
    simp only [Prog.wp_ite]
    refine ⟨fun _ => ?_, fun _ => ?_⟩
    swap
    · refine hend _ ?_ ?_ ?_
      · exact .refl
      · rfl
      · rfl
    rw [Prog.wp_bind]
    refine Prog.wp_mono (enqueueNtfnBufferMsg_spec _ _ _) ?_ (fun _ _ => False.elim) fun _ hp => hp
    rintro _ _ rfl
    refine hend _ ?_ ?_ ?_
    · refine .lists .refl _ s.connections s.irqs rfl fun srv => ?_
      rw [Heap.update_apply]
      split
      · next heq =>
        rw [heq]
        exact ⟨rfl, rfl⟩
      · exact ⟨rfl, rfl⟩
    · rfl
    · rfl
  | _ => exact rfl

end Handlers

end Smos.RootServer
