/-
Smos.RootServer.IrqDispatch — the root server's own interrupts.

Each registered interrupt has a bit of the notification badge, and a
handler at that bit. `handle_irq` goes through the bits of a badge from the
lowest one on and calls their handlers.

After each handler its bit is taken out of the badge, and what is left to
check is masked with the complement of the badge, where the badge itself
is meant: the bit that was handled is the one that stays. So the loop ends
if it has nothing to do, and never ends otherwise (`handleIrqLoop_stuck`).
-/
import Mathlib.Data.List.Perm.Basic
import Smos.Base.Run
import Smos.RootServer.Boot
import Smos.RootServer.Irq

namespace Smos.RootServer

open Smos.Base

/-! ## The code -/

/-- The callback is called with `data`, `irq` and `irqHandler`. -/
structure IRQHandlerInfo where
  irq : Nat
  irqHandler : Slot
  ntfn : Slot
  callback : Nat
  data : Nat
  deriving DecidableEq, Repr

structure IRQDispatch where
  flagBits : BitVec 64
  identBits : BitVec 64
  allocatedBits : Bitfield
  irqHandlers : Nat → Option IRQHandlerInfo

namespace IRQDispatch

/-- `IRQDispatch::new`. -/
def new (flagBits identBits : BitVec 64) : IRQDispatch where
  flagBits := flagBits
  identBits := identBits
  allocatedBits := [~~~ identBits]
  irqHandlers := fun _ => none

/-- The state is the list of the handlers called. -/
abbrev CallProg (α : Type) := Prog Panic (List IRQHandlerInfo) Empty α

/-- The loop of `handle_irq`, with `none` where it has not ended. -/
def handleIrqLoop (d : IRQDispatch) :
    Nat → BitVec 64 → BitVec 64 → CallProg (Option (BitVec 64))
  | 0, _, _ => pure none
  | fuel + 1, badge, uncheckedBits =>
    if uncheckedBits ≠ 0 then do
      let bit := uncheckedBits.ctz.toNat
      let handler ← d.irqHandlers bit |> Prog.unwrap .unwrapNone
      Prog.modify fun calls => calls ++ [handler]
      let badge := badge &&& ~~~ BitVec.twoPow 64 bit
      handleIrqLoop d fuel badge (uncheckedBits &&& ~~~ badge)
    else pure (some badge)

/-- `handle_irq`. -/
def handleIrq (d : IRQDispatch) (fuel : Nat) (badge : BitVec 64) :
    CallProg (Option (BitVec 64)) := do
  let allocated ← d.allocatedBits[0]? |> Prog.unwrap .indexOutOfBounds
  handleIrqLoop d fuel badge (badge &&& allocated &&& d.identBits)

end IRQDispatch

/-- The dispatcher, and what registering an interrupt takes. -/
structure IrqState where
  dispatch : IRQDispatch
  res : Res

abbrev IrqProg (α : Type) := Prog Panic IrqState Sel4Error α

namespace IRQDispatch

def onRes {α : Type} (m : RProg Sel4Error α) : IrqProg α :=
  Prog.zoom IrqState.res (fun s r => { s with res := r }) m

def onDispatch (f : IRQDispatch → IRQDispatch) : IrqProg Unit :=
  Prog.modify fun s => { s with dispatch := f s.dispatch }

/-- `alloc_irq_bit`. -/
def allocIrqBit : IrqProg Nat := do
  let d ← Prog.gets IrqState.dispatch
  let bit ← d.allocatedBits.bfFirstFree |> Prog.okOr .notEnoughMemory
  let bits ← d.allocatedBits.bfSetBit bit |> Prog.unwrap .indexOutOfBounds
  onDispatch fun d => { d with allocatedBits := bits }
  pure bit

/-- `free_irq_bit`. -/
def freeIrqBit (bit : Nat) : IrqProg Unit := do
  let d ← Prog.gets IrqState.dispatch
  let bits ← d.allocatedBits.bfClrBit bit |> Prog.unwrap .indexOutOfBounds
  onDispatch fun d => { d with allocatedBits := bits }

/-- `register_irq_handler`; whether the interrupt is edge-triggered is the kernel's business. -/
def registerIrqHandler (irq callback data : Nat) (irqNtfn : Slot) : IrqProg Slot := do
  let identBit ← allocIrqBit
  let handlerCptr ← (onRes allocSlot).catchErr fun e => do
    freeIrqBit identBit
    Prog.fail e
  let ntfnCptr ← (onRes allocSlot).catchErr fun e => do
    onRes (freeSlot handlerCptr)
    freeIrqBit identBit
    Prog.fail e
  (onRes (irqControlGet handlerCptr irq)).catchErr fun e => do
    onRes (freeSlot ntfnCptr)
    onRes (freeSlot handlerCptr)
    freeIrqBit identBit
    Prog.fail e
  let d ← Prog.gets IrqState.dispatch
  let badge := d.flagBits ||| BitVec.twoPow 64 identBit
  (onRes (mintCap ntfnCptr irqNtfn .writeOnly badge.toNat)).catchErr fun e => do
    onRes (deleteCap handlerCptr)
    onRes (freeSlot ntfnCptr)
    onRes (freeSlot handlerCptr)
    freeIrqBit identBit
    Prog.fail e
  (onRes (kcall fun k => k.irqHandlerSetNotification handlerCptr ntfnCptr)).catchErr fun e => do
    onRes (deleteCap ntfnCptr)
    onRes (deleteCap handlerCptr)
    onRes (freeSlot ntfnCptr)
    onRes (freeSlot handlerCptr)
    freeIrqBit identBit
    Prog.fail e
  onDispatch fun d =>
    { d with
      irqHandlers := Function.update d.irqHandlers identBit
        (some ⟨irq, handlerCptr, ntfnCptr, callback, data⟩) }
  pure handlerCptr

/-- A request to register an interrupt. -/
structure Registration where
  irq : Nat
  callback : Nat
  data : Nat
  irqNtfn : Slot

/-- A registration, whether it succeeds or not. -/
def next (s : IrqState) (x : Registration) : Option IrqState :=
  match registerIrqHandler x.irq x.callback x.data x.irqNtfn s with
  | .ok _ s' => some s'
  | .err _ s' => some s'
  | .panic _ => none

/-- A new dispatcher. -/
def Fresh (s : IrqState) : Prop :=
  ∃ flagBits identBits, s.dispatch = new flagBits identBits

/-! ## The registered bits -/

/-- Bits that do not identify count as taken, and those that do are taken by their handlers. -/
structure Wf (d : IRQDispatch) : Prop where
  length : d.allocatedBits.length = 1
  others : ∀ i < 64, d.identBits.getLsbD i = false → d.allocatedBits.Has i
  handlers : ∀ i, (d.irqHandlers i).isSome = true ↔
    d.allocatedBits.Has i ∧ d.identBits.getLsbD i = true

/-- Each handler of a bit in the badge is called once, no other is, and the other bits are left. -/
def HandlesExactly (d : IRQDispatch) (badge : BitVec 64) : Prop :=
  ∃ fuel rest calls, d.handleIrq fuel badge [] = .ok (some rest) calls ∧
    calls.Perm ((List.range 64).filterMap fun i =>
      if badge.getLsbD i then d.irqHandlers i else none) ∧
    ∀ i, rest.getLsbD i = (badge.getLsbD i && (d.irqHandlers i).isNone)

section Loop

variable {d : IRQDispatch} {badge uncheckedBits : BitVec 64} {s : IrqState}

/-- A bit whose handler was called is checked again: the loop never ends. -/
theorem handleIrqLoop_stuck (fuel : Nat) : ∀ (badge uncheckedBits : BitVec 64)
    (calls : List IRQHandlerInfo), uncheckedBits ≠ 0 →
    (∀ i, uncheckedBits.getLsbD i = true → (d.irqHandlers i).isSome = true) →
    ∃ calls', d.handleIrqLoop fuel badge uncheckedBits calls = .ok none calls' := by
  induction fuel with
  | zero => exact fun _ _ calls _ _ => ⟨calls, rfl⟩
  | succ fuel ih =>
    intro badge uncheckedBits calls hne hreg
    have hbit : uncheckedBits.getLsbD uncheckedBits.ctz.toNat = true :=
      BitVec.getLsbD_true_ctz_of_ne_zero hne
    obtain ⟨handler, hhandler⟩ := Option.isSome_iff_exists.mp (hreg _ hbit)
    have hlt := BitVec.lt_of_getLsbD hbit
    have hrest : ∀ rest : BitVec 64, rest.getLsbD uncheckedBits.ctz.toNat = false →
        ∃ calls', d.handleIrqLoop fuel rest (uncheckedBits &&& ~~~ rest) (calls ++ [handler]) =
          .ok none calls' := by
      intro rest hout
      -- the bit is no longer in the badge, so it is in the complement
      have hstays : (uncheckedBits &&& ~~~ rest).getLsbD uncheckedBits.ctz.toNat = true := by
        rw [BitVec.getLsbD_and, BitVec.getLsbD_not, hbit, hout, decide_eq_true hlt]
        rfl
      refine ih rest _ _ (fun hzero => ?_) fun i hi => hreg i ?_
      · rw [hzero] at hstays
        simp at hstays
      · rw [BitVec.getLsbD_and, Bool.and_eq_true] at hi
        exact hi.1
    obtain ⟨calls', hok⟩ := hrest (badge &&& ~~~ BitVec.twoPow 64 uncheckedBits.ctz.toNat)
      (by simp [hlt])
    refine ⟨calls', ?_⟩
    rw [handleIrqLoop, if_pos hne, hhandler]
    exact hok

/-- With nothing to check it ends at once. -/
theorem handleIrqLoop_zero (calls : List IRQHandlerInfo) :
    d.handleIrqLoop 1 badge 0 calls = .ok (some badge) calls := rfl

/-- What `handle_irq` checks: the registered bits of the badge. -/
theorem Wf.checked (h : d.Wf) (badge : BitVec 64) : ∃ allocated,
    d.allocatedBits[0]? = some allocated ∧ ∀ i,
      (badge &&& allocated &&& d.identBits).getLsbD i =
        (badge.getLsbD i && (d.irqHandlers i).isSome) := by
  obtain ⟨allocated, hbits⟩ := List.length_eq_one_iff.mp h.length
  refine ⟨allocated, by rw [hbits]; rfl, fun i => ?_⟩
  by_cases hi : i < 64
  · have hhas : d.allocatedBits.Has i ↔ allocated.getLsbD i = true := by
      rw [hbits, Bitfield.has_cons_lt hi]
    have hsome := h.handlers i
    rw [hhas] at hsome
    rw [BitVec.getLsbD_and, BitVec.getLsbD_and, Bool.and_assoc]
    congr 1
    rw [Bool.eq_iff_iff, hsome, Bool.and_eq_true]
  · have hge := Nat.le_of_not_lt hi
    rw [BitVec.getLsbD_of_ge _ _ hge, BitVec.getLsbD_of_ge _ _ hge, Bool.false_and]

theorem Wf.handlesExactly_iff (h : d.Wf) (badge : BitVec 64) :
    d.HandlesExactly badge ↔ ∀ i, badge.getLsbD i = true → d.irqHandlers i = none := by
  obtain ⟨allocated, hallocated, hchecked⟩ := h.checked badge
  have hrun : ∀ fuel calls, d.handleIrq fuel badge calls =
      d.handleIrqLoop fuel badge (badge &&& allocated &&& d.identBits) calls := by
    intro fuel calls
    unfold handleIrq
    rw [hallocated]
    rfl
  constructor
  · rintro ⟨fuel, rest, calls, hok, -, -⟩ i hi
    by_contra hne
    have hsome := Option.isSome_iff_ne_none.mpr hne
    have hbit := hchecked i
    rw [hi, hsome, Bool.and_self] at hbit
    have hzero : badge &&& allocated &&& d.identBits ≠ 0 := by
      intro hzero
      rw [hzero] at hbit
      simp at hbit
    obtain ⟨calls', hstuck⟩ := handleIrqLoop_stuck fuel badge _ [] hzero fun j hj => by
      rw [hchecked j, Bool.and_eq_true] at hj
      exact hj.2
    rw [hrun, hstuck] at hok
    cases hok
  · intro hnone
    have hzero : badge &&& allocated &&& d.identBits = 0 := by
      refine BitVec.eq_of_getLsbD_eq fun i _ => ?_
      rw [hchecked i]
      cases hi : badge.getLsbD i with
      | false => simp
      | true => simp [hnone i hi]
    refine ⟨1, badge, [], ?_, ?_, fun i => ?_⟩
    · rw [hrun, hzero]
      exact handleIrqLoop_zero []
    · have hempty : ((List.range 64).filterMap fun i =>
          if badge.getLsbD i then d.irqHandlers i else none) = [] := by
        refine List.filterMap_eq_nil_iff.mpr fun i _ => ?_
        split
        · next hi => exact hnone i hi
        · rfl
      rw [hempty]
    · cases hi : badge.getLsbD i with
      | false => rfl
      | true => rw [hnone i hi]; rfl

end Loop

/-! ## Registering -/

/-- A bit was taken. -/
def Taken (d : IRQDispatch) (bit : Nat) (d' : IRQDispatch) : Prop :=
  ∃ bits, d.allocatedBits.bfFirstFree = some bit ∧ d.allocatedBits.bfSetBit bit = some bits ∧
    d' = { d with allocatedBits := bits }

section Register

variable {d : IRQDispatch} {s : IrqState} {bit : Nat} {α : Type}

theorem new_wf (flagBits identBits : BitVec 64) : (new flagBits identBits).Wf where
  length := rfl
  others i hi hident := by
    have hident' : identBits.getLsbD i = false := hident
    show Bitfield.Has [~~~ identBits] i
    rw [Bitfield.has_cons_lt hi, BitVec.getLsbD_not, hident', decide_eq_true hi]
    rfl
  handlers i := by
    refine iff_of_false (by simp [new]) fun ⟨hhas, hident⟩ => ?_
    have hi := BitVec.lt_of_getLsbD hident
    have hident' : identBits.getLsbD i = true := hident
    have hhas' : Bitfield.Has [~~~ identBits] i := hhas
    rw [Bitfield.has_cons_lt hi, BitVec.getLsbD_not, hident'] at hhas'
    simp at hhas'

/-- Calls for the resources leave the dispatcher alone. -/
theorem onRes_spec (m : RProg Sel4Error α) : (onRes m).wp (fun _ s' => s'.dispatch = s.dispatch)
    (fun _ s' => s'.dispatch = s.dispatch) (fun _ => True) s := by
  unfold onRes
  rw [Prog.wp_zoom]
  exact Prog.wp_mono Prog.wp_trivial (fun _ _ _ => rfl) (fun _ _ _ => rfl) fun _ _ => trivial

theorem allocIrqBit_spec : allocIrqBit.wp (fun bit s' => Taken s.dispatch bit s'.dispatch)
    (fun _ s' => s'.dispatch = s.dispatch) (fun _ => True) s := by
  simp only [allocIrqBit, onDispatch, Prog.wp_bind, Prog.wp_gets, Prog.wp_okOr, Prog.wp_unwrap,
    Prog.wp_modify, Prog.wp_pure]
  exact ⟨fun bit hbit => ⟨fun bits hbits => ⟨bits, hbit, hbits, rfl⟩, fun _ => trivial⟩,
    fun _ => trivial⟩

/-- The program fails, and undoes the taking of the bit. -/
def GivesBack (d : IRQDispatch) (bit : Nat) (m : IrqProg α) : Prop :=
  ∀ s : IrqState, Taken d bit s.dispatch →
    m.wp (fun _ _ => False) (fun _ s' => s'.dispatch = d) (fun _ => True) s

theorem GivesBack.fail (e : Sel4Error) :
    GivesBack d bit (do freeIrqBit bit; Prog.fail e : IrqProg α) := by
  intro s ⟨bits, hfree, hset, hd⟩
  have hclear := Bitfield.bfClrBit_bfSetBit (Bitfield.bfFirstFree_spec hfree).2 hset
  simp only [freeIrqBit, onDispatch, Prog.wp_bind, Prog.wp_gets, Prog.wp_unwrap, Prog.wp_modify,
    Prog.wp_fail]
  rw [hd]
  refine ⟨fun bits' hbits' => ?_, fun _ => trivial⟩
  obtain rfl := Option.some.inj (hclear.symm.trans hbits')
  rfl

/-- Whatever else is undone first. -/
theorem GivesBack.onRes {m : IrqProg α} (h : GivesBack d bit m) {undo : RProg Sel4Error Unit}
    (hundo : ∀ r, undo.wp (fun _ _ => True) (fun _ _ => False) (fun _ => True) r) :
    GivesBack d bit (do onRes undo; m) := by
  intro s htaken
  simp only [Prog.wp_bind, IRQDispatch.onRes, Prog.wp_zoom]
  exact Prog.wp_mono (hundo s.res) (fun _ r _ => h _ htaken) (fun _ _ hf => hf.elim)
    fun _ _ => trivial

theorem freeSlot_undoes (c : Slot) (r : Res) : (freeSlot c : RProg Sel4Error Unit).wp
    (fun _ _ => True) (fun _ _ => False) (fun _ => True) r := by
  unfold RootServer.freeSlot
  rw [Prog.wp_zoom]
  exact Prog.wp_mono (CSpace.freeSlot_spec _ c) (fun _ _ _ => trivial) (fun _ _ hf => hf)
    fun _ _ => trivial

theorem deleteCap_undoes (c : Slot) (r : Res) : (deleteCap c : RProg Sel4Error Unit).wp
    (fun _ _ => True) (fun _ _ => False) (fun _ => True) r := trivial

/-- A call for the resources between the taking of the bit and its handler. -/
theorem taken_step {m : RProg Sel4Error α} {handler : Sel4Error → IrqProg α}
    (htaken : Taken d bit s.dispatch) (h : ∀ e, GivesBack d bit (handler e)) :
    ((onRes m).catchErr handler).wp (fun _ s' => Taken d bit s'.dispatch)
      (fun _ s' => s'.dispatch = d) (fun _ => True) s := by
  rw [Prog.wp_catchErr]
  refine Prog.wp_mono (onRes_spec m) (fun _ s' hd => ?_) (fun e s' hd => ?_) fun _ _ => trivial
  · rwa [hd]
  · rw [← hd] at htaken
    exact Prog.wp_mono (h e s' htaken) (fun _ _ hf => hf.elim) (fun _ _ hs => hs) fun _ _ => trivial

/-- Either the bit that was free first has a handler, or nothing has changed. -/
theorem registerIrqHandler_spec (irq callback data : Nat) (irqNtfn : Slot) :
    (registerIrqHandler irq callback data irqNtfn).wp
      (fun _ s' => ∃ bit bits info, s.dispatch.allocatedBits.bfFirstFree = some bit ∧
        s.dispatch.allocatedBits.bfSetBit bit = some bits ∧
        s'.dispatch = { s.dispatch with
          allocatedBits := bits
          irqHandlers := Function.update s.dispatch.irqHandlers bit (some info) })
      (fun _ s' => s'.dispatch = s.dispatch) (fun _ => True) s := by
  simp only [registerIrqHandler, Prog.wp_bind]
  refine Prog.wp_mono allocIrqBit_spec ?_ (fun _ _ h => h) fun _ _ => trivial
  intro bit s₁ htaken
  refine Prog.wp_mono (taken_step htaken .fail) ?_ (fun _ _ h => h) fun _ _ => trivial
  intro handlerCptr s₂ htaken
  have hback : ∀ e, GivesBack s.dispatch bit
      (do onRes (freeSlot handlerCptr); freeIrqBit bit; Prog.fail e : IrqProg Unit) :=
    fun e => .onRes (.fail e) (freeSlot_undoes _)
  refine Prog.wp_mono (taken_step htaken fun e => .onRes (.fail e) (freeSlot_undoes _)) ?_
    (fun _ _ h => h) fun _ _ => trivial
  intro ntfnCptr s₃ htaken
  have hback' : ∀ e, GivesBack s.dispatch bit
      (do onRes (freeSlot ntfnCptr); onRes (freeSlot handlerCptr); freeIrqBit bit
          Prog.fail e : IrqProg Unit) := fun e => (hback e).onRes (freeSlot_undoes _)
  refine Prog.wp_mono (taken_step htaken hback') ?_ (fun _ _ h => h) fun _ _ => trivial
  intro _ s₄ htaken
  rw [Prog.wp_gets]
  refine Prog.wp_mono (taken_step htaken fun e => (hback' e).onRes (deleteCap_undoes _)) ?_
    (fun _ _ h => h) fun _ _ => trivial
  intro _ s₅ htaken
  refine Prog.wp_mono (taken_step htaken fun e =>
    ((hback' e).onRes (deleteCap_undoes _)).onRes (deleteCap_undoes _)) ?_ (fun _ _ h => h)
    fun _ _ => trivial
  rintro _ s₆ ⟨bits, hfree, hset, hd⟩
  simp only [onDispatch, Prog.wp_modify, Prog.wp_pure]
  refine ⟨bit, bits, ⟨irq, handlerCptr, ntfnCptr, callback, data⟩, hfree, hset, ?_⟩
  rw [hd]

theorem registerIrqHandler_wf {x : Registration} {s' : IrqState} (h : s.dispatch.Wf)
    (hn : next s x = some s') : s'.dispatch.Wf := by
  have hspec := registerIrqHandler_spec (s := s) x.irq x.callback x.data x.irqNtfn
  unfold next at hn
  split at hn
  · next hok =>
    obtain rfl := Option.some.inj hn
    obtain ⟨bit, bits, info, hfree, hset, hd⟩ := Prog.wp_ok hspec hok
    have hfirst := Bitfield.bfFirstFree_spec hfree
    have hlt : bit < 64 := by
      have hin := hfirst.1
      unfold Bitfield.InRange wordIndex wordBits at hin
      rw [h.length] at hin
      omega
    have hhas := Bitfield.bfSetBit_has hset
    rw [hd]
    refine ⟨(Bitfield.bfSetBit_length hset).trans h.length, fun i hi hident => ?_, fun i => ?_⟩
    · exact (hhas i).mpr (.inl (h.others i hi hident))
    · -- a bit that was free identifies
      have hident : s.dispatch.identBits.getLsbD bit = true := by
        by_contra hno
        exact hfirst.2 (h.others bit hlt (Bool.eq_false_iff.mpr hno))
      have hold := h.handlers i
      show (Function.update s.dispatch.irqHandlers bit (some info) i).isSome = true ↔
        Bitfield.Has bits i ∧ s.dispatch.identBits.getLsbD i = true
      rw [hhas i]
      by_cases hi : i = bit
      · subst hi
        simp [hident]
      · simp [hold, hi]
  · next herr =>
    obtain rfl := Option.some.inj hn
    rw [Prog.wp_err hspec herr]
    exact h
  · cases hn

theorem run_wf {xs : List Registration} (h : Run Fresh next (fun _ _ => True) xs s) :
    s.dispatch.Wf := by
  refine Run.invariant (I := fun s => s.dispatch.Wf) (fun s h => ?_) (fun s x s' hs _ hn => ?_) h
  · obtain ⟨flagBits, identBits, hnew⟩ := h
    rw [hnew]
    exact new_wf flagBits identBits
  · exact registerIrqHandler_wf hs hn

/-- Of all dispatchers that registrations lead to, `handle_irq` is right about the badges that have
no registered bit, and never returns for the others. -/
theorem handleIrq_exact_iff {xs : List Registration} (h : Run Fresh next (fun _ _ => True) xs s)
    (badge : BitVec 64) : s.dispatch.HandlesExactly badge ↔
      ∀ i, badge.getLsbD i = true → s.dispatch.irqHandlers i = none :=
  (run_wf h).handlesExactly_iff badge

/-- A new dispatcher that identifies by the bits from 0 to 31, and a notification in slot 51. -/
def irqDemo : IrqState where
  dispatch := new (BitVec.twoPow 64 63) (BitVec.ofNat 64 (2 ^ 32 - 1))
  res := { demo.res with
    kernel := demo.res.kernel.setCap 51 (some (.object 12 .notification)) }

def demoRegistration : Registration := ⟨40, 1, 2, 51⟩

theorem irqDemo_fresh : Fresh irqDemo := ⟨_, _, rfl⟩

theorem irqDemo_reaches : ∃ s, Run Fresh next (fun _ _ => True) [demoRegistration] s ∧
    (s.dispatch.irqHandlers 0).isSome = true ∧ s.dispatch.irqHandlers 1 = none ∧
    s.dispatch.irqHandlers 63 = none := by
  have hrun : (Run.steps next irqDemo [demoRegistration]).any (fun s =>
      decide ((s.dispatch.irqHandlers 0).isSome = true ∧ s.dispatch.irqHandlers 1 = none ∧
        s.dispatch.irqHandlers 63 = none)) = true := by decide +kernel
  exact Run.exists_of_steps irqDemo_fresh (Run.guarded_true _ _) hrun

/-- After one registration, a badge with another bit and the flag. -/
theorem handleIrq_exact_demo : ∃ s, Run Fresh next (fun _ _ => True) [demoRegistration] s ∧
    s.dispatch.HandlesExactly (BitVec.ofNat 64 (2 ^ 63 + 2)) := by
  obtain ⟨s, run, -, h₁, h₆₃⟩ := irqDemo_reaches
  refine ⟨s, run, (handleIrq_exact_iff run _).mpr fun i hi => ?_⟩
  have hbits : ∀ i < 64, (BitVec.ofNat 64 (2 ^ 63 + 2)).getLsbD i = true → i = 1 ∨ i = 63 := by
    decide
  rcases hbits i (BitVec.lt_of_getLsbD hi) hi with rfl | rfl
  · exact h₁
  · exact h₆₃

/-- An interrupt is registered, and signals. -/
theorem handleIrq_exact_not : ∃ s, Run Fresh next (fun _ _ => True) [demoRegistration] s ∧
    ¬ s.dispatch.HandlesExactly 1 := by
  obtain ⟨s, run, h, -⟩ := irqDemo_reaches
  refine ⟨s, run, fun hexact => ?_⟩
  have hnone := ((run_wf run).handlesExactly_iff 1).mp hexact 0 (by decide)
  rw [hnone] at h
  cases h

end Register

end IRQDispatch

end Smos.RootServer
