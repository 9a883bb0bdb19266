/-
Smos.RootServer.Badges — the bits of a dispatcher and the badges made of them.

A registration takes the first free bit of its dispatcher and mints a
notification with this bit as the badge. A registration that fails gives
the bit back, at whichever of its steps it fails. The invariant of a
dispatcher is that the taken bits are the top one, the root server's and
those of the registrations that succeeded.

The badges then decode: whatever registrations were signalled, the word a
server receives is a notification with exactly their bits.
-/
import Smos.Ipc.Event
import Smos.RootServer.Boot
import Smos.RootServer.Carried

namespace Smos.RootServer

open Smos.Base Smos.Ipc

variable {srv : ServerRef} {s s' : State} {bf bits : Bitfield} {bit : Nat}

/-! ## Bits -/

/-- The same bits are set. -/
structure SameBits (bf bf' : Bitfield) : Prop where
  length : bf'.length = bf.length
  has : ∀ i, bf'.Has i ↔ bf.Has i

theorem SameBits.refl (bf : Bitfield) : SameBits bf bf := ⟨rfl, fun _ => Iff.rfl⟩

/-- Clearing the bit that was taken last is as if it had not been taken. -/
theorem SameBits.of_clear {bits' : Bitfield} (hfree : bf.bfFirstFree = some bit)
    (hset : bf.bfSetBit bit = some bits) (hclr : bits.bfClrBit bit = some bits') :
    SameBits bf bits' := by
  obtain ⟨-, hclear⟩ := Bitfield.bfFirstFree_spec hfree
  constructor
  · rw [Bitfield.bfClrBit_length hclr, Bitfield.bfSetBit_length hset]
  · intro i
    rw [Bitfield.bfClrBit_has hclr, Bitfield.bfSetBit_has hset]
    constructor
    · intro ⟨h, hne⟩
      exact h.resolve_right hne
    · intro h
      exact ⟨.inl h, fun heq => hclear (heq ▸ h)⟩

/-- The bits of the server's dispatcher. -/
def HasBits (srv : ServerRef) (bf : Bitfield) (s : State) : Prop :=
  (s.servers srv).ntfnDispatch.allocatedBits = bf

/-- A registration has taken the first free bit. -/
def TookBit (srv : ServerRef) (bf : Bitfield) (bit : Nat) (s : State) : Prop :=
  ∃ bits, bf.bfFirstFree = some bit ∧ bf.bfSetBit bit = some bits ∧ HasBits srv bits s

/-- No bit is taken that was free. -/
def GaveBack (srv : ServerRef) (bf : Bitfield) (s : State) : Prop :=
  ∃ bits, SameBits bf bits ∧ HasBits srv bits s

/-- The badge of the notification that signals a bit. -/
def badgeOf (s : State) (srv : ServerRef) (bit : Nat) : Option Nat :=
  match ((s.servers srv).ntfnDispatch.badgedNtfns bit).bind s.res.kernel.caps with
  | some (.badged _ _ badge _) => some badge
  | _ => none

/-! ## The steps of a registration -/

section Steps

variable {ε α : Type}

/-- A program on the resources leaves every dispatcher alone. -/
theorem onRes_bits {m : RProg ε α} {Q : α → State → Prop} {E : ε → State → Prop}
    (hQ : ∀ a r, Q a { s with res := r }) (hE : ∀ e r, E e { s with res := r }) :
    (onRes m).wp Q E (fun _ => True) s := by
  rw [onRes, Prog.wp_zoom]
  exact Prog.wp_mono Prog.wp_trivial (fun a r _ => hQ a r) (fun e r _ => hE e r) fun _ h => h

/-- Giving back slots and deleting capabilities cannot fail. -/
theorem freeSlot_bits {c : Slot} {Q : Unit → State → Prop} {E : ε → State → Prop}
    (hQ : ∀ r, Q () { s with res := r }) : (onRes (freeSlot c)).wp Q E (fun _ => True) s := by
  simp only [onRes, freeSlot, Prog.wp_zoom]
  exact Prog.wp_mono (CSpace.freeSlot_spec s.res.cspace c) (fun _ _ _ => hQ _)
    (fun _ _ => False.elim) fun _ _ => trivial

theorem deleteCap_bits {c : Slot} {Q : Unit → State → Prop} {E : ε → State → Prop}
    (hQ : ∀ r, Q () { s with res := r }) : (onRes (deleteCap c)).wp Q E (fun _ => True) s := by
  simp only [onRes, deleteCap, kmodify, Prog.wp_zoom, Prog.wp_modify]
  exact hQ _

theorem allocNtfnBit_spec (h : HasBits srv bf s) :
    (allocNtfnBit srv).wp (TookBit srv bf) (fun _ s' => s' = s) (fun _ => True) s := by
  simp only [allocNtfnBit, getServer, modifyDispatch, modifyServer, Prog.wp_bind, Prog.wp_gets,
    Prog.wp_okOr, Prog.wp_unwrap, Prog.wp_modify, Prog.wp_pure]
  constructor
  · intro bit hfree
    rw [h] at hfree ⊢
    refine ⟨fun bits hset => ⟨bits, hfree, hset, ?_⟩, fun _ => trivial⟩
    simp [HasBits]
  · intro _
    trivial

/-- A failed registration ends by giving its bit back. -/
theorem freeNtfnBit_spec (hfree : bf.bfFirstFree = some bit) (hset : bf.bfSetBit bit = some bits)
    (h : HasBits srv bits s) :
    (freeNtfnBit srv bit : SProg ε Unit).wp (fun _ => GaveBack srv bf) (fun _ _ => False)
      (fun _ => True) s := by
  simp only [freeNtfnBit, getServer, modifyDispatch, modifyServer, Prog.wp_bind, Prog.wp_gets,
    Prog.wp_unwrap, Prog.wp_modify]
  refine ⟨fun bits' hclr => ⟨bits', ?_, by simp [HasBits]⟩, fun _ => trivial⟩
  rw [h] at hclr
  exact .of_clear hfree hset hclr

theorem mintNtfn_spec (ntfn : Slot) (identBit : Nat) (h : HasBits srv bits s) :
    (mintNtfn srv ntfn identBit : SProg ε Unit).wp
      (fun _ s' => HasBits srv bits s' ∧
        ∃ obj kind, s'.res.kernel.caps ntfn = some (.badged obj kind (ntfnBadge identBit) .writeOnly))
      (fun _ _ => False) (fun _ => True) s := by
  simp only [mintNtfn, getServer, onRes, mintCap, kcall, Prog.wp_bind, Prog.wp_gets, Prog.wp_zoom,
    Prog.wp_expect, Prog.wp_ofExcept]
  refine ⟨fun k hk => ⟨h, ?_⟩, fun _ _ => trivial⟩
  obtain ⟨obj, kind, -, -, rfl⟩ := Kernel.mint_ok hk
  exact ⟨obj, kind, Kernel.setCap_caps_self _⟩

end Steps

/-! ## Registrations -/

/-- A registration on a dispatcher. -/
inductive Registration where
  | ntfn
  | irq (irqNum : Nat)
  deriving DecidableEq, Repr

def Registration.run (srv : ServerRef) : Registration → Handler (Nat × Slot)
  | .ntfn => dispatchNtfnRegister srv
  | .irq irqNum => irqRegister srv irqNum

/-- What a registration does to its dispatcher: it takes a bit and mints the badge of this bit,
or it fails and takes nothing. -/
def Registers (srv : ServerRef) (bf : Bitfield) (m : Handler (Nat × Slot)) (s : State) : Prop :=
  m.wp (fun x s' => TookBit srv bf x.1 s' ∧ badgeOf s' srv x.1 = some (ntfnBadge x.1))
    (fun _ => GaveBack srv bf) (fun _ => True) s

theorem dispatchNtfnRegister_spec (h : HasBits srv bf s) :
    Registers srv bf (dispatchNtfnRegister srv) s := by
  simp only [Registers, dispatchNtfnRegister, Prog.wp_bind, Prog.wp_catchErr, Prog.wp_fail,
    Prog.wp_pure]
  refine Prog.wp_mono (allocNtfnBit_spec h) ?_ ?_ fun _ _ => trivial
  swap
  · intro _ s₁ heq
    exact ⟨bf, .refl bf, heq ▸ h⟩
  intro bit s₁ hpost
  rcases hpost with ⟨bits, hfree, hset, h₁⟩
  refine onRes_bits (fun ntfn r => ?_) fun _ r => ?_
  swap
  · exact Prog.wp_mono (freeNtfnBit_spec hfree hset h₁) (fun _ _ h => h) (fun _ _ => False.elim)
      fun _ h => h
  refine Prog.wp_mono (mintNtfn_spec ntfn bit h₁) ?_ (fun _ _ => False.elim) fun _ h => h
  intro _ s₂ hpost
  rcases hpost with ⟨h₂, obj, kind, hcap⟩
  simp only [modifyDispatch, modifyServer, Prog.wp_modify]
  refine ⟨⟨bits, hfree, hset, by simpa [HasBits] using h₂⟩, ?_⟩
  simp [badgeOf, hcap]

theorem irqRegister_spec (irqNum : Nat) (h : HasBits srv bf s) :
    Registers srv bf (irqRegister srv irqNum) s := by
  simp only [Registers, irqRegister, Prog.wp_bind, Prog.wp_catchErr, Prog.wp_fail, Prog.wp_pure]
  refine Prog.wp_mono (allocNtfnBit_spec h) ?_ ?_ fun _ _ => trivial
  swap
  · intro _ s₁ heq
    exact ⟨bf, .refl bf, heq ▸ h⟩
  intro bit s₁ hpost
  rcases hpost with ⟨bits, hfree, hset, h₁⟩
  -- each clean-up ends here, with whatever resources are left
  have hback : ∀ s₂, HasBits srv bits s₂ → (freeNtfnBit srv bit : Handler Unit).wp
      (fun _ => GaveBack srv bf) (fun _ => GaveBack srv bf) (fun _ => True) s₂ := fun s₂ h₂ =>
    Prog.wp_mono (freeNtfnBit_spec hfree hset h₂) (fun _ _ h => h) (fun _ _ => False.elim)
      fun _ h => h
  refine onRes_bits (fun handler r => ?_) fun _ r => hback _ h₁
  refine onRes_bits (fun ntfn r => ?_) fun _ r => freeSlot_bits fun r => hback _ h₁
  refine onRes_bits (fun _ r => ?_) fun _ r =>
    freeSlot_bits fun r => freeSlot_bits fun r => hback _ h₁
  refine Prog.wp_mono (mintNtfn_spec (s := { s₁ with res := r }) ntfn bit h₁) ?_
    (fun _ _ => False.elim) fun _ h => h
  intro _ s₂ hpost
  rcases hpost with ⟨h₂, obj, kind, hcap⟩
  rw [onRes, Prog.wp_zoom, kcall, Prog.wp_zoom, Prog.wp_ofExcept]
  constructor
  · intro k hk
    rw [Kernel.irqHandlerSetNotification_ok hk]
    simp only [modifyDispatch, modifyServer, Prog.wp_modify]
    refine ⟨⟨bits, hfree, hset, by simpa [HasBits] using h₂⟩, ?_⟩
    simp [badgeOf, hcap]
  · intro _ _
    exact deleteCap_bits fun r => deleteCap_bits fun r => freeSlot_bits fun r =>
      freeSlot_bits fun r => hback _ h₂

theorem Registration.run_spec (op : Registration) (h : HasBits srv bf s) :
    Registers srv bf (op.run srv) s := by
  cases op with
  | ntfn => exact dispatchNtfnRegister_spec h
  | irq irqNum => exact irqRegister_spec irqNum h

/-! ## A dispatcher's registrations -/

/-- A registration that succeeded: its bit, and the badge that was minted for it. -/
structure Registered where
  bit : Nat
  badge : Option Nat
  deriving DecidableEq, Repr

/-- What the root server registers for itself when it publishes a server. -/
def rootServerNtfn : Registered := ⟨0, some (ntfnBadge 0)⟩

/-- The registrations of a published server: each succeeds or fails, and in between the root
server does whatever leaves this dispatcher alone. -/
inductive Registering (srv : ServerRef) : List Registered → State → Prop
  | published {rsBadged : Slot} {s : State}
      (h : (s.servers srv).ntfnDispatch = .published rsBadged) : Registering srv [] s
  | registered {given : List Registered} {s s' : State} {op : Registration} {bit : Nat} {cap : Slot}
      (run : Registering srv given s) (h : op.run srv s = .ok (bit, cap) s') :
      Registering srv (given ++ [⟨bit, badgeOf s' srv bit⟩]) s'
  | failed {given : List Registered} {s s' : State} {op : Registration} {e : InvocationError}
      (run : Registering srv given s) (h : op.run srv s = .err e s') : Registering srv given s'
  | elsewhere {given : List Registered} {s s' : State} (run : Registering srv given s)
      (h : (s'.servers srv).ntfnDispatch = (s.servers srv).ntfnDispatch) :
      Registering srv given s'

/-- The bit of the server's dispatcher is taken. -/
def Taken (srv : ServerRef) (s : State) (i : Nat) : Prop :=
  (s.servers srv).ntfnDispatch.allocatedBits.Has i

/-- The bits a dispatcher starts with, and the one its first registration takes. -/
theorem published_bits (rsBadged : Slot) :
    Bitfield.bfFirstFree [~~~ irqIdentBadgeBits] = some rootServerNtfn.bit ∧
      Bitfield.bfSetBit [~~~ irqIdentBadgeBits] rootServerNtfn.bit =
        some (NotificationDispatch.published rsBadged).allocatedBits := by
  have hfree : Bitfield.bfFirstFree [~~~ irqIdentBadgeBits] = some 0 := by decide
  have hset : Bitfield.bfSetBit [~~~ irqIdentBadgeBits] 0 = some [BitVec.twoPow 64 63 ||| 1] := by
    decide
  exact ⟨hfree, hset⟩

/-- The badge of the notification that the root server signals. -/
theorem ntfnRegister_badge (ntfn : Slot) :
    (ntfnRegister ntfn).Gives (fun _ => True) fun slot r =>
      Holds slot (Minted (ntfnBadge 0) .writeOnly) r.kernel := by
  unfold ntfnRegister
  exact .skip fun slot => .bind (mintCap_gives slot ntfn _ _).expect fun _ => .pure fun _ h => h

/-- A server that has just been published starts without registrations. -/
theorem handleConnPublish_registering {p : Nat} (args : ConnPublishArgs) :
    (handleConnPublish p args).Gives (fun _ => True) fun _ s =>
      ∃ old srv, s.published = old ++ [(args.name, srv)] ∧ Registering srv [] s := by
  unfold handleConnPublish
  refine .skip fun found => .ite (.fail _) (.ite (.fail _) ?_)
  refine .skip fun top => .ite (.fail _) (.skip fun u => .skip fun overlap => ?_)
  cases overlap with
  | some w => exact .fail _
  | none =>
  refine .skip fun (ep, ntfn, rsBadged, frameRef) => .skip fun cap => ?_
  refine .skip fun w => .skip fun o => .skip fun v => .skip fun _ => .skip fun _ => ?_
  refine .skip fun _ => .skip fun _ => .skip fun _ => .skip fun _ => .skip fun _ =>
    .skip fun idx => ?_
  refine .bind (R := fun srv s => (s.servers srv).ntfnDispatch = .published rsBadged) ?_ ?_
  · intro s srv s' _ hs
    cases hs
    simp
  intro srv
  refine .bind (R := fun _ s => ∃ old, s.published = old ++ [(args.name, srv)] ∧
    (s.servers srv).ntfnDispatch = .published rsBadged) ?_ fun _ => ?_
  · intro s _ s' hs hm
    cases hm
    exact ⟨s.published, rfl, hs⟩
  refine .bind (R := fun _ s => ∃ old, s.published = old ++ [(args.name, srv)] ∧
    (s.servers srv).ntfnDispatch = .published rsBadged) ?_ fun _ => ?_
  · intro s _ s' hs hm
    cases hm
    exact hs
  · exact .pure fun s ⟨old, hold, hs⟩ => ⟨old, srv, hold, .published hs⟩

/-- The taken bits are the top one, the root server's and those of the registrations. -/
structure Dispatching (srv : ServerRef) (given : List Registered) (s : State) : Prop where
  oneWord : (s.servers srv).ntfnDispatch.allocatedBits.length = 1
  taken : ∀ i < 64, Taken srv s i ↔ i = 63 ∨ i = rootServerNtfn.bit ∨ ∃ x ∈ given, x.bit = i
  range : ∀ x ∈ given, x.bit < 63 ∧ x.bit ≠ rootServerNtfn.bit
  badge : ∀ x ∈ given, x.badge = some (ntfnBadge x.bit)
  nodup : (given.map Registered.bit).Nodup

namespace Dispatching

variable {given : List Registered}

theorem published {rsBadged : Slot} (h : (s.servers srv).ntfnDispatch = .published rsBadged) :
    Dispatching srv [] s where
  oneWord := by
    rw [h]
    rfl
  taken := by
    unfold Taken
    rw [h]
    have hbits : ∀ i : Fin 64, Bitfield.Has [BitVec.twoPow 64 63 ||| 1] i.val ↔
        i.val = 63 ∨ i.val = 0 := by
      decide
    intro i hi
    simpa [NotificationDispatch.published, rootServerNtfn] using hbits ⟨i, hi⟩
  range := nofun
  badge := nofun
  nodup := .nil

theorem sameBits (h : Dispatching srv given s)
    (hbits : SameBits (s.servers srv).ntfnDispatch.allocatedBits
      (s'.servers srv).ntfnDispatch.allocatedBits) : Dispatching srv given s' :=
  { h with
    oneWord := hbits.length.trans h.oneWord
    taken := fun i hi => (hbits.has i).trans (h.taken i hi) }

theorem tookBit (h : Dispatching srv given s)
    (hbit : TookBit srv (s.servers srv).ntfnDispatch.allocatedBits bit s') :
    Dispatching srv (given ++ [⟨bit, some (ntfnBadge bit)⟩]) s' := by
  obtain ⟨bits, hfree, hset, hbits⟩ := hbit
  obtain ⟨hrange, hclear⟩ := Bitfield.bfFirstFree_spec hfree
  have hlt : bit < 64 := by
    unfold Bitfield.InRange wordIndex wordBits at hrange
    rw [h.oneWord] at hrange
    omega
  have hnew : ¬ (bit = 63 ∨ bit = rootServerNtfn.bit ∨ ∃ x ∈ given, x.bit = bit) :=
    fun hold => hclear ((h.taken bit hlt).mpr hold)
  constructor
  · rw [hbits, Bitfield.bfSetBit_length hset, h.oneWord]
  · intro i hi
    have htaken := h.taken i hi
    unfold Taken at htaken ⊢
    rw [hbits, Bitfield.bfSetBit_has hset, htaken]
    simp [or_assoc, eq_comm]
  · intro x hx
    obtain hx | hx := List.mem_append.mp hx
    · exact h.range x hx
    · obtain rfl := List.mem_singleton.mp hx
      simp only [not_or] at hnew
      have hne := hnew.1
      exact ⟨show bit < 63 by omega, hnew.2.1⟩
  · intro x hx
    obtain hx | hx := List.mem_append.mp hx
    · exact h.badge x hx
    · obtain rfl := List.mem_singleton.mp hx
      rfl
  · rw [List.map_append, List.nodup_append]
    refine ⟨h.nodup, List.nodup_singleton _, ?_⟩
    intro i hi j hj heq
    obtain ⟨x, hx, rfl⟩ := List.mem_map.mp hi
    obtain rfl := List.mem_singleton.mp hj
    exact hnew (.inr (.inr ⟨x, hx, heq⟩))

end Dispatching

/-- The invariant holds after every sequence of registrations. -/
theorem Registering.dispatching {given : List Registered} (run : Registering srv given s) :
    Dispatching srv given s := by
  induction run with
  | published h => exact .published h
  | registered run h ih =>
    obtain ⟨hbit, hbadge⟩ := Prog.wp_ok (Registration.run_spec _ rfl) h
    have hnew := ih.tookBit hbit
    rwa [← hbadge] at hnew
  | failed run h ih =>
    obtain ⟨bits, hsame, hbits⟩ := Prog.wp_err (Registration.run_spec _ rfl) h
    exact ih.sameBits (hbits ▸ hsame)
  | elsewhere run h ih => exact ih.sameBits (h ▸ .refl _)

/-! ## What the server receives -/

/-- The word the kernel delivers for these registrations. -/
def signalWord (signalled : List Registered) : BitVec 64 :=
  ntfnWord (signalled.filterMap Registered.badge)

theorem ntfnBadge_testBit (i j : Nat) :
    (ntfnBadge i).testBit j = true ↔ j = 63 ∨ j = i := by
  rw [ntfnBadge, Nat.testBit_or, Nat.testBit_two_pow, Nat.testBit_two_pow, Bool.or_eq_true,
    decide_eq_true_eq, decide_eq_true_eq, eq_comm, eq_comm (a := i)]

theorem signalWord_getLsbD {signalled : List Registered}
    (hbadge : ∀ x ∈ signalled, x.badge = some (ntfnBadge x.bit)) {j : Nat} (hj : j < 64) :
    (signalWord signalled).getLsbD j = true ↔ ∃ x ∈ signalled, j = 63 ∨ j = x.bit := by
  rw [signalWord, ntfnWord_getLsbD _ hj]
  constructor
  · intro ⟨badge, hmem, hbit⟩
    obtain ⟨x, hx, heq⟩ := List.mem_filterMap.mp hmem
    rw [hbadge x hx] at heq
    cases heq
    exact ⟨x, hx, (ntfnBadge_testBit _ _).mp hbit⟩
  · intro ⟨x, hx, hbit⟩
    exact ⟨ntfnBadge x.bit, List.mem_filterMap.mpr ⟨x, hx, hbadge x hx⟩,
      (ntfnBadge_testBit _ _).mpr hbit⟩

/-- Signalled badges decode to a notification with exactly their bits. -/
theorem signalled_decode {signalled : List Registered} (hne : signalled ≠ [])
    (hbadge : ∀ x ∈ signalled, x.badge = some (ntfnBadge x.bit))
    (hlt : ∀ x ∈ signalled, x.bit < 63) :
    ∃ word, decodeEntryType (signalWord signalled) = some (.notification word) ∧
      (ntfnWordBits word).Nodup ∧
      ∀ i, i ∈ ntfnWordBits word ↔ ∃ x ∈ signalled, x.bit = i := by
  obtain ⟨x, hx⟩ := List.exists_mem_of_ne_nil _ hne
  have htop : (signalWord signalled).getLsbD 63 = true :=
    (signalWord_getLsbD hbadge (by decide)).mpr ⟨x, hx, .inl rfl⟩
  obtain ⟨word, hdecode, hword⟩ := decodeEntryType_notification htop
  refine ⟨word, hdecode, ntfnWordBits_nodup word, fun i => ?_⟩
  rw [mem_ntfnWordBits, hword, Bool.and_eq_true, decide_eq_true_eq]
  constructor
  · intro ⟨hbit, hi⟩
    have hi64 : i < 64 := BitVec.lt_of_getLsbD hbit
    obtain ⟨y, hy, heq⟩ := (signalWord_getLsbD hbadge hi64).mp hbit
    exact ⟨y, hy, (heq.resolve_left hi).symm⟩
  · intro ⟨y, hy, heq⟩
    have hy63 := hlt y hy
    exact ⟨(signalWord_getLsbD hbadge (by omega)).mpr ⟨y, hy, .inr heq.symm⟩, by omega⟩

theorem ofNat_getLsbD (n : Nat) {j : Nat} (hj : j < 64) :
    (BitVec.ofNat 64 n).getLsbD j = n.testBit j := by
  rw [BitVec.getLsbD_ofNat, decide_eq_true hj, Bool.true_and]

/-- A badge that is a pid, with or without the fault bit, decodes to this pid. -/
theorem endpoint_decode {pid badge : Nat} {f : Bool} (h : pid < 2 ^ 62)
    (hbadge : ∀ j, badge.testBit j = (pid.testBit j || (f && decide (j = 62)))) :
    decodeEntryType (BitVec.ofNat 64 badge) =
      some (if f then .fault (BitVec.ofNat 64 pid) else .invocation (BitVec.ofNat 64 pid)) := by
  have hpid : ∀ j, 62 ≤ j → pid.testBit j = false := fun j hj =>
    Nat.testBit_lt_two_pow (Nat.lt_of_lt_of_le h (Nat.pow_le_pow_right (by decide) hj))
  have hkind : (BitVec.ofNat 64 badge).getLsbD 62 = f := by
    rw [ofNat_getLsbD badge (by decide), hbadge, hpid 62 (by decide)]
    simp
  have htop : (BitVec.ofNat 64 badge).getLsbD 63 = false := by
    rw [ofNat_getLsbD badge (by decide), hbadge, hpid 63 (by decide)]
    simp
  have hlow : ∀ j < 64, (BitVec.ofNat 64 pid).getLsbD j =
      ((BitVec.ofNat 64 badge).getLsbD j && decide (j < 62)) := by
    intro j hj
    rw [ofNat_getLsbD pid hj, ofNat_getLsbD badge hj, hbadge]
    by_cases hlt : j < 62
    · simp [hlt, show j ≠ 62 by omega]
    · simp [hlt, hpid j (Nat.le_of_not_lt hlt)]
  rw [decodeEntryType_endpoint htop hlow, hkind]

/-- The badge of a process's endpoint decodes to an invocation of the process. -/
theorem invocation_decode {pid : Nat} (h : pid < 2 ^ 62) :
    decodeEntryType (BitVec.ofNat 64 (pid ||| invocationEpBits)) =
      some (.invocation (BitVec.ofNat 64 pid)) :=
  endpoint_decode (f := false) h fun j => by simp [invocationEpBits]

/-- The badge of a process's fault endpoint decodes to a fault of the process. -/
theorem fault_decode {pid : Nat} (h : pid < 2 ^ 62) :
    decodeEntryType (BitVec.ofNat 64 (pid ||| faultEpBits)) =
      some (.fault (BitVec.ofNat 64 pid)) :=
  endpoint_decode (f := true) h fun j => by
    rw [Nat.testBit_or, faultEpBits, Nat.testBit_two_pow, Bool.true_and]
    exact congrArg _ (decide_eq_decide.mpr eq_comm)

/-- **Badges end to end.** After every sequence of registrations the bits handed out are distinct,
below the top one and not the root server's; a registration that fails takes no bit; whichever
registrations are signalled, the server decodes a notification with exactly their bits; and the
badges of processes decode to their invocations and faults. -/
theorem registrations_decode {given : List Registered} (run : Registering srv given s) :
    ((given.map Registered.bit).Nodup ∧
      ∀ x ∈ given, x.bit < 63 ∧ x.bit ≠ rootServerNtfn.bit) ∧
    (∀ (op : Registration) e s', op.run srv s = .err e s' → ∀ i, Taken srv s' i ↔ Taken srv s i) ∧
    (∀ signalled : List Registered, signalled ≠ [] →
      (∀ x ∈ signalled, x = rootServerNtfn ∨ x ∈ given) →
      ∃ word, decodeEntryType (signalWord signalled) = some (.notification word) ∧
        (ntfnWordBits word).Nodup ∧
        ∀ i, i ∈ ntfnWordBits word ↔ ∃ x ∈ signalled, x.bit = i) ∧
    ∀ pid, pid < 2 ^ 62 →
      decodeEntryType (BitVec.ofNat 64 (pid ||| invocationEpBits)) =
        some (.invocation (BitVec.ofNat 64 pid)) ∧
      decodeEntryType (BitVec.ofNat 64 (pid ||| faultEpBits)) =
        some (.fault (BitVec.ofNat 64 pid)) := by
  have hinv := run.dispatching
  refine ⟨⟨hinv.nodup, hinv.range⟩, ?_, ?_, fun pid h => ⟨invocation_decode h, fault_decode h⟩⟩
  · intro op e s' herr i
    obtain ⟨bits, hsame, hbits⟩ := Prog.wp_err (op.run_spec rfl) herr
    unfold Taken
    rw [hbits]
    exact hsame.has i
  · intro signalled hne hmem
    refine signalled_decode hne ?_ ?_
    · intro x hx
      obtain rfl | hgiven := hmem x hx
      · rfl
      · exact hinv.badge x hgiven
    · intro x hx
      obtain rfl | hgiven := hmem x hx
      · decide
      · exact (hinv.range x hgiven).1

/-- A published server with its notification in slot 59. -/
def demoServer : State :=
  { demo with
    res := { demo.res with
      kernel := demo.res.kernel.setCap 59 (some (.object 300 .notification)) }
    servers := Heap.empty
      ⟨0, (0, ⟨0, 0, 0⟩), (59, ⟨0, 0, 0⟩), 0, 0, 0, [], .published 0, []⟩ }

theorem demoServer_decodes : ∃ s, Registering 0 [⟨1, some (ntfnBadge 1)⟩] s ∧
    ∃ word, decodeEntryType (signalWord [rootServerNtfn, ⟨1, some (ntfnBadge 1)⟩]) =
        some (.notification word) ∧ ∀ i, i ∈ ntfnWordBits word ↔ i = 0 ∨ i = 1 := by
  have hstart : Registering 0 [] demoServer := .published rfl
  have hrun : ((Registration.ntfn.run 0 demoServer).toOption.map fun y =>
      (y.1.1, badgeOf y.2 0 y.1.1)) = some (1, some (ntfnBadge 1)) := by
    decide +kernel
  obtain ⟨⟨x, s⟩, hok, hfound⟩ := Option.map_eq_some_iff.mp hrun
  obtain ⟨hbit, hbadge⟩ := Prod.ext_iff.mp hfound
  have hreg := hstart.registered (Outcome.toOption_eq_some.mp hok)
  rw [show badgeOf s 0 x.1 = _ from hbadge, show x.1 = 1 from hbit] at hreg
  obtain ⟨word, hdecode, -, hbits⟩ := (registrations_decode hreg).2.2.1
    [rootServerNtfn, ⟨1, some (ntfnBadge 1)⟩] (by simp) (by simp)
  refine ⟨s, hreg, word, hdecode, fun i => (hbits i).trans ?_⟩
  simp [rootServerNtfn, eq_comm]

end Smos.RootServer
