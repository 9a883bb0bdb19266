/-
Smos.RootServer.UserCSpace — the one-level cspace of a process.

A process has a CNode of one page, 128 slots, with a guard that leaves the
low 7 bits of a slot number. Three other numbers go with it and none of
them is 128: the root server's bit field and the process's own one have 256
bits each, and `destroy` deletes every slot from 1 to 8191.

The kernel resolves a slot number by its guard: a number of 128 or more
does not match it, and the deletion fails. What is in the slots does not
matter.
-/
import Smos.Base.Run
import Smos.RootServer.CSpace

namespace Smos.RootServer

open Smos.Base

/-- `CNODE_SIZE_BITS`. -/
def cnodeSizeBits : Nat := 13

/-- `CNODE_SLOT_BITS`. -/
def cnodeSlotBits (x : Nat) : Nat := x - 5

/-- The CNode of a process, as its capability shows it: the guard is all zeros. -/
structure CNode where
  radix : Nat
  guardSize : Nat
  caps : Nat → Option Cap

namespace CNode

/-- How many slots there are. -/
def size (k : CNode) : Nat := 2 ^ k.radix

/-- The kernel looks up a slot number of `depth` bits. -/
def resolve (k : CNode) (cptr depth : Nat) : Except Sel4Error Nat :=
  if depth ≠ k.guardSize + k.radix then .error .failedLookup
  else if cptr >>> k.radix ≠ 0 then .error .failedLookup
  else .ok (cptr % 2 ^ k.radix)

/-- `seL4_CNode_Delete`. -/
def delete (k : CNode) (cptr depth : Nat) : Except Sel4Error CNode :=
  (k.resolve cptr depth).map fun slot => { k with caps := Function.update k.caps slot none }

end CNode

/-- `UserCSpace`, with one level. -/
structure OneLevel where
  topBf : Bitfield
  topLvlSizeBits : Nat

namespace OneLevel

/-- `alloc_slot`. -/
def allocSlot : Prog Panic OneLevel Sel4Error Slot := do
  let topIndex ← (← Prog.gets fun us => us.topBf.bfFirstFree) |> Prog.okOr .notEnoughMemory
  let bits ← Prog.gets OneLevel.topLvlSizeBits
  if topIndex ≥ 2 ^ cnodeSlotBits bits then
    Prog.fail .invalidCapability
  else
    let topBf ← (← Prog.gets fun us => us.topBf.bfSetBit topIndex)
      |> Prog.unwrap .indexOutOfBounds
    Prog.modify fun us => { us with topBf := topBf }
    pure topIndex

/-- `free_slot`. -/
def freeSlot (cptr : Slot) : Prog Panic OneLevel Sel4Error Unit := do
  let bits ← Prog.gets OneLevel.topLvlSizeBits
  if cptr = 0 then
    pure ()
  else if cptr > 2 ^ cnodeSlotBits bits then
    pure ()
  else
    let topBf ← (← Prog.gets fun us => us.topBf.bfClrBit cptr) |> Prog.unwrap .indexOutOfBounds
    Prog.modify fun us => { us with topBf := topBf }

end OneLevel

/-! ## The process's side -/

/-- `CSPACE_SIZE`. -/
def cspaceSize : Nat := 256

/-- `SMOSUserCSpace`: its bit field. -/
structure SmosUserCSpace where
  bf : Bitfield

namespace SmosUserCSpace

/-- `SMOSUserCSpace::new`. -/
def new : SmosUserCSpace := ⟨Bitfield.init cspaceSize⟩

/-- `alloc_slot`. -/
def allocSlot : Prog Panic SmosUserCSpace Unit Slot := do
  let index ← (← Prog.gets fun us => us.bf.bfFirstFree) |> Prog.okOr ()
  let bf ← (← Prog.gets fun us => us.bf.bfSetBit index) |> Prog.unwrap .indexOutOfBounds
  Prog.modify fun _ => ⟨bf⟩
  pure index

/-- `free_slot`. -/
def freeSlot (slot : Slot) : Prog Panic SmosUserCSpace Unit Unit := do
  if slot > cspaceSize then
    pure ()
  else
    let bf ← (← Prog.gets fun us => us.bf.bfClrBit slot) |> Prog.unwrap .indexOutOfBounds
    Prog.modify fun _ => ⟨bf⟩

end SmosUserCSpace

/-! ## The cspace of a process -/

/-- The two allocators and the CNode they are about. -/
structure UserSlots where
  root : OneLevel
  user : SmosUserCSpace
  cnode : CNode

namespace UserSlots

/-- The CNode that `UserCSpace::new` makes and mints. -/
def newCnode (caps : Nat → Option Cap) : CNode where
  radix := cnodeSlotBits pageBits4K
  guardSize := wordSize - cnodeSlotBits (cnodeSizeBits - 1)
  caps := caps

/-- After `UserCSpace::new`, which takes the null slot, and `SMOSUserCSpace::new`. -/
def new (caps : Nat → Option Cap) : UserSlots where
  root := ⟨1 :: Bitfield.init (cspaceSize - wordBits), cnodeSizeBits⟩
  user := .new
  cnode := newCnode caps

/-- The slots that `destroy` deletes, in order. -/
def destroySlots : List Slot := List.range' 1 (2 ^ cnodeSizeBits - 1)

/-- The deletions of `UserCSpace::destroy`. -/
def destroy : Prog Panic CNode Sel4Error Unit :=
  Prog.forEach
    (fun i => (Prog.ofExcept fun k => k.delete i wordSize).expect .assertionFailed) destroySlots

/-- A call of one of the two allocators, or a capability that turns up in a slot. -/
inductive Call where
  | allocSlot
  | freeSlot (cptr : Slot)
  | userAllocSlot
  | userFreeSlot (slot : Slot)
  | put (slot : Slot) (cap : Option Cap)

/-- The state after a program on a part of the state, unless it panics. -/
def after {σ ε α : Type} (o : Outcome Panic σ ε α) (put : σ → UserSlots) : Option UserSlots :=
  match o with
  | .ok _ s => some (put s)
  | .err _ s => some (put s)
  | .panic _ => none

def call (s : UserSlots) : Call → Option UserSlots
  | .allocSlot => after (OneLevel.allocSlot s.root) fun root => { s with root := root }
  | .freeSlot c => after (OneLevel.freeSlot c s.root) fun root => { s with root := root }
  | .userAllocSlot => after (SmosUserCSpace.allocSlot s.user) fun user => { s with user := user }
  | .userFreeSlot c => after (SmosUserCSpace.freeSlot c s.user) fun user => { s with user := user }
  | .put c cap => some { s with cnode := { s.cnode with caps := Function.update s.cnode.caps c cap } }

/-- What the cspace of a process is for: no slot outside its CNode is handed out or deleted, and
it can be taken down. -/
structure Inside (s : UserSlots) : Prop where
  root : ∀ c root, OneLevel.allocSlot s.root = .ok c root → c < s.cnode.size
  user : ∀ c user, SmosUserCSpace.allocSlot s.user = .ok c user → c < s.cnode.size
  deleted : ∀ c ∈ destroySlots, c < s.cnode.size
  completes : ∀ p, destroy s.cnode ≠ .panic p

/-! ## Taking it down -/

/-- The CNode has 128 slots and resolves all 64 bits of a slot number. -/
structure Radix7 (k : CNode) : Prop where
  radix : k.radix = 7
  guardSize : k.guardSize = 57

theorem Radix7.delete_ok {k : CNode} (h : Radix7 k) {c : Nat} (hc : c < 128) :
    ∃ k', k.delete c wordSize = .ok k' ∧ Radix7 k' := by
  have hshift : c >>> 7 = 0 := by
    rw [Nat.shiftRight_eq_div_pow]
    exact Nat.div_eq_of_lt hc
  refine ⟨{ k with caps := Function.update k.caps (c % 2 ^ 7) none }, ?_, h.radix, h.guardSize⟩
  simp [CNode.delete, CNode.resolve, h.radix, h.guardSize, wordSize, hshift, Except.map]

theorem Radix7.delete_err {k : CNode} (h : Radix7 k) {c : Nat} (hc : 128 ≤ c) :
    k.delete c wordSize = .error .failedLookup := by
  have hshift : c >>> 7 ≠ 0 := by
    rw [Nat.shiftRight_eq_div_pow]
    omega
  simp [CNode.delete, CNode.resolve, h.radix, h.guardSize, wordSize, hshift, Except.map]

/-- The slots of the CNode, then the first one past it. -/
theorem destroySlots_split :
    destroySlots = List.range' 1 127 ++ 128 :: List.range' 129 8063 := by
  have hlen : 2 ^ cnodeSizeBits - 1 = 127 + (8063 + 1) := by decide
  rw [destroySlots, hlen, ← List.range'_append_1]
  exact congrArg (List.range' 1 127 ++ ·) List.range'_succ

/-- Whatever the slots hold, `destroy` panics at the first slot past the CNode. -/
theorem destroy_panics {k : CNode} (h : Radix7 k) : destroy k = .panic .assertionFailed := by
  rw [destroy, destroySlots_split, Prog.forEach_append]
  have hdel : (Prog.forEach (fun i => (Prog.ofExcept fun k => k.delete i wordSize).expect
      .assertionFailed) (List.range' 1 127) : Prog Panic CNode Sel4Error Unit).wp
      (fun _ k' => Radix7 k') (fun _ _ => False) (fun _ => False) k := by
    refine Prog.wp_forEach h fun c hc k₁ h₁ => ?_
    obtain ⟨hle, hlt⟩ := List.mem_range'_1.mp hc
    obtain ⟨k', hk', h'⟩ := h₁.delete_ok (c := c) (by omega)
    simp [hk', h']
  obtain ⟨_, k', hrun, h'⟩ := Prog.exists_ok hdel
  have hrun' := Prog.bind_of_ok (f := fun _ => Prog.forEach (fun i => (Prog.ofExcept fun k =>
      k.delete i wordSize).expect .assertionFailed) (128 :: List.range' 129 8063))
    hrun
  refine hrun'.trans ?_
  refine Prog.bind_of_panic (f := fun _ => _) (p := Panic.assertionFailed) ?_
  simp [Prog.expect, Prog.catchErr, Prog.ofExcept, h'.delete_err (c := 128) (Nat.le_refl _), Prog.panic]

/-! ## Handing out slots -/

/-- A slot of the CNode is clear, or the field has no clear bit left. -/
def Room (bf : Bitfield) : Prop := (∃ c < 128, ¬ bf.Has c) ∨ ∀ c < cspaceSize, bf.Has c

instance (bf : Bitfield) : Decidable (Room bf) := inferInstanceAs (Decidable (_ ∨ _))

theorem room_iff {bf : Bitfield} (hlen : bf.length = 4) :
    (∀ c, bf.bfFirstFree = some c → c < 128) ↔ Room bf := by
  have hrange : ∀ c, bf.InRange c ↔ c < cspaceSize := by
    intro c
    unfold Bitfield.InRange wordIndex wordBits cspaceSize
    rw [hlen]
    omega
  constructor
  · intro h
    cases hf : bf.bfFirstFree with
    | none => exact .inr fun c hc => Bitfield.bfFirstFree_none hf c ((hrange c).mpr hc)
    | some c => exact .inl ⟨c, h c hf, (Bitfield.bfFirstFree_spec hf).2⟩
  · rintro (⟨c, hc, hn⟩ | hall) c' hf
    · obtain ⟨i, hi, hle⟩ := Bitfield.bfFirstFree_le ((hrange c).mpr (by unfold cspaceSize; omega)) hn
      obtain rfl : i = c' := Option.some.inj (hi.symm.trans hf)
      omega
    · obtain ⟨hr, hn⟩ := Bitfield.bfFirstFree_spec hf
      exact absurd (hall c' ((hrange c').mp hr)) hn

/-- The root server's field and its size. -/
structure Field256 (us : OneLevel) : Prop where
  length : us.topBf.length = 4
  bits : us.topLvlSizeBits = cnodeSizeBits

theorem allocSlot_spec {us : OneLevel} (h : Field256 us) :
    OneLevel.allocSlot.wp (fun c us' => us.topBf.bfFirstFree = some c ∧ Field256 us')
      (fun _ us' => us' = us ∧ us.topBf.bfFirstFree = none) (fun _ => False) us := by
  simp only [OneLevel.allocSlot, Prog.wp_bind, Prog.wp_gets, Prog.wp_okOr, Prog.wp_ite,
    Prog.wp_fail, Prog.wp_unwrap, Prog.wp_modify, Prog.wp_pure]
  refine ⟨fun c hc => ⟨fun hge => ?_, fun _ => ⟨fun bf hset => ?_, fun hnone => ?_⟩⟩,
    fun hnone => ⟨trivial, hnone⟩⟩
  · have hr := (Bitfield.bfFirstFree_spec hc).1
    rw [Bitfield.InRange, h.length] at hr
    rw [h.bits] at hge
    unfold wordIndex wordBits at hr
    have : (2 : Nat) ^ cnodeSlotBits cnodeSizeBits = 256 := rfl
    omega
  · exact ⟨hc, (Bitfield.bfSetBit_length hset).trans h.length, h.bits⟩
  · obtain ⟨bf, hset⟩ := Bitfield.bfSetBit_inRange (Bitfield.bfFirstFree_spec hc).1
    exact absurd (hset.symm.trans hnone) (by simp)

theorem freeSlot_spec {us : OneLevel} (h : Field256 us) (c : Slot) :
    (OneLevel.freeSlot c).wp (fun _ us' => Field256 us') (fun _ _ => False) (fun _ => True) us := by
  simp only [OneLevel.freeSlot, Prog.wp_bind, Prog.wp_gets, Prog.wp_ite, Prog.wp_unwrap,
    Prog.wp_modify, Prog.wp_pure]
  refine ⟨fun _ => h, fun _ => ⟨fun _ => h, fun _ => ⟨fun bf hclr => ?_, fun _ => trivial⟩⟩⟩
  exact ⟨(Bitfield.bfClrBit_length hclr).trans h.length, h.bits⟩

theorem userAllocSlot_spec {us : SmosUserCSpace} (h : us.bf.length = 4) :
    SmosUserCSpace.allocSlot.wp (fun c us' => us.bf.bfFirstFree = some c ∧ us'.bf.length = 4)
      (fun _ us' => us' = us ∧ us.bf.bfFirstFree = none) (fun _ => False) us := by
  simp only [SmosUserCSpace.allocSlot, Prog.wp_bind, Prog.wp_gets, Prog.wp_okOr, Prog.wp_unwrap,
    Prog.wp_modify, Prog.wp_pure]
  refine ⟨fun c hc => ⟨fun bf hset => ?_, fun hnone => ?_⟩, fun hnone => ⟨trivial, hnone⟩⟩
  · exact ⟨hc, (Bitfield.bfSetBit_length hset).trans h⟩
  · obtain ⟨bf, hset⟩ := Bitfield.bfSetBit_inRange (Bitfield.bfFirstFree_spec hc).1
    exact absurd (hset.symm.trans hnone) (by simp)

theorem userFreeSlot_spec {us : SmosUserCSpace} (h : us.bf.length = 4) (c : Slot) :
    (SmosUserCSpace.freeSlot c).wp (fun _ us' => us'.bf.length = 4) (fun _ _ => False)
      (fun _ => True) us := by
  simp only [SmosUserCSpace.freeSlot, Prog.wp_bind, Prog.wp_gets, Prog.wp_ite, Prog.wp_unwrap,
    Prog.wp_modify, Prog.wp_pure]
  refine ⟨fun _ => h, fun _ => ⟨fun bf hclr => ?_, fun _ => trivial⟩⟩
  exact (Bitfield.bfClrBit_length hclr).trans h

/-- A program that answers the first clear bit answers within the CNode just where there is room. -/
theorem answers_iff {σ ε : Type} {m : Prog Panic σ ε Slot} {s : σ} {bf : Bitfield}
    (hlen : bf.length = 4) (h : m.wp (fun c _ => bf.bfFirstFree = some c)
      (fun _ _ => bf.bfFirstFree = none) (fun _ => False) s) :
    (∀ c s', m s = .ok c s' → c < 128) ↔ Room bf := by
  rw [← room_iff hlen]
  constructor
  · intro hok c hc
    cases hm : m s with
    | ok c' s' =>
      obtain rfl : c' = c := Option.some.inj ((Prog.wp_ok h hm).symm.trans hc)
      exact hok c' s' hm
    | err e s' => exact absurd ((Prog.wp_err h hm).symm.trans hc) (by simp)
    | panic p => exact (Prog.wp_panic_of h hm).elim
  · intro hfirst c s' hm
    have hc := Prog.wp_ok h hm
    exact hfirst c hc

/-! ## Runs -/

/-- What every call keeps: the sizes. -/
structure Sized (s : UserSlots) : Prop where
  root : Field256 s.root
  user : s.user.bf.length = 4
  cnode : Radix7 s.cnode

theorem new_sized (caps : Nat → Option Cap) : (new caps).Sized :=
  ⟨⟨rfl, rfl⟩, rfl, ⟨rfl, rfl⟩⟩

theorem after_sized {σ ε α : Type} {m : Prog Panic σ ε α} {part : σ} {put : σ → UserSlots}
    {I : σ → Prop} {s' : UserSlots} (h : after (m part) put = some s')
    (hm : m.wp (fun _ => I) (fun _ => I) (fun _ => True) part)
    (hput : ∀ x, I x → (put x).Sized) : s'.Sized := by
  cases hrun : m part with
  | ok a x =>
    rw [hrun] at h
    cases h
    exact hput x (Prog.wp_ok hm hrun)
  | err e x =>
    rw [hrun] at h
    cases h
    exact hput x (Prog.wp_err hm hrun)
  | panic p =>
    rw [hrun] at h
    cases h

theorem Sized.call {s s' : UserSlots} {a : Call} (h : s.Sized) (hcall : s.call a = some s') :
    s'.Sized := by
  cases a with
  | allocSlot =>
    refine after_sized (I := Field256) hcall ?_ fun x hx => ⟨hx, h.user, h.cnode⟩
    exact Prog.wp_mono (allocSlot_spec h.root) (fun _ _ h => h.2) (fun _ _ he => he.1 ▸ h.root)
      fun _ _ => trivial
  | freeSlot c =>
    refine after_sized (I := Field256) hcall ?_ fun x hx => ⟨hx, h.user, h.cnode⟩
    exact Prog.wp_mono (freeSlot_spec h.root c) (fun _ _ h => h) (fun _ _ h => h.elim)
      fun _ _ => trivial
  | userAllocSlot =>
    refine after_sized (I := fun us => us.bf.length = 4) hcall ?_ fun x hx => ⟨h.root, hx, h.cnode⟩
    exact Prog.wp_mono (userAllocSlot_spec h.user) (fun _ _ h => h.2) (fun _ _ he => he.1 ▸ h.user)
      fun _ _ => trivial
  | userFreeSlot c =>
    refine after_sized (I := fun us => us.bf.length = 4) hcall ?_ fun x hx => ⟨h.root, hx, h.cnode⟩
    exact Prog.wp_mono (userFreeSlot_spec h.user c) (fun _ _ h => h) (fun _ _ h => h.elim)
      fun _ _ => trivial
  | put c cap =>
    cases hcall
    exact ⟨h.root, h.user, h.cnode.radix, h.cnode.guardSize⟩

/-- In no state of any run does a process's cspace stay inside its CNode: `destroy` goes on to
slots that do not exist and panics at the first of them. What the two allocators hand out lies
inside exactly while a slot of the CNode is clear, or every slot is in use. -/
theorem userCSpace_run {caps : Nat → Option Cap} {ops : List Call} {s : UserSlots}
    (run : Run (· = new caps) call (fun _ _ => True) ops s) :
    ¬ s.Inside ∧ destroy s.cnode = .panic .assertionFailed ∧ s.cnode.size = 128 ∧
      ((∀ c root, OneLevel.allocSlot s.root = .ok c root → c < s.cnode.size) ↔
        Room s.root.topBf) ∧
      ((∀ c user, SmosUserCSpace.allocSlot s.user = .ok c user → c < s.cnode.size) ↔
        Room s.user.bf) := by
  have hs : s.Sized := run.invariant (fun s h => h ▸ new_sized caps) fun _ _ _ h _ hcall =>
    h.call hcall
  have hsize : s.cnode.size = 128 := by
    simp [CNode.size, hs.cnode.radix]
  have hpanic := destroy_panics hs.cnode
  refine ⟨fun h => h.completes _ hpanic, hpanic, hsize, ?_, ?_⟩
  · rw [hsize]
    exact answers_iff hs.root.length (Prog.wp_mono (allocSlot_spec hs.root) (fun _ _ h => h.1)
      (fun _ _ h => h.2) fun _ h => h)
  · rw [hsize]
    exact answers_iff hs.user (Prog.wp_mono (userAllocSlot_spec hs.user) (fun _ _ h => h.1)
      (fun _ _ h => h.2) fun _ h => h)

/-- One slot taken by each allocator. -/
theorem userCSpace_run_two : ∃ s, Run (· = new fun _ => none) call (fun _ _ => True)
    [.allocSlot, .userAllocSlot] s ∧ ¬ s.Inside := by
  have start : Run (· = new fun _ => none) call (fun _ _ => True) [] (new fun _ => none) :=
    .init rfl
  have run := (start.step (a := .allocSlot) trivial rfl).step (a := .userAllocSlot) trivial rfl
  exact ⟨_, run, (userCSpace_run run).1⟩

/-- After 128 slots of the process, it is handed slot 128; and `destroy` panics. -/
theorem userCSpace_not_inside : (∃ s, Run (· = new fun _ => none) call (fun _ _ => True)
    (List.replicate 128 .userAllocSlot) s ∧ s.cnode.size = 128 ∧
      ∃ user, SmosUserCSpace.allocSlot s.user = .ok 128 user) ∧
    128 ∈ destroySlots ∧ destroy (newCnode fun _ => none) = .panic .assertionFailed := by
  refine ⟨?_, by decide, destroy_panics ⟨rfl, rfl⟩⟩
  have hrun : ∃ s, Run (· = new fun _ => none) call (fun _ _ => True)
      (List.replicate 128 .userAllocSlot) s ∧ s.cnode.size = 128 ∧
        ((SmosUserCSpace.allocSlot s.user).toOption.map Prod.fst) = some 128 :=
    Run.exists_of_steps rfl (by decide +kernel) (by decide +kernel)
  obtain ⟨s, run, hsize, hslot⟩ := hrun
  obtain ⟨⟨c, user⟩, hr, rfl⟩ := Option.map_eq_some_iff.mp hslot
  exact ⟨s, run, hsize, user, Outcome.toOption_eq_some.mp hr⟩

end UserSlots

end Smos.RootServer
