/-
Smos.RootServer.CSpace — the root server's two-level slot allocator.

A slot number is a top-level index and a bottom-level index. Each bottom
cnode has a 256-bit field of its used slots; the top-level field marks the
cnodes that are full. Bottom cnodes are kept in nodes of a page, 97 to a
node: the source takes the word size of 64 bits for bytes. The root cspace
never creates further cnodes: `ensure_levels` is a `todo!()`, so reaching
past the cnodes made at boot panics.

`Allocated c` says that the bottom-level bit of `c` is set. What the
handlers rely on is stated in terms of it: `allocSlot` answers a slot that
was not allocated and marks exactly that one, `freeSlot` unmarks exactly
its argument.
-/
import Smos.Base.Bitfield
import Smos.RootServer.Kernel

namespace Smos.RootServer

open Smos.Base

/-- `CNODE_SLOTS(CNODE_SIZE_BITS)`. -/
def cnodeSlots : Nat := 256

/-- `sel4::WORD_SIZE`, which counts bits. -/
def wordSize : Nat := 64

/-- `size_of::<BotLvlT>()`: the bytes of its bit field and of a pointer. -/
def botLvlSize : Nat := cnodeSlots / 8 + 8

/-- `BOT_LVL_PER_NODE`. -/
def botLvlPerNode : Nat := (pageSize4K - wordSize * 3) / botLvlSize

theorem botLvlPerNode_eq : botLvlPerNode = 97 := rfl

/-- `BotLvlT`: the used slots of one bottom-level cnode. -/
structure BotLvl where
  bf : Bitfield
  length_eq : bf.length = 4

namespace BotLvl

def setBit (b : BotLvl) (i : Nat) : Option BotLvl :=
  match h : b.bf.bfSetBit i with
  | some bf => some ⟨bf, (Bitfield.bfSetBit_length h).trans b.length_eq⟩
  | none => none

def clrBit (b : BotLvl) (i : Nat) : Option BotLvl :=
  match h : b.bf.bfClrBit i with
  | some bf => some ⟨bf, (Bitfield.bfClrBit_length h).trans b.length_eq⟩
  | none => none

theorem setBit_bf {b b' : BotLvl} {i : Nat} (h : b.setBit i = some b') :
    b.bf.bfSetBit i = some b'.bf := by
  unfold setBit at h
  split at h
  · rename_i bf hbf
    cases h
    exact hbf
  · cases h

theorem clrBit_bf {b b' : BotLvl} {i : Nat} (h : b.clrBit i = some b') :
    b.bf.bfClrBit i = some b'.bf := by
  unfold clrBit at h
  split at h
  · rename_i bf hbf
    cases h
    exact hbf
  · cases h

end BotLvl

structure CSpace where
  topBf : Bitfield
  /-- `CNODE_SLOTS(top_lvl_size_bits)`. -/
  topLvlSlots : Nat
  /-- The nodes, each with the cnodes created in it. -/
  botLvlNodes : List (List BotLvl)

namespace CSpace

def topLvlIndex (cptr : Slot) : Nat := cptr / cnodeSlots

def botLvlIndex (cptr : Slot) : Nat := cptr % cnodeSlots

def nodeIndex (cptr : Slot) : Nat := cptr / cnodeSlots / botLvlPerNode

def cnodeIndex (cptr : Slot) : Nat := cptr / cnodeSlots % botLvlPerNode

/-- The bottom-level cnode a slot lies in, when it exists. -/
def botLvl (cs : CSpace) (cptr : Slot) : Option BotLvl :=
  (cs.botLvlNodes[nodeIndex cptr]?).bind fun node => node[cnodeIndex cptr]?

def setBotLvl (cs : CSpace) (cptr : Slot) (b : BotLvl) : CSpace :=
  { cs with
    botLvlNodes := cs.botLvlNodes.modify (nodeIndex cptr) fun node => node.set (cnodeIndex cptr) b }

/-- `alloc_slot` on a two-level cspace; `used` stays 0, so the watermark is not refilled. -/
def allocSlot : Prog Panic CSpace Sel4Error Slot := do
  let topIndex ← (← Prog.gets fun cs => cs.topBf.bfFirstFree) |> Prog.okOr .notEnoughMemory
  let slots ← Prog.gets CSpace.topLvlSlots
  if topIndex > slots ∨ topIndex ≥ slots then
    Prog.fail .invalidCapability
  else
    let cptr := topIndex * cnodeSlots
    -- a missing cnode leads to `ensure_levels`, which is a `todo!()`
    let botLvl ← (← Prog.gets fun cs => cs.botLvl cptr) |> Prog.unwrap .notImplemented
    let botIndex ← botLvl.bf.bfFirstFree |> Prog.okOr .notEnoughMemory
    let botLvl' ← botLvl.setBit botIndex |> Prog.unwrap .indexOutOfBounds
    Prog.modify fun cs => cs.setBotLvl cptr botLvl'
    let next ← botLvl'.bf.bfFirstFree |> Prog.okOr .notEnoughMemory
    if next ≥ cnodeSlots - 1 then
      let topBf ← (← Prog.gets fun cs => cs.topBf.bfSetBit topIndex)
        |> Prog.unwrap .indexOutOfBounds
      Prog.modify fun cs => { cs with topBf := topBf }
      pure (cptr + botIndex)
    else
      pure (cptr + botIndex)

/-- `free_slot` on a two-level cspace. -/
def freeSlot {ε : Type} (cptr : Slot) : Prog Panic CSpace ε Unit := do
  let slots ← Prog.gets CSpace.topLvlSlots
  if cptr = 0 then
    pure ()
  else if cptr > slots * cnodeSlots * 32 then
    pure ()
  else
    let topBf ← (← Prog.gets fun cs => cs.topBf.bfClrBit (topLvlIndex cptr))
      |> Prog.unwrap .indexOutOfBounds
    Prog.modify fun cs => { cs with topBf := topBf }
    match ← Prog.gets fun cs => cs.botLvl cptr with
    | some botLvl =>
      let botLvl' ← botLvl.clrBit (botLvlIndex cptr) |> Prog.unwrap .indexOutOfBounds
      Prog.modify fun cs => cs.setBotLvl cptr botLvl'
    | none => pure ()

/-- The slot's bit is set in its bottom-level cnode. -/
def Allocated (cs : CSpace) (cptr : Slot) : Prop :=
  ∃ b, cs.botLvl cptr = some b ∧ b.bf.Has (botLvlIndex cptr)

instance (cs : CSpace) (cptr : Slot) : Decidable (cs.Allocated cptr) :=
  match h : cs.botLvl cptr with
  | some b => decidable_of_iff (b.bf.Has (botLvlIndex cptr)) (by simp [Allocated, h])
  | none => isFalse (by simp [Allocated, h])

/-! ## The allocator as a set of slots -/

variable {cs cs' : CSpace}

theorem botLvl_setBotLvl {c : Nat} {b₀ b : BotLvl} (h : cs.botLvl c = some b₀) (c' : Nat) :
    (cs.setBotLvl c b).botLvl c' =
      if c' / cnodeSlots = c / cnodeSlots then some b else cs.botLvl c' := by
  unfold botLvl at h
  obtain ⟨node, hnode, hcn⟩ := Option.bind_eq_some_iff.mp h
  obtain ⟨hlt, -⟩ := List.getElem?_eq_some_iff.mp hcn
  unfold botLvl setBotLvl nodeIndex cnodeIndex
  simp only [List.getElem?_modify]
  simp only [nodeIndex] at hnode
  simp only [cnodeIndex] at hlt
  by_cases hn : c / cnodeSlots / botLvlPerNode = c' / cnodeSlots / botLvlPerNode
  · rw [← hn, hnode]
    simp only [if_true, Option.map_eq_map, Option.map_some, Option.bind_some, List.getElem?_set]
    by_cases hc : c / cnodeSlots % botLvlPerNode = c' / cnodeSlots % botLvlPerNode
    · have heq : c' / cnodeSlots = c / cnodeSlots := by
        simp only [botLvlPerNode_eq] at hn hc
        omega
      rw [if_pos hc, if_pos hlt, if_pos heq]
    · have hne : ¬ c' / cnodeSlots = c / cnodeSlots := fun h => hc (by rw [h])
      rw [if_neg hc, if_neg hne]
  · have hne : ¬ c' / cnodeSlots = c / cnodeSlots := fun h => hn (by rw [h])
    simp [hn, hne]

theorem slot_eq_iff (c c' : Nat) :
    c' = c ↔ c' / cnodeSlots = c / cnodeSlots ∧ botLvlIndex c' = botLvlIndex c := by
  unfold botLvlIndex cnodeSlots
  constructor
  · rintro rfl; exact ⟨rfl, rfl⟩
  · rintro ⟨h₁, h₂⟩; omega

theorem botLvl_congr {c c' : Slot} (h : c' / cnodeSlots = c / cnodeSlots) :
    cs.botLvl c' = cs.botLvl c := by
  unfold botLvl nodeIndex cnodeIndex
  rw [h]

/-- Setting one bit of a bottom-level cnode allocates one slot. -/
theorem allocated_setBotLvl_setBit {c : Slot} {b b' : BotLvl} (hb : cs.botLvl c = some b)
    (hset : b.setBit (botLvlIndex c) = some b') (c' : Slot) :
    (cs.setBotLvl c b').Allocated c' ↔ cs.Allocated c' ∨ c' = c := by
  simp only [Allocated, botLvl_setBotLvl hb, slot_eq_iff c c']
  by_cases hc : c' / cnodeSlots = c / cnodeSlots
  · simp [hc, (botLvl_congr hc).trans hb, Bitfield.bfSetBit_has (BotLvl.setBit_bf hset)]
  · simp [hc]

/-- Clearing one bit of a bottom-level cnode frees one slot. -/
theorem allocated_setBotLvl_clrBit {c : Slot} {b b' : BotLvl} (hb : cs.botLvl c = some b)
    (hclr : b.clrBit (botLvlIndex c) = some b') (c' : Slot) :
    (cs.setBotLvl c b').Allocated c' ↔ cs.Allocated c' ∧ c' ≠ c := by
  simp only [Allocated, botLvl_setBotLvl hb, ne_eq, slot_eq_iff c c']
  by_cases hc : c' / cnodeSlots = c / cnodeSlots
  · simp [hc, (botLvl_congr hc).trans hb, Bitfield.bfClrBit_has (BotLvl.clrBit_bf hclr)]
  · simp [hc]

/-- Allocating the first free bit of a bottom-level cnode. -/
theorem allocated_first_free {top i : Nat} {b b' : BotLvl}
    (hb : cs.botLvl (top * cnodeSlots) = some b) (hfree : b.bf.bfFirstFree = some i)
    (hset : b.setBit i = some b') :
    ¬ cs.Allocated (top * cnodeSlots + i) ∧
      ∀ c', (cs.setBotLvl (top * cnodeSlots) b').Allocated c' ↔
        cs.Allocated c' ∨ c' = top * cnodeSlots + i := by
  obtain ⟨hr, hn⟩ := Bitfield.bfFirstFree_spec hfree
  have hlt : i / 64 < 4 := by
    rw [← b.length_eq]; exact hr
  have hidx : botLvlIndex (top * cnodeSlots + i) = i := by
    unfold botLvlIndex cnodeSlots; omega
  have hdiv : (top * cnodeSlots + i) / cnodeSlots = top * cnodeSlots / cnodeSlots := by
    unfold cnodeSlots; omega
  have hlvl : cs.botLvl (top * cnodeSlots + i) = some b := (botLvl_congr hdiv).trans hb
  have hsame : cs.setBotLvl (top * cnodeSlots) b' = cs.setBotLvl (top * cnodeSlots + i) b' := by
    unfold setBotLvl nodeIndex cnodeIndex; rw [hdiv]
  refine ⟨?_, fun c' => ?_⟩
  · rintro ⟨b₁, hb₁, hhas⟩
    rw [hlvl] at hb₁
    cases hb₁
    rw [hidx] at hhas
    exact hn hhas
  · rw [hsame]
    exact allocated_setBotLvl_setBit hlvl (by rw [hidx]; exact hset) c'

/-- A slot that `alloc_slot` answers was free and is the only one it marks;
on an error it may have marked one and frees none. -/
theorem allocSlot_spec (cs : CSpace) :
    allocSlot.wp
      (fun c cs' => ¬ cs.Allocated c ∧ ∀ c', cs'.Allocated c' ↔ cs.Allocated c' ∨ c' = c)
      (fun _ cs' => ∀ c', cs.Allocated c' → cs'.Allocated c')
      Panic.Low cs := by
  simp only [allocSlot, Prog.wp_bind, Prog.wp_gets, Prog.wp_okOr, Prog.wp_ite, Prog.wp_fail,
    Prog.wp_unwrap, Prog.wp_modify, Prog.wp_pure]
  refine ⟨fun top _ => ⟨fun _ _ h => h, fun _ => ⟨fun b hb => ⟨fun i hi => ⟨fun b' hset => ?_,
    fun _ => by decide⟩, fun _ _ h => h⟩, fun _ => by decide⟩⟩, fun _ _ h => h⟩
  obtain ⟨hn, hall⟩ := allocated_first_free hb hi hset
  refine ⟨fun next _ => ⟨fun _ => ⟨fun bf _ => ⟨hn, hall⟩, fun _ => by decide⟩,
    fun _ => ⟨hn, hall⟩⟩, fun _ c' h => (hall c').mpr (.inl h)⟩

/-- `free_slot` unmarks its argument, unless that is the null slot, and nothing else. -/
theorem freeSlot_spec {ε : Type} (cs : CSpace) (c : Slot) :
    (freeSlot c : Prog Panic CSpace ε Unit).wp
      (fun _ cs' => (∀ c', c' ≠ c → (cs'.Allocated c' ↔ cs.Allocated c')) ∧
        ∀ c', cs'.Allocated c' → cs.Allocated c')
      (fun _ _ => False) Panic.Low cs := by
  simp only [freeSlot, Prog.wp_bind, Prog.wp_gets, Prog.wp_ite, Prog.wp_pure, Prog.wp_unwrap,
    Prog.wp_modify]
  have hsame : (∀ c', c' ≠ c → True) ∧ ∀ c', cs.Allocated c' → cs.Allocated c' :=
    ⟨fun _ _ => trivial, fun _ h => h⟩
  refine ⟨fun _ => hsame, fun _ => ⟨fun _ => hsame, fun _ => ⟨fun bf _ => ?_,
    fun _ => by decide⟩⟩⟩
  cases hb : ({ cs with topBf := bf } : CSpace).botLvl c with
  | none => exact ⟨fun _ _ => Iff.rfl, fun _ h => h⟩
  | some b =>
    simp only [Prog.wp_bind, Prog.wp_unwrap, Prog.wp_modify]
    refine ⟨fun b' hclr => ?_, fun _ => by decide⟩
    have hall := allocated_setBotLvl_clrBit hb hclr
    exact ⟨fun c' hne => (hall c').trans (and_iff_left hne), fun c' h => ((hall c').mp h).1⟩

end CSpace

end Smos.RootServer
