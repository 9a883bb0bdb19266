/-
Smos.RootServer.UtPartition — free and used untypeds tile their pages.

Where an untyped lies is not written in its node: the kernel knows, from the
capability. `place` says it for the address of a node. A page of RAM lies
where boot registered it, and a split puts the two new untypeds on the two
halves of the larger one, which is where the kernel retypes them to. So
allocation is run here together with `place`; forgetting it gives `utAlloc`
back (`placedAlloc_forget`).

`Parts` is the invariant. The untypeds on the free lists and those in `out`
have nodes of their own, none of them spare, and tile the pages they lie in.
Nodes in `held` have been popped and not used yet.
-/
import Smos.Base.Radix
import Smos.Base.Run
import Smos.Base.Tiling
import Smos.RootServer.DeviceMemory
import Smos.RootServer.UtSpecs

namespace Smos.RootServer

open Smos.Base

/-! ## Blocks and nodes -/

/-- The memory of an untyped. -/
def UT.block (place : Nat → Nat) (ut : UT) : Block := ⟨place ut.ptr, ut.sizeBits⟩

/-- Every node is used once, and lies below `bound`; the untypeds tile their pages. -/
structure Layout (place : Nat → Nat) (uts : List UT) (spare : List Nat) (bound : Nat) : Prop where
  nodes : (uts.map UT.ptr ++ spare).Nodup
  below : ∀ p ∈ uts.map UT.ptr ++ spare, p + utSize ≤ bound
  tiling : Tiling pageBits4K (uts.map (UT.block place))

/-- Two nodes get the halves of a block. -/
def halved (place : Nat → Nat) (base p₁ p₂ n : Nat) : Nat → Nat :=
  Function.update (Function.update place p₁ base) p₂ (base + 2 ^ n)

namespace Layout

variable {place : Nat → Nat} {uts uts' : List UT} {spare spare' : List Nat} {bound p p₁ p₂ n : Nat}
  {ut : UT}

theorem perm (h : Layout place uts spare bound) (hu : uts.Perm uts') (hs : spare.Perm spare') :
    Layout place uts' spare' bound := by
  have hnodes : (uts.map UT.ptr ++ spare).Perm (uts'.map UT.ptr ++ spare') :=
    (hu.map _).append hs
  exact ⟨hnodes.nodup_iff.mp h.nodes, fun p hp => h.below p (hnodes.mem_iff.mpr hp),
    h.tiling.perm (hu.map _)⟩

/-- A page is given away. -/
theorem forget (h : Layout place (ut :: uts) spare bound) (hut : ut.sizeBits = pageBits4K) :
    Layout place uts spare bound where
  nodes := (List.nodup_cons.mp h.nodes).2
  below p hp := h.below p (List.mem_cons_of_mem _ hp)
  tiling := h.tiling.remove hut

/-- A new node, above all others. -/
theorem addSpare (h : Layout place uts spare bound) :
    Layout place uts (bound :: spare) (bound + utSize) where
  nodes := by
    refine List.nodup_middle.mpr (List.nodup_cons.mpr ⟨fun hm => ?_, h.nodes⟩)
    have hle := h.below bound hm
    unfold utSize at hle
    omega
  below q hq := by
    rw [List.mem_append, List.mem_cons] at hq
    obtain hq | rfl | hq := hq
    · exact (h.below q (List.mem_append_left _ hq)).trans (Nat.le_add_right _ _)
    · exact Nat.le_refl _
    · exact (h.below q (List.mem_append_right _ hq)).trans (Nat.le_add_right _ _)
  tiling := h.tiling

theorem mono (h : Layout place uts spare bound) {bound' : Nat} (hle : bound ≤ bound') :
    Layout place uts spare bound' :=
  ⟨h.nodes, fun p hp => (h.below p hp).trans hle, h.tiling⟩

theorem halved_of_ne {base : Nat} (h₁ : p ≠ p₁) (h₂ : p ≠ p₂) :
    halved place base p₁ p₂ n p = place p := by
  rw [halved, Function.update_of_ne h₂, Function.update_of_ne h₁]

/-- A spare node is the node of no untyped. -/
theorem ptr_ne (h : Layout place uts spare bound) (hp : p ∈ spare) (hut : ut ∈ uts) :
    ut.ptr ≠ p := by
  intro heq
  exact (List.nodup_append.mp h.nodes).2.2 ut.ptr (List.mem_map_of_mem hut) p hp heq

/-- An untyped is split in two, described by two spare nodes. -/
theorem split {larger : UT} (c₁ c₂ : Slot)
    (h : Layout place (larger :: uts) (p₂ :: p₁ :: spare) bound)
    (hsize : larger.sizeBits = n + 1) :
    Layout (halved place (place larger.ptr) p₁ p₂ n) (⟨p₂, c₂, n⟩ :: ⟨p₁, c₁, n⟩ :: uts) spare
      bound := by
  have hnodes := h.nodes
  rw [List.map_cons, List.cons_append] at hnodes
  have hnodes' : (uts.map UT.ptr ++ p₂ :: p₁ :: spare).Nodup := (List.nodup_cons.mp hnodes).2
  have hperm : (uts.map UT.ptr ++ p₂ :: p₁ :: spare).Perm (p₂ :: p₁ :: (uts.map UT.ptr ++ spare)) :=
    List.perm_middle.trans (List.perm_middle.cons p₂)
  have hne : p₁ ≠ p₂ := by
    have h₂ := (List.nodup_cons.mp (hperm.nodup_iff.mp hnodes')).1
    intro heq
    exact h₂ (heq ▸ List.mem_cons_self)
  refine ⟨hperm.nodup_iff.mp hnodes', fun p hp => ?_, ?_⟩
  · refine h.below p ?_
    rw [List.map_cons, List.cons_append]
    exact List.mem_cons_of_mem _ (hperm.mem_iff.mpr hp)
  · have hrest : uts.map (UT.block (halved place (place larger.ptr) p₁ p₂ n)) =
        uts.map (UT.block place) := by
      refine List.map_congr_left fun ut hut => ?_
      have hne₁ : ut.ptr ≠ p₁ := h.ptr_ne (by simp) (List.mem_cons_of_mem _ hut)
      have hne₂ : ut.ptr ≠ p₂ := h.ptr_ne (by simp) (List.mem_cons_of_mem _ hut)
      rw [UT.block, UT.block, halved_of_ne hne₁ hne₂]
    have htiling := h.tiling
    rw [List.map_cons, UT.block, hsize] at htiling
    simp only [List.map_cons, hrest, UT.block]
    rw [halved, Function.update_self, Function.update_of_ne hne, Function.update_self]
    exact htiling.halve.perm (List.Perm.swap _ _ _)

end Layout

/-! ## The table -/

namespace UTTable

/-- The sizes that have a free list. -/
def sizes : List Nat := List.range' endpointBits (pageBits4K - endpointBits + 1)

/-- All untypeds on the free lists. -/
def free (t : UTTable) : List UT := sizes.flatMap t.freeUntypeds

def push (t : UTTable) (ut : UT) : UTTable :=
  { t with
    freeUntypeds :=
      Function.update t.freeUntypeds ut.sizeBits (ut :: t.freeUntypeds ut.sizeBits) }

def setList (t : UTTable) (b : Nat) (uts : List UT) : UTTable :=
  { t with freeUntypeds := Function.update t.freeUntypeds b uts }

def setSpare (t : UTTable) (spare : List Nat) : UTTable := { t with freeStructures := spare }

theorem mem_sizes {b : Nat} : b ∈ sizes ↔ endpointBits ≤ b ∧ b ≤ pageBits4K := by
  simp only [sizes, List.mem_range'_1, endpointBits, pageBits4K]
  omega

theorem sizes_nodup : sizes.Nodup := List.nodup_range'

section Lists

variable {t : UTTable} {ut : UT} {uts rest : List UT} {b b' : Nat}

theorem push_self : (t.push ut).freeUntypeds ut.sizeBits = ut :: t.freeUntypeds ut.sizeBits :=
  Function.update_self ..

theorem push_of_ne (h : b ≠ ut.sizeBits) : (t.push ut).freeUntypeds b = t.freeUntypeds b :=
  Function.update_of_ne h ..

theorem setList_self : (t.setList b uts).freeUntypeds b = uts := Function.update_self ..

theorem setList_of_ne (h : b' ≠ b) : (t.setList b uts).freeUntypeds b' = t.freeUntypeds b' :=
  Function.update_of_ne h ..

theorem push_free (h : ut.sizeBits ∈ sizes) : (t.push ut).free.Perm (ut :: t.free) := by
  refine flatMap_perm_cons sizes_nodup h ?_ fun i hi => ?_
  · rw [push_self]
  · rw [push_of_ne hi]

theorem setList_free (h : t.freeUntypeds b = ut :: rest) (hb : b ∈ sizes) :
    t.free.Perm (ut :: (t.setList b rest).free) := by
  refine flatMap_perm_cons sizes_nodup hb ?_ fun i hi => ?_
  · rw [h, setList_self]
  · rw [setList_of_ne hi]

end Lists

end UTTable

/-- What allocation keeps. -/
structure Parts (place : Nat → Nat) (t : UTTable) (out : List UT) (held : List Nat) : Prop where
  sizes : ∀ b, ∀ ut ∈ t.freeUntypeds b, ut.sizeBits = b ∧ b ∈ UTTable.sizes
  outSizes : ∀ ut ∈ out, ut.sizeBits ∈ UTTable.sizes
  layout : Layout place (t.free ++ out) (held ++ t.freeStructures) t.nextFreeVaddr

namespace Parts

open UTTable

variable {place : Nat → Nat} {t : UTTable} {out : List UT} {held : List Nat} {ut : UT}
  {rest : List UT} {b p : Nat}

/-- An untyped is freed. -/
theorem push (h : Parts place t (ut :: out) held) : Parts place (t.push ut) out held where
  sizes b' ut' hut' := by
    have hsize := h.outSizes ut List.mem_cons_self
    by_cases hb : b' = ut.sizeBits
    · rw [hb, push_self] at hut'
      obtain rfl | hut' := List.mem_cons.mp hut'
      · exact ⟨hb.symm, hb ▸ hsize⟩
      · exact hb ▸ h.sizes _ ut' hut'
    · rw [push_of_ne hb] at hut'
      exact h.sizes b' ut' hut'
  outSizes ut' hut' := h.outSizes ut' (List.mem_cons_of_mem _ hut')
  layout := by
    refine h.layout.perm ?_ (.refl _)
    exact List.perm_middle.trans
      ((push_free (h.outSizes ut List.mem_cons_self)).symm.append_right out)

/-- An untyped is taken off its list. -/
theorem pop (h : Parts place t out held) (hlist : t.freeUntypeds b = ut :: rest) :
    Parts place (t.setList b rest) (ut :: out) held where
  sizes b' ut' hut' := by
    by_cases hb : b' = b
    · rw [hb, setList_self] at hut'
      rw [hb]
      exact h.sizes b ut' (hlist ▸ List.mem_cons_of_mem _ hut')
    · rw [setList_of_ne hb] at hut'
      exact h.sizes b' ut' hut'
  outSizes ut' hut' := by
    obtain rfl | hut' := List.mem_cons.mp hut'
    · obtain ⟨hsize, hb⟩ := h.sizes b ut' (hlist ▸ List.mem_cons_self)
      rwa [hsize]
    · exact h.outSizes ut' hut'
  layout := by
    obtain ⟨-, hb⟩ := h.sizes b ut (hlist ▸ List.mem_cons_self)
    refine h.layout.perm ?_ (.refl _)
    exact ((setList_free hlist hb).append_right out).trans List.perm_middle.symm

/-- A page that was taken is not given back. -/
theorem forget (h : Parts place t (ut :: out) held) (hut : ut.sizeBits = pageBits4K) :
    Parts place t out held where
  sizes := h.sizes
  outSizes ut' hut' := h.outSizes ut' (List.mem_cons_of_mem _ hut')
  layout := (h.layout.perm List.perm_middle (.refl _)).forget hut

theorem perm {out' : List UT} {held' : List Nat} (h : Parts place t out held)
    (ho : out.Perm out') (hh : held.Perm held') : Parts place t out' held' where
  sizes := h.sizes
  outSizes ut hut := h.outSizes ut (ho.mem_iff.mpr hut)
  layout := h.layout.perm (ho.append_left _) (hh.append_right _)

/-- Taking pages off the 4K list. -/
theorem dropPages (h : Parts place t out held) : ∀ k, Parts place (t.dropPages k) out held
  | 0 => by rwa [dropPages_zero]
  | k + 1 => by
      have hk := h.dropPages k
      rw [← dropPages_dropPages t k 1]
      cases hlist : (t.dropPages k).freeUntypeds pageBits4K with
      | nil =>
        have hsame : (t.dropPages k).dropPages 1 = t.dropPages k := by
          rw [UTTable.dropPages, hlist, List.drop_nil, ← hlist, Function.update_eq_self]
        rwa [hsame]
      | cons ut rest =>
        obtain ⟨hsize, -⟩ := hk.sizes pageBits4K ut (hlist ▸ List.mem_cons_self)
        have hpop := (hk.pop hlist).forget hsize
        rwa [UTTable.dropPages, hlist, List.drop_one, List.tail_cons]

theorem dropped {t' : UTTable} (h : Parts place t out held) (hd : t.Dropped t') :
    Parts place t' out held := by
  obtain ⟨k, rfl⟩ := hd
  exact h.dropPages k

/-- A spare node is popped. -/
theorem popNode {spare : List Nat} (h : Parts place t out held)
    (hlist : t.freeStructures = p :: spare) : Parts place (t.setSpare spare) out (p :: held) where
  sizes := h.sizes
  outSizes := h.outSizes
  layout := by
    refine h.layout.perm (.refl _) ?_
    rw [hlist]
    exact List.perm_middle

/-- A node that was popped is pushed back. -/
theorem pushNode (h : Parts place t out (p :: held)) :
    Parts place (t.setSpare (p :: t.freeStructures)) out held where
  sizes := h.sizes
  outSizes := h.outSizes
  layout := h.layout.perm (.refl _) List.perm_middle.symm

/-- The larger untyped is replaced by two new ones, on the list of their size. -/
theorem split {larger : UT} {c₁ c₂ : Slot} {p₁ p₂ n : Nat}
    (h : Parts place t (larger :: out) [p₂, p₁]) (hsize : larger.sizeBits = n + 1)
    (hn : n ∈ UTTable.sizes) :
    Parts (halved place (place larger.ptr) p₁ p₂ n) ((t.push ⟨p₁, c₁, n⟩).push ⟨p₂, c₂, n⟩) out
      [] := by
  have hlayout := (h.layout.perm List.perm_middle (.refl _)).split c₁ c₂ hsize
  have hparts : Parts (halved place (place larger.ptr) p₁ p₂ n) t
      (⟨p₁, c₁, n⟩ :: ⟨p₂, c₂, n⟩ :: out) [] := by
    refine ⟨h.sizes, ?_, hlayout.perm ?_ (.refl _)⟩
    · intro ut hut
      simp only [List.mem_cons] at hut
      obtain rfl | rfl | hut := hut
      · exact hn
      · exact hn
      · exact h.outSizes ut (List.mem_cons_of_mem _ hut)
    · have hmid : (t.free ++ ⟨p₁, c₁, n⟩ :: ⟨p₂, c₂, n⟩ :: out).Perm
          (⟨p₁, c₁, n⟩ :: ⟨p₂, c₂, n⟩ :: (t.free ++ out)) :=
        List.perm_middle.trans (List.perm_middle.cons _)
      exact (List.Perm.swap _ _ _).trans hmid.symm
  exact hparts.push.push

end Parts

/-! ## The programs -/

section Programs

open UTTable

variable {place : Nat → Nat} {out : List UT} {r : Res}

/-- A panic that is not the last `unwrap` of `alloc`. -/
abbrev NotUnwrap (p : Panic) : Prop := p ≠ .unwrapNone

theorem Panic.InSlots.notUnwrap {p : Panic} (h : p.InSlots) : NotUnwrap p := by
  obtain rfl | rfl := h
  · decide
  · decide

/-- The new nodes of a page are pushed one after the other; `k` of them are there. -/
structure Growing (place : Nat → Nat) (out : List UT) (newUts k : Nat) (t : UTTable) : Prop where
  sizes : ∀ b, ∀ ut ∈ t.freeUntypeds b, ut.sizeBits = b ∧ b ∈ UTTable.sizes
  outSizes : ∀ ut ∈ out, ut.sizeBits ∈ UTTable.sizes
  layout : Layout place (t.free ++ out) t.freeStructures (newUts + k * utSize)
  next : t.nextFreeVaddr = newUts + pageSize4K
  length : k ≤ t.freeStructures.length

theorem mapFrameToNextFreeVaddr_ut (frame : Slot) : (mapFrameToNextFreeVaddr frame).wp
    (fun vaddr r' => vaddr = r.ut.nextFreeVaddr ∧ ∃ t, r.ut.Dropped t ∧
      r'.ut = { t with nextFreeVaddr := vaddr + pageSize4K })
    (fun _ r' => r.ut.Dropped r'.ut) NotUnwrap r := by
  simp only [mapFrameToNextFreeVaddr, Prog.wp_bind, Prog.wp_gets]
  refine Prog.wp_mono (mapFrame_ut r frame rootVSpaceSlot _ .all) ?_ (fun _ _ h => h)
    fun _ hp => hp.notUnwrap
  intro _ r' hd
  simp only [wp_addU, modifyUt, Prog.wp_modify, Prog.wp_pure]
  exact ⟨fun _ => ⟨trivial, r'.ut, hd, rfl⟩, fun _ => by decide⟩

/-- After `ensure_new_structures` there are two spare nodes. -/
theorem ensureNewStructures_parts (h : Parts place r.ut out []) : ensureNewStructures.wp
    (fun _ r' => Parts place r'.ut out [] ∧ 2 ≤ r'.ut.freeStructures.length)
    (fun _ r' => Parts place r'.ut out []) NotUnwrap r := by
  simp only [ensureNewStructures, Prog.wp_bind, Prog.wp_gets, Prog.wp_ite, Prog.wp_pure]
  refine ⟨fun _ => ?_, fun hle => ⟨h, by omega⟩⟩
  refine Prog.wp_mono (alloc4kUntyped_ut r) ?_ (fun _ _ h' => h'.2 ▸ h) fun _ hp => hp.notUnwrap
  intro _ r₁ hpost
  rcases hpost with ⟨-, -, hr₁⟩
  have h₁ : Parts place r₁.ut out [] := by
    rw [hr₁]
    exact h.dropPages 1
  refine Prog.wp_mono (allocSlot_ut r₁) ?_ (fun _ _ h' => h'.symm ▸ h₁) fun _ hp => hp.notUnwrap
  intro cptr r₂ h₂
  refine Prog.wp_mono (kcall_ut r₂ _) ?_ (fun _ _ h' => h'.symm ▸ h₂.symm ▸ h₁)
    fun _ hp => hp.notUnwrap
  intro _ r₃ h₃
  have hparts : Parts place r₃.ut out [] := h₃.symm ▸ h₂.symm ▸ h₁
  refine Prog.wp_mono (mapFrameToNextFreeVaddr_ut cptr) ?_ (fun _ _ hd => hparts.dropped hd)
    fun _ hp => hp
  intro newUts r₄ hpost
  rcases hpost with ⟨hnew, t, hd, hr₄⟩
  have ht : Parts place t out [] := hparts.dropped hd
  have hstart : Growing place out newUts 0 r₄.ut := by
    have hnext : t.nextFreeVaddr = newUts := by
      obtain ⟨k, rfl⟩ := hd
      exact hnew.symm
    have hlayout := ht.layout
    rw [hnext] at hlayout
    rw [hr₄]
    exact ⟨ht.sizes, ht.outSizes, hlayout, rfl, Nat.zero_le _⟩
  have hloop : ∀ k < pageSize4K / utSize, ∀ r', Growing place out newUts k r'.ut →
      (pushStructure (newUts + k * utSize) : RProg Sel4Error Unit).wp
        (fun _ r'' => Growing place out newUts (k + 1) r''.ut)
        (fun _ r'' => Parts place r''.ut out []) NotUnwrap r' := by
    intro k _ r' hg
    have hadd := hg.layout.addSpare
    rw [Nat.add_assoc, ← Nat.succ_mul] at hadd
    exact ⟨hg.sizes, hg.outSizes, hadd, hg.next, Nat.succ_le_succ hg.length⟩
  refine Prog.wp_mono (Prog.wp_forEach_range (I := fun k r' => Growing place out newUts k r'.ut)
    hstart hloop) ?_ (fun _ _ h => h) fun _ hp => hp
  intro _ r₅ hg
  refine ⟨⟨hg.sizes, hg.outSizes, ?_⟩, Nat.le_trans (by decide) hg.length⟩
  rw [hg.next]
  exact hg.layout

theorem popStructure_ut : popStructure.wp
    (fun p r' => ∃ spare, r.ut.freeStructures = p :: spare ∧ r'.ut = r.ut.setSpare spare)
    (fun _ r' => r' = r) NotUnwrap r := by
  simp only [popStructure, Prog.wp_bind, Prog.wp_gets]
  cases h : r.ut.freeStructures with
  | nil => exact rfl
  | cons p spare => exact ⟨spare, rfl, rfl⟩

/-- The last steps of a way out of a split that fails: the node that is still held is pushed, after
a slot was given back. -/
theorem freeSlot_parts {ε : Type} {held : List Nat} (c : Slot) (h : Parts place r.ut out held) :
    (freeSlot c : RProg ε Unit).wp (fun _ r' => Parts place r'.ut out held) (fun _ _ => False)
      NotUnwrap r :=
  Prog.wp_mono (freeSlot_ut r c) (fun _ _ h' => h'.symm ▸ h) (fun _ _ h => h)
    fun _ hp => hp.notUnwrap

/-- A split puts two new untypeds in front of the list of their size; when it fails, the larger
untyped is free again. -/
theorem utSplit_parts {larger : UT} {n : Nat} (h : Parts place r.ut (larger :: out) [])
    (hsize : larger.sizeBits = n + 1) (hn : n ∈ UTTable.sizes) : (utSplit larger n).wp
      (fun _ r' => ∃ new1 new2 rest, r'.ut.freeUntypeds n = new2 :: new1 :: rest ∧
        (∀ ut ∈ out, ut.ptr ≠ new1.ptr ∧ ut.ptr ≠ new2.ptr) ∧
        Parts (halved place (place larger.ptr) new1.ptr new2.ptr n) r'.ut out [])
      (fun _ r' => Parts place r'.ut out []) NotUnwrap r := by
  simp only [utSplit, Prog.wp_bind, Prog.wp_catchErr, utFree, pushStructure, modifyUt,
    Prog.wp_modify, Prog.wp_fail]
  refine Prog.wp_mono (ensureNewStructures_parts h) ?_ (fun _ _ h' => h'.push) fun _ hp => hp
  intro _ r₁ ⟨h₁, _⟩
  refine Prog.wp_mono popStructure_ut ?_ (fun _ _ h' => h' ▸ h₁.push) fun _ hp => hp
  intro p₁ r₂ ⟨spare₁, hspare₁, hr₂⟩
  have h₂ : Parts place r₂.ut (larger :: out) [p₁] := hr₂ ▸ h₁.popNode hspare₁
  refine Prog.wp_mono (allocSlot_ut r₂) ?_ ?_ fun _ hp => hp.notUnwrap
  swap
  · intro _ r₃ h₃
    have h₃ : Parts place r₃.ut (larger :: out) [p₁] := h₃.symm ▸ h₂
    exact h₃.push.pushNode
  intro c₁ r₃ h₃
  have h₃ : Parts place r₃.ut (larger :: out) [p₁] := h₃.symm ▸ h₂
  refine Prog.wp_mono popStructure_ut ?_ ?_ fun _ hp => hp
  swap
  · intro _ r₄ h₄
    have h₄ : Parts place r₄.ut (larger :: out) [p₁] := h₄ ▸ h₃
    exact Prog.wp_mono (freeSlot_parts c₁ h₄.push.pushNode) (fun _ _ h => h) (fun _ _ h => h.elim)
      fun _ hp => hp
  intro p₂ r₄ ⟨spare₂, hspare₂, hr₄⟩
  have h₄ : Parts place r₄.ut (larger :: out) [p₂, p₁] := hr₄ ▸ h₃.popNode hspare₂
  have hswap : Parts place r₄.ut (larger :: out) [p₁, p₂] := h₄.perm (.refl _) (.swap _ _ _)
  -- from here on every way out gives back both nodes
  refine Prog.wp_mono (allocSlot_ut r₄) ?_ ?_ fun _ hp => hp.notUnwrap
  swap
  · intro _ r₅ h₅
    have h₅ : Parts place r₅.ut (larger :: out) [p₁, p₂] := h₅.symm ▸ hswap
    exact Prog.wp_mono (freeSlot_parts c₁ h₅.push.pushNode) (fun _ _ h => h.pushNode)
      (fun _ _ h => h.elim) fun _ hp => hp
  intro c₂ r₅ h₅
  refine Prog.wp_mono (kcall_ut r₅ _) ?_ ?_ fun _ hp => hp.notUnwrap
  swap
  · intro _ r₆ h₆
    have h₆ : Parts place r₆.ut (larger :: out) [p₁, p₂] := h₆.symm ▸ h₅.symm ▸ hswap
    refine Prog.wp_mono (freeSlot_parts c₁ h₆.push.pushNode) ?_ (fun _ _ h => h.elim)
      fun _ hp => hp
    intro _ r₇ h₇
    exact Prog.wp_mono (freeSlot_parts c₂ h₇.pushNode) (fun _ _ h => h) (fun _ _ h => h.elim)
      fun _ hp => hp
  intro _ r₆ h₆
  refine Prog.wp_mono (kcall_ut r₆ _) ?_ ?_ fun _ hp => hp.notUnwrap
  swap
  · intro _ r₇ h₇
    have h₇ : Parts place r₇.ut (larger :: out) [p₁, p₂] := h₇.symm ▸ h₆.symm ▸ h₅.symm ▸ hswap
    simp only [deleteCap, kmodify, Prog.wp_modify]
    refine Prog.wp_mono (freeSlot_parts c₁ h₇.push.pushNode) ?_ (fun _ _ h => h.elim)
      fun _ hp => hp
    intro _ r₈ h₈
    exact Prog.wp_mono (freeSlot_parts c₂ h₈.pushNode) (fun _ _ h => h) (fun _ _ h => h.elim)
      fun _ hp => hp
  intro _ r₇ h₇
  have h₇ : Parts place r₇.ut (larger :: out) [p₂, p₁] := h₇.symm ▸ h₆.symm ▸ h₅.symm ▸ h₄
  refine ⟨⟨p₁, c₁, n⟩, ⟨p₂, c₂, n⟩, r₇.ut.freeUntypeds n, ?_, fun ut hut => ?_, h₇.split hsize hn⟩
  · simp
  · have hmem : ut ∈ r₇.ut.free ++ larger :: out := by simp [hut]
    exact ⟨h₇.layout.ptr_ne (by simp) hmem, h₇.layout.ptr_ne (by simp) hmem⟩

end Programs

/-! ## Allocation, with the places -/

/-- The resources, and where the untyped of each node lies. -/
structure Placed where
  res : Res
  place : Nat → Nat

abbrev PProg (α : Type) := Prog Panic Placed Sel4Error α

section Placing

variable {α : Type}

def onPlaced (m : RProg Sel4Error α) : PProg α :=
  Prog.zoom Placed.res (fun s r => { s with res := r }) m

/-- The two new untypeds lie on the halves of the larger one. -/
def placeHalves (larger : UT) (sizeBits : Nat) : PProg Unit :=
  Prog.modify fun s =>
    match s.res.ut.freeUntypeds sizeBits with
    | new2 :: new1 :: _ =>
      { s with place := halved s.place (s.place larger.ptr) new1.ptr new2.ptr sizeBits }
    | _ => s

/-- The end of `UTTable::alloc`. -/
def popUt (sizeBits : Nat) : RProg Sel4Error UT := do
  match ← Prog.gets fun r => r.ut.freeUntypeds sizeBits with
  | [] => Prog.panic .unwrapNone
  | ut :: rest =>
    modifyUt fun t => { t with freeUntypeds := Function.update t.freeUntypeds sizeBits rest }
    pure ut

/-- `utAllocBelow`, recording where a split puts the halves. -/
def placedAllocBelow : Nat → PProg UT
  | 0 => onPlaced alloc4kUntyped
  | n + 1 => do
    let sizeBits := pageBits4K - (n + 1)
    if (← Prog.gets fun s => (s.res.ut.freeUntypeds sizeBits).isEmpty) then
      let larger ← placedAllocBelow n
      onPlaced (utSplit larger sizeBits)
      placeHalves larger sizeBits
    onPlaced (popUt sizeBits)

/-- `utAlloc`, recording places. -/
def placedAlloc (sizeBits : Nat) : PProg UT :=
  if sizeBits > pageBits4K then Prog.fail .invalidArgument
  else if sizeBits < endpointBits then Prog.fail .invalidArgument
  else placedAllocBelow (pageBits4K - sizeBits)

theorem placeHalves_res (larger : UT) (sizeBits : Nat) (s : Placed) :
    (match s.res.ut.freeUntypeds sizeBits with
      | new2 :: new1 :: _ =>
        { s with place := halved s.place (s.place larger.ptr) new1.ptr new2.ptr sizeBits }
      | _ => s).res = s.res := by
  split <;> rfl

theorem onPlaced_erases (m : RProg Sel4Error α) : Prog.Erases Placed.res (onPlaced m) m :=
  .zoom (fun _ _ => rfl) m

theorem placedAllocBelow_erases : ∀ n,
    Prog.Erases Placed.res (placedAllocBelow n) (utAllocBelow n)
  | 0 => onPlaced_erases _
  | n + 1 => by
      rw [placedAllocBelow, utAllocBelow]
      refine .bind (.gets fun r : Res => (r.ut.freeUntypeds (pageBits4K - (n + 1))).isEmpty)
        fun _ => .ite _ ?_ (onPlaced_erases _)
      refine .bind (placedAllocBelow_erases n) fun larger => .bind (onPlaced_erases _) fun _ => ?_
      exact .skip (placeHalves_res larger _) (onPlaced_erases _)

/-- Without the places, this is `utAlloc`. -/
theorem placedAlloc_erases (sizeBits : Nat) :
    Prog.Erases Placed.res (placedAlloc sizeBits) (utAlloc sizeBits) :=
  .ite _ (.fail _) (.ite _ (.fail _) (placedAllocBelow_erases _))

/-- What is out stays where it is. -/
def Stays (out : List UT) (s s' : Placed) : Prop := ∀ ut ∈ out, s'.place ut.ptr = s.place ut.ptr

theorem popUt_parts {place : Nat → Nat} {out : List UT} {r : Res} {b : Nat}
    (h : Parts place r.ut out []) (hne : r.ut.freeUntypeds b ≠ []) :
    (popUt b).wp (fun ut r' => Parts place r'.ut (ut :: out) [] ∧ ut.sizeBits = b)
      (fun _ _ => False) (fun _ => False) r := by
  obtain ⟨ut, rest, hlist⟩ := List.exists_cons_of_ne_nil hne
  simp only [popUt, Prog.wp_bind, Prog.wp_gets, hlist]
  exact ⟨h.pop hlist, (h.sizes b ut (hlist ▸ List.mem_cons_self)).1⟩

/-- Allocation of a size with a free list: the untyped has that size, what is out stays where it
is, and there always is an untyped to pop at the end. -/
theorem placedAllocBelow_parts : ∀ (n : Nat) (_ : n ≤ pageBits4K - endpointBits) (out : List UT)
    (s : Placed), Parts s.place s.res.ut out [] →
      (placedAllocBelow n).wp
        (fun ut s' => Parts s'.place s'.res.ut (ut :: out) [] ∧ ut.sizeBits = pageBits4K - n ∧
          Stays out s s')
        (fun _ s' => Parts s'.place s'.res.ut out [] ∧ Stays out s s') NotUnwrap s
  | 0, _, out, s, h => by
      simp only [placedAllocBelow, onPlaced, Prog.wp_zoom]
      refine Prog.wp_mono (alloc4kUntyped_ut s.res) ?_ ?_ fun _ hp => hp.notUnwrap
      · intro ut r' hpost
        rcases hpost with ⟨rest, hlist, hr'⟩
        have hpop := h.pop hlist
        have hdrop : s.res.ut.setList pageBits4K rest = s.res.ut.dropPages 1 := by
          rw [UTTable.dropPages, hlist]
          rfl
        rw [hr']
        exact ⟨hdrop ▸ hpop, (h.sizes _ ut (hlist ▸ List.mem_cons_self)).1, fun _ _ => rfl⟩
      · intro _ r' hpost
        rcases hpost with ⟨-, hr'⟩
        rw [hr']
        exact ⟨h, fun _ _ => rfl⟩
  | n + 1, hn, out, s, h => by
      rw [placedAllocBelow]
      simp only [Prog.wp_bind, Prog.wp_gets, Prog.wp_ite]
      have hsize : pageBits4K - (n + 1) ∈ UTTable.sizes := by
        rw [UTTable.mem_sizes]
        unfold pageBits4K endpointBits at *
        omega
      have htake : ∀ s' : Placed, Parts s'.place s'.res.ut out [] → Stays out s s' →
          s'.res.ut.freeUntypeds (pageBits4K - (n + 1)) ≠ [] →
          (onPlaced (popUt (pageBits4K - (n + 1)))).wp (fun ut s' => Parts s'.place s'.res.ut (ut :: out) [] ∧
            ut.sizeBits = pageBits4K - (n + 1) ∧ Stays out s s')
            (fun _ s' => Parts s'.place s'.res.ut out [] ∧ Stays out s s') NotUnwrap s' := by
        intro s' h' hstays hne
        simp only [onPlaced, Prog.wp_zoom]
        exact Prog.wp_mono (popUt_parts h' hne) (fun ut r' h => ⟨h.1, h.2, hstays⟩)
          (fun _ _ h => h.elim) fun _ h => h.elim
      refine ⟨fun _ => ?_, fun hne => htake s h (fun _ _ => rfl) fun hnil => hne (by simp [hnil])⟩
      refine Prog.wp_mono (placedAllocBelow_parts n (Nat.le_of_succ_le hn) out s h) ?_
        (fun _ _ h => h) fun _ hp => hp
      intro larger s₁ hpost
      rcases hpost with ⟨h₁, hlarger, hstays₁⟩
      have hlarger' : larger.sizeBits = pageBits4K - (n + 1) + 1 := by
        rw [hlarger]
        unfold pageBits4K endpointBits at *
        omega
      rw [onPlaced, Prog.wp_zoom]
      refine Prog.wp_mono (utSplit_parts h₁ hlarger' hsize) ?_ (fun _ _ h => ⟨h, hstays₁⟩)
        fun _ hp => hp
      intro _ r₂ hpost
      rcases hpost with ⟨new1, new2, rest, hlist, hfresh, h₂⟩
      rw [placeHalves, Prog.wp_modify]
      simp only [hlist]
      refine htake _ h₂ (fun ut hut => ?_) (by simp [hlist])
      obtain ⟨hne₁, hne₂⟩ := hfresh ut hut
      exact (Layout.halved_of_ne hne₁ hne₂).trans (hstays₁ ut hut)

/-- `alloc` of any size. -/
theorem placedAlloc_parts (sizeBits : Nat) (out : List UT) (s : Placed)
    (h : Parts s.place s.res.ut out []) : (placedAlloc sizeBits).wp
      (fun ut s' => Parts s'.place s'.res.ut (ut :: out) [] ∧ ut.sizeBits = sizeBits ∧
        Stays out s s')
      (fun _ s' => Parts s'.place s'.res.ut out [] ∧ Stays out s s') NotUnwrap s := by
  simp only [placedAlloc, Prog.wp_ite, Prog.wp_fail]
  refine ⟨fun _ => ⟨h, fun _ _ => rfl⟩, fun hle => ⟨fun _ => ⟨h, fun _ _ => rfl⟩, fun hge => ?_⟩⟩
  refine Prog.wp_mono (placedAllocBelow_parts _ (by omega) out s h) ?_ (fun _ _ h => h)
    fun _ hp => hp
  intro ut s' hpost
  rcases hpost with ⟨hparts, hsize, hstays⟩
  exact ⟨hparts, by omega, hstays⟩

end Placing

/-! ## Runs -/

namespace UtRun

open UTTable

/-- The table, and the untypeds that were given out and not given back. -/
structure Blocks where
  placed : Placed
  outstanding : List UT

namespace Blocks

def table (s : Blocks) : UTTable := s.placed.res.ut

/-- Every untyped there is. -/
def uts (s : Blocks) : List UT := s.table.free ++ s.outstanding

end Blocks

inductive Call where
  | alloc (sizeBits : Nat)
  | alloc4kUntyped
  | free (ut : UT)
  /-- Others use the kernel and the slots. -/
  | others (res : Res)

def after (s : Blocks) : Outcome Panic Placed Sel4Error UT → Option Blocks
  | .ok ut placed => some ⟨placed, ut :: s.outstanding⟩
  | .err _ placed => some ⟨placed, s.outstanding⟩
  | .panic _ => none

def call (s : Blocks) : Call → Option Blocks
  | .alloc sizeBits => after s (placedAlloc sizeBits s.placed)
  | .alloc4kUntyped => after s (onPlaced RootServer.alloc4kUntyped s.placed)
  | .free ut =>
    match (utFree ut : RProg Empty Unit) s.placed.res with
    | .ok _ res => some ⟨{ s.placed with res := res }, s.outstanding.erase ut⟩
    | .err _ _ => none
    | .panic _ => none
  | .others res => some { s with placed := { s.placed with res := { res with ut := s.table } } }

/-- Only outstanding untypeds are freed. -/
def Allowed (s : Blocks) : Call → Prop
  | .free ut => ut ∈ s.outstanding
  | _ => True

instance (s : Blocks) : (a : Call) → Decidable (Allowed s a)
  | .alloc _ => inferInstanceAs (Decidable True)
  | .alloc4kUntyped => inferInstanceAs (Decidable True)
  | .free ut => inferInstanceAs (Decidable (ut ∈ s.outstanding))
  | .others _ => inferInstanceAs (Decidable True)

/-- Boot is over: the pages lie where they were registered, and new nodes come after those of the
table. -/
structure Start (ranges : List UntypedRange) (s : Blocks) : Prop where
  boots : Boots ranges s.table
  above : utNode s.table.untypeds.length ≤ s.table.nextFreeVaddr
  place : ∀ page ∈ ram (pages ranges), s.placed.place (s.table.pageUt page).ptr = page.paddr
  outstanding : s.outstanding = []

/-- The free and the outstanding untypeds partition the pages they were split from. -/
structure Partition (s : Blocks) : Prop where
  /-- Each list holds untypeds of its size. -/
  lists : ∀ b, ∀ ut ∈ s.table.freeUntypeds b, ut.sizeBits = b ∧ b ∈ sizes
  /-- No node is in two lists, or twice in one. -/
  nodes : (s.uts.map UT.ptr ++ s.table.freeStructures).Nodup
  /-- No two untypeds share an address, and together they have every address of their pages. -/
  tiling : Tiling pageBits4K (s.uts.map (UT.block s.placed.place))

theorem Start.parts {ranges : List UntypedRange} {s : Blocks} (hram : Ram ranges)
    (h : Start ranges s) : Parts s.placed.place s.table s.outstanding [] := by
  have hstock := h.boots.stocked
  have hfree : s.table.free = s.table.freeUntypeds pageBits4K := by
    have hothers := hstock.others
    simp only [free, sizes, endpointBits, pageBits4K, List.range', Nat.reduceSub, Nat.reduceAdd,
      List.flatMap_cons, List.flatMap_nil, List.append_nil] at hothers ⊢
    simp [hothers]
  rw [h.outstanding]
  refine ⟨fun b ut hut => ?_, fun ut hut => absurd hut List.not_mem_nil, ?_, ?_, ?_⟩
  · by_cases hb : b = pageBits4K
    · subst hb
      rw [hstock.pages] at hut
      obtain ⟨page, -, rfl⟩ := List.mem_map.mp hut
      exact ⟨rfl, by decide⟩
    · rw [hstock.others b hb] at hut
      exact absurd hut List.not_mem_nil
  · rw [hfree, hstock.pages, hstock.spare]
    simp only [List.append_nil, List.map_map, List.map_reverse, List.nodup_reverse]
    have hptr : UT.ptr ∘ s.table.pageUt =
        utNode ∘ fun page => s.table.pageOf page.paddr := rfl
    rw [hptr, ← List.map_map]
    refine List.Nodup.map_on (fun x _ y _ heq => ?_) (h.boots.pageOf_nodup hram)
    unfold utNode utSize at heq
    omega
  · intro p hp
    rw [hfree, hstock.pages, hstock.spare] at hp
    simp only [List.append_nil, List.map_map, List.map_reverse, List.mem_reverse] at hp
    obtain ⟨page, hpage, rfl⟩ := List.mem_map.mp hp
    refine Nat.le_trans ?_ h.above
    have hlt := (h.boots.mem_table hpage).2
    show utNode (s.table.pageOf page.paddr) + utSize ≤ utNode s.table.untypeds.length
    unfold utNode utSize
    omega
  · rw [hfree, hstock.pages]
    have hblocks : ((ram (pages ranges)).reverse.map s.table.pageUt).map (UT.block s.placed.place) =
        ((ram (pages ranges)).reverse.map UntypedPage.paddr).map fun base => ⟨base, pageBits4K⟩ := by
      rw [List.map_map, List.map_map]
      refine List.map_congr_left fun page hpage => ?_
      exact congrArg (fun base => Block.mk base pageBits4K) (h.place page (List.mem_reverse.mp hpage))
    rw [List.append_nil, hblocks]
    refine Tiling.whole (fun base hbase => ?_) ?_
    · obtain ⟨page, hpage, rfl⟩ := List.mem_map.mp hbase
      exact hram.aligned page (List.mem_reverse.mp hpage)
    · rw [List.map_reverse, List.nodup_reverse]
      exact hram.distinct

theorem after_parts {m : PProg UT} {s s' : Blocks}
    (hm : m.wp (fun ut placed => Parts placed.place placed.res.ut (ut :: s.outstanding) [])
      (fun _ placed => Parts placed.place placed.res.ut s.outstanding []) (fun _ => True) s.placed)
    (h : after s (m s.placed) = some s') :
    Parts s'.placed.place s'.table s'.outstanding [] := by
  cases hrun : m s.placed with
  | ok ut placed =>
    rw [hrun] at h
    cases h
    have hparts := Prog.wp_ok hm hrun
    exact hparts
  | err e placed =>
    rw [hrun] at h
    cases h
    have hparts := Prog.wp_err hm hrun
    exact hparts
  | panic p =>
    rw [hrun] at h
    cases h

/-- Every call keeps the parts. -/
theorem call_parts {s s' : Blocks} {a : Call}
    (h : Parts s.placed.place s.table s.outstanding []) (ha : Allowed s a)
    (hcall : call s a = some s') : Parts s'.placed.place s'.table s'.outstanding [] := by
  cases a with
  | alloc sizeBits =>
    exact after_parts (Prog.wp_mono (placedAlloc_parts sizeBits _ _ h) (fun _ _ h => h.1)
      (fun _ _ h => h.1) fun _ _ => trivial) hcall
  | alloc4kUntyped =>
    exact after_parts (Prog.wp_mono (placedAllocBelow_parts 0 (Nat.zero_le _) _ _ h)
      (fun _ _ h => h.1) (fun _ _ h => h.1) fun _ _ => trivial) hcall
  | free ut =>
    cases hcall
    have hfirst : Parts s.placed.place s.table (ut :: s.outstanding.erase ut) [] :=
      h.perm (List.perm_cons_erase ha) (.refl _)
    exact hfirst.push
  | others res =>
    cases hcall
    exact h

theorem run_parts {ranges : List UntypedRange} {ops : List Call} {s : Blocks}
    (hram : Ram ranges) (run : Run (Start ranges) call Allowed ops s) :
    Parts s.placed.place s.table s.outstanding [] :=
  run.invariant (I := fun s => Parts s.placed.place s.table s.outstanding [])
    (fun _ hs => hs.parts hram) fun _ _ _ h ha hcall => call_parts h ha hcall

/-- After any run the free and the outstanding untypeds partition the pages they were split
from. `alloc` then answers an untyped of the size it was asked for, the `unwrap` at its end
does not fail, and no outstanding untyped is moved. -/
theorem utTable_run {ranges : List UntypedRange} {ops : List Call} {s : Blocks}
    (hram : Ram ranges) (run : Run (Start ranges) call Allowed ops s) :
    Partition s ∧ ∀ sizeBits,
      (utAlloc sizeBits).wp (fun ut _ => ut.sizeBits = sizeBits) (fun _ _ => True)
        (fun p => p ≠ .unwrapNone) s.placed.res ∧
      (placedAlloc sizeBits).wp (fun _ placed => Stays s.outstanding s.placed placed)
        (fun _ placed => Stays s.outstanding s.placed placed) (fun _ => True) s.placed := by
  have h := run_parts hram run
  refine ⟨⟨h.sizes, h.layout.nodes, h.layout.tiling⟩, fun sizeBits => ⟨?_, ?_⟩⟩
  · refine (placedAlloc_erases sizeBits).wp_iff.mpr ?_
    exact Prog.wp_mono (placedAlloc_parts sizeBits _ _ h) (fun _ _ h => h.2.1)
      (fun _ _ _ => trivial) fun _ hp => hp
  · exact Prog.wp_mono (placedAlloc_parts sizeBits _ _ h) (fun _ _ h => h.2.2)
      (fun _ _ h => h.2) fun _ _ => trivial

/-- The small table, where page `i` lies at `0x40000000 + i * 4096`. -/
def demoBlocks : Blocks where
  placed :=
    { res := { demo.res with ut := demoTable }
      place := fun p => 0x40000000 + (p - utTableVaddr) / utSize * pageSize4K }
  outstanding := []

theorem demoRanges_ram : Ram demoRanges := ⟨by decide, by decide⟩

theorem demoBlocks_start : Start demoRanges demoBlocks where
  boots := demoTable_boots
  above := by decide
  place := by decide
  outstanding := rfl

/-- One page gives the nodes; the other is split twice. -/
theorem utTable_run_two : ∃ s, Run (Start demoRanges) call Allowed [.alloc 11, .alloc 10] s ∧
    s.outstanding.map UT.sizeBits = [10, 11] ∧ Partition s := by
  have hrun : ∃ s, Run (Start demoRanges) call Allowed [.alloc 11, .alloc 10] s ∧
      s.outstanding.map UT.sizeBits = [10, 11] :=
    Run.exists_of_steps demoBlocks_start (by decide +kernel) (by decide +kernel)
  obtain ⟨s, run, hout⟩ := hrun
  exact ⟨s, run, hout, (utTable_run demoRanges_ram run).1⟩

end UtRun

end Smos.RootServer
