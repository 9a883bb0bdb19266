/-
Smos.RootServer.BootSlots — are there slots enough for bootstrap?

Bootstrap sizes its cnodes before it uses the slots: `n_slots` counts a slot
for every page of every untyped, whatever is stolen of them later. What it
uses is less by the pages of the stolen untypeds (`totalCaps_left`), and
more by one and by the frames of the node blocks. The structures take at
least two pages for each cnode, there is at most one node block for each
cnode, so the count is never exceeded, and the cnodes that are added as a
buffer stay empty.
-/
import Mathlib.Algebra.BigOperators.Group.List.Basic
import Smos.RootServer.BootAddresses

namespace Smos.RootServer

open Smos.Base BootMem

variable {config : KernelConfig} {bi : BootInfo} {memory : Nat × Nat}
  {x y z : UntypedDesc × Nat}

/-! ## The pages of an untyped -/

/-- What `calculate_ut_caps` counts for an untyped. -/
def utCaps (untyped : UntypedDesc) : Nat :=
  if untypedInRange untyped && pageBits4K ≤ untyped.sizeBits then
    2 ^ (untyped.sizeBits - pageBits4K)
  else 0

theorem pages_of_size (bits : Nat) :
    2 ^ bits / pageSize4K = if pageBits4K ≤ bits then 2 ^ (bits - pageBits4K) else 0 := by
  show 2 ^ bits / 2 ^ pageBits4K = _
  split
  · rename_i hle
    exact Nat.pow_div hle (by decide)
  · rename_i hlt
    exact Nat.div_eq_of_lt (Nat.pow_lt_pow_right (by decide) (Nat.lt_of_not_le hlt))

/-- The pages that are stolen from an untyped. -/
def BootInfo.takenPages (bi : BootInfo) (memory : Nat × Nat) (i d j : Nat) : Nat :=
  (if j = i then 2 ^ (bi.structureBits memory - pageBits4K) else 0) +
    if j = d then dmaReservationNumPages else 0

theorem stolen_pages (bi : BootInfo) (memory : Nat × Nat) :
    2 ^ (bi.structureBits memory - pageBits4K) * 2 ^ pageBits4K = 2 ^ bi.structureBits memory := by
  rw [← Nat.pow_add, Nat.sub_add_cancel]
  exact Nat.le_trans (by decide) (bi.le_structureBits memory)

theorem taken_eq (i d j : Nat) :
    bi.taken memory i d j = bi.takenPages memory i d j * pageSize4K := by
  show _ = _ * 2 ^ pageBits4K
  unfold BootInfo.taken BootInfo.takenPages
  rw [Nat.add_mul, ite_mul, ite_mul, stolen_pages, dmaReservation_size, Nat.zero_mul]

/-- What is left of an untyped and what is stolen from it are its pages. -/
theorem capsOf_left (h : Stolen bi memory x y) (hz : z ∈ bi.untypedList.zipIdx) :
    capsOf (bi.availLeft memory x.2 y.2) z + bi.takenPages memory x.2 y.2 z.2 = utCaps z.1 := by
  by_cases hin : untypedInRange z.1 = true
  · have hcaps : utCaps z.1 = 2 ^ z.1.sizeBits / pageSize4K := by
      rw [pages_of_size, utCaps, hin]
      simp
    rw [capsOf, if_pos hin, nCaps, hcaps]
    cases hdev : z.1.isDevice with
    | true =>
      obtain ⟨hzx, hzy⟩ := h.taken_device hz hdev
      simp [BootInfo.takenPages, hzx, hzy]
    | false =>
      have hsum := h.avail_taken hz hin hdev
      rw [taken_eq] at hsum
      rw [← hsum, Nat.add_mul_div_right _ _ (by decide)]
      simp
  · have hzx : z.2 ≠ x.2 := by
      intro heq
      exact hin (BootInfo.eq_of_snd hz h.x_mem heq ▸ (findUntyped_some h.structures).2.1)
    have hzy : z.2 ≠ y.2 := by
      intro heq
      exact hin (BootInfo.eq_of_snd hz h.y_mem heq ▸ (findUntyped_some h.dma).2.1)
    simp [capsOf, utCaps, BootInfo.takenPages, hin, hzx, hzy]

/-! ## All untypeds -/

/-- A sum over the untypeds that counts one of them. -/
theorem sum_single (hx : x ∈ bi.untypedList.zipIdx) (n : Nat) :
    (bi.untypedList.zipIdx.map fun z => if z.2 = x.2 then n else 0).sum = n := by
  have hmem : x.2 ∈ List.range' 0 bi.untypedList.length := by
    rw [← List.zipIdx_map_snd]
    exact List.mem_map.mpr ⟨x, hx, rfl⟩
  have hsnd := congrArg (List.map fun j => if j = x.2 then n else 0)
    (List.zipIdx_map_snd 0 bi.untypedList)
  rw [List.map_map] at hsnd
  refine (congrArg List.sum hsnd).trans ?_
  rw [List.sum_map_eq_nsmul_single x.2 _ fun j hne _ => if_neg hne, if_pos rfl,
    List.count_eq_one_of_mem List.nodup_range' hmem]
  exact Nat.one_mul n

theorem calculateUtCaps_eq (bi : BootInfo) :
    calculateUtCaps bi.untypedList pageBits4K =
      (bi.untypedList.zipIdx.map fun z => utCaps z.1).sum := by
  have hfst := congrArg (List.map utCaps) (List.zipIdx_map_fst 0 bi.untypedList)
  rw [List.map_map] at hfst
  exact congrArg List.sum hfst.symm

/-- The pages that are left, and those that are stolen, are those that were counted. -/
theorem totalCaps_left (h : Stolen bi memory x y) :
    totalCaps (bi.availLeft memory x.2 y.2) bi.untypedList.zipIdx +
        (2 ^ (bi.structureBits memory - pageBits4K) + dmaReservationNumPages) =
      calculateUtCaps bi.untypedList pageBits4K := by
  have htaken : (bi.untypedList.zipIdx.map fun z => bi.takenPages memory x.2 y.2 z.2).sum =
      2 ^ (bi.structureBits memory - pageBits4K) + dmaReservationNumPages := by
    unfold BootInfo.takenPages
    rw [List.sum_map_add, sum_single h.x_mem, sum_single h.y_mem]
  rw [calculateUtCaps_eq, ← htaken, totalCaps, ← List.sum_map_add]
  refine congrArg List.sum (List.map_congr_left ?_)
  intro z hz
  exact capsOf_left h hz

/-! ## The count -/

theorem dmaReservation_pages :
    2 ^ (dmaReservationSizeBits - pageBits4K) = dmaReservationNumPages := by
  unfold dmaReservationNumPages
  decide

/-- What is used and what is stolen is one more than what was counted, and the node blocks. -/
theorem slotsUsed_add (h : Stolen bi memory x y) :
    bi.slotsUsed memory x.2 y.2 + 2 ^ (bi.structureBits memory - pageBits4K) ≤
      bi.nSlots memory + 1 + nBotLvl (bi.lastSlot memory x.2 y.2) (bi.nCnodes memory) := by
  have hleft := totalCaps_left h
  unfold BootInfo.slotsUsed BootInfo.nSlots
  generalize nBotLvl _ _ = nodes
  unfold BootInfo.lastSlot BootInfo.structurePages
  rw [dmaReservation_pages, ← hleft]
  omega

/-- Two pages are stolen for every cnode, and those of the level 1 cnode. -/
theorem two_pages_each (bi : BootInfo) (memory : Nat × Nat) :
    2 * bi.nCnodes memory + 64 < 2 ^ (bi.structureBits memory - pageBits4K) := by
  have hmark : 2 ^ initialTaskCnodeSizeBits + bi.nCnodes memory * 2 ^ cnodeSizeBits <
      2 ^ bi.structureBits memory := by
    refine Nat.lt_of_le_of_lt ?_ (bi.structuresMark_lt memory)
    rw [BootInfo.structuresMark, Nat.add_assoc]
    exact Nat.le_add_right _ _
  have h18 : 2 ^ initialTaskCnodeSizeBits = 64 * 2 ^ pageBits4K := by decide
  have h13 : 2 ^ cnodeSizeBits = 2 * 2 ^ pageBits4K := by decide
  rw [← stolen_pages, h18, h13, ← Nat.mul_assoc, ← Nat.add_mul] at hmark
  have hlt := Nat.lt_of_mul_lt_mul_right hmark
  rwa [Nat.add_comm, Nat.mul_comm] at hlt

/-- There is a node block for each cnode at most. -/
theorem nBotLvl_le {first nCnodes : Nat} (h : first / cnodeSlots + 1 ≤ nCnodes) :
    nBotLvl first nCnodes ≤ nCnodes + 1 := by
  rw [nBotLvl, Nat.max_eq_right h]
  exact Nat.succ_le_succ (Nat.div_le_self _ _)

theorem lastSlot_le (h : Stolen bi memory x y) : bi.lastSlot memory x.2 y.2 ≤ bi.nSlots memory := by
  have hadd := slotsUsed_add h
  have hpos : 0 < 2 ^ (bi.structureBits memory - pageBits4K) := Nat.two_pow_pos _
  unfold BootInfo.slotsUsed at hadd
  refine Nat.le_of_not_lt fun hlt => ?_
  omega

/-- Fifty-one cnodes are not needed. -/
theorem slotsUsed_le (h : Stolen bi memory x y) :
    bi.slotsUsed memory x.2 y.2 + 51 * cnodeSlots ≤ bi.nCnodes memory * cnodeSlots := by
  have hadd := slotsUsed_add h
  have hpages := two_pages_each bi memory
  have hlast : bi.lastSlot memory x.2 y.2 / cnodeSlots ≤ bi.nSlots memory / cnodeSlots :=
    Nat.div_le_div_right (lastSlot_le h)
  have hnodes : nBotLvl (bi.lastSlot memory x.2 y.2) (bi.nCnodes memory) ≤
      bi.nCnodes memory + 1 := by
    refine nBotLvl_le (Nat.le_trans (Nat.succ_le_succ hlast) ?_)
    unfold BootInfo.nCnodes
    omega
  have hused : bi.slotsUsed memory x.2 y.2 ≤ bi.nSlots memory := by omega
  have hdiv := Nat.div_add_mod (bi.nSlots memory) cnodeSlots
  have hmod := Nat.mod_lt (bi.nSlots memory) (show 0 < cnodeSlots by decide)
  unfold BootInfo.nCnodes
  generalize bi.nSlots memory / cnodeSlots = full at hdiv ⊢
  unfold cnodeSlots at *
  omega

/-! ## The run -/

/-- What bootstrap needs besides the two untypeds. It says nothing about the slots of the new
cspace. -/
structure BootSupplied (bi : BootInfo) (memory : Nat × Nat) (x y : UntypedDesc × Nat) : Prop where
  empty : 2 ≤ bi.emptyEnd - bi.emptyStart
  start : 1 ≤ bi.emptyStart
  bits : bi.structureBits memory ≤ maxUntypedBits
  cnodes : bi.nCnodes memory ≤ initialTaskCnodeSlots
  pages : nBotLvl (bi.lastSlot memory x.2 y.2) (bi.nCnodes memory) ≤
    ramCaps (bi.availLeft memory x.2 y.2) bi.untypedList.zipIdx

theorem BootSupplied.enough (hs : Stolen bi memory x y) (h : BootSupplied bi memory x y) :
    Enough bi memory x y where
  structures :=
    { empty := h.empty
      start := h.start
      bits := h.bits
      cnodes := h.cnodes
      slots := by
        refine Nat.le_trans ?_ (Nat.le_trans (Nat.le_add_right _ _) (slotsUsed_le hs))
        unfold BootInfo.slotsUsed BootInfo.lastSlot
        omega }
  slots := Nat.le_trans (Nat.le_add_right _ _) (slotsUsed_le hs)
  pages := h.pages

/-- Bootstrap never uses more slots than it made: where it finds the two untypeds the count
is large enough, so slots are never the reason why it fails, and where it returns every slot
up to the first free one lies in a cnode that exists. -/
theorem smosBootstrap_slots (config : KernelConfig) (bi : BootInfo) :
    (∀ memory x y, Stolen bi memory x y →
      bi.slotsUsed memory x.2 y.2 ≤ bi.nCnodes memory * cnodeSlots ∧
      (BootSupplied bi memory x y → ∃ pool m, smosBootstrap config bi .init = .ok pool m)) ∧
    ∀ pool m, smosBootstrap config bi .init = .ok pool m →
      ∃ memory x y, Stolen bi memory x y ∧
        m.nCnodes = bi.nCnodes memory ∧
        m.firstFreeSlot = bi.slotsUsed memory x.2 y.2 ∧
        m.firstFreeSlot ≤ m.nCnodes * cnodeSlots ∧
        (∀ o ∈ m.carving.objects, ∀ c, o.key = .slot c → c < m.firstFreeSlot) ∧
        ∀ c < m.firstFreeSlot, ∃ o ∈ m.carving.objects, o.key = .cnode (c / cnodeSlots) := by
  have hle : ∀ memory x y, Stolen bi memory x y →
      bi.slotsUsed memory x.2 y.2 ≤ bi.nCnodes memory * cnodeSlots :=
    fun _ _ _ hs => Nat.le_trans (Nat.le_add_right _ _) (slotsUsed_le hs)
  constructor
  · intro memory x y hs
    exact ⟨hle memory x y hs, fun h => smosBootstrap_returns config hs (h.enough hs)⟩
  · intro pool m hrun
    obtain ⟨memory, x, y, hs⟩ := stolen_of_ok hrun
    obtain ⟨⟨ranges, hr⟩, hfilled⟩ := hs.result hrun
    have hslots : m.firstFreeSlot ≤ m.nCnodes * cnodeSlots := by
      rw [hfilled.first, hfilled.nCnodes]
      exact hle memory x y hs
    refine ⟨memory, x, y, hs, hfilled.nCnodes, hfilled.first, hslots, hr.tidy.fresh, ?_⟩
    intro c hc
    refine hfilled.cnodes _ ?_
    rw [← hfilled.nCnodes]
    exact (Nat.div_lt_iff_lt_mul (by decide)).mpr (Nat.lt_of_lt_of_le hc hslots)

/-- RAM in three untypeds, and a device. -/
theorem smosBootstrap_slots_exact : ∃ pool m,
    smosBootstrap demoConfig exactBoot .init = .ok pool m ∧
      m.firstFreeSlot ≤ m.nCnodes * cnodeSlots := by
  obtain ⟨pool, m, hrun⟩ := exactBoot_returns
  obtain ⟨_, _, _, _, _, _, hle, _⟩ := (smosBootstrap_slots demoConfig exactBoot).2 pool m hrun
  exact ⟨pool, m, hrun, hle⟩

end Smos.RootServer
