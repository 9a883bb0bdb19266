/-
Smos.RootServer.BootPlan — what bootstrap takes off which untyped.

The structures come from the first untyped with `2 ^ structureBits` bytes,
the DMA pool from the first that then has 64 MB left. `taken` is the account
of bootstrap when it fills the table, `placed` the kernel's: they differ in
the untyped of the structures, where the mark is at `structuresMark`, less
than the stolen bytes. The account is right about how many bytes are left
(`avail_taken`), so everything that is retyped later fits.
-/
import Smos.RootServer.BootTable

namespace Smos.RootServer

open Smos.Base

/-! ## The sizes of the structures -/

namespace BootInfo

variable (bi : BootInfo) (memory : Nat × Nat)

/-- The pages that are placed behind the cnodes. -/
def structurePages : Nat :=
  1 + 1 + nPts (utPagesForRegion memory) + utPagesForRegion memory

/-- Where the kernel's mark is left when the structures are placed. -/
def structuresMark : Nat :=
  2 ^ initialTaskCnodeSizeBits + bi.nCnodes memory * 2 ^ cnodeSizeBits
    + structurePages memory * 2 ^ pageBits4K

theorem structureSize_eq : bi.structureSize memory =
    bi.structuresMark memory + nDmaPts * 2 ^ pageBits4K := by
  unfold structureSize structuresMark structurePages pageSize4K pageBits4K
  omega

theorem structureSize_lt : bi.structureSize memory < 2 ^ bi.structureBits memory :=
  Nat.lt_log2_self

/-- The stolen bytes are more than those the kernel gives away. -/
theorem structuresMark_lt : bi.structuresMark memory + nDmaPts * 2 ^ pageBits4K <
    2 ^ bi.structureBits memory := by
  rw [← structureSize_eq]
  exact bi.structureSize_lt memory

theorem cnode_le_mark : 2 ^ initialTaskCnodeSizeBits ≤ bi.structuresMark memory := by
  rw [structuresMark, Nat.add_assoc]
  exact Nat.le_add_right _ _

theorem le_structureBits : initialTaskCnodeSizeBits ≤ bi.structureBits memory := by
  have hlt := bi.structuresMark_lt memory
  have hle := bi.cnode_le_mark memory
  refine Nat.le_of_lt ((Nat.pow_lt_pow_iff_right (by decide : 1 < 2)).mp ?_)
  omega

theorem page_dvd_stolen : 2 ^ pageBits4K ∣ 2 ^ bi.structureBits memory :=
  Nat.pow_dvd_pow 2 (Nat.le_trans (by decide) (bi.le_structureBits memory))

theorem page_dvd_mark : 2 ^ pageBits4K ∣ bi.structuresMark memory := by
  have h18 : 2 ^ pageBits4K ∣ 2 ^ initialTaskCnodeSizeBits := by decide
  have h13 : 2 ^ pageBits4K ∣ 2 ^ cnodeSizeBits := by decide
  exact Nat.dvd_add (Nat.dvd_add h18 (Nat.dvd_mul_left_of_dvd h13 _)) (Nat.dvd_mul_left _ _)

end BootInfo

/-! ## What is stolen -/

theorem findMemoryBounds_covers {untypedList : List UntypedDesc} {memory : Nat × Nat}
    (h : findMemoryBounds untypedList = some memory) {u : UntypedDesc} (hu : u ∈ untypedList)
    (hin : untypedInRange u = true) :
    memory.1 ≤ u.paddr ∧ u.paddr + 2 ^ u.sizeBits ≤ memory.2 := by
  have hfold : ∀ (us : List UntypedDesc) (start : Nat × Nat),
      let result := us.foldl (fun memory untyped =>
        (min memory.1 untyped.paddr, max memory.2 (untyped.paddr + 2 ^ untyped.sizeBits))) start
      (result.1 ≤ start.1 ∧ start.2 ≤ result.2) ∧
        ∀ u ∈ us, result.1 ≤ u.paddr ∧ u.paddr + 2 ^ u.sizeBits ≤ result.2 := by
    intro us
    induction us with
    | nil => exact fun start => ⟨⟨Nat.le_refl _, Nat.le_refl _⟩, fun u hu => by cases hu⟩
    | cons v us ih =>
      intro start
      obtain ⟨⟨hlo, hhi⟩, hall⟩ := ih
        (min start.1 v.paddr, max start.2 (v.paddr + 2 ^ v.sizeBits))
      refine ⟨⟨?_, ?_⟩, fun u hu => ?_⟩
      · exact Nat.le_trans hlo (Nat.min_le_left _ _)
      · exact Nat.le_trans (Nat.le_max_left _ _) hhi
      · obtain rfl | hu := List.mem_cons.mp hu
        · exact ⟨Nat.le_trans hlo (Nat.min_le_right _ _),
            Nat.le_trans (Nat.le_max_right _ _) hhi⟩
        · exact hall u hu
  unfold findMemoryBounds at h
  dsimp only at h
  split at h
  · cases h
    exact (hfold _ _).2 u (List.mem_filter.mpr ⟨hu, hin⟩)
  · cases h

namespace BootInfo

/-- `bootinfo_avail_bytes` when the structures are stolen. -/
def availAfter (bi : BootInfo) (memory : Nat × Nat) (i : Nat) : Nat → Nat :=
  Function.update (initialAvailBytes bi.untypedList) i
    (initialAvailBytes bi.untypedList i - 2 ^ bi.structureBits memory)

/-- `bootinfo_avail_bytes` when the DMA pool is stolen, too. -/
def availLeft (bi : BootInfo) (memory : Nat × Nat) (i d : Nat) : Nat → Nat :=
  Function.update (bi.availAfter memory i) d
    (bi.availAfter memory i d - 2 ^ dmaReservationSizeBits)

end BootInfo

/-- The untypeds that are stolen from. -/
structure Stolen (bi : BootInfo) (memory : Nat × Nat) (x y : UntypedDesc × Nat) : Prop where
  bounds : findMemoryBounds bi.untypedList = some memory
  structures : findUntyped bi (initialAvailBytes bi.untypedList) (bi.structureBits memory) = some x
  dma : findUntyped bi (bi.availAfter memory x.2) dmaReservationSizeBits = some y

variable {config : KernelConfig} {bi : BootInfo} {memory : Nat × Nat} {x y z : UntypedDesc × Nat}

theorem findUntyped_some {avail : Nat → Nat} {bits : Nat}
    (h : findUntyped bi avail bits = some x) :
    x ∈ bi.untypedList.zipIdx ∧ untypedInRange x.1 = true ∧ 2 ^ bits ≤ avail x.2 := by
  have hp := List.find?_some h
  simp only [Bool.and_eq_true, decide_eq_true_eq] at hp
  exact ⟨List.mem_of_find?_eq_some h, hp⟩

theorem initialAvailBytes_eq (hx : x ∈ bi.untypedList.zipIdx) :
    initialAvailBytes bi.untypedList x.2 =
      if untypedInRange x.1 && !x.1.isDevice then 2 ^ x.1.sizeBits else 0 := by
  rw [initialAvailBytes, BootInfo.mem_zipIdx.mp hx]

theorem ram_of_avail (hx : x ∈ bi.untypedList.zipIdx)
    (hpos : 0 < initialAvailBytes bi.untypedList x.2) : x.1.isDevice = false := by
  rw [initialAvailBytes_eq hx] at hpos
  cases hdev : x.1.isDevice with
  | false => rfl
  | true => simp [hdev] at hpos

theorem structures_ram
    (hx : findUntyped bi (initialAvailBytes bi.untypedList) (bi.structureBits memory) = some x) :
    x.1.isDevice = false := by
  obtain ⟨hmem, -, hle⟩ := findUntyped_some hx
  exact ram_of_avail hmem (Nat.lt_of_lt_of_le (Nat.two_pow_pos _) hle)

theorem structures_size
    (hx : findUntyped bi (initialAvailBytes bi.untypedList) (bi.structureBits memory) = some x) :
    2 ^ bi.structureBits memory ≤ 2 ^ x.1.sizeBits := by
  obtain ⟨hmem, hin, hle⟩ := findUntyped_some hx
  rwa [initialAvailBytes_eq hmem, hin, structures_ram hx] at hle

namespace Stolen

variable (h : Stolen bi memory x y)

include h

theorem x_mem : x ∈ bi.untypedList.zipIdx := (findUntyped_some h.structures).1

theorem y_mem : y ∈ bi.untypedList.zipIdx := (findUntyped_some h.dma).1

theorem x_ram : x.1.isDevice = false := structures_ram h.structures

theorem y_ram : y.1.isDevice = false := by
  have hle := (findUntyped_some h.dma).2.2
  refine ram_of_avail h.y_mem (Nat.lt_of_lt_of_le (Nat.two_pow_pos _) (Nat.le_trans hle ?_))
  unfold BootInfo.availAfter
  by_cases hxy : y.2 = x.2
  · rw [hxy, Function.update_self]
    exact Nat.sub_le _ _
  · rw [Function.update_of_ne hxy]

end Stolen

/-- What bootstrap takes to be used of an untyped when it fills the table. -/
def BootInfo.taken (bi : BootInfo) (memory : Nat × Nat) (i d j : Nat) : Nat :=
  (if j = i then 2 ^ bi.structureBits memory else 0) +
    if j = d then 2 ^ dmaReservationSizeBits else 0

/-- What the kernel has placed in it. -/
def BootInfo.placed (bi : BootInfo) (memory : Nat × Nat) (i d j : Nat) : Nat :=
  (if j = i then bi.structuresMark memory else 0) +
    if j = d then 2 ^ dmaReservationSizeBits else 0

namespace Stolen

variable (h : Stolen bi memory x y)

include h

/-- The account is right about the number of bytes. -/
theorem avail_taken (hz : z ∈ bi.untypedList.zipIdx) (hin : untypedInRange z.1 = true)
    (hram : z.1.isDevice = false) :
    bi.availLeft memory x.2 y.2 z.2 + bi.taken memory x.2 y.2 z.2 = 2 ^ z.1.sizeBits := by
  have hx := (findUntyped_some h.structures).2.2
  have hy := (findUntyped_some h.dma).2.2
  have hz₀ : initialAvailBytes bi.untypedList z.2 = 2 ^ z.1.sizeBits := by
    rw [initialAvailBytes_eq hz, hin, hram]
    rfl
  have hafter : bi.availAfter memory x.2 z.2 =
      2 ^ z.1.sizeBits - if z.2 = x.2 then 2 ^ bi.structureBits memory else 0 := by
    unfold BootInfo.availAfter
    by_cases hzx : z.2 = x.2
    · rw [← hzx, Function.update_self, if_pos rfl, hz₀]
    · rw [Function.update_of_ne hzx, if_neg hzx, hz₀, Nat.sub_zero]
  have hleft : bi.availLeft memory x.2 y.2 z.2 = bi.availAfter memory x.2 z.2 -
      if z.2 = y.2 then 2 ^ dmaReservationSizeBits else 0 := by
    unfold BootInfo.availLeft
    by_cases hzy : z.2 = y.2
    · rw [← hzy, Function.update_self, if_pos rfl]
    · rw [Function.update_of_ne hzy, if_neg hzy, Nat.sub_zero]
  have hxle : (if z.2 = x.2 then 2 ^ bi.structureBits memory else 0) ≤ 2 ^ z.1.sizeBits := by
    split
    · rename_i hzx
      rw [← hz₀, hzx]
      exact hx
    · exact Nat.zero_le _
  have hyle : (if z.2 = y.2 then 2 ^ dmaReservationSizeBits else 0) ≤
      bi.availAfter memory x.2 z.2 := by
    split
    · rename_i hzy
      rw [hzy]
      exact hy
    · exact Nat.zero_le _
  unfold BootInfo.taken
  omega

/-- Only RAM is stolen. -/
theorem taken_device (hz : z ∈ bi.untypedList.zipIdx) (hdev : z.1.isDevice = true) :
    z.2 ≠ x.2 ∧ z.2 ≠ y.2 := by
  constructor
  · intro heq
    rw [BootInfo.eq_of_snd hz h.x_mem heq, h.x_ram] at hdev
    cases hdev
  · intro heq
    rw [BootInfo.eq_of_snd hz h.y_mem heq, h.y_ram] at hdev
    cases hdev

omit h in
theorem page_dvd_taken (i d j : Nat) : 2 ^ pageBits4K ∣ bi.taken memory i d j := by
  refine Nat.dvd_add ?_ ?_
  · split
    · exact bi.page_dvd_stolen memory
    · exact Nat.dvd_zero _
  · split
    · decide
    · exact Nat.dvd_zero _

omit h in
theorem page_dvd_placed (i d j : Nat) : 2 ^ pageBits4K ∣ bi.placed memory i d j := by
  refine Nat.dvd_add ?_ ?_
  · split
    · exact bi.page_dvd_mark memory
    · exact Nat.dvd_zero _
  · split
    · decide
    · exact Nat.dvd_zero _

omit h in
theorem placed_le_taken (i d j : Nat) : bi.placed memory i d j ≤ bi.taken memory i d j := by
  have hlt := bi.structuresMark_lt memory
  refine Nat.add_le_add_right ?_ _
  split
  · omega
  · exact Nat.le_refl _

/-- The address that is recorded for what is left of an untyped. -/
theorem paddr_eq (hz : z ∈ bi.untypedList.zipIdx) (hin : untypedInRange z.1 = true) :
    paddrFromAvailBytes z.1 (bi.availLeft memory x.2 y.2 z.2) pageBits4K =
      z.1.paddr + bi.taken memory x.2 y.2 z.2 := by
  unfold paddrFromAvailBytes
  cases hdev : z.1.isDevice with
  | true =>
    obtain ⟨hzx, hzy⟩ := h.taken_device hz hdev
    simp [BootInfo.taken, hzx, hzy, roundUpBits]
  | false =>
    have hsum := h.avail_taken hz hin hdev
    have htaken : 2 ^ z.1.sizeBits - bi.availLeft memory x.2 y.2 z.2 =
        bi.taken memory x.2 y.2 z.2 := by omega
    simp only [Bool.false_eq_true, if_false]
    rw [htaken, roundUpBits_eq, alignUp_of_dvd (page_dvd_taken ..)]

/-- What is taken and what is left fits into the untyped. -/
theorem taken_caps_le (hz : z ∈ bi.untypedList.zipIdx) (hin : untypedInRange z.1 = true) :
    bi.taken memory x.2 y.2 z.2 +
      capsOf (bi.availLeft memory x.2 y.2) z * 2 ^ pageBits4K ≤ 2 ^ z.1.sizeBits := by
  rw [capsOf, if_pos hin, nCaps]
  cases hdev : z.1.isDevice with
  | true =>
    obtain ⟨hzx, hzy⟩ := h.taken_device hz hdev
    simp only [BootInfo.taken, if_neg hzx, if_neg hzy, if_true, Nat.zero_add]
    exact Nat.div_mul_le_self _ _
  | false =>
    have hsum := h.avail_taken hz hin hdev
    have hdiv := Nat.div_mul_le_self (bi.availLeft memory x.2 y.2 z.2) (2 ^ pageBits4K)
    simp only [Bool.false_eq_true, if_false]
    show _ + _ / 2 ^ pageBits4K * 2 ^ pageBits4K ≤ _
    omega

end Stolen

end Smos.RootServer
