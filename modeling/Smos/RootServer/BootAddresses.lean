/-
Smos.RootServer.BootAddresses — are the physical addresses of bootstrap true?

Bootstrap steals `2 ^ structureBits` bytes for its structures and accounts
for all of them, but it retypes the boot untyped itself and leaves the
kernel's mark at `structuresMark`, below that. What is placed in this untyped
afterwards begins at the mark, and is recorded where the stolen bytes end.
So the addresses are true exactly when nothing more is placed there: the
first untyped with enough bytes has no more than is stolen. The untyped
table counts pages from the lowest untyped, which has to begin on one.

`Divided` is the memory when the DMA pool is made, `BootResult` the end of a
bootstrap that returns.
-/
import Mathlib.Data.List.Find
import Smos.RootServer.BootRun

namespace Smos.RootServer

open Smos.Base

variable {config : KernelConfig} {bi : BootInfo} {memory : Nat × Nat} {x y : UntypedDesc × Nat}
  {ranges : List UntypedRange} {pool : DmaPool} {m : BootMem}

/-! ## Addresses -/

/-- `ut_to_paddr`. -/
def UTTable.utToPaddr (t : UTTable) (index : Nat) : Nat := index * pageSize4K + t.firstPaddr

/-- Where the kernel placed the object of a slot. -/
def BootMem.addrOf (bi : BootInfo) (m : BootMem) (c : Slot) : Option Nat :=
  (m.carving.objects.find? fun o => o.key = .slot c).map fun o => bi.paddrOf o.region + o.offset

/-- The physical addresses that bootstrap leaves are those of the memory. -/
structure AddressesTrue (bi : BootInfo) (pool : DmaPool) (m : BootMem) : Prop where
  apart : Apart (Carving.addrs bi.paddrOf) m.carving.objects
  dma : ∀ i c, pool.pages[i]? = some c →
    m.addrOf bi c = some (pool.pstart + i * pageSize4K)
  contiguous : ∀ offset nPages i c, ((pool.pages.drop offset).take nPages)[i]? = some c →
    m.addrOf bi c = some (pool.allocationPaddr offset + i * pageSize4K)
  table : ∀ index entry, m.ut.untypeds[index]? = some entry → entry.valid = true →
    m.addrOf bi entry.cap = some (m.ut.utToPaddr index)

/-- What the kernel promises of its untypeds. -/
structure BootInfo.Valid (bi : BootInfo) : Prop where
  aligned : ∀ u ∈ bi.untypedList, 2 ^ u.sizeBits ∣ u.paddr
  apart : Apart (fun u => span u.paddr (2 ^ u.sizeBits)) bi.untypedList

/-- The memory begins on a page, and the first RAM untyped with room for the structures
has no more than the bytes that are stolen. -/
def BootInfo.Exact (bi : BootInfo) : Prop :=
  ∃ memory u, findMemoryBounds bi.untypedList = some memory ∧ pageSize4K ∣ memory.1 ∧
    bi.untypedList.find? (fun u => untypedInRange u && !u.isDevice &&
      decide (bi.structureBits memory ≤ u.sizeBits)) = some u ∧
    u.sizeBits = bi.structureBits memory

theorem BootMem.Tidy.addrOf {bi : BootInfo} {m : BootMem} (h : m.Tidy bi) {c : Slot}
    {i offset bits : Nat} (ho : ⟨.slot c, i, offset, bits⟩ ∈ m.carving.objects) :
    m.addrOf bi c = some (bi.paddrOf i + offset) := by
  unfold BootMem.addrOf
  cases hf : m.carving.objects.find? fun o => o.key = .slot c with
  | none =>
    have hno := List.find?_eq_none.mp hf _ ho
    simp at hno
  | some o =>
    have hkey : o.key = .slot c := by simpa using List.find?_some hf
    have heq : o = ⟨.slot c, i, offset, bits⟩ :=
      List.inj_on_of_nodup_map h.keys (List.mem_of_find?_eq_some hf) ho hkey
    rw [heq]
    rfl

theorem BootInfo.Valid.disjoint {bi : BootInfo} (h : bi.Valid) {i j : Nat} {u v : UntypedDesc}
    (hi : bi.untypedList[i]? = some u) (hj : bi.untypedList[j]? = some v) (hne : i ≠ j) :
    Disjoint (span u.paddr (2 ^ u.sizeBits)) (span v.paddr (2 ^ v.sizeBits)) := by
  obtain ⟨hi', rfl⟩ := List.getElem?_eq_some_iff.mp hi
  obtain ⟨hj', rfl⟩ := List.getElem?_eq_some_iff.mp hj
  have hpair := List.pairwise_iff_getElem.mp h.apart
  obtain hlt | hlt := Nat.lt_or_gt_of_ne hne
  · exact hpair i j hi' hj' hlt
  · exact (hpair j i hj' hi' hlt).symm

/-! ## What a bootstrap that returns has found -/

theorem bootStructures_fails
    (h : findMemoryBounds bi.untypedList = none ∨ ∃ memory,
      findMemoryBounds bi.untypedList = some memory ∧
        findUntyped bi (initialAvailBytes bi.untypedList) (bi.structureBits memory) = none) :
    (bootStructures config bi).wp (fun _ _ => False) (fun _ _ => True) (fun _ => True) .init := by
  unfold bootStructures
  rw [Prog.wp_bind, wp_subU]
  refine ⟨fun hle => ?_, fun _ => trivial⟩
  rw [Prog.wp_bind, Prog.wp_assert]
  refine ⟨fun _ => ?_, fun _ => trivial⟩
  rw [Prog.wp_bind, wp_subU]
  refine ⟨fun _ => ?_, fun _ => trivial⟩
  rw [Prog.wp_bind, Prog.wp_unwrap]
  refine ⟨fun memory hmem => ?_, fun _ => trivial⟩
  obtain hnone | ⟨memory', hmem', hnone⟩ := h
  · rw [hnone] at hmem
    cases hmem
  · rw [hmem'] at hmem
    cases hmem
    rw [Prog.wp_bind, Prog.wp_modify, Prog.wp_bind]
    refine Prog.wp_mono (stealUntyped_spec _ _) ?_ (fun _ _ _ => trivial) (fun _ _ => trivial)
    intro r m hr
    rw [show findUntyped bi _ _ = none from hnone] at hr
    obtain ⟨rfl, -⟩ := hr
    rw [Prog.wp_bind, Prog.wp_unwrap]
    exact ⟨fun r hr => (by cases hr), fun _ => trivial⟩

/-- Bootstrap returns only where it finds both untypeds. -/
theorem stolen_of_ok (h : smosBootstrap config bi .init = .ok pool m) :
    ∃ memory x y, Stolen bi memory x y := by
  have hfails : ∀ hno : (findMemoryBounds bi.untypedList = none ∨ ∃ memory,
      findMemoryBounds bi.untypedList = some memory ∧
        findUntyped bi (initialAvailBytes bi.untypedList) (bi.structureBits memory) = none),
      False := by
    intro hno
    have hwp : (smosBootstrap config bi).wp (fun _ _ => False) (fun _ _ => True)
        (fun _ => True) .init := by
      unfold smosBootstrap
      rw [Prog.wp_bind]
      exact Prog.wp_mono (bootStructures_fails hno) (fun _ _ h => h.elim) (fun _ _ h => h)
        (fun _ h => h)
    exact Prog.wp_ok hwp h
  cases hb : findMemoryBounds bi.untypedList with
  | none => exact (hfails (.inl hb)).elim
  | some memory =>
    cases hx : findUntyped bi (initialAvailBytes bi.untypedList) (bi.structureBits memory) with
    | none => exact (hfails (.inr ⟨memory, hb, hx⟩)).elim
    | some x =>
      cases hy : findUntyped bi (bi.availAfter memory x.2) dmaReservationSizeBits with
      | some y => exact ⟨memory, x, y, hb, hx, hy⟩
      | none =>
        have hwp : (smosBootstrap config bi).wp (fun _ _ => False) (fun _ _ => True)
            (fun _ => True) .init := by
          unfold smosBootstrap
          rw [Prog.wp_bind]
          refine Prog.wp_mono (bootStructures_spec hb hx) ?_ (fun _ _ _ => trivial)
            (fun _ _ => trivial)
          rintro r m ⟨rfl, -, rfl⟩
          rw [Prog.wp_bind]
          refine Prog.wp_mono (stealUntyped_spec _ _) ?_ (fun _ _ _ => trivial)
            (fun _ _ => trivial)
          intro r m hr
          rw [structured_avail, hy] at hr
          obtain ⟨rfl, -⟩ := hr
          rw [Prog.wp_bind, Prog.wp_okOr]
          exact ⟨fun r hr => (by cases hr), fun _ => trivial⟩
        exact (Prog.wp_ok hwp h).elim

theorem Stolen.result (hs : Stolen bi memory x y)
    (h : smosBootstrap config bi .init = .ok pool m) :
    (∃ ranges, BootResult bi memory x y ranges pool m) ∧ SlotsFilled bi memory x y m := by
  have hend := Prog.wp_ok (smosBootstrap_spec hs) h
  exact hend

theorem bootResult_of_ok (h : smosBootstrap config bi .init = .ok pool m) :
    ∃ memory x y ranges, BootResult bi memory x y ranges pool m := by
  obtain ⟨memory, x, y, hs⟩ := stolen_of_ok h
  obtain ⟨⟨ranges, hr⟩, -⟩ := hs.result h
  exact ⟨memory, x, y, ranges, hr⟩

/-! ## The recorded pages -/

/-- A page of the table: where it is recorded, and where its memory is. -/
structure PageOf (bi : BootInfo) (memory : Nat × Nat) (x y : UntypedDesc × Nat) (m : BootMem)
    (page : UntypedPage) (z : UntypedDesc × Nat) (k : Nat) : Prop where
  mem : z ∈ bi.untypedList.zipIdx
  inRange : untypedInRange z.1 = true
  caps : k < capsOf (bi.availLeft memory x.2 y.2) z
  paddr : page.paddr = z.1.paddr + bi.taken memory x.2 y.2 z.2 + k * pageSize4K
  addr : m.addrOf bi page.cap =
    some (z.1.paddr + (bi.placed memory x.2 y.2 z.2 + k * 2 ^ pageBits4K))

theorem inRange_of_caps {avail : Nat → Nat} {z : UntypedDesc × Nat} (h : 0 < capsOf avail z) :
    untypedInRange z.1 = true := by
  by_contra hin
  rw [capsOf, if_neg hin] at h
  exact absurd h (Nat.lt_irrefl 0)

namespace BootResult

variable (hr : BootResult bi memory x y ranges pool m)

include hr

theorem pageOf {page : UntypedPage} (hpage : page ∈ UTTable.pages ranges) :
    ∃ z k, PageOf bi memory x y m page z k := by
  obtain ⟨range, hrange, hp⟩ := List.mem_flatMap.mp hpage
  obtain ⟨k, hk, rfl⟩ := List.mem_map.mp hp
  obtain ⟨z, hz, hrec⟩ := hr.recorded range hrange
  have hlt := List.mem_range.mp hk
  have hcaps : k < capsOf (bi.availLeft memory x.2 y.2) z := by
    rw [← divided_avail, ← hrec.nPages]
    exact hlt
  have hin := inRange_of_caps (Nat.zero_lt_of_lt hcaps)
  refine ⟨z, k, hz, hin, hcaps, ?_, ?_⟩
  · show range.paddr + _ = _
    rw [hrec.paddr, divided_avail, hr.stolen.paddr_eq hz hin]
  · have haddr := hr.tidy.addrOf (hrec.objects k hlt)
    rw [divided_used, bi.paddrOf_eq hz] at haddr
    exact haddr

end BootResult

namespace PageOf

variable {page : UntypedPage} {z : UntypedDesc × Nat} {k : Nat}
  (h : PageOf bi memory x y m page z k) (hs : Stolen bi memory x y)

include h hs

/-- The page lies in its untyped, as bootstrap sees it. -/
theorem fits : bi.taken memory x.2 y.2 z.2 + k * pageSize4K + pageSize4K ≤ 2 ^ z.1.sizeBits := by
  have hle := hs.taken_caps_le h.mem h.inRange
  have hmul : (k + 1) * 2 ^ pageBits4K ≤ capsOf (bi.availLeft memory x.2 y.2) z * 2 ^ pageBits4K :=
    Nat.mul_le_mul_right _ h.caps
  unfold pageSize4K pageBits4K at *
  omega

/-- An untyped with a page in it begins on one. -/
theorem base_dvd (hv : bi.Valid) : 2 ^ pageBits4K ∣ z.1.paddr := by
  have hfits := h.fits hs
  have hbits : pageBits4K ≤ z.1.sizeBits := by
    refine (Nat.pow_le_pow_iff_right (by decide : 1 < 2)).mp ?_
    exact Nat.le_trans (Nat.le_add_left _ _) hfits
  exact Nat.dvd_trans (Nat.pow_dvd_pow 2 hbits)
    (hv.aligned z.1 (List.mem_of_getElem? (BootInfo.mem_zipIdx.mp h.mem)))

theorem paddr_dvd (hv : bi.Valid) : 2 ^ pageBits4K ∣ page.paddr := by
  rw [h.paddr]
  exact Nat.dvd_add (Nat.dvd_add (h.base_dvd hs hv) (Stolen.page_dvd_taken ..))
    (Nat.dvd_mul_left _ _)

end PageOf

/-! ## The two accounts -/

/-- The untyped of the structures is the one that the condition is about. -/
theorem Stolen.exact_iff (h : Stolen bi memory x y) :
    bi.Exact ↔ pageSize4K ∣ memory.1 ∧ x.1.sizeBits = bi.structureBits memory := by
  have hcongr : bi.untypedList.zipIdx.find? (fun z => untypedInRange z.1 && !z.1.isDevice &&
      decide (bi.structureBits memory ≤ z.1.sizeBits)) = some x := by
    refine Eq.trans (List.find?_congr fun z hz => ?_) h.structures
    rw [initialAvailBytes_eq hz]
    cases untypedInRange z.1 with
    | false => simp
    | true =>
      cases hdev : z.1.isDevice with
      | true => simp
      | false => simp [Nat.pow_le_pow_iff_right]
  have hfind : bi.untypedList.find? (fun u => untypedInRange u && !u.isDevice &&
      decide (bi.structureBits memory ≤ u.sizeBits)) = some x.1 := by
    have hmap := List.find?_map (f := Prod.fst) (l := bi.untypedList.zipIdx)
      (p := fun u => untypedInRange u && !u.isDevice &&
        decide (bi.structureBits memory ≤ u.sizeBits))
    rw [List.zipIdx_map_fst] at hmap
    rw [hmap]
    exact congrArg (Option.map Prod.fst) hcongr
  constructor
  · rintro ⟨memory', u, hb, hdvd, hu, hsize⟩
    rw [h.bounds] at hb
    cases hb
    rw [hfind] at hu
    cases hu
    exact ⟨hdvd, hsize⟩
  · rintro ⟨hdvd, hsize⟩
    exact ⟨memory, x.1, h.bounds, hdvd, hfind, hsize⟩

namespace BootResult

variable (hr : BootResult bi memory x y ranges pool m)

include hr

theorem apart (hv : bi.Valid) : Apart (Carving.addrs bi.paddrOf) m.carving.objects := by
  refine hr.tidy.sound.apart fun o ho o' ho' hne => ?_
  have hget : ∀ {o : Carved BootCap}, o ∈ m.carving.objects →
      ∃ u, bi.untypedList[o.region]? = some u ∧ bi.paddrOf o.region = u.paddr ∧
        bi.sizeOf o.region = u.sizeBits := by
    intro o ho
    have hlt := hr.tidy.regions o ho
    refine ⟨bi.untypedList[o.region], List.getElem?_eq_getElem hlt, ?_, ?_⟩
    · rw [BootInfo.paddrOf, List.getElem?_eq_getElem hlt]
      rfl
    · rw [BootInfo.sizeOf, List.getElem?_eq_getElem hlt]
      rfl
  obtain ⟨u, hu, hup, hus⟩ := hget ho
  obtain ⟨u', hu', hup', hus'⟩ := hget ho'
  rw [hup, hus, hup', hus']
  exact hv.disjoint hu hu' hne

/-- The address of a page of the DMA pool. -/
theorem dma_addr {i : Nat} {c : Slot} (hc : pool.pages[i]? = some c) :
    m.addrOf bi c = some (y.1.paddr +
      ((structured bi memory x.2).carving.used y.2 + i * pageSize4K)) := by
  rw [hr.pages, List.getElem?_map] at hc
  obtain ⟨k, hk, rfl⟩ := Option.map_eq_some_iff.mp hc
  obtain ⟨hlt, hki⟩ := List.getElem?_eq_some_iff.mp hk
  rw [List.length_range] at hlt
  rw [List.getElem_range] at hki
  subst hki
  have haddr := hr.tidy.addrOf (hr.dma i hlt)
  rwa [bi.paddrOf_eq hr.stolen.y_mem] at haddr

/-- The address that bootstrap takes the pool to have. -/
theorem pstart_eq : pool.pstart = y.1.paddr +
    alignUp (if y.2 = x.2 then 2 ^ bi.structureBits memory else 0) dmaReservationSizeBits := by
  have hs := hr.stolen
  have hin := (findUntyped_some hs.dma).2.1
  have hsum := hs.avail_taken hs.y_mem hin hs.y_ram
  have hle := (findUntyped_some hs.dma).2.2
  have hleft : bi.availLeft memory x.2 y.2 y.2 =
      bi.availAfter memory x.2 y.2 - 2 ^ dmaReservationSizeBits := Function.update_self ..
  unfold BootInfo.taken at hsum
  rw [if_pos (rfl : y.2 = y.2)] at hsum
  have htaken : 2 ^ y.1.sizeBits - bi.availAfter memory x.2 y.2 =
      if y.2 = x.2 then 2 ^ bi.structureBits memory else 0 := by omega
  rw [hr.pstart, paddrFromAvailBytes, hs.y_ram]
  simp only [Bool.false_eq_true, if_false]
  rw [htaken, roundUpBits_eq]

theorem entry_page {index : Nat} {entry : UTEntry} (hentry : m.ut.untypeds[index]? = some entry)
    (hvalid : entry.valid = true) : ∃ page ∈ UTTable.pages ranges, memory.1 ≤ page.paddr ∧
      (page.paddr - memory.1) / pageSize4K = index ∧ entry.cap = page.cap := by
  obtain ⟨t, hboots, hut, hfirst, -⟩ := hr.boots
  rw [hut] at hentry
  obtain ⟨page, hpage, hle, hindex, hcap⟩ := hboots.entry hentry hvalid
  rw [UTTable.pageOf, hfirst] at hindex
  rw [hfirst] at hle
  exact ⟨page, hpage, hle, hindex, hcap⟩

theorem page_entry {page : UntypedPage} (hpage : page ∈ UTTable.pages ranges) :
    memory.1 ≤ page.paddr ∧ ∃ entry,
      m.ut.untypeds[(page.paddr - memory.1) / pageSize4K]? = some entry ∧ entry.valid = true := by
  obtain ⟨t, hboots, hut, hfirst, -⟩ := hr.boots
  have hdesc := hboots.describes
  have hle := hdesc.above page hpage
  have hreg : t.Registered (UTTable.pages ranges) page.device (t.pageOf page.paddr) :=
    ⟨page, hpage, rfl, hle, rfl⟩
  have hlt := hdesc.inTable _ _ hreg
  obtain ⟨entry, hget⟩ : ∃ entry, t.untypeds[t.pageOf page.paddr]? = some entry :=
    ⟨_, List.getElem?_eq_getElem hlt⟩
  have hvalid := (hdesc.valid _ _ hget).mpr ⟨_, hreg⟩
  rw [← hut, UTTable.pageOf, hfirst] at hget
  rw [hfirst] at hle
  exact ⟨hle, entry, hget, hvalid⟩

/-- Some page is recorded: the node blocks take one. -/
theorem exists_page : ∃ page, page ∈ UTTable.pages ranges := by
  obtain ⟨t, hboots, -, -, hfree⟩ := hr.boots
  have hstock := hboots.stocked.pages
  cases hram : UTTable.ram (UTTable.pages ranges) with
  | nil =>
    rw [hram] at hstock
    exact absurd hstock hfree
  | cons page ps =>
    refine ⟨page, List.mem_of_mem_filter (p := fun page => !page.device) ?_⟩
    show page ∈ UTTable.ram _
    rw [hram]
    exact List.mem_cons_self

/-- Nothing else is stolen from the untyped of the structures, if it has no more bytes. -/
theorem apart_of_exact (hsize : x.1.sizeBits = bi.structureBits memory) : y.2 ≠ x.2 := by
  have hs := hr.stolen
  have hx : initialAvailBytes bi.untypedList x.2 = 2 ^ bi.structureBits memory := by
    rw [initialAvailBytes_eq hs.x_mem, (findUntyped_some hs.structures).2.1, hs.x_ram, hsize]
    simp
  intro heq
  have hle := (findUntyped_some hs.dma).2.2
  rw [heq, BootInfo.availAfter, Function.update_self, hx, Nat.sub_self] at hle
  exact absurd hle (Nat.not_le.mpr (Nat.two_pow_pos _))

/-- The pages that are recorded then come from other untypeds. -/
theorem page_apart_of_exact (hsize : x.1.sizeBits = bi.structureBits memory) {page : UntypedPage}
    {z : UntypedDesc × Nat} {k : Nat} (hp : PageOf bi memory x y m page z k) : z.2 ≠ x.2 := by
  intro heq
  have hzx := BootInfo.eq_of_snd hp.mem hr.stolen.x_mem heq
  have hfits := hp.fits hr.stolen
  rw [hzx, BootInfo.taken, if_pos (rfl : x.2 = x.2), hsize] at hfits
  unfold pageSize4K at hfits
  omega

theorem dma_true (hsize : x.1.sizeBits = bi.structureBits memory) {i : Nat} {c : Slot}
    (hc : pool.pages[i]? = some c) : m.addrOf bi c = some (pool.pstart + i * pageSize4K) := by
  have hne := hr.apart_of_exact hsize
  rw [hr.dma_addr hc, structured_used, if_neg hne, hr.pstart_eq, if_neg hne, alignUp_zero,
    Nat.zero_add, Nat.add_zero]

theorem table_true (hv : bi.Valid) (hdvd : pageSize4K ∣ memory.1)
    (hsize : x.1.sizeBits = bi.structureBits memory) {index : Nat} {entry : UTEntry}
    (hentry : m.ut.untypeds[index]? = some entry) (hvalid : entry.valid = true) :
    m.addrOf bi entry.cap = some (m.ut.utToPaddr index) := by
  obtain ⟨page, hpage, hle, rfl, hcap⟩ := hr.entry_page hentry hvalid
  obtain ⟨z, k, hp⟩ := hr.pageOf hpage
  have hz := hr.page_apart_of_exact hsize hp
  have hsame : bi.placed memory x.2 y.2 z.2 = bi.taken memory x.2 y.2 z.2 := by
    rw [BootInfo.placed, BootInfo.taken, if_neg hz, if_neg hz]
  have hdvd' : pageSize4K ∣ page.paddr - memory.1 := Nat.dvd_sub (hp.paddr_dvd hr.stolen hv) hdvd
  have hsize4K : pageSize4K = 2 ^ pageBits4K := rfl
  rw [hcap, hp.addr, UTTable.utToPaddr, hr.firstPaddr, Nat.div_mul_cancel hdvd',
    Nat.sub_add_cancel hle, hp.paddr, hsame, Nat.add_assoc, hsize4K]

theorem addressesTrue (hv : bi.Valid) (hexact : bi.Exact) : AddressesTrue bi pool m := by
  obtain ⟨hdvd, hsize⟩ := hr.stolen.exact_iff.mp hexact
  refine ⟨hr.apart hv, fun i c hc => hr.dma_true hsize hc, ?_, fun index entry hentry hvalid =>
    hr.table_true hv hdvd hsize hentry hvalid⟩
  intro offset nPages i c hc
  have hget : pool.pages[offset + i]? = some c := by
    rw [List.getElem?_take] at hc
    split at hc
    · rwa [List.getElem?_drop] at hc
    · cases hc
  rw [hr.dma_true hsize hget, DmaPool.allocationPaddr, Nat.add_mul, Nat.add_assoc]

/-- The entry of a recorded page that is not on a page boundary of the table. -/
theorem first_dvd (hv : bi.Valid) (h : AddressesTrue bi pool m) : pageSize4K ∣ memory.1 := by
  obtain ⟨page, hpage⟩ := hr.exists_page
  obtain ⟨-, entry, hentry, hvalid⟩ := hr.page_entry hpage
  obtain ⟨page', hpage', -, -, hcap⟩ := hr.entry_page hentry hvalid
  obtain ⟨z, k, hp⟩ := hr.pageOf hpage'
  have htrue := h.table _ entry hentry hvalid
  rw [hcap, hp.addr, UTTable.utToPaddr, hr.firstPaddr] at htrue
  have heq := Option.some.inj htrue
  have hdvd : 2 ^ pageBits4K ∣ z.1.paddr +
      (bi.placed memory x.2 y.2 z.2 + k * 2 ^ pageBits4K) :=
    Nat.dvd_add (hp.base_dvd hr.stolen hv)
      (Nat.dvd_add (Stolen.page_dvd_placed ..) (Nat.dvd_mul_left _ _))
  rw [heq] at hdvd
  exact (Nat.dvd_add_right (Nat.dvd_mul_left _ _)).mp hdvd

/-- The DMA pool is not taken from the untyped of the structures. -/
theorem pool_apart (h : AddressesTrue bi pool m) : y.2 ≠ x.2 := by
  intro heq
  have hmark := bi.structuresMark_lt memory
  obtain ⟨c, hc⟩ : ∃ c, pool.pages[0]? = some c := by
    have hpos : 0 < dmaReservationNumPages := by
      unfold dmaReservationNumPages
      decide
    rw [hr.pages]
    exact ⟨_, List.getElem?_eq_getElem (by simpa using hpos)⟩
  have htrue := h.dma 0 c hc
  rw [hr.dma_addr hc, structured_used, if_pos heq, hr.pstart_eq, if_pos heq] at htrue
  have hle := le_alignUp (2 ^ bi.structureBits memory) dmaReservationSizeBits
  have hsum := Option.some.inj htrue
  omega

/-- No page is recorded of the untyped of the structures. -/
theorem nothing_left (hv : bi.Valid) (h : AddressesTrue bi pool m) :
    capsOf (bi.availLeft memory x.2 y.2) x = 0 := by
  have hs := hr.stolen
  have hne := hr.pool_apart h
  have hdvd := hr.first_dvd hv h
  by_contra hcaps
  obtain ⟨range, hrange, hrec⟩ := hr.done x hs.x_mem (Nat.pos_of_ne_zero hcaps)
  have hpos : 0 < range.nPages := by
    rw [hrec.nPages, divided_avail]
    exact Nat.pos_of_ne_zero hcaps
  have hpage : (⟨range.paddr + 0 * pageSize4K, range.cptr + 0, range.device⟩ : UntypedPage) ∈
      UTTable.pages ranges :=
    List.mem_flatMap.mpr ⟨range, hrange, List.mem_map.mpr ⟨0, List.mem_range.mpr hpos, rfl⟩⟩
  have hin := (findUntyped_some hs.structures).2.1
  have hpaddr : range.paddr + 0 * pageSize4K = x.1.paddr + 2 ^ bi.structureBits memory := by
    rw [hrec.paddr, divided_avail, hs.paddr_eq hs.x_mem hin, BootInfo.taken,
      if_pos (rfl : x.2 = x.2), if_neg (Ne.symm hne), Nat.zero_mul, Nat.add_zero, Nat.add_zero]
  obtain ⟨hle, entry, hentry, hvalid⟩ := hr.page_entry hpage
  obtain ⟨page', hpage', hle', hindex, hcap⟩ := hr.entry_page hentry hvalid
  obtain ⟨z, k, hp⟩ := hr.pageOf hpage'
  -- the two pages are at one address
  have hdvd₁ : pageSize4K ∣ x.1.paddr + 2 ^ bi.structureBits memory := by
    obtain ⟨w, j, hq⟩ := hr.pageOf hpage
    rw [← hpaddr]
    exact hq.paddr_dvd hs hv
  have hsame : page'.paddr = x.1.paddr + 2 ^ bi.structureBits memory := by
    have hdvd₂ : pageSize4K ∣ page'.paddr := hp.paddr_dvd hs hv
    have hq := Nat.div_mul_cancel (Nat.dvd_sub hdvd₁ hdvd)
    have hq' := Nat.div_mul_cancel (Nat.dvd_sub hdvd₂ hdvd)
    dsimp only at hindex hle
    rw [hpaddr] at hindex hle
    rw [hindex] at hq'
    omega
  have hzx : z = x := by
    refine BootInfo.eq_of_snd hp.mem hs.x_mem ?_
    by_contra hz
    have hdisj := hv.disjoint (BootInfo.mem_zipIdx.mp hp.mem) (BootInfo.mem_zipIdx.mp hs.x_mem) hz
    have hfits := hp.fits hs
    have hpos4K : 0 < pageSize4K := by decide
    have hz' : page'.paddr ∈ span z.1.paddr (2 ^ z.1.sizeBits) := by
      rw [hp.paddr]
      exact mem_span.mpr ⟨by omega, by omega⟩
    have hx' : page'.paddr ∈ span x.1.paddr (2 ^ x.1.sizeBits) := by
      have hcapsle := hs.taken_caps_le hs.x_mem hin
      have hmul : 1 * 2 ^ pageBits4K ≤
          capsOf (bi.availLeft memory x.2 y.2) x * 2 ^ pageBits4K :=
        Nat.mul_le_mul_right _ (Nat.pos_of_ne_zero hcaps)
      rw [BootInfo.taken, if_pos (rfl : x.2 = x.2)] at hcapsle
      rw [hsame]
      generalize 2 ^ bi.structureBits memory = stolen at hcapsle ⊢
      unfold pageBits4K at hmul hcapsle
      exact mem_span.mpr ⟨by omega, by omega⟩
    exact Set.disjoint_left.mp hdisj hz' hx'
  have htrue := h.table _ entry hentry hvalid
  have hmark := bi.structuresMark_lt memory
  have hk := hp.paddr
  rw [hcap, hp.addr, UTTable.utToPaddr, hr.firstPaddr] at htrue
  have heq := Option.some.inj htrue
  have hq := Nat.div_mul_cancel (Nat.dvd_sub hdvd₁ hdvd)
  dsimp only at heq hle
  rw [hpaddr] at heq hle
  rw [hq] at heq
  subst hzx
  rw [hsame, BootInfo.taken, if_pos (rfl : z.2 = z.2), if_neg (Ne.symm hne)] at hk
  rw [BootInfo.placed, if_pos (rfl : z.2 = z.2), if_neg (Ne.symm hne)] at heq
  generalize 2 ^ bi.structureBits memory = stolen at hk heq hmark hle
  unfold pageSize4K at hk
  unfold pageBits4K at heq hmark
  omega

theorem exact_of_addressesTrue (hv : bi.Valid) (h : AddressesTrue bi pool m) : bi.Exact := by
  have hs := hr.stolen
  have hne := hr.pool_apart h
  refine hs.exact_iff.mpr ⟨hr.first_dvd hv h, ?_⟩
  have hcaps := hr.nothing_left hv h
  have hin := (findUntyped_some hs.structures).2.1
  have hsum := hs.avail_taken hs.x_mem hin hs.x_ram
  have hbits := bi.le_structureBits memory
  rw [BootInfo.taken, if_pos (rfl : x.2 = x.2), if_neg (Ne.symm hne)] at hsum
  rw [capsOf, if_pos hin, nCaps, hs.x_ram] at hcaps
  simp only [Bool.false_eq_true, if_false, Nat.div_eq_zero_iff] at hcaps
  -- what is left would be at least as much as was stolen
  by_contra hsize
  have hle := structures_size hs.structures
  have hlt : bi.structureBits memory < x.1.sizeBits :=
    Nat.lt_of_le_of_ne ((Nat.pow_le_pow_iff_right (by decide : 1 < 2)).mp hle) (Ne.symm hsize)
  have hdouble : 2 ^ (bi.structureBits memory + 1) ≤ 2 ^ x.1.sizeBits :=
    Nat.pow_le_pow_right (by decide) hlt
  have hpage : 2 ^ pageBits4K ≤ 2 ^ bi.structureBits memory :=
    Nat.le_of_dvd (Nat.two_pow_pos _) (bi.page_dvd_stolen memory)
  rw [Nat.pow_succ] at hdouble
  unfold pageSize4K at hcaps
  unfold pageBits4K at hpage
  omega

theorem addressesTrue_iff (hv : bi.Valid) : AddressesTrue bi pool m ↔ bi.Exact :=
  ⟨hr.exact_of_addressesTrue hv, hr.addressesTrue hv⟩

end BootResult

/-! ## Any boot info -/

/-- The physical addresses of a bootstrap that returns are true exactly when the untyped of
the structures is used up by them and the memory begins on a page. -/
theorem smosBootstrap_addresses_iff (config : KernelConfig) (bi : BootInfo) (hv : bi.Valid)
    {pool : DmaPool} {m : BootMem} (h : smosBootstrap config bi .init = .ok pool m) :
    AddressesTrue bi pool m ↔ bi.Exact := by
  obtain ⟨memory, x, y, ranges, hr⟩ := bootResult_of_ok h
  exact hr.addressesTrue_iff hv

/-- Bootstrap returns where there is enough of everything. -/
theorem smosBootstrap_returns (config : KernelConfig) (hs : Stolen bi memory x y)
    (he : Enough bi memory x y) :
    ∃ pool m, smosBootstrap config bi .init = .ok pool m := by
  have hwp : (smosBootstrap config bi).wp
      (fun pool m => (∃ ranges, BootResult bi memory x y ranges pool m) ∧
        SlotsFilled bi memory x y m)
      (fun _ _ => ¬ Enough bi memory x y) (fun _ => ¬ Enough bi memory x y) .init :=
    smosBootstrap_spec hs
  unfold Prog.wp at hwp
  cases hrun : smosBootstrap config bi .init with
  | ok pool m => exact ⟨pool, m, rfl⟩
  | err e m =>
    rw [hrun] at hwp
    exact absurd he hwp
  | panic p =>
    rw [hrun] at hwp
    exact absurd he hwp

/-- 256 objects at a time. -/
def demoConfig : KernelConfig := ⟨256, by decide⟩

/-- 2 MB for the structures, 64 MB for the DMA pool, and a few pages. -/
def exactBoot : BootInfo where
  untypedList := [⟨0x44000000, 21, false⟩, ⟨0x40000000, 26, false⟩, ⟨0x44200000, 14, false⟩,
    ⟨0x44204000, 12, true⟩]
  emptyStart := 100
  emptyEnd := 4096

/-- All of the memory in one untyped. -/
def singleBoot : BootInfo where
  untypedList := [⟨0x40000000, 27, false⟩]
  emptyStart := 100
  emptyEnd := 4096

theorem exactBoot_valid : exactBoot.Valid := by
  refine ⟨by decide, ?_⟩
  simp [Apart, exactBoot, disjoint_span_iff]

theorem exactBoot_returns : ∃ pool m, smosBootstrap demoConfig exactBoot .init = .ok pool m := by
  have hs : Stolen exactBoot (0x40000000, 0x44205000) (⟨0x44000000, 21, false⟩, 0)
      (⟨0x40000000, 26, false⟩, 1) := ⟨by decide, by decide +kernel, by decide +kernel⟩
  have hstructures : EnoughStructures exactBoot (0x40000000, 0x44205000) :=
    ⟨by decide, by decide, by decide +kernel, by decide +kernel, by decide +kernel⟩
  exact smosBootstrap_returns demoConfig hs ⟨hstructures, by decide +kernel, by decide +kernel⟩

theorem exactBoot_exact : exactBoot.Exact :=
  ⟨(0x40000000, 0x44205000), ⟨0x44000000, 21, false⟩, by decide, by decide, by decide +kernel,
    by decide +kernel⟩

theorem smosBootstrap_addresses_exact : ∃ pool m,
    smosBootstrap demoConfig exactBoot .init = .ok pool m ∧ AddressesTrue exactBoot pool m := by
  obtain ⟨pool, m, hrun⟩ := exactBoot_returns
  exact ⟨pool, m, hrun,
    (smosBootstrap_addresses_iff demoConfig exactBoot exactBoot_valid hrun).mpr exactBoot_exact⟩

/-- The DMA pool of one large untyped is not where bootstrap takes it to be. -/
theorem smosBootstrap_addresses_false : ∃ pool m, singleBoot.Valid ∧
    smosBootstrap demoConfig singleBoot .init = .ok pool m ∧ ¬ AddressesTrue singleBoot pool m := by
  have hv : singleBoot.Valid := ⟨by decide, List.pairwise_singleton _ _⟩
  have hs : Stolen singleBoot (0x40000000, 0x48000000) (⟨0x40000000, 27, false⟩, 0)
      (⟨0x40000000, 27, false⟩, 0) := ⟨by decide, by decide +kernel, by decide +kernel⟩
  have hstructures : EnoughStructures singleBoot (0x40000000, 0x48000000) :=
    ⟨by decide, by decide, by decide +kernel, by decide +kernel, by decide +kernel⟩
  obtain ⟨pool, m, hrun⟩ := smosBootstrap_returns demoConfig hs
    ⟨hstructures, by decide +kernel, by decide +kernel⟩
  obtain ⟨⟨ranges, hr⟩, -⟩ := hs.result hrun
  refine ⟨pool, m, hv, hrun, fun h => ?_⟩
  exact hr.pool_apart h rfl

end Smos.RootServer
